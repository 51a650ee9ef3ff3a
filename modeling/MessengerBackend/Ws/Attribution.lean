/-
  In whose name the server acts.

  `signedIn` is kept next to the server and read by no step: the name of the latest auth frame
  that a connection has processed since it was made. In runs whose connects are of free ids
  the server goes by it:

  * a connection without one causes no call on Redis and changes no other connection;
  * a chat message, a typing indicator and a read receipt name it, and nobody else, in their
    calls (`Acts`).

  `attributed` says both, of every state that such a run reaches.
-/
import MessengerBackend.Lib.Runs
import MessengerBackend.Ws.Index
import MessengerBackend.Ws.Sockets

namespace MessengerBackend.Ws

open Redis (Call)

/-- The server, and who has signed in on each connection. -/
structure Roll where
  server : MessengerServer
  signedIn : Int → Option String := fun _ => none

namespace Roll

/-- An auth frame is processed if the connection is there and the frame does not throw. -/
def note (w : Roll) : UInt64 × Event → Int → Option String
  | (_, .connected id) => Function.update w.signedIn id none
  | (_, .disconnected id) => Function.update w.signedIn id none
  | (_, .message id raw) =>
      (((w.server.pool.getConnection id).bind (fun _ => signInName raw)).map
        (fun u => Function.update w.signedIn id (some u))).getD w.signedIn
  | _ => w.signedIn

def step (w : Roll) (e : UInt64 × Event) : Option Roll :=
  (w.server.step e).map (fun server => ⟨server, w.note e⟩)

/-- A connect is of an id that no connection has. -/
def Fresh (w : Roll) : UInt64 × Event → Prop
  | (_, .connected id) => w.server.pool.getConnection id = none
  | _ => True

def start (key : Bytes) : Roll := { server := MessengerServer.empty key }

end Roll

/-! ## The property -/

/-- The call names `u` as the one who acts, or nobody. -/
def Acts (u : String) : Call → Prop
  | .publish _ message => ∃ j : Json, message = j.dump ∧
      (j.find "from" ≠ none ∨ j.find "user_id" ≠ none) ∧
      (∀ v, j.find "from" = some v → v = .str u) ∧ ∀ v, j.find "user_id" = some v → v = .str u
  | .hset _ field _ => field = "read_by:" ++ u
  | .lpush _ _ => True
  | .expire _ _ => True
  | _ => False

namespace Roll

/-- No call, and no other connection is changed. -/
def Quiet (w : Roll) (id : Int) (s : MessengerServer) (calls : List Call) : Prop :=
  calls = [] ∧
    ∀ i, i ≠ id → s.pool.connections.lookup i = w.server.pool.connections.lookup i

/-- Nobody has signed in, and the frame does not change that: it is quiet. So is a disconnect. -/
def SilentBefore (w : Roll) : Prop :=
  ∀ id, w.signedIn id = none →
    (∀ now raw s calls, w.server.onClientMessage id now raw = .ok (s, calls) →
      w.note (now, .message id raw) id = none → w.Quiet id s calls) ∧
    ∀ now s calls, w.server.onClientDisconnected id now = some (s, calls) → w.Quiet id s calls

/-- The calls of a later frame are in the name that has signed in. -/
def InName (w : Roll) : Prop :=
  ∀ id now j s calls type, w.server.onClientMessage id now (some j) = .ok (s, calls) →
    j.valueString "type" "unknown" = .ok type → type ∈ ["message", "typing", "read"] →
    ∀ call ∈ calls, ∃ u, w.signedIn id = some u ∧ Acts u call

/-! ## The invariant -/

/-- What `is_authenticated()` and `get_user_id()` are by the roll. -/
def standing : Option String → Bool × String
  | some u => (true, u)
  | none => (false, "")

structure Kept (w : Roll) : Prop where
  standing : ∀ id c, w.server.registry.conns id = some (some c) →
    (c.authenticated, c.userId) = standing (w.signedIn id)

variable {w w' : Roll}

theorem Kept.connection (h : w.Kept) {id : Int} {c : WebSocketConnection}
    (hc : w.server.pool.getConnection id = some c) :
    (c.authenticated, c.userId) = Roll.standing (w.signedIn id) :=
  h.standing id c.core (ConnectionPool.registry_conns_of_lookup
    (ConnectionPool.getConnection_eq_some.mp hc))

theorem note_frame_of_ne {now : UInt64} {id i : Int} {raw : Option Json} (hi : i ≠ id) :
    w.note (now, .message id raw) i = w.signedIn i := by
  simp only [note]
  cases (w.server.pool.getConnection id).bind (fun _ => signInName raw) with
  | none => rfl
  | some u => exact Function.update_of_ne hi _ _

/-- A frame and the roll. -/
theorem standing_note {now : UInt64} {id : Int} {raw : Option Json} {c : WebSocketConnection}
    (hc : w.server.pool.getConnection id = some c) :
    Roll.standing (w.note (now, .message id raw) id) =
      establish (Roll.standing (w.signedIn id)) raw := by
  unfold establish
  simp only [note, hc, Option.bind_some]
  cases signInName raw with
  | none => rfl
  | some u => simp [Roll.standing]

theorem kept_frame {now : UInt64} {id : Int} {raw : Option Json} {s : MessengerServer}
    {calls : List Call} (h : w.Kept)
    (hm : w.server.onClientMessage id now raw = .ok (s, calls)) :
    Kept ⟨s, w.note (now, .message id raw)⟩ := by
  have hh := MessengerServer.handled_of_onClientMessage hm
  refine ⟨fun i k hk => ?_⟩
  obtain ⟨c', hc', rfl⟩ := ConnectionPool.registry_conns_eq_some.mp hk
  show (c'.authenticated, c'.userId) = Roll.standing (w.note (now, .message id raw) i)
  by_cases hi : i = id
  · subst hi
    cases hc : w.server.pool.getConnection i with
    | none =>
        rw [(MessengerServer.handled_absent hh hc).1] at hc'
        rw [ConnectionPool.getConnection_eq_some.mpr hc'] at hc
        cases hc
    | some c =>
        obtain ⟨c₁, new, hc₁, _, hwho⟩ := MessengerServer.connection_of_handled hh
          (ConnectionPool.getConnection_eq_some.mp hc)
        rw [hc₁] at hc'
        cases hc'
        rw [standing_note hc, hwho, h.connection hc]
  · rw [MessengerServer.lookup_of_handled hh hi] at hc'
    rw [note_frame_of_ne hi, h.connection (ConnectionPool.getConnection_eq_some.mpr hc')]

/-- An event that neither connects nor brings a frame leaves a connection or drops it. -/
theorem stays_of_move {s : MessengerServer} {e : UInt64 × Event} {g : Registry}
    (hm : MessengerServer.Move s e g) (hconnect : ∀ now id, e ≠ (now, .connected id))
    (hframe : ∀ now id raw, e ≠ (now, .message id raw)) {i : Int} {c : Core}
    (hi : g.conns i = some (some c)) : s.registry.conns i = some (some c) := by
  cases hm with
  | same _ => exact hi
  | connect _ => exact absurd rfl (hconnect _ _)
  | signIn _ _ => exact absurd rfl (hframe _ _ _)
  | drops hdrops =>
      rw [hdrops.conns] at hi
      split at hi
      · cases hi
      · exact hi
  | @null e u id _ _ _ =>
      by_cases hne : i = id
      · subst hne
        rw [Registry.nullAt_conns_self] at hi
        cases hi
      · rwa [Registry.nullAt_conns_of_ne _ _ hne] at hi

theorem Kept.of_stays (h : w.Kept) {server : MessengerServer}
    (hstays : ∀ i c, server.registry.conns i = some (some c) →
      w.server.registry.conns i = some (some c)) : Kept ⟨server, w.signedIn⟩ :=
  ⟨fun i c hc => h.standing i c (hstays i c hc)⟩

/-- The roll forgets an id that no connection has any more, or a new one. -/
theorem Kept.forget (h : w.Kept) {server : MessengerServer} {id : Int}
    (hid : ∀ c, server.registry.conns id = some (some c) → c.authenticated = false ∧ c.userId = "")
    (hstays : ∀ i c, i ≠ id → server.registry.conns i = some (some c) →
      w.server.registry.conns i = some (some c)) :
    Kept ⟨server, Function.update w.signedIn id none⟩ := by
  refine ⟨fun i c hc => ?_⟩
  show (c.authenticated, c.userId) = Roll.standing (Function.update w.signedIn id none i)
  by_cases hi : i = id
  · subst hi
    obtain ⟨hauth, huser⟩ := hid c hc
    rw [Function.update_self, hauth, huser]
    rfl
  · rw [Function.update_of_ne hi]
    exact h.standing i c (hstays i c hi hc)

theorem conns_of_absent {s : MessengerServer} {id : Int} (h : s.pool.getConnection id = none)
    (c : Core) : s.registry.conns id ≠ some (some c) := by
  intro hc
  obtain ⟨c', hc', _⟩ := ConnectionPool.registry_conns_eq_some.mp hc
  rw [ConnectionPool.getConnection_eq_some.mpr hc'] at h
  cases h

/-- A disconnect leaves no connection at its id. -/
theorem gone_of_disconnected {s s' : MessengerServer} {now : UInt64} {id : Int}
    (h : s.step (now, .disconnected id) = some s') (c : Core) :
    s'.registry.conns id ≠ some (some c) := by
  obtain ⟨⟨s₁, calls⟩, hs₁, rfl⟩ := Option.map_eq_some_iff.mp h
  have hgone : s₁.pool.connections.lookup id = none := by
    rcases MessengerServer.disconnected_cases hs₁ with ⟨_, _, rfl, _⟩ | ⟨hno, rfl, _⟩
    · exact (Assoc.lookup_erase ..).trans (if_pos rfl)
    · exact hno
  refine conns_of_absent ?_ c
  unfold ConnectionPool.getConnection
  rw [hgone]
  rfl

/-- A connect of a free id. -/
theorem kept_connected {now : UInt64} {id : Int} {server : MessengerServer} (h : w.Kept)
    (hfree : w.server.pool.getConnection id = none)
    (hmove : MessengerServer.Move w.server (now, .connected id) server.registry) :
    Kept ⟨server, Function.update w.signedIn id none⟩ := by
  generalize hg : server.registry = g at hmove
  refine h.forget (fun c hc => ?_) (fun i c hi hc => ?_)
  · rw [hg] at hc
    cases hmove with
    | same _ => exact absurd hc (conns_of_absent hfree c)
    | connect _ =>
        rw [Registry.connect_conns_self] at hc
        cases hc
        exact ⟨rfl, rfl⟩
    | drops hdrops =>
        cases hdrops
        exact absurd hc (conns_of_absent hfree c)
    | null hlooked _ _ => cases hlooked
  · rw [hg] at hc
    cases hmove with
    | same _ => exact hc
    | connect _ => rwa [Registry.connect_conns_of_ne _ _ hi] at hc
    | drops hdrops =>
        cases hdrops
        exact hc
    | null hlooked _ _ => cases hlooked

/-- A frame that throws is no auth frame. -/
theorem note_of_throws {now : UInt64} {id : Int} {raw : Option Json} {e : JsonError}
    (h : w.server.onClientMessage id now raw = .error e) :
    w.note (now, .message id raw) = w.signedIn := by
  simp only [note]
  cases hc : w.server.pool.getConnection id with
  | none => rfl
  | some c =>
      rw [Option.bind_some, MessengerServer.signInName_of_throws hc h]
      rfl

/-- The step lemma. -/
theorem kept_step {e : UInt64 × Event} (h : w.Kept) (hf : w.Fresh e) (hs : w.step e = some w') :
    w'.Kept := by
  obtain ⟨server, hserver, rfl⟩ := Option.map_eq_some_iff.mp hs
  have hmove := MessengerServer.move_of_step hserver
  obtain ⟨now, e⟩ := e
  cases e with
  | message id raw =>
      rcases MessengerServer.message_cases hserver with ⟨calls, hm⟩ | ⟨⟨err, hm⟩, rfl⟩
      · exact kept_frame h hm
      · rw [note_of_throws hm]
        exact h
  | connected id => exact kept_connected h hf hmove
  | disconnected id =>
      have hstays := fun i c => stays_of_move (i := i) (c := c) hmove
        (fun now' id' heq => by cases heq) (fun now' id' raw' heq => by cases heq)
      refine h.forget (fun c hc => ?_) (fun i c _ hc => hstays i c hc)
      exact absurd hc (gone_of_disconnected hserver c)
  | findByUser u => exact h.of_stays (fun i c hc => stays_of_move hmove (by simp) (by simp) hc)
  | sendToUser u msg => exact h.of_stays (fun i c hc => stays_of_move hmove (by simp) (by simp) hc)
  | getUserStatus u => exact h.of_stays (fun i c hc => stays_of_move hmove (by simp) (by simp) hc)
  | broadcastExcept exclude msg =>
      exact h.of_stays (fun i c hc => stays_of_move hmove (by simp) (by simp) hc)
  | cleanupInactive timeoutMs =>
      exact h.of_stays (fun i c hc => stays_of_move hmove (by simp) (by simp) hc)

/-! ## What the roll is worth -/

theorem Kept.silentBefore (h : w.Kept) : w.SilentBefore := by
  intro id hnone
  have hwho : ∀ {c : WebSocketConnection}, w.server.pool.getConnection id = some c →
      c.authenticated = false ∧ c.userId = "" := by
    intro c hc
    have := h.connection hc
    rw [hnone] at this
    exact Prod.mk.inj this
  have hunknown : ∀ {c : WebSocketConnection}, w.server.pool.getConnection id = some c →
      c.authenticated ≠ true := by
    intro c hc hauth
    rw [(hwho hc).1] at hauth
    cases hauth
  refine ⟨fun now raw s calls hm hnote => ?_, fun now s calls hd => ?_⟩
  · have hh := MessengerServer.handled_of_onClientMessage hm
    refine ⟨?_, fun i hi => MessengerServer.lookup_of_handled hh hi⟩
    cases hh with
    | unparsed => rfl
    | ignored _ => rfl
    | refused _ _ _ => rfl
    | signedIn hc hname =>
        simp only [note, hc, hname, Option.bind_some, Option.map_some, Option.getD_some,
          Function.update_self] at hnote
        cases hnote
    | routed hc hauth _ _ _ _ => exact absurd hauth (hunknown hc)
    | typing hc hauth _ => exact absurd hauth (hunknown hc)
    | read hc hauth _ => exact absurd hauth (hunknown hc)
  · rcases MessengerServer.disconnected_cases hd with ⟨c, hc, rfl, rfl⟩ | ⟨_, rfl, rfl⟩
    · refine ⟨if_pos (hwho (ConnectionPool.getConnection_eq_some.mpr hc)).2, fun i hi => ?_⟩
      exact (Assoc.lookup_erase ..).trans (if_neg hi)
    · exact ⟨rfl, fun i _ => rfl⟩

theorem Kept.inName (h : w.Kept) : w.InName := by
  intro id now j s calls type hm htype hlater call hcall
  have hh := MessengerServer.handled_of_onClientMessage hm
  have hwho : ∀ {c : WebSocketConnection}, w.server.pool.getConnection id = some c →
      c.authenticated = true → w.signedIn id = some c.userId := by
    intro c hc hauth
    have := h.connection hc
    cases hs : w.signedIn id with
    | none =>
        rw [hs, hauth] at this
        cases this
    | some u =>
        rw [hs] at this
        rw [← (Prod.mk.inj this).2]
  cases hh with
  | ignored _ => cases hcall
  | refused _ _ _ => cases hcall
  | signedIn hc hname =>
      rw [signInName_of_type htype (by rintro rfl; simp at hlater)] at hname
      cases hname
  | @routed _ c recipientId content msgId hc hauth _ _ _ _ =>
      refine ⟨c.userId, hwho hc hauth, ?_⟩
      simp only [List.mem_cons, List.not_mem_nil, or_false] at hcall
      rcases hcall with rfl | rfl | rfl
      · trivial
      · trivial
      · refine ⟨_, rfl, Or.inl (Option.some_ne_none _), fun v hv => ?_, fun v hv => ?_⟩
        · exact (Option.some.inj hv).symm
        · cases hv
  | @typing _ c chatId typing hc hauth _ =>
      refine ⟨c.userId, hwho hc hauth, ?_⟩
      rw [List.mem_singleton.mp hcall]
      refine ⟨_, rfl, Or.inr (Option.some_ne_none _), fun v hv => ?_, fun v hv => ?_⟩
      · cases hv
      · exact (Option.some.inj hv).symm
  | @read _ c messageId hc hauth _ =>
      refine ⟨c.userId, hwho hc hauth, ?_⟩
      rw [List.mem_singleton.mp hcall]
      rfl

/-- In every run whose connects are of free ids, a connection is silent before it has signed
    in, and later frames act in the name that has. -/
theorem attributed (key : Bytes) (w : Roll) (hr : Runs.Reach step Fresh (start key) w) :
    w.SilentBefore ∧ w.InName := by
  have h : w.Kept := by
    refine hr.invariant Kept ?_ (fun w e w' h hf hs => kept_step h hf hs)
    exact ⟨fun id c hc => (nomatch hc)⟩
  exact ⟨h.silentBefore, h.inName⟩

/-- Alice is signed in on connection 1, and connection 2 is new. -/
def aliceAndOther : Roll :=
  (Runs.run step (start []) (MessengerServer.aliceIn ++ [(0, .connected 2)])).getD (start [])

theorem attributed_alice : aliceAndOther.SilentBefore ∧ aliceAndOther.InName := by
  refine attributed [] _ (Runs.Reach.refl.run (MessengerServer.aliceIn ++ [(0, .connected 2)]) ?_ rfl)
  refine ⟨rfl, fun w hw => ?_⟩
  cases hw
  refine ⟨trivial, fun w hw => ?_⟩
  cases hw
  exact ⟨rfl, fun w _ => trivial⟩

end Roll

end MessengerBackend.Ws
