/-
  The `/ws` route: sockets, and the connections of the server behind them.

  The server knows a socket by the low 31 bits of the address of its connection object, and a
  connect over an id in use replaces the connection that is there. Two open sockets with the
  same low bits share one connection.

  * `Isolated`: what is sent on a socket is, in order, what was queued in answer to its own
    data, and who is signed in on its connection is who its own frames signed in.
  * `Distinct`: the condition on an open under which a run keeps it (`isolated_of_distinct`);
    without it a socket may be signed in by another one (`signed_in_by_another`).

  `message` and `flush` are the two halves of `onmessage`; events on other sockets may come
  between them. A socket carries its history since it was opened, which no step reads.
-/
import MessengerBackend.Lib.Runs
import MessengerBackend.Ws.Server

namespace MessengerBackend.Ws

/-- An open `crow::websocket::connection`. -/
structure Socket where
  userdata : Int
  /-- The data received on it. -/
  received : List (Option Json) := []
  /-- What `on_client_message` has queued in answer to that. -/
  answers : List Message := []
  /-- The texts sent on it. -/
  sent : List String := []

/-- The open sockets by their addresses. -/
structure Endpoint where
  server : MessengerServer
  sockets : Assoc UInt64 Socket := ∅

/-- `static_cast<int>(reinterpret_cast<uintptr_t>(&conn) & 0x7FFFFFFF)` -/
def connectionId (addr : UInt64) : Int := (addr &&& 0x7FFFFFFF).toNat

/-- `out.dump()` -/
def frameText (msg : Message) : String :=
  Json.dump (.obj [("type", .str msg.type), ("payload", msg.payload)])

inductive SocketEvent where
  | opened (addr : UInt64)
  | message (addr : UInt64) (raw : Option Json)
  | flush (addr : UInt64)
  | closed (addr : UInt64)

namespace MessengerServer

/-- What waits to be sent on a connection. -/
def pending (s : MessengerServer) (id : Int) : List Message :=
  ((s.pool.getConnection id).map WebSocketConnection.outgoingQueue).getD []

/-- The state after a frame, whether the handler returns or throws. -/
def received (s : MessengerServer) (id : Int) (now : UInt64) (raw : Option Json) :
    MessengerServer :=
  match s.onClientMessage id now raw with
  | .ok (s', _) => s'
  | .error _ => s

/-- The flush loop of `onmessage`. -/
def flush (s : MessengerServer) (id : Int) : MessengerServer × List Message :=
  match s.pool.getConnection id with
  | some c => ({ s with pool := s.pool.modify id (fun c => c.drain.2) }, c.drain.1)
  | none => (s, [])

end MessengerServer

namespace Endpoint

/-- An address is opened once at a time, and nothing comes from a socket that is not open. -/
def step (w : Endpoint) : UInt64 × SocketEvent → Option Endpoint
  | (now, .opened addr) =>
      match w.sockets.lookup addr with
      | some _ => none
      | none => some {
          server := w.server.onClientConnected (connectionId addr) now
          sockets := w.sockets.insert addr { userdata := connectionId addr } }
  | (now, .message addr raw) => (w.sockets.lookup addr).map (fun k => {
      server := w.server.received k.userdata now raw
      sockets := w.sockets.insert addr { k with
        received := k.received ++ [raw]
        answers := k.answers ++ ((w.server.received k.userdata now raw).pending k.userdata).drop
          (w.server.pending k.userdata).length } })
  | (_, .flush addr) => (w.sockets.lookup addr).map (fun k => {
      server := (w.server.flush k.userdata).1
      sockets := w.sockets.insert addr { k with
        sent := k.sent ++ (w.server.flush k.userdata).2.map frameText } })
  | (now, .closed addr) => do
      let k ← w.sockets.lookup addr
      let (server, _) ← w.server.onClientDisconnected k.userdata now
      some { server := server, sockets := w.sockets.erase addr }

/-- No socket is open. -/
def empty (key : Bytes) : Endpoint := { server := MessengerServer.empty key }

end Endpoint

/-! ## The property -/

/-- What a frame makes of `(is_authenticated(), get_user_id())`. -/
def establish (state : Bool × String) (raw : Option Json) : Bool × String :=
  match signInName raw with
  | some u => (true, u)
  | none => state

def established (received : List (Option Json)) : Bool × String :=
  received.foldl establish (false, "")

namespace Endpoint

def Isolated (w : Endpoint) : Prop :=
  ∀ addr k, w.sockets.lookup addr = some k → k.sent <+: k.answers.map frameText ∧
    ∀ c, w.server.pool.getConnection k.userdata = some c →
      (c.authenticated, c.userId) = established k.received

/-- An address is opened that differs from those of the open sockets in its low 31 bits. -/
def Distinct (w : Endpoint) : UInt64 × SocketEvent → Prop
  | (_, .opened addr) => ∀ b k, w.sockets.lookup b = some k → connectionId b ≠ connectionId addr
  | _ => True

end Endpoint

/-! ## One frame -/

namespace MessengerServer

variable {s s' : MessengerServer} {id : Int} {now : UInt64} {raw : Option Json}
  {calls : List Redis.Call} {c : WebSocketConnection}

/-- A frame touches no other connection than its own. -/
theorem lookup_of_handled (h : Handled s id now raw s' calls) {i : Int} (hi : i ≠ id) :
    s'.pool.connections.lookup i = s.pool.connections.lookup i := by
  cases h with
  | ignored _ => rfl
  | read _ _ _ => rfl
  | signedIn _ _ =>
      exact (ConnectionPool.lookup_modify ..).trans ((if_neg hi).trans
        ((ConnectionPool.lookup_modify ..).trans (if_neg hi)))
  | _ => exact (ConnectionPool.lookup_modify ..).trans (if_neg hi)

/-- On its own connection it adds to the queue and establishes who is signed in. -/
theorem connection_of_handled (h : Handled s id now raw s' calls)
    (hc : s.pool.connections.lookup id = some (some c)) :
    ∃ c' new, s'.pool.connections.lookup id = some (some c') ∧
      c'.outgoingQueue = c.outgoingQueue ++ new ∧
      (c'.authenticated, c'.userId) = establish (c.authenticated, c.userId) raw := by
  have changed : ∀ (pool : ConnectionPool) (d : WebSocketConnection)
      (f : WebSocketConnection → WebSocketConnection), pool.connections.lookup id = some (some d) →
      (pool.modify id f).connections.lookup id = some (some (f d)) := fun _ _ f hd =>
    ConnectionPool.lookup_modify_self f hd
  have unnamed : ∀ {j : Json} {type : String}, j.valueString "type" "unknown" = .ok type →
      type ≠ "auth" → establish (c.authenticated, c.userId) (some j) = (c.authenticated, c.userId) := by
    intro j type htype hne
    unfold establish
    rw [signInName_of_type htype hne]
  have hget := ConnectionPool.getConnection_eq_some.mpr hc
  cases h with
  | unparsed => exact ⟨_, _, changed s.pool c _ hc, rfl, rfl⟩
  | ignored hno =>
      refine ⟨c, [], hc, (List.append_nil _).symm, ?_⟩
      unfold establish
      rcases hno with hno | hno
      · rw [hget] at hno
        cases hno
      · rw [hno]
  | refused _ htype _ => exact ⟨_, _, changed s.pool c _ hc, rfl, (unnamed htype (by decide)).symm⟩
  | signedIn _ hname =>
      refine ⟨_, _, changed _ _ _ (changed s.pool c _ hc), rfl, ?_⟩
      unfold establish
      rw [hname]
      rfl
  | routed _ _ htype _ _ _ =>
      exact ⟨_, _, changed s.pool c _ hc, rfl, (unnamed htype (by decide)).symm⟩
  | typing _ _ htype =>
      exact ⟨_, [], changed s.pool c _ hc, (List.append_nil _).symm, (unnamed htype (by decide)).symm⟩
  | read _ _ htype => exact ⟨c, [], hc, (List.append_nil _).symm, (unnamed htype (by decide)).symm⟩

theorem lookup_of_handled_absent (h : Handled s id now raw s' calls)
    (hno : s.pool.connections.lookup id = none) : s'.pool.connections.lookup id = none := by
  have hgone : s.pool.getConnection id = none := by
    unfold ConnectionPool.getConnection
    rw [hno]
    rfl
  rw [(handled_absent h hgone).1]
  exact hno

end MessengerServer

namespace Endpoint

/-! ## The invariant -/

/-- A socket and what the pool has at its id. -/
def Fits (k : Socket) : Option (Option WebSocketConnection) → Prop
  | some (some c) => (c.authenticated, c.userId) = established k.received ∧
      k.answers.map frameText = k.sent ++ c.outgoingQueue.map frameText
  | some none => False
  | none => k.answers.map frameText = k.sent

structure SocketInv (w : Endpoint) : Prop where
  userdata : ∀ a k, w.sockets.lookup a = some k → k.userdata = connectionId a
  apart : ∀ a b k l, w.sockets.lookup a = some k → w.sockets.lookup b = some l →
    connectionId a = connectionId b → a = b
  owned : ∀ i, w.server.pool.connections.lookup i ≠ none →
    ∃ a k, w.sockets.lookup a = some k ∧ connectionId a = i
  fits : ∀ a k, w.sockets.lookup a = some k →
    Fits k (w.server.pool.connections.lookup (connectionId a))

variable {w : Endpoint} {a : UInt64} {k : Socket} {server : MessengerServer}

/-- The general step: one socket changes, and with it no connection but its own. -/
theorem SocketInv.put (h : SocketInv w) (hk : k.userdata = connectionId a)
    (hapart : ∀ b l, w.sockets.lookup b = some l → b ≠ a → connectionId b ≠ connectionId a)
    (hother : ∀ i, i ≠ connectionId a →
      server.pool.connections.lookup i = w.server.pool.connections.lookup i)
    (hfits : Fits k (server.pool.connections.lookup (connectionId a))) :
    SocketInv { server := server, sockets := w.sockets.insert a k } := by
  have at_iff : ∀ b l, AList.lookup b (AList.insert a k w.sockets) = some l ↔
      b = a ∧ l = k ∨ b ≠ a ∧ w.sockets.lookup b = some l := by
    intro b l
    rw [Assoc.lookup_insert]
    by_cases hb : b = a
    · simp [hb, eq_comm]
    · simp [hb]
  refine ⟨?_, ?_, ?_, ?_⟩
  · intro b l hb
    rcases (at_iff b l).mp hb with ⟨rfl, rfl⟩ | ⟨_, hb⟩
    · exact hk
    · exact h.userdata b l hb
  · intro b c l m hb hc heq
    rcases (at_iff b l).mp hb with ⟨hba, rfl⟩ | ⟨hba, hb'⟩ <;>
      rcases (at_iff c m).mp hc with ⟨hca, rfl⟩ | ⟨hca, hc'⟩
    · rw [hba, hca]
    · rw [hba] at heq
      exact absurd heq.symm (hapart c m hc' hca)
    · rw [hca] at heq
      exact absurd heq (hapart b l hb' hba)
    · exact h.apart b c l m hb' hc' heq
  · intro i hi
    by_cases hid : i = connectionId a
    · exact ⟨a, k, (at_iff a k).mpr (Or.inl ⟨rfl, rfl⟩), hid.symm⟩
    · have hold : w.server.pool.connections.lookup i ≠ none := by
        rw [← hother i hid]
        exact hi
      obtain ⟨b, l, hb, rfl⟩ := h.owned i hold
      exact ⟨b, l, (at_iff b l).mpr (Or.inr ⟨fun heq => hid (by rw [heq]), hb⟩), rfl⟩
  · intro b l hb
    rcases (at_iff b l).mp hb with ⟨rfl, rfl⟩ | ⟨hba, hb⟩
    · exact hfits
    · show Fits l (server.pool.connections.lookup (connectionId b))
      rw [hother _ (hapart b l hb hba)]
      exact h.fits b l hb

/-- Open sockets are apart. -/
theorem SocketInv.others (h : SocketInv w) (hk : w.sockets.lookup a = some k) :
    ∀ b l, w.sockets.lookup b = some l → b ≠ a → connectionId b ≠ connectionId a :=
  fun b l hb hne heq => hne (h.apart b a l k hb hk heq)

theorem SocketInv.opened (h : SocketInv w) (now : UInt64)
    (hd : ∀ b l, w.sockets.lookup b = some l → connectionId b ≠ connectionId a) :
    SocketInv { server := w.server.onClientConnected (connectionId a) now
                sockets := w.sockets.insert a { userdata := connectionId a } } := by
  have hfree : w.server.pool.connections.lookup (connectionId a) = none := by
    by_contra hno
    obtain ⟨b, l, hb, heq⟩ := h.owned _ hno
    exact hd b l hb heq
  unfold MessengerServer.onClientConnected
  split
  · refine h.put rfl (fun b l hb _ => hd b l hb) (fun _ _ => rfl) ?_
    rw [hfree]
    rfl
  · rename_i pool hpool
    unfold ConnectionPool.createConnection at hpool
    split at hpool
    · cases hpool
    · cases hpool
      refine h.put rfl (fun b l hb _ => hd b l hb) (fun i hi => ?_) ?_
      · exact (ConnectionPool.lookup_modify ..).trans ((if_neg hi).trans
          ((Assoc.lookup_insert ..).trans (if_neg hi)))
      · simp only [ConnectionPool.lookup_modify, if_true, Assoc.lookup_insert]
        exact ⟨rfl, rfl⟩

theorem established_append (received : List (Option Json)) (raw : Option Json) :
    established (received ++ [raw]) = establish (established received) raw := by
  unfold established
  rw [List.foldl_append]
  rfl

/-- What a frame does to the socket and its connection. -/
theorem fits_received {id : Int} (hfits : Fits k (w.server.pool.connections.lookup id))
    (now : UInt64) (raw : Option Json) :
    Fits { k with
        received := k.received ++ [raw]
        answers := k.answers ++ ((w.server.received id now raw).pending id).drop
          (w.server.pending id).length }
      ((w.server.received id now raw).pool.connections.lookup id) ∧
    ∀ i, i ≠ id → (w.server.received id now raw).pool.connections.lookup i =
      w.server.pool.connections.lookup i := by
  have pending_of : ∀ (s : MessengerServer) (c : WebSocketConnection),
      s.pool.connections.lookup id = some (some c) → s.pending id = c.outgoingQueue := by
    intro s c hc
    unfold MessengerServer.pending
    rw [ConnectionPool.getConnection_eq_some.mpr hc]
    rfl
  cases hl : w.server.pool.connections.lookup id with
  | none =>
      rw [hl] at hfits
      have hgone : ∀ s : MessengerServer, s.pool.connections.lookup id = none → s.pending id = [] := by
        intro s hs
        unfold MessengerServer.pending ConnectionPool.getConnection
        rw [hs]
        rfl
      cases hm : w.server.onClientMessage id now raw with
      | error e =>
          simp only [MessengerServer.received, hm, hgone w.server hl, List.drop_nil,
            List.append_nil, hl]
          exact ⟨hfits, fun _ _ => trivial⟩
      | ok x =>
          have hh := MessengerServer.handled_of_onClientMessage hm
          have hno := MessengerServer.lookup_of_handled_absent hh hl
          simp only [MessengerServer.received, hm, hgone x.1 hno, List.drop_nil,
            List.append_nil, hno]
          exact ⟨hfits, fun i hi => MessengerServer.lookup_of_handled hh hi⟩
  | some p =>
      cases p with
      | none =>
          rw [hl] at hfits
          exact hfits.elim
      | some c =>
          rw [hl] at hfits
          obtain ⟨hwho, hqueue⟩ := hfits
          have hpend := pending_of w.server c hl
          cases hm : w.server.onClientMessage id now raw with
          | error e =>
              have hname := MessengerServer.signInName_of_throws
                (ConnectionPool.getConnection_eq_some.mpr hl) hm
              simp only [MessengerServer.received, hm, hpend, List.drop_length, List.append_nil, hl]
              refine ⟨⟨?_, hqueue⟩, fun _ _ => trivial⟩
              rw [established_append, ← hwho, establish, hname]
          | ok x =>
              have hh := MessengerServer.handled_of_onClientMessage hm
              obtain ⟨c', new, hc', hnew, hwho'⟩ := MessengerServer.connection_of_handled hh hl
              simp only [MessengerServer.received, hm, hpend, pending_of x.1 c' hc', hnew,
                List.drop_left, hc']
              refine ⟨⟨?_, ?_⟩, fun i hi => MessengerServer.lookup_of_handled hh hi⟩
              · rw [established_append, ← hwho, hwho']
              · rw [List.map_append, hqueue, hnew, List.map_append, List.append_assoc]

/-- What the flush loop does to them. -/
theorem fits_flush {id : Int} (hfits : Fits k (w.server.pool.connections.lookup id)) :
    Fits { k with sent := k.sent ++ (w.server.flush id).2.map frameText }
      ((w.server.flush id).1.pool.connections.lookup id) ∧
    ∀ i, i ≠ id → (w.server.flush id).1.pool.connections.lookup i =
      w.server.pool.connections.lookup i := by
  unfold MessengerServer.flush
  split
  · rename_i c hc
    have hl := ConnectionPool.getConnection_eq_some.mp hc
    rw [hl] at hfits
    obtain ⟨hwho, hqueue⟩ := hfits
    simp only [ConnectionPool.lookup_modify, if_true, hl, WebSocketConnection.drain_eq]
    refine ⟨⟨hwho, ?_⟩, fun i hi => if_neg hi⟩
    rw [hqueue]
    simp
  · exact ⟨by simpa using hfits, fun _ _ => rfl⟩

theorem SocketInv.closed (h : SocketInv w) (hk : w.sockets.lookup a = some k)
    (hgone : server.pool.connections.lookup (connectionId a) = none)
    (hother : ∀ i, i ≠ connectionId a →
      server.pool.connections.lookup i = w.server.pool.connections.lookup i) :
    SocketInv { server := server, sockets := w.sockets.erase a } := by
  have left : ∀ b l, AList.lookup b (AList.erase a w.sockets) = some l →
      b ≠ a ∧ w.sockets.lookup b = some l := by
    intro b l hb
    rw [Assoc.lookup_erase] at hb
    split at hb
    · cases hb
    · exact ⟨‹_›, hb⟩
  refine ⟨?_, ?_, ?_, ?_⟩
  · exact fun b l hb => h.userdata b l (left b l hb).2
  · exact fun b c l m hb hc => h.apart b c l m (left b l hb).2 (left c m hc).2
  · intro i hi
    have hid : i ≠ connectionId a := by
      rintro rfl
      exact hi hgone
    obtain ⟨b, l, hb, rfl⟩ := h.owned i (by rw [← hother i hid]; exact hi)
    refine ⟨b, l, ?_, rfl⟩
    show AList.lookup b (AList.erase a w.sockets) = some l
    rw [Assoc.lookup_erase, if_neg (fun heq => hid (by rw [heq])), hb]
  · intro b l hb
    obtain ⟨hba, hb⟩ := left b l hb
    show Fits l (server.pool.connections.lookup (connectionId b))
    rw [hother _ (h.others hk b l hb hba)]
    exact h.fits b l hb

/-! ## Runs -/

/-- The step lemma. -/
theorem socketInv_step {w' : Endpoint} {e : UInt64 × SocketEvent} (h : SocketInv w)
    (hd : w.Distinct e) (hs : w.step e = some w') : SocketInv w' := by
  obtain ⟨now, e⟩ := e
  cases e with
  | opened a =>
      cases hl : w.sockets.lookup a with
      | some k =>
          simp only [step, hl] at hs
          cases hs
      | none =>
          simp only [step, hl] at hs
          cases hs
          exact h.opened now hd
  | message a raw =>
      obtain ⟨k, hk, rfl⟩ := Option.map_eq_some_iff.mp hs
      have hfits := h.fits a k hk
      rw [← h.userdata a k hk] at hfits
      obtain ⟨hnew, hother⟩ := fits_received hfits now raw
      rw [h.userdata a k hk] at hnew hother ⊢
      exact h.put rfl (h.others hk) hother hnew
  | flush a =>
      obtain ⟨k, hk, rfl⟩ := Option.map_eq_some_iff.mp hs
      have hfits := h.fits a k hk
      rw [← h.userdata a k hk] at hfits
      obtain ⟨hnew, hother⟩ := fits_flush hfits
      rw [h.userdata a k hk] at hnew hother ⊢
      exact h.put rfl (h.others hk) hother hnew
  | closed a =>
      obtain ⟨k, hk, hs⟩ := Option.bind_eq_some_iff.mp hs
      obtain ⟨⟨server, calls⟩, hserver, hs⟩ := Option.bind_eq_some_iff.mp hs
      cases hs
      rw [h.userdata a k hk] at hserver
      rcases MessengerServer.disconnected_cases hserver with ⟨c, _, rfl, _⟩ | ⟨hno, rfl, _⟩
      · refine h.closed hk ?_ (fun i hi => ?_)
        · exact (Assoc.lookup_erase ..).trans (if_pos rfl)
        · exact (Assoc.lookup_erase ..).trans (if_neg hi)
      · exact h.closed hk hno (fun _ _ => rfl)

theorem SocketInv.isolated (h : SocketInv w) : w.Isolated := by
  intro a k hk
  have hfits := h.fits a k hk
  rw [h.userdata a k hk]
  cases hl : w.server.pool.connections.lookup (connectionId a) with
  | none =>
      rw [hl] at hfits
      have hsent : k.answers.map frameText = k.sent := hfits
      refine ⟨hsent ▸ List.prefix_refl _, fun c hc => ?_⟩
      rw [ConnectionPool.getConnection_eq_some, hl] at hc
      cases hc
  | some p =>
      cases p with
      | none =>
          rw [hl] at hfits
          exact hfits.elim
      | some c =>
          rw [hl] at hfits
          obtain ⟨hwho, hqueue⟩ := hfits
          refine ⟨hqueue ▸ List.prefix_append _ _, fun d hd => ?_⟩
          rw [ConnectionPool.getConnection_eq_some, hl] at hd
          cases hd
          exact hwho

/-- In every run whose opens are of distinct addresses in the low 31 bits, sockets are
    isolated. -/
theorem isolated_of_distinct (key : Bytes) (w : Endpoint)
    (hr : Runs.Reach step Distinct (Endpoint.empty key) w) : w.Isolated := by
  refine (hr.invariant SocketInv ?_ (fun w e w' h hd hs => socketInv_step h hd hs)).isolated
  exact ⟨fun a k hk => (nomatch hk), fun a b k l hk => (nomatch hk), fun i hi => absurd rfl hi,
    fun a k hk => (nomatch hk)⟩

/-! ## Two runs -/

/-- Where the events lead from a server without sockets. -/
def after (es : List (UInt64 × SocketEvent)) : Endpoint :=
  (Runs.run step (Endpoint.empty []) es).getD (Endpoint.empty [])

/-- A socket at address 4096, and one at `addr` on which Alice signs in. -/
def aliceAt (addr : UInt64) : List (UInt64 × SocketEvent) :=
  [(0, .opened 4096), (0, .opened addr),
    (0, .message addr (some (.obj [("type", .str "auth"), ("username", .str "alice")])))]

theorem isolated_of_distinct_alice : (after (aliceAt 8192)).Isolated := by
  refine isolated_of_distinct [] _ (Runs.Reach.refl.run (aliceAt 8192) ?_ rfl)
  refine ⟨fun b k hk => (nomatch hk), fun w hw => ?_⟩
  cases hw
  refine ⟨fun b k hk => ?_, fun w hw => ?_⟩
  · have hb : b ∈ [4096] := Assoc.mem_keys_iff.mpr ⟨k, hk⟩
    rw [List.mem_singleton.mp hb]
    decide
  · cases hw
    exact ⟨trivial, fun w _ => trivial⟩

/-- The other socket is signed in as Alice: the addresses are 2^31 apart. -/
theorem signed_in_by_another : ∃ w,
    Runs.run step (Endpoint.empty []) (aliceAt 2147487744) = some w ∧ ¬ w.Isolated := by
  refine ⟨after (aliceAt 2147487744), rfl, fun hiso => ?_⟩
  have hwho := (hiso 4096 _ rfl).2 _ rfl
  cases hwho

end Endpoint

end MessengerBackend.Ws
