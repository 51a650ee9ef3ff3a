/-
  `cleanup_inactive`, next to `remove_connection` and next to the clock.

  The first loop collects ids and the second one removes them. `cleanup_spec` says once what
  is left.

  * `cleanup_eq_removeAll`: it is `remove_connection` on every expired connection, in any order.
  * `honoured_iff_recent`: when it keeps to `timeout_ms`. It compares milliseconds with nanoseconds,
    and only opening and signing in count as activity (`removed_at_once`).
-/
import MessengerBackend.Ws.Index
import MessengerBackend.Ws.Sockets

namespace MessengerBackend.Ws

namespace ConnectionPool

/-- The connection is there, and `inactive_time > timeout_ms`. -/
def expired (timeoutMs now : UInt64) (pool : ConnectionPool) (id : Int) : Bool :=
  (pool.getConnection id).any (inactive timeoutMs now)

/-- `remove_connection` on each of these ids. -/
def removeAll : List Int → ConnectionPool → Option ConnectionPool
  | [], pool => some pool
  | id :: ids, pool => (pool.removeConnection id).bind (fun x => removeAll ids x.1)

/-! ## The two loops -/

section Loops

variable {pool pool' : ConnectionPool} {id : Int} {ids : List Int} {timeoutMs now : UInt64}

/-- The pool points to a connection at `id`. -/
def Holds (pool : ConnectionPool) (id : Int) : Prop :=
  ∃ c, pool.connections.lookup id = some (some c)

theorem NoNull.holds (h : pool.NoNull) : ∀ id ∈ pool.connections.keys, pool.Holds id :=
  fun _ hid => h.of_mem_keys hid

theorem lookup_drop (pool : ConnectionPool) (id : Int) (u : String) (i : Int) :
    (pool.drop id u).connections.lookup i = if i = id then none else pool.connections.lookup i :=
  Assoc.lookup_erase ..

theorem Holds.drop (h : pool.Holds id) {i : Int} (hne : id ≠ i) (u : String) :
    (pool.drop i u).Holds id := by
  obtain ⟨c, hc⟩ := h
  exact ⟨c, by rw [lookup_drop, if_neg hne, hc]⟩

theorem expired_iff : pool.expired timeoutMs now id = true ↔
    ∃ c, pool.connections.lookup id = some (some c) ∧ inactive timeoutMs now c = true := by
  unfold expired
  rw [Option.any_eq_true]
  simp only [getConnection_eq_some]

theorem toRemove_eq (h : ∀ id ∈ ids, pool.Holds id) :
    toRemove timeoutMs now pool ids = some (ids.filter (pool.expired timeoutMs now)) := by
  induction ids with
  | nil => rfl
  | cons id ids ih =>
      obtain ⟨c, hc⟩ := h id List.mem_cons_self
      have hexp : pool.expired timeoutMs now id = inactive timeoutMs now c := by
        unfold expired
        rw [getConnection_eq_some.mpr hc, Option.any_some]
      unfold toRemove
      rw [hc]
      simp only [ih (fun i hi => h i (List.mem_cons_of_mem id hi)), Option.map_some,
        List.filter_cons, hexp]

theorem lookup_removeEach (h : removeEach ids pool = some pool') (i : Int) :
    pool'.connections.lookup i = if i ∈ ids then none else pool.connections.lookup i := by
  induction ids generalizing pool with
  | nil =>
      cases h
      simp
  | cons id ids ih =>
      unfold removeEach at h
      split at h
      · rw [ih h, lookup_drop]
        by_cases hi : i = id
        · simp [hi]
        · simp [hi]
      · cases h

/-- Removing is all that happens to distinct connections that are there. -/
theorem removeAll_eq (hnodup : ids.Nodup) (h : ∀ id ∈ ids, pool.Holds id) :
    removeAll ids pool = removeEach ids pool := by
  induction ids generalizing pool with
  | nil => rfl
  | cons id ids ih =>
      obtain ⟨hid, hrest⟩ := List.nodup_cons.mp hnodup
      obtain ⟨c, hc⟩ := h id List.mem_cons_self
      have hleft : ∀ i ∈ ids, (pool.drop id c.userId).Holds i := by
        intro i hi
        have hne : i ≠ id := fun heq => hid (heq ▸ hi)
        exact (h i (List.mem_cons_of_mem id hi)).drop hne _
      simp only [removeAll, removeEach, removeConnection, hc, Option.bind_some]
      exact ih hrest hleft

/-! ## The order -/

theorem drop_comm (pool : ConnectionPool) (a b : Int) (u v : String) :
    (pool.drop a u).drop b v = (pool.drop b v).drop a u := by
  unfold drop
  congr 1
  · exact AList.erase_erase a b pool.connections
  · by_cases hu : u = ""
    · simp [hu]
    · by_cases hv : v = ""
      · simp [hu, hv]
      · simp only [hu, hv, if_false]
        exact AList.erase_erase u v pool.userToConnection

/-- Two removals in either order. -/
theorem removeEach_swap {a b : Int} (hne : a ≠ b) (rest : List Int) (pool : ConnectionPool) :
    removeEach (a :: b :: rest) pool = removeEach (b :: a :: rest) pool := by
  have hlookup : ∀ {i j : Int}, i ≠ j → ∀ u : String,
      (pool.drop j u).connections.lookup i = pool.connections.lookup i := by
    intro i j hij u
    rw [lookup_drop, if_neg hij]
  -- whether a connection is there does not depend on the other one
  have hgone : ∀ {i j : Int}, i ≠ j → (∀ c, pool.connections.lookup i ≠ some (some c)) →
      removeEach (j :: i :: rest) pool = none := by
    intro i j hij hno
    unfold removeEach
    split
    · rename_i c hc
      unfold removeEach
      rw [hlookup hij]
      split
      · exact absurd ‹_› (hno _)
      · rfl
    · rfl
  have hhead : ∀ {i : Int} (ids : List Int), (∀ c, pool.connections.lookup i ≠ some (some c)) →
      removeEach (i :: ids) pool = none := by
    intro i ids hno
    unfold removeEach
    split
    · exact absurd ‹_› (hno _)
    · rfl
  by_cases ha : ∃ c, pool.connections.lookup a = some (some c)
  · by_cases hb : ∃ c, pool.connections.lookup b = some (some c)
    · obtain ⟨c, hc⟩ := ha
      obtain ⟨d, hd⟩ := hb
      simp only [removeEach, hc, hd, hlookup hne, hlookup (Ne.symm hne)]
      rw [drop_comm]
    · have hno : ∀ c, pool.connections.lookup b ≠ some (some c) := fun c hc => hb ⟨c, hc⟩
      rw [hgone (Ne.symm hne) hno, hhead _ hno]
  · have hno : ∀ c, pool.connections.lookup a ≠ some (some c) := fun c hc => ha ⟨c, hc⟩
    rw [hgone hne hno, hhead _ hno]

theorem removeEach_perm {ids ids' : List Int} (h : ids.Perm ids') (hnodup : ids.Nodup) :
    ∀ pool, removeEach ids pool = removeEach ids' pool := by
  induction h with
  | nil => exact fun _ => rfl
  | cons id _ ih =>
      intro pool
      simp only [removeEach, ih (List.nodup_cons.mp hnodup).2]
  | swap b a rest =>
      have hne : a ≠ b := fun heq => (List.nodup_cons.mp hnodup).1 (by simp [heq])
      exact fun pool => removeEach_swap hne rest pool
  | trans h _ ih ih' =>
      exact fun pool => (ih hnodup pool).trans (ih' (h.nodup_iff.mp hnodup) pool)

/-! ## What is left -/

/-- The ids that the first loop collects. -/
def expiredIds (timeoutMs now : UInt64) (pool : ConnectionPool) : List Int :=
  pool.connections.keys.filter (pool.expired timeoutMs now)

theorem mem_expiredIds :
    id ∈ pool.expiredIds timeoutMs now ↔ pool.expired timeoutMs now id = true := by
  unfold expiredIds
  rw [List.mem_filter]
  refine ⟨fun h => h.2, fun h => ⟨?_, h⟩⟩
  obtain ⟨c, hc, _⟩ := expired_iff.mp h
  exact Assoc.mem_keys_iff.mpr ⟨some c, hc⟩

theorem cleanupInactive_eq (h : pool.NoNull) :
    pool.cleanupInactive timeoutMs now = removeEach (pool.expiredIds timeoutMs now) pool := by
  unfold cleanupInactive
  rw [toRemove_eq h.holds, Option.bind_some]
  rfl

/-- What is left after `cleanup_inactive`. -/
theorem cleanup_spec (h : pool.NoNull) (timeoutMs now : UInt64) :
    ∃ pool', pool.cleanupInactive timeoutMs now = some pool' ∧ ∀ id,
      pool'.connections.lookup id =
        if pool.expired timeoutMs now id = true then none else pool.connections.lookup id := by
  have hids : ∀ id ∈ pool.expiredIds timeoutMs now, pool.Holds id :=
    fun id hid => h.holds id (List.mem_filter.mp hid).1
  obtain ⟨pool', hgone⟩ := removeEach_ok (pool.connections.keys_nodup.filter _) hids
  refine ⟨pool', (cleanupInactive_eq h).trans hgone, fun id => ?_⟩
  rw [lookup_removeEach hgone]
  exact if_congr mem_expiredIds rfl rfl

/-- Without null pointers, `cleanup_inactive` is `remove_connection` on each expired
    connection, in whatever order, and leaves the others as they are. -/
theorem cleanup_eq_removeAll (pool : ConnectionPool) (h : pool.NoNull) (timeoutMs now : UInt64)
    (ids : List Int) (hnodup : ids.Nodup)
    (hids : ∀ id, id ∈ ids ↔ pool.expired timeoutMs now id = true) :
    ∃ pool', pool.cleanupInactive timeoutMs now = some pool' ∧ removeAll ids pool = some pool' ∧
      ∀ id, id ∉ ids → pool'.connections.lookup id = pool.connections.lookup id := by
  obtain ⟨pool', hclean, hleft⟩ := cleanup_spec h timeoutMs now
  have hholds : ∀ id ∈ ids, pool.Holds id := by
    intro id hid
    obtain ⟨c, hc, _⟩ := expired_iff.mp ((hids id).mp hid)
    exact ⟨c, hc⟩
  have hperm : ids.Perm (pool.expiredIds timeoutMs now) := by
    refine (List.perm_ext_iff_of_nodup hnodup (pool.connections.keys_nodup.filter _)).mpr ?_
    exact fun id => (hids id).trans mem_expiredIds.symm
  refine ⟨pool', hclean, ?_, fun id hid => ?_⟩
  · rw [removeAll_eq hnodup hholds, removeEach_perm hperm hnodup pool, ← cleanupInactive_eq h, hclean]
  · rw [hleft id, if_neg (fun hexp => hid ((hids id).mpr hexp))]

/-- Two old connections of one user, and a new one. -/
def siblings : ConnectionPool where
  connections := AList.insert 3 (some (WebSocketConnection.create 3 9))
    (AList.insert 2 (some ((WebSocketConnection.create 2 0).setUserId "alice"))
      (AList.insert 1 (some ((WebSocketConnection.create 1 0).setUserId "alice")) ∅))
  userToConnection := AList.insert "alice" 2 ∅

theorem cleanup_eq_removeAll_siblings :
    ∃ pool', siblings.cleanupInactive 5 10 = some pool' ∧
      removeAll [1, 2] siblings = some pool' ∧
      ∀ id, id ∉ [1, 2] → pool'.connections.lookup id = siblings.connections.lookup id := by
  refine cleanup_eq_removeAll siblings (fun id hnull => ?_) 5 10 [1, 2] (by decide) (fun id => ?_)
  · have hkeys : id ∈ [3, 2, 1] := Assoc.mem_keys_iff.mpr ⟨none, hnull⟩
    have hno : ∀ i ∈ [3, 2, 1], (siblings.connections.lookup i).join.isSome = true := by decide
    have hsome := hno id hkeys
    rw [hnull] at hsome
    cases hsome
  · have hids : siblings.expiredIds 5 10 = [2, 1] := by decide
    rw [← mem_expiredIds, hids]
    simp [or_comm]

end Loops

end ConnectionPool

/-! ## Activity -/

/-- A frame counts as activity if it is an auth frame. -/
theorem MessengerServer.lastActivity_of_handled {s s' : MessengerServer} {id : Int} {now : UInt64}
    {raw : Option Json} {calls : List Redis.Call} {c : WebSocketConnection}
    (h : Handled s id now raw s' calls) (hc : s.pool.connections.lookup id = some (some c)) :
    ∃ c', s'.pool.connections.lookup id = some (some c') ∧
      c'.lastActivity = if (signInName raw).isSome then now else c.lastActivity := by
  have unnamed : ∀ {j : Json} {type : String}, j.valueString "type" "unknown" = .ok type →
      type ≠ "auth" → c.lastActivity =
        if (signInName (some j)).isSome then now else c.lastActivity := by
    intro j type htype hne
    rw [signInName_of_type htype hne]
    rfl
  have hget := ConnectionPool.getConnection_eq_some.mpr hc
  cases h with
  | unparsed => exact ⟨_, ConnectionPool.lookup_modify_self _ hc, rfl⟩
  | ignored hno =>
      refine ⟨c, hc, ?_⟩
      rcases hno with hno | hno
      · cases hget.symm.trans hno
      · rw [hno]
        rfl
  | refused _ htype _ =>
      exact ⟨_, ConnectionPool.lookup_modify_self _ hc, unnamed htype (by decide)⟩
  | signedIn _ hname =>
      refine ⟨_, ConnectionPool.lookup_modify_self _ (ConnectionPool.lookup_modify_self _ hc), ?_⟩
      rw [hname]
      rfl
  | routed _ _ htype _ _ _ =>
      exact ⟨_, ConnectionPool.lookup_modify_self _ hc, unnamed htype (by decide)⟩
  | typing _ _ htype => exact ⟨_, ConnectionPool.lookup_modify_self _ hc, unnamed htype (by decide)⟩
  | read _ _ htype => exact ⟨c, hc, unnamed htype (by decide)⟩

/-- The server, the clock, and what nobody reads: when a connection was last heard of. -/
structure Watch where
  server : MessengerServer
  now : UInt64 := 0
  /-- When it was opened or sent its last frame. -/
  heard : Int → UInt64 := fun _ => 0
  /-- When it was opened or sent its last auth frame. -/
  signed : Int → UInt64 := fun _ => 0

namespace Watch

/-- The connection that the event is heard from. -/
def hears (w : Watch) : UInt64 × Event → Option Int
  | (now, .connected id) => if (w.server.pool.createConnection id now).isSome then some id else none
  | (_, .message id _) => some id
  | _ => none

/-- The connection that is opened or signs in. -/
def signs (w : Watch) : UInt64 × Event → Option Int
  | (now, .message id raw) => if (signInName raw).isSome then w.hears (now, .message id raw) else none
  | e => w.hears e

def mark (times : Int → UInt64) (now : UInt64) : Option Int → Int → UInt64
  | none => times
  | some id => Function.update times id now

/-- The clock does not go back. -/
def step (w : Watch) (e : UInt64 × Event) : Option Watch :=
  if w.now ≤ e.1 then
    (w.server.step e).map (fun server => {
      server := server
      now := e.1
      heard := mark w.heard e.1 (w.hears e)
      signed := mark w.signed e.1 (w.signs e) })
  else none

/-- The event is one of a client, or a cleanup. -/
def FromClient (_ : Watch) : UInt64 × Event → Prop
  | (_, .connected _) => True
  | (_, .disconnected _) => True
  | (_, .message _ _) => True
  | (_, .cleanupInactive _) => True
  | _ => False

def start (key : Bytes) : Watch := { server := .empty key }

/-- `cleanup_inactive(timeoutMs)` at time `now` removes the connections that have not been heard
    of for more than `timeoutMs` milliseconds, and no others. -/
def Honoured (w : Watch) (timeoutMs now : UInt64) : Prop :=
  ∃ pool', w.server.pool.cleanupInactive timeoutMs now = some pool' ∧
    ∀ id c, w.server.pool.getConnection id = some c →
      (now.toNat ≤ (w.heard id).toNat + timeoutMs.toNat * 1000000 →
        pool'.getConnection id = some c) ∧
      ((w.heard id).toNat + timeoutMs.toNat * 1000000 < now.toNat → pool'.getConnection id = none)

/-- Who has been heard of within `timeoutMs` milliseconds was opened or signed in within
    `timeoutMs` nanoseconds. -/
def Recent (w : Watch) (timeoutMs now : UInt64) : Prop :=
  ∀ id c, w.server.pool.getConnection id = some c →
    now.toNat ≤ (w.heard id).toNat + timeoutMs.toNat * 1000000 →
    now.toNat ≤ (w.signed id).toNat + timeoutMs.toNat

/-! ## The invariant -/

structure Inv (w : Watch) : Prop where
  noNull : w.server.pool.NoNull
  activity : ∀ id c, w.server.pool.connections.lookup id = some (some c) →
    c.lastActivity = w.signed id ∧ w.signed id ≤ w.heard id ∧ w.heard id ≤ w.now

variable {w w' : Watch} {e : UInt64 × Event}

theorem inv_start (key : Bytes) : Inv (start key) := by
  refine ⟨fun id hid => ?_, fun id c hc => ?_⟩
  · cases hid
  · cases hc

/-- A connection that is what it was, and has not been heard of, is as active as it was. -/
theorem Inv.quiet (h : Inv w) {id : Int} {c : WebSocketConnection}
    (hc : w.server.pool.connections.lookup id = some (some c)) {now : UInt64} (hnow : w.now ≤ now)
    {o o' : Option Int} (ho : o ≠ some id) (ho' : o' ≠ some id) :
    c.lastActivity = mark w.signed now o id ∧ mark w.signed now o id ≤ mark w.heard now o' id ∧
      mark w.heard now o' id ≤ now := by
  have hmark : ∀ (times : Int → UInt64) {o : Option Int}, o ≠ some id →
      mark times now o id = times id := by
    intro times o ho
    unfold mark
    split
    · rfl
    · rename_i i
      exact Function.update_of_ne (fun heq => ho (by rw [heq])) _ _
  obtain ⟨hlast, hle, hheard⟩ := h.activity id c hc
  rw [hmark _ ho, hmark _ ho']
  exact ⟨hlast, hle, UInt64.le_trans hheard hnow⟩

theorem mark_self (times : Int → UInt64) (now : UInt64) (id : Int) :
    mark times now (some id) id = now := Function.update_self ..

/-- Opening. -/
theorem activity_connected (h : Inv w) {now : UInt64} (hnow : w.now ≤ now) (i id : Int)
    {c : WebSocketConnection}
    (hc : (w.server.onClientConnected i now).pool.connections.lookup id = some (some c)) :
    c.lastActivity = mark w.signed now (w.signs (now, .connected i)) id ∧
      mark w.signed now (w.signs (now, .connected i)) id ≤
        mark w.heard now (w.hears (now, .connected i)) id ∧
      mark w.heard now (w.hears (now, .connected i)) id ≤ now := by
  unfold MessengerServer.onClientConnected at hc
  split at hc
  · rename_i hfull
    have hnone : w.hears (now, .connected i) = none := by simp [hears, hfull]
    have hsign : w.signs (now, .connected i) = none := hnone
    rw [hnone, hsign]
    exact h.quiet hc hnow (fun heq => nomatch heq) (fun heq => nomatch heq)
  · rename_i pool hpool
    have hsome : w.hears (now, .connected i) = some i := by simp [hears, hpool]
    have hsign : w.signs (now, .connected i) = some i := hsome
    have hlookup : ∀ j, pool.connections.lookup j =
        if j = i then some (some (WebSocketConnection.create i now))
        else w.server.pool.connections.lookup j := by
      intro j
      unfold ConnectionPool.createConnection at hpool
      split at hpool
      · cases hpool
      · cases hpool
        exact Assoc.lookup_insert ..
    rw [hsome, hsign]
    by_cases hid : id = i
    · subst hid
      have hnew := ConnectionPool.lookup_modify_self (WebSocketConnection.markConnected now)
        ((hlookup id).trans (if_pos rfl))
      cases hnew.symm.trans hc
      rw [mark_self, mark_self]
      exact ⟨rfl, UInt64.le_refl _, UInt64.le_refl _⟩
    · have hold : w.server.pool.connections.lookup id = some (some c) := by
        rw [← hc, ConnectionPool.lookup_modify, if_neg hid, hlookup, if_neg hid]
      have hne : some i ≠ some id := fun heq => hid (Option.some.inj heq).symm
      exact h.quiet hold hnow hne hne

/-- A frame. -/
theorem activity_message (h : Inv w) {now : UInt64} (hnow : w.now ≤ now) (i id : Int)
    {raw : Option Json} {s' : MessengerServer} (hs : w.server.step (now, .message i raw) = some s')
    {c : WebSocketConnection} (hc : s'.pool.connections.lookup id = some (some c)) :
    c.lastActivity = mark w.signed now (w.signs (now, .message i raw)) id ∧
      mark w.signed now (w.signs (now, .message i raw)) id ≤
        mark w.heard now (w.hears (now, .message i raw)) id ∧
      mark w.heard now (w.hears (now, .message i raw)) id ≤ now := by
  have hhears : w.hears (now, .message i raw) = some i := rfl
  have hsigns : w.signs (now, .message i raw) = if (signInName raw).isSome then some i else none := rfl
  rw [hhears, hsigns]
  by_cases hid : id = i
  · subst hid
    rw [mark_self]
    have hown : ∃ d, w.server.pool.connections.lookup id = some (some d) ∧
        c.lastActivity = if (signInName raw).isSome then now else d.lastActivity := by
      rcases MessengerServer.message_cases hs with ⟨calls, hm⟩ | ⟨⟨err, hm⟩, rfl⟩
      · have hh := MessengerServer.handled_of_onClientMessage hm
        cases hd : w.server.pool.connections.lookup id with
        | none => cases (MessengerServer.lookup_of_handled_absent hh hd).symm.trans hc
        | some p =>
            cases p with
            | none => exact absurd hd (h.noNull id)
            | some d =>
                obtain ⟨c', hc', hlast⟩ := MessengerServer.lastActivity_of_handled hh hd
                cases hc'.symm.trans hc
                exact ⟨d, rfl, hlast⟩
      · have hget := ConnectionPool.getConnection_eq_some.mpr hc
        rw [MessengerServer.signInName_of_throws hget hm]
        exact ⟨c, hc, rfl⟩
    obtain ⟨d, hd, hlast⟩ := hown
    rw [hlast]
    cases signInName raw with
    | none =>
        obtain ⟨hold, hle, hheard⟩ := h.activity id d hd
        exact ⟨hold, UInt64.le_trans (UInt64.le_trans hle hheard) hnow, UInt64.le_refl _⟩
    | some u =>
        simp only [Option.isSome_some, if_true, mark_self]
        exact ⟨trivial, UInt64.le_refl _, UInt64.le_refl _⟩
  · have hold : w.server.pool.connections.lookup id = some (some c) := by
      rcases MessengerServer.message_cases hs with ⟨calls, hm⟩ | ⟨_, rfl⟩
      · have hh := MessengerServer.handled_of_onClientMessage hm
        rw [← MessengerServer.lookup_of_handled hh hid, hc]
      · exact hc
    have hne : some i ≠ some id := fun heq => hid (Option.some.inj heq).symm
    refine h.quiet hold hnow ?_ hne
    split
    · exact hne
    · exact fun heq => nomatch heq

/-- The step lemma. -/
theorem inv_step (h : Inv w) (he : w.FromClient e) (hs : w.step e = some w') : Inv w' := by
  unfold step at hs
  split at hs
  · rename_i hnow
    obtain ⟨server, hserver, rfl⟩ := Option.map_eq_some_iff.mp hs
    have hknown : w.server.Known e := by
      intro u hu
      obtain ⟨now, e⟩ := e
      cases e with
      | findByUser u | sendToUser u msg | getUserStatus u => exact he.elim
      | _ => cases hu
    refine ⟨MessengerServer.noNull_step h.noNull hknown hserver, fun id c hc => ?_⟩
    have left : (∀ j d, server.pool.connections.lookup j = some (some d) →
        w.server.pool.connections.lookup j = some (some d)) → w.hears e = none →
        w.signs e = none → c.lastActivity = mark w.signed e.1 (w.signs e) id ∧
          mark w.signed e.1 (w.signs e) id ≤ mark w.heard e.1 (w.hears e) id ∧
          mark w.heard e.1 (w.hears e) id ≤ e.1 := by
      intro hsub hhears hsigns
      rw [hhears, hsigns]
      exact h.quiet (hsub id c hc) hnow (fun heq => nomatch heq) (fun heq => nomatch heq)
    obtain ⟨now, e⟩ := e
    cases e with
    | connected i =>
        cases hserver
        exact activity_connected h hnow i id hc
    | message i raw => exact activity_message h hnow i id hserver hc
    | disconnected i =>
        refine left (fun j d hd => ?_) rfl rfl
        obtain ⟨⟨s₁, calls⟩, hs₁, rfl⟩ := Option.map_eq_some_iff.mp hserver
        rcases MessengerServer.disconnected_cases hs₁ with ⟨c', _, rfl, _⟩ | ⟨_, rfl, _⟩
        · have hdrop := (ConnectionPool.lookup_drop w.server.pool i c'.userId j).symm.trans hd
          split at hdrop
          · cases hdrop
          · exact hdrop
        · exact hd
    | cleanupInactive timeoutMs =>
        refine left (fun j d hd => ?_) rfl rfl
        obtain ⟨pool, hpool, rfl⟩ := Option.map_eq_some_iff.mp hserver
        obtain ⟨pool', hclean, hleft⟩ := ConnectionPool.cleanup_spec h.noNull timeoutMs now
        cases hclean.symm.trans hpool
        have hd := (hleft j).symm.trans hd
        split at hd
        · cases hd
        · exact hd
    | findByUser u | sendToUser u msg | getUserStatus u | broadcastExcept i msg => exact he.elim
  · cases hs

/-! ## Runs -/

theorem inactive_iff {timeoutMs now : UInt64} {c : WebSocketConnection} (h : c.lastActivity ≤ now) :
    ConnectionPool.inactive timeoutMs now c = true ↔
      c.lastActivity.toNat + timeoutMs.toNat < now.toNat := by
  unfold ConnectionPool.inactive
  rw [decide_eq_true_iff, UInt64.lt_iff_toNat_lt, UInt64.toNat_sub_of_le _ _ h]
  have hle : c.lastActivity.toNat ≤ now.toNat := h
  omega

theorem Inv.honoured_iff (h : Inv w) (timeoutMs : UInt64) {now : UInt64} (hnow : w.now ≤ now) :
    w.Honoured timeoutMs now ↔ w.Recent timeoutMs now := by
  obtain ⟨pool', hclean, hleft⟩ := ConnectionPool.cleanup_spec h.noNull timeoutMs now
  have hget : ∀ id c, w.server.pool.getConnection id = some c →
      (pool'.getConnection id = some c ↔
        now.toNat ≤ (w.signed id).toNat + timeoutMs.toNat) ∧
      (pool'.getConnection id = none ↔
        (w.signed id).toNat + timeoutMs.toNat < now.toNat) ∧
      (w.signed id).toNat ≤ (w.heard id).toNat := by
    intro id c hc
    have hlookup := ConnectionPool.getConnection_eq_some.mp hc
    obtain ⟨hlast, hle, hheard⟩ := h.activity id c hlookup
    have hexp : w.server.pool.expired timeoutMs now id = true ↔
        (w.signed id).toNat + timeoutMs.toNat < now.toNat := by
      unfold ConnectionPool.expired
      have hactive : c.lastActivity ≤ now := by
        rw [hlast]
        exact UInt64.le_trans (UInt64.le_trans hle hheard) hnow
      rw [hc, Option.any_some, inactive_iff hactive, hlast]
    refine ⟨?_, ?_, hle⟩
    · unfold ConnectionPool.getConnection
      rw [hleft id, hlookup, ← not_lt, ← hexp]
      split <;> simp_all
    · unfold ConnectionPool.getConnection
      rw [hleft id, hlookup, ← hexp]
      split <;> simp_all
  constructor
  · rintro ⟨pool'', hclean', hkeeps⟩ id c hc hrecent
    cases hclean.symm.trans hclean'
    exact (hget id c hc).1.mp ((hkeeps id c hc).1 hrecent)
  · intro hrecent
    refine ⟨pool', hclean, fun id c hc => ?_⟩
    obtain ⟨hstays, hgone, hle⟩ := hget id c hc
    exact ⟨fun hin => hstays.mpr (hrecent id c hc hin), fun hout => hgone.mpr (by omega)⟩

/-- In every run, a cleanup honours its timeout exactly if everybody who has been heard of in
    time was opened or signed in only nanoseconds before. -/
theorem honoured_iff_recent (key : Bytes) (w : Watch)
    (hr : Runs.Reach step FromClient (start key) w) (timeoutMs now : UInt64) (hnow : w.now ≤ now) :
    w.Honoured timeoutMs now ↔ w.Recent timeoutMs now :=
  (hr.invariant Inv (inv_start key) (fun _ _ _ h he hs => inv_step h he hs)).honoured_iff
    timeoutMs hnow

/-- A connection that was opened one second ago. -/
def opened : List (UInt64 × Event) := [(0, .connected 7), (1000000000, .message 7 none)]

/-- Its timeout is 2^60 nanoseconds and more. -/
theorem honoured_iff_recent_opened : ∃ w, Runs.run step (start []) opened = some w ∧
    (w.Honoured 1152921504606846976 1000000000 ↔ w.Recent 1152921504606846976 1000000000) :=
  ⟨_, rfl, honoured_iff_recent [] _ (Runs.Reach.refl.run opened
    ⟨trivial, fun _ _ => ⟨trivial, fun _ _ => trivial⟩⟩ rfl) _ _ (by decide)⟩

/-- A timeout of one minute: it is removed in the nanosecond of its last frame. -/
theorem removed_at_once : ∃ w, Runs.run step (start []) opened = some w ∧
    ¬ w.Honoured 60000 1000000000 := by
  refine ⟨_, rfl, ?_⟩
  rintro ⟨pool', hclean, hkeeps⟩
  have hstays := (hkeeps 7 _ rfl).1 (by decide)
  cases hclean
  cases hstays

end Watch

end MessengerBackend.Ws
