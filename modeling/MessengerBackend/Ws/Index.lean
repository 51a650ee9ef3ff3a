/-
  The pool's reverse index `user_to_connection_`, over runs of the server.

  The index keeps one connection for a user and never looks at what an entry replaces: a
  second auth frame on a connection leaves the entry of its first name, the entry of the empty
  name is never erased, and a connection that goes takes the entry of its user with it even if
  the entry points to another one. `connections_[id]` then inserts a null pointer.

  * `IndexSound`: every entry points to a connection of its user (`indexSound_of_kept`).
  * `UsersReachable`: a user who has a connection is found (`usersReachable_of_kept`).
  * `WellFormed`: no null pointer, and no more connections than allowed
    (`wellFormed_of_known`).

  Each is an invariant of the runs that keep its condition, and each fails without it
  (`entry_of_old_name`, `sibling_lost`, `lookup_inserts_null`).
-/
import MessengerBackend.Lib.Runs
import MessengerBackend.Ws.Registry

namespace MessengerBackend.Ws

namespace Registry

/-- The connection at `id` is authenticated as `u`. -/
def On (g : Registry) (id : Int) (u : String) : Prop :=
  ∃ c, g.conns id = some (some c) ∧ c.authenticated = true ∧ c.userId = u

theorem On.userAt {g : Registry} {id : Int} {u : String} (h : g.On id u) : g.userAt id = some u := by
  obtain ⟨c, hc, _, rfl⟩ := h
  exact userAt_of_conns hc

/-- Only the connection at the id matters. -/
theorem On.congr {g g' : Registry} {id : Int} {u : String} (h : g.On id u)
    (hsame : g'.conns id = g.conns id) : g'.On id u := by
  obtain ⟨c, hc, hauth, hu⟩ := h
  exact ⟨c, hsame.trans hc, hauth, hu⟩

end Registry

namespace MessengerServer

/-- The connection at `id` is authenticated as `u`. -/
def On (s : MessengerServer) (id : Int) (u : String) : Prop :=
  ∃ c, s.pool.connections.lookup id = some (some c) ∧ c.authenticated = true ∧ c.userId = u

theorem on_iff {s : MessengerServer} {id : Int} {u : String} : s.On id u ↔ s.registry.On id u := by
  constructor
  · rintro ⟨c, hc, hauth, hu⟩
    exact ⟨c.core, ConnectionPool.registry_conns_of_lookup hc, hauth, hu⟩
  · rintro ⟨k, hk, hauth, hu⟩
    obtain ⟨c, hc, rfl⟩ := ConnectionPool.registry_conns_eq_some.mp hk
    exact ⟨c, hc, hauth, hu⟩

theorem getConnection_isSome {s : MessengerServer} {id : Int} {k : Core}
    (h : s.registry.conns id = some (some k)) : (s.pool.getConnection id).isSome = true := by
  obtain ⟨c, hc, _⟩ := ConnectionPool.registry_conns_eq_some.mp h
  rw [ConnectionPool.getConnection_eq_some.mpr hc]
  rfl

/-- The event puts a new connection at `id`, or another name than `u` on the one there. -/
def Displaces (s : MessengerServer) : UInt64 × Event → Int → String → Prop
  | (_, .connected id'), id, _ => id' = id ∧ s.pool.connections.size < ConnectionPool.maxConnections
  | (_, .message id' raw), id, u => id' = id ∧ (s.pool.getConnection id).isSome = true ∧
      ∃ v, signInName raw = some v ∧ v ≠ u
  | _, _, _ => False

instance (s : MessengerServer) (e : UInt64 × Event) (id : Int) (u : String) :
    Decidable (s.Displaces e id u) :=
  match e with
  | (_, .connected _) => inferInstanceAs (Decidable (_ ∧ _))
  | (_, .message _ raw) => inferInstanceAs (Decidable (_ ∧ _ ∧ ∃ v ∈ signInName raw, v ≠ u))
  | (_, .disconnected _) | (_, .findByUser _) | (_, .sendToUser _ _) | (_, .getUserStatus _)
  | (_, .broadcastExcept _ _) | (_, .cleanupInactive _) => inferInstanceAs (Decidable False)

instance (s : MessengerServer) (id : Int) (u : String) : Decidable (s.On id u) :=
  decidable_of_iff ((s.pool.connections.lookup id).any
      (fun o => o.any (fun c => c.authenticated && c.userId == u)) = true) (by
    simp [On, Option.any_eq_true])

/-- `{"type": "auth", "username": …}` -/
def authFrame (username : String) : Option Json :=
  some (.obj [("type", .str "auth"), ("username", .str username)])

/-- Where the events lead from a server without connections. -/
def after (es : List (UInt64 × Event)) : MessengerServer :=
  (Runs.run step (MessengerServer.empty []) es).getD (MessengerServer.empty [])

/-- Alice signs in on connection 1. -/
def aliceIn : List (UInt64 × Event) := [(0, .connected 1), (0, .message 1 (authFrame "alice"))]

/-- Then Bob on connection 2, and Alice goes. -/
def aliceBob : List (UInt64 × Event) :=
  aliceIn ++ [(0, .connected 2), (0, .message 2 (authFrame "bob")), (0, .disconnected 1)]

/-- Alice signs in as Eve, too. -/
def aliceEve : List (UInt64 × Event) := aliceIn ++ [(0, .message 1 (authFrame "eve"))]

/-! ## Soundness -/

def IndexSound (s : MessengerServer) : Prop :=
  ∀ u id, s.pool.userToConnection.lookup u = some id → s.On id u

/-- No entry points to what the event displaces, and the empty name's entry not to what it
    removes. -/
def IndexKept (s : MessengerServer) (e : UInt64 × Event) : Prop :=
  (∀ id u, s.Displaces e id u → s.pool.userToConnection.lookup u ≠ some id) ∧
    ∀ id ∈ s.leaving e, s.pool.userToConnection.lookup "" ≠ some id

/-- The entries of the index are all there is to look at. -/
theorem indexKept_iff {s : MessengerServer} {e : UInt64 × Event} : s.IndexKept e ↔
    (∀ x ∈ s.pool.userToConnection.entries, ¬ s.Displaces e x.2 x.1) ∧
      ∀ id ∈ s.leaving e, s.pool.userToConnection.lookup "" ≠ some id := by
  refine and_congr_left' ⟨fun h x hx hdisp => h x.2 x.1 hdisp (AList.mem_lookup_iff.mpr hx), ?_⟩
  exact fun h id u hdisp hu => h ⟨u, id⟩ (AList.mem_lookup_iff.mp hu) hdisp

instance (s : MessengerServer) (e : UInt64 × Event) : Decidable (s.IndexKept e) :=
  decidable_of_iff _ indexKept_iff.symm

theorem indexSound_of_registry {s : MessengerServer}
    (h : ∀ u id, s.registry.index u = some id → s.registry.On id u) : s.IndexSound :=
  fun u id hu => on_iff.mpr (h u id hu)

/-- One event keeps the index sound. -/
theorem indexSound_step {s s' : MessengerServer} {e : UInt64 × Event} (h : s.IndexSound)
    (hk : s.IndexKept e) (hs : s.step e = some s') : s'.IndexSound := by
  have hold : ∀ u id, s.registry.index u = some id → s.registry.On id u :=
    fun u id hu => on_iff.mp (h u id hu)
  refine indexSound_of_registry ?_
  have hmove := move_of_step hs
  generalize s'.registry = g at hmove
  intro u i hi
  cases hmove with
  | same _ => exact hold u i hi
  | @connect now id hroom =>
      have hne : i ≠ id := by
        rintro rfl
        exact hk.1 i u ⟨rfl, hroom⟩ hi
      exact (hold u i hi).congr (Registry.connect_conns_of_ne _ _ hne)
  | @signIn now id raw v c hc hname =>
      by_cases huv : u = v
      · -- the entry that the frame has made
        subst huv
        cases (Registry.signIn_index_self ..).symm.trans hi
        exact ⟨_, Registry.signIn_conns_self .., rfl, rfl⟩
      · rw [Registry.signIn_index_of_ne _ _ _ _ huv] at hi
        have hne : i ≠ id := by
          rintro rfl
          exact hk.1 i u ⟨rfl, getConnection_isSome hc, v, hname, Ne.symm huv⟩ hi
        exact (hold u i hi).congr (Registry.signIn_conns_of_ne _ _ _ _ hne)
  | drops hdrops =>
      obtain ⟨hi, hgone⟩ := hdrops.index_left hi
      have hon := hold u i hi
      have hstays : i ∉ s.leaving e := by
        intro hleave
        rcases hgone with rfl | hgone
        · exact hk.2 i hleave hi
        · exact hgone i hleave hon.userAt
      refine hon.congr ?_
      rw [hdrops.conns, if_neg hstays]
  | null _ hv hnone =>
      -- a sound index gives no lookup a missing id
      obtain ⟨c, hc, _⟩ := hold _ _ hv
      rw [hnone] at hc
      cases hc

/-- In every run that keeps the index, every entry points to a connection of its user. -/
theorem indexSound_of_kept (key : Bytes) (s : MessengerServer)
    (hr : Runs.Reach step IndexKept (MessengerServer.empty key) s) : s.IndexSound := by
  refine hr.invariant IndexSound ?_ (fun s e s' h hk hs => indexSound_step h hk hs)
  exact fun u id hu => nomatch hu

/-- Of Alice and Bob the one who stays. -/
theorem indexSound_of_kept_bob :
    (after aliceBob).IndexSound ∧ (after aliceBob).On 2 "bob" ∧ ¬ (after aliceBob).On 1 "alice" :=
  ⟨indexSound_of_kept [] _ (Runs.Reach.refl.run aliceBob (by decide +kernel) rfl),
    by decide +kernel, by decide +kernel⟩

/-- A second name on one connection: the entry of the first points to it still. -/
theorem entry_of_old_name : ∃ s,
    Runs.run step (MessengerServer.empty []) aliceEve = some s ∧ ¬ s.IndexSound := by
  refine ⟨after aliceEve, rfl, fun hsound => ?_⟩
  obtain ⟨c, hc, _, hu⟩ := hsound "alice" 1 (by decide)
  cases hc
  exact absurd hu (by decide)

/-! ## Reachability -/

/-- A user with a connection is found at a connection of theirs, without a change of the pool,
    and what is sent to them is queued there. -/
def UsersReachable (s : MessengerServer) : Prop :=
  ∀ id u, u ≠ "" → s.On id u → ∃ id' c, s.pool.findByUser u = (s.pool, some (id', c)) ∧
    s.pool.connections.lookup id' = some (some c) ∧ c.userId = u ∧
    ∀ msg, s.sendToUser u msg = s.queue id' msg

/-- A displaced connection that the user's entry points to is their only one, and no
    connection of a user goes without all the others. -/
def ReachKept (s : MessengerServer) (e : UInt64 × Event) : Prop :=
  (∀ id u, u ≠ "" → s.Displaces e id u → s.pool.userToConnection.lookup u = some id →
      ∀ id', s.On id' u → id' = id) ∧
    ∀ id ∈ s.leaving e, ∀ u, u ≠ "" → s.On id u → ∀ id', s.On id' u → id' ∈ s.leaving e

/-- Again the entries of the index, and the connections, are enough. -/
theorem reachKept_iff {s : MessengerServer} {e : UInt64 × Event} : s.ReachKept e ↔
    (∀ x ∈ s.pool.userToConnection.entries, x.1 ≠ "" → s.Displaces e x.2 x.1 →
      ∀ id ∈ s.pool.connections.keys, s.On id x.1 → id = x.2) ∧
    ∀ id ∈ s.leaving e, ∀ k ∈ s.registry.userAt id, k ≠ "" → s.On id k →
      ∀ id' ∈ s.pool.connections.keys, s.On id' k → id' ∈ s.leaving e := by
  have hkeys : ∀ {id u}, s.On id u → id ∈ s.pool.connections.keys :=
    fun ⟨_, hc, _⟩ => Assoc.mem_keys_iff.mpr ⟨_, hc⟩
  refine and_congr ⟨fun h x hx hne hdisp id _ hon => ?_, fun h id u hne hdisp hu id' hon => ?_⟩
    ⟨fun h id hid k _ hne hon id' _ hon' => h id hid k hne hon id' hon',
      fun h id hid u hne hon id' hon' => ?_⟩
  · exact h x.2 x.1 hne hdisp (AList.mem_lookup_iff.mpr hx) id hon
  · exact h ⟨u, id⟩ (AList.mem_lookup_iff.mp hu) hne hdisp id' (hkeys hon) hon
  · exact h id hid u (on_iff.mp hon).userAt hne hon id' (hkeys hon') hon'

instance (s : MessengerServer) (e : UInt64 × Event) : Decidable (s.ReachKept e) :=
  decidable_of_iff _ reachKept_iff.symm

structure ReachInv (g : Registry) : Prop where
  live : ∀ id c, g.conns id = some (some c) → c.connected = true
  named : ∀ id c, g.conns id = some (some c) → c.userId ≠ "" → c.authenticated = true
  found : ∀ id u, u ≠ "" → g.On id u → ∃ id', g.index u = some id' ∧ g.On id' u

section Reachable

variable {g g' : Registry} {id : Int}

/-- Only the connection at `id` changes, and who was found on another one is found still. -/
theorem ReachInv.changed (h : ReachInv g) (hother : ∀ i, i ≠ id → g'.conns i = g.conns i)
    (hself : ∀ c, g'.conns id = some (some c) →
      c.connected = true ∧ (c.userId ≠ "" → c.authenticated = true))
    (hfound : ∀ u, u ≠ "" → g'.On id u → ∃ id', g'.index u = some id' ∧ g'.On id' u)
    (hkept : ∀ i u, i ≠ id → u ≠ "" → g.On i u → ∃ id', g'.index u = some id' ∧ g'.On id' u) :
    ReachInv g' := by
  refine ⟨?_, ?_, ?_⟩
  · intro i c hc
    by_cases hi : i = id
    · exact (hself c (hi ▸ hc)).1
    · exact h.live i c ((hother i hi).symm.trans hc)
  · intro i c hc hne
    by_cases hi : i = id
    · exact (hself c (hi ▸ hc)).2 hne
    · exact h.named i c ((hother i hi).symm.trans hc) hne
  · intro i u hu hon
    by_cases hi : i = id
    · exact hfound u hu (hi ▸ hon)
    · exact hkept i u hi hu (hon.congr (hother i hi).symm)

/-- A new connection comes to an id that is nobody's only entry. -/
theorem ReachInv.connect (h : ReachInv g)
    (honly : ∀ u, u ≠ "" → g.index u = some id → ∀ i, g.On i u → i = id) :
    ReachInv (g.connect id) := by
  have fresh : ∀ c, (g.connect id).conns id = some (some c) → c = ⟨"", false, true⟩ := by
    intro c hc
    cases (Registry.connect_conns_self ..).symm.trans hc
    rfl
  refine h.changed (fun i hi => Registry.connect_conns_of_ne _ _ hi) ?_ ?_ ?_
  · intro c hc
    rw [fresh c hc]
    exact ⟨rfl, fun hne => absurd rfl hne⟩
  · rintro u hu ⟨c, hc, _, hcu⟩
    rw [fresh c hc] at hcu
    exact absurd hcu.symm hu
  · intro i u hi hu hon
    obtain ⟨id', hidx, hon'⟩ := h.found i u hu hon
    refine ⟨id', hidx, hon'.congr (Registry.connect_conns_of_ne _ _ ?_)⟩
    rintro rfl
    exact hi (honly u hu hidx i hon)

/-- The connection at `id` is named `v`; who had it before is found elsewhere. -/
theorem ReachInv.signIn {v : String} {c : Core} (h : ReachInv g) (hc : g.conns id = some (some c))
    (honly : ∀ u, u ≠ "" → u ≠ v → g.index u = some id → ∀ i, g.On i u → i = id) :
    ReachInv (g.signIn id v c) := by
  have self := Registry.signIn_conns_self g id v c
  have signed : (g.signIn id v c).On id v := ⟨_, self, rfl, rfl⟩
  have newest : ∃ id', (g.signIn id v c).index v = some id' ∧ (g.signIn id v c).On id' v :=
    ⟨id, Registry.signIn_index_self .., signed⟩
  refine h.changed (fun i hi => Registry.signIn_conns_of_ne _ _ _ _ hi) ?_ ?_ ?_
  · intro k hk
    cases self.symm.trans hk
    exact ⟨h.live id c hc, fun _ => rfl⟩
  · rintro u _ ⟨k, hk, _, hku⟩
    cases self.symm.trans hk
    cases hku
    exact newest
  · intro i u hi hu hon
    by_cases huv : u = v
    · exact huv ▸ newest
    · obtain ⟨id', hidx, hon'⟩ := h.found i u hu hon
      refine ⟨id', (Registry.signIn_index_of_ne _ _ _ _ huv).trans hidx,
        hon'.congr (Registry.signIn_conns_of_ne _ _ _ _ ?_)⟩
      rintro rfl
      exact hi (honly u hu huv hidx i hon)

theorem ReachInv.nullAt (h : ReachInv g) (hnone : g.conns id = none) : ReachInv (g.nullAt id) := by
  have gone : ∀ c, (g.nullAt id).conns id ≠ some (some c) := by
    intro c hc
    cases (Registry.nullAt_conns_self ..).symm.trans hc
  refine h.changed (fun i hi => Registry.nullAt_conns_of_ne _ _ hi) ?_ ?_ ?_
  · exact fun c hc => absurd hc (gone c)
  · rintro u _ ⟨c, hc, _⟩
    exact absurd hc (gone c)
  · intro i u _ hu hon
    obtain ⟨id', hidx, hon'⟩ := h.found i u hu hon
    refine ⟨id', hidx, hon'.congr (Registry.nullAt_conns_of_ne _ _ ?_)⟩
    rintro rfl
    obtain ⟨_, hd, _⟩ := hon'
    rw [hnone] at hd
    cases hd

/-- A connection of a user goes only with all the others. -/
theorem ReachInv.drops {ids : List Int} (h : ReachInv g) (hdrops : Registry.Drops ids g g')
    (hall : ∀ k ∈ ids, ∀ u, u ≠ "" → g.On k u → ∀ i, g.On i u → i ∈ ids) : ReachInv g' := by
  have left : ∀ i c, g'.conns i = some (some c) → i ∉ ids ∧ g.conns i = some (some c) := by
    intro i c hc
    rw [hdrops.conns] at hc
    split at hc
    · cases hc
    · exact ⟨‹_›, hc⟩
  refine ⟨fun i c hc => h.live i c (left i c hc).2, fun i c hc => h.named i c (left i c hc).2, ?_⟩
  rintro i u hu ⟨c, hc, hauth, hcu⟩
  obtain ⟨hi, hc⟩ := left i c hc
  have hold : g.On i u := ⟨c, hc, hauth, hcu⟩
  -- no connection of this user goes, so that the entry stays
  have hnone : ∀ k ∈ ids, g.userAt k ≠ some u := by
    intro k hgone hat
    unfold Registry.userAt at hat
    obtain ⟨d, hd, hdu⟩ := Option.map_eq_some_iff.mp hat
    have hd := Option.join_eq_some_iff.mp hd
    have hgo : g.On k u := ⟨d, hd, h.named k d hd (by rw [hdu]; exact hu), hdu⟩
    exact hi (hall k hgone u hu hgo i hold)
  obtain ⟨id', hidx, hon'⟩ := h.found i u hu hold
  refine ⟨id', (hdrops.index_stays (Or.inr hnone)).trans hidx, hon'.congr ?_⟩
  rw [hdrops.conns, if_neg (fun hmem => hnone id' hmem hon'.userAt)]

end Reachable

theorem reachInv_step {s s' : MessengerServer} {e : UInt64 × Event} (h : ReachInv s.registry)
    (hk : s.ReachKept e) (hs : s.step e = some s') : ReachInv s'.registry := by
  have hmove := move_of_step hs
  generalize s'.registry = g at hmove
  cases hmove with
  | same _ => exact h
  | @connect now id hroom =>
      refine h.connect (fun u hu hidx i hon => ?_)
      exact hk.1 id u hu ⟨rfl, hroom⟩ hidx i (on_iff.mpr hon)
  | @signIn now id raw v c hc hname =>
      refine h.signIn hc (fun u hu huv hidx i hon => ?_)
      exact hk.1 id u hu ⟨rfl, getConnection_isSome hc, v, hname, Ne.symm huv⟩ hidx i
        (on_iff.mpr hon)
  | drops hdrops =>
      refine h.drops hdrops (fun k hgone u hu hgo i hon => ?_)
      exact hk.2 k hgone u hu (on_iff.mpr hgo) i (on_iff.mpr hon)
  | null _ _ hnone => exact h.nullAt hnone

/-- Who is found is also sent to. -/
theorem usersReachable_of_inv {s : MessengerServer} (h : ReachInv s.registry) :
    s.UsersReachable := by
  intro id u hu hon
  obtain ⟨id', hidx, k, hk, _, hku⟩ := h.found id u hu (on_iff.mp hon)
  obtain ⟨c, hc, rfl⟩ := ConnectionPool.registry_conns_eq_some.mp hk
  have hfind : s.pool.findByUser u = (s.pool, some (id', c)) := by
    have hidx : s.pool.userToConnection.lookup u = some id' := hidx
    simp only [ConnectionPool.findByUser, hidx, ConnectionPool.subscript, hc]
    rfl
  refine ⟨id', c, hfind, hc, hku, fun msg => ?_⟩
  have hconn : c.connected = true := h.live id' c.core hk
  simp only [sendToUser, ConnectionPool.broadcastToUser, hfind, hconn, if_true, queue]

/-- In every run that keeps the condition, no user with a connection is unreachable. -/
theorem usersReachable_of_kept (key : Bytes) (s : MessengerServer)
    (hr : Runs.Reach step ReachKept (MessengerServer.empty key) s) : s.UsersReachable := by
  refine usersReachable_of_inv (hr.invariant (fun s => ReachInv s.registry) ?_
    (fun s e s' h hk hs => reachInv_step h hk hs))
  exact ⟨fun id c hc => (nomatch hc), fun id c hc => (nomatch hc),
    fun id u _ ⟨c, hc, _⟩ => (nomatch hc)⟩

/-- Bob is found when Alice has gone. -/
theorem usersReachable_of_kept_bob :
    (after aliceBob).UsersReachable ∧ (after aliceBob).On 2 "bob" :=
  ⟨usersReachable_of_kept [] _ (Runs.Reach.refl.run aliceBob (by decide +kernel) rfl),
    by decide +kernel⟩

/-- Alice signs in on two connections, and one of them goes. -/
def aliceTwice : List (UInt64 × Event) :=
  aliceIn ++ [(0, .connected 2), (0, .message 2 (authFrame "alice")), (0, .disconnected 1)]

theorem sibling_lost : ∃ s,
    Runs.run step (MessengerServer.empty []) aliceTwice = some s ∧ ¬ s.UsersReachable := by
  refine ⟨after aliceTwice, rfl, fun hreach => ?_⟩
  obtain ⟨id, c, hfind, _⟩ := hreach 2 "alice" (by decide) ⟨_, rfl, rfl, rfl⟩
  cases congrArg Prod.snd hfind

end MessengerServer

/-! ## Well-formedness -/

namespace ConnectionPool

variable {pool pool' : ConnectionPool}

def NoNull (pool : ConnectionPool) : Prop := ∀ id, pool.connections.lookup id ≠ some none

def WellFormed (pool : ConnectionPool) : Prop :=
  pool.NoNull ∧ pool.connections.size ≤ maxConnections

theorem noNull_iff : pool.NoNull ↔ ∀ id, pool.registry.conns id ≠ some none := by
  simp [NoNull, registry]

theorem size_modify (pool : ConnectionPool) (id : Int)
    (f : WebSocketConnection → WebSocketConnection) :
    (pool.modify id f).connections.size = pool.connections.size := by
  unfold modify
  split
  · rename_i c hc
    exact Assoc.size_insert_of_lookup hc _
  · rfl

theorem size_createConnection {id : Int} {now : UInt64}
    (h : pool.createConnection id now = some pool') :
    pool'.connections.size ≤ maxConnections := by
  unfold createConnection at h
  split at h
  · cases h
  · cases h
    have := Assoc.size_insert_le pool.connections id (some (WebSocketConnection.create id now))
    show Assoc.size (AList.insert id _ pool.connections) ≤ maxConnections
    omega

theorem size_removeEach {ids : List Int} (h : removeEach ids pool = some pool') :
    pool'.connections.size ≤ pool.connections.size := by
  induction ids generalizing pool with
  | nil =>
      cases h
      exact Nat.le_refl _
  | cons id ids ih =>
      unfold removeEach at h
      split at h
      · exact Nat.le_trans (ih h) (Assoc.size_erase_le pool.connections id)
      · cases h

theorem size_queueEach {exclude : Int} {msg : Message} {ids : List Int}
    (h : queueEach exclude msg ids pool = some pool') :
    pool'.connections.size = pool.connections.size := by
  induction ids generalizing pool with
  | nil =>
      cases h
      rfl
  | cons id ids ih =>
      unfold queueEach at h
      split at h
      · exact ih h
      · split at h
        · rw [ih h]
          split
          · exact size_modify pool id _
          · rfl
        · cases h

/-- A key of a pool without null pointers has a connection. -/
theorem NoNull.of_mem_keys (h : pool.NoNull) {id : Int} (hid : id ∈ pool.connections.keys) :
    ∃ c, pool.connections.lookup id = some (some c) := by
  obtain ⟨p, hp⟩ := Assoc.mem_keys_iff.mp hid
  cases p with
  | none => exact absurd hp (h id)
  | some c => exact ⟨c, hp⟩

/-- The ids to remove are some of those looked at. -/
theorem toRemove_ok (timeoutMs now : UInt64) {ids : List Int}
    (h : ∀ id ∈ ids, ∃ c, pool.connections.lookup id = some (some c)) :
    ∃ gone, pool.toRemove timeoutMs now ids = some gone ∧ gone.Sublist ids := by
  induction ids with
  | nil => exact ⟨[], rfl, .refl _⟩
  | cons id ids ih =>
      obtain ⟨gone, hgone, hsub⟩ := ih (fun i hi => h i (by simp [hi]))
      obtain ⟨c, hc⟩ := h id (by simp)
      unfold toRemove
      rw [hc]
      simp only [hgone, Option.map_some]
      refine ⟨_, rfl, ?_⟩
      split
      · exact hsub.cons_cons id
      · exact hsub.cons id

/-- Distinct connections that are there can be removed. -/
theorem removeEach_ok {ids : List Int} (hnodup : ids.Nodup)
    (h : ∀ id ∈ ids, ∃ c, pool.connections.lookup id = some (some c)) :
    ∃ pool', removeEach ids pool = some pool' := by
  induction ids generalizing pool with
  | nil => exact ⟨pool, rfl⟩
  | cons id ids ih =>
      obtain ⟨hid, hrest⟩ := List.nodup_cons.mp hnodup
      obtain ⟨c, hc⟩ := h id (by simp)
      unfold removeEach
      rw [hc]
      refine ih hrest (fun i hi => ?_)
      obtain ⟨d, hd⟩ := h i (by simp [hi])
      refine ⟨d, ?_⟩
      show AList.lookup i (AList.erase id pool.connections) = some (some d)
      rw [Assoc.lookup_erase, if_neg (fun heq : i = id => hid (heq ▸ hi)), hd]

theorem queueEach_ok (exclude : Int) (msg : Message) {ids : List Int}
    (h : ∀ id ∈ ids, ∃ c, pool.connections.lookup id = some (some c)) :
    ∃ pool', queueEach exclude msg ids pool = some pool' := by
  induction ids generalizing pool with
  | nil => exact ⟨pool, rfl⟩
  | cons id ids ih =>
      have hrest : ∀ i ∈ ids, ∃ c, pool.connections.lookup i = some (some c) :=
        fun i hi => h i (by simp [hi])
      obtain ⟨c, hc⟩ := h id (by simp)
      unfold queueEach
      split
      · exact ih hrest
      · rw [hc]
        refine ih (fun i hi => ?_)
        split
        · -- a changed connection is still one
          obtain ⟨d, hd⟩ := hrest i hi
          unfold modify
          simp only [hc, Assoc.lookup_insert]
          split
          · exact ⟨_, rfl⟩
          · exact ⟨d, hd⟩
        · exact hrest i hi

end ConnectionPool

namespace MessengerServer

/-- The entry of a name that is looked up points to an id in the pool, if there is one. -/
def Known (s : MessengerServer) (e : UInt64 × Event) : Prop :=
  ∀ u, lookedUp e = some u → ∀ id, s.pool.userToConnection.lookup u = some id →
    s.pool.connections.lookup id ≠ none

theorem findByUser_of_known {s : MessengerServer} {e : UInt64 × Event} (hk : s.Known e) {u : String}
    (hu : lookedUp e = some u) : (s.pool.findByUser u).1 = s.pool := by
  rcases s.pool.registry_findByUser u with hsame | ⟨i, hi, hnone, _⟩
  · exact hsame
  · refine absurd ?_ (hk u hu i hi)
    simpa [ConnectionPool.registry] using hnone

/-- A sound index keeps every lookup from writing. -/
theorem known_of_indexSound {s : MessengerServer} (h : s.IndexSound) (e : UInt64 × Event) :
    s.Known e := by
  intro u _ id hid hnone
  obtain ⟨c, hc, _⟩ := h u id hid
  rw [hnone] at hc
  cases hc

theorem noNull_step {s s' : MessengerServer} {e : UInt64 × Event} (h : s.pool.NoNull)
    (hk : s.Known e) (hs : s.step e = some s') : s'.pool.NoNull := by
  have hold := ConnectionPool.noNull_iff.mp h
  refine ConnectionPool.noNull_iff.mpr ?_
  have hmove : Move s e s'.pool.registry := move_of_step hs
  generalize s'.pool.registry = g at hmove
  intro i
  cases hmove with
  | same _ => exact hold i
  | @connect now id _ =>
      by_cases hi : i = id
      · rw [hi, Registry.connect_conns_self]
        exact fun heq => nomatch heq
      · rw [Registry.connect_conns_of_ne _ _ hi]
        exact hold i
  | @signIn now id raw u c _ _ =>
      by_cases hi : i = id
      · rw [hi, Registry.signIn_conns_self]
        exact fun heq => nomatch heq
      · rw [Registry.signIn_conns_of_ne _ _ _ _ hi]
        exact hold i
  | drops hdrops =>
      rw [hdrops.conns]
      split
      · exact fun heq => nomatch heq
      · exact hold i
  | @null e u id hu hidx hnone =>
      refine absurd ?_ (hk u hu id hidx)
      simpa [registry, ConnectionPool.registry] using hnone

theorem size_of_handled {s s' : MessengerServer} {id : Int} {now : UInt64} {raw : Option Json}
    {calls : List Redis.Call} (h : Handled s id now raw s' calls) :
    s'.pool.connections.size = s.pool.connections.size := by
  cases h with
  | unparsed => exact ConnectionPool.size_modify ..
  | ignored _ => rfl
  | refused _ _ _ => exact ConnectionPool.size_modify ..
  | signedIn _ _ =>
      exact (ConnectionPool.size_modify ..).trans (ConnectionPool.size_modify s.pool id _)
  | routed _ _ _ _ _ _ => exact ConnectionPool.size_modify ..
  | typing _ _ _ => exact ConnectionPool.size_modify ..
  | read _ _ _ => rfl

theorem size_broadcastToUser (pool : ConnectionPool) (u : String) (msg : Message) :
    (pool.broadcastToUser u msg).connections.size = (pool.findByUser u).1.connections.size := by
  unfold ConnectionPool.broadcastToUser
  split
  · rename_i hfind
    rw [hfind]
    split
    · exact ConnectionPool.size_modify ..
    · rfl
  · rename_i hfind
    rw [hfind]

theorem size_step {s s' : MessengerServer} {e : UInt64 × Event} (hk : s.Known e)
    (h : s.pool.connections.size ≤ ConnectionPool.maxConnections) (hs : s.step e = some s') :
    s'.pool.connections.size ≤ ConnectionPool.maxConnections := by
  obtain ⟨now, e⟩ := e
  cases e with
  | connected id =>
      cases hs
      unfold onClientConnected
      split
      · exact h
      · rename_i pool hpool
        rw [ConnectionPool.size_modify]
        exact ConnectionPool.size_createConnection hpool
  | disconnected id =>
      obtain ⟨⟨s₁, calls⟩, hs₁, rfl⟩ := Option.map_eq_some_iff.mp hs
      rcases disconnected_cases hs₁ with ⟨c, _, rfl, _⟩ | ⟨_, rfl, _⟩
      · exact Nat.le_trans (Assoc.size_erase_le s.pool.connections id) h
      · exact h
  | message id raw =>
      rcases message_cases hs with ⟨calls, hm⟩ | ⟨_, rfl⟩
      · rw [size_of_handled (handled_of_onClientMessage hm)]
        exact h
      · exact h
  | findByUser u =>
      cases hs
      rw [findByUser_of_known hk rfl]
      exact h
  | sendToUser u msg =>
      cases hs
      show (s.pool.broadcastToUser u msg).connections.size ≤ _
      rw [size_broadcastToUser, findByUser_of_known hk rfl]
      exact h
  | getUserStatus u =>
      cases hs
      show (s.pool.findByUser u).1.connections.size ≤ _
      rw [findByUser_of_known hk rfl]
      exact h
  | broadcastExcept exclude msg =>
      obtain ⟨pool, hpool, rfl⟩ := Option.map_eq_some_iff.mp hs
      show pool.connections.size ≤ _
      rw [ConnectionPool.size_queueEach hpool]
      exact h
  | cleanupInactive timeoutMs =>
      obtain ⟨pool, hpool, rfl⟩ := Option.map_eq_some_iff.mp hs
      obtain ⟨ids, _, hgone⟩ := Option.bind_eq_some_iff.mp hpool
      exact Nat.le_trans (ConnectionPool.size_removeEach hgone) h

/-- Without null pointers no event faults. -/
theorem step_ok {s : MessengerServer} (h : s.pool.NoNull) (e : UInt64 × Event) :
    ∃ s', s.step e = some s' := by
  obtain ⟨now, e⟩ := e
  cases e with
  | disconnected id =>
      have hgone : ∃ x, s.pool.removeConnection id = some x := by
        unfold ConnectionPool.removeConnection
        split
        · exact ⟨_, rfl⟩
        · exact absurd ‹_› (h id)
        · exact ⟨_, rfl⟩
      obtain ⟨x, hx⟩ := hgone
      simp only [step, onClientDisconnected, hx]
      exact ⟨_, rfl⟩
  | message id raw =>
      cases hm : s.onClientMessage id now raw with
      | ok x => exact ⟨x.1, by simp only [step, hm]⟩
      | error err => exact ⟨s, by simp only [step, hm]⟩
  | broadcastExcept exclude msg =>
      obtain ⟨pool, hpool⟩ := ConnectionPool.queueEach_ok exclude msg
        (fun id hid => h.of_mem_keys hid)
      simp only [step, ConnectionPool.broadcastExcept, hpool]
      exact ⟨_, rfl⟩
  | cleanupInactive timeoutMs =>
      obtain ⟨gone, hgone, hsub⟩ := ConnectionPool.toRemove_ok timeoutMs now
        (fun id hid => h.of_mem_keys hid)
      obtain ⟨pool, hpool⟩ := ConnectionPool.removeEach_ok (hsub.nodup s.pool.connections.keys_nodup)
        (fun id hid => h.of_mem_keys (hsub.subset hid))
      simp only [step, ConnectionPool.cleanupInactive, hgone, Option.bind_some, hpool]
      exact ⟨_, rfl⟩
  | _ => exact ⟨_, rfl⟩

/-- In every run whose lookups are of known names the pool is well formed, and no event that
    goes on with it faults or, if it is a lookup, changes the pool. -/
theorem wellFormed_of_known (key : Bytes) (s : MessengerServer)
    (hr : Runs.Reach step Known (MessengerServer.empty key) s) :
    s.pool.WellFormed ∧ ∀ e, s.Known e → (∃ s', s.step e = some s') ∧
      ∀ u, lookedUp e = some u → (s.pool.findByUser u).1 = s.pool := by
  have hwf : s.pool.WellFormed := by
    refine hr.invariant (fun s => s.pool.WellFormed) ?_
      (fun s e s' h hk hs => ⟨noNull_step h.1 hk hs, size_step hk h.2 hs⟩)
    exact ⟨fun id hid => (nomatch hid), Nat.zero_le _⟩
  exact ⟨hwf, fun e hk => ⟨step_ok hwf.1 e, fun u hu => findByUser_of_known hk hu⟩⟩

/-- Alice is there and looked up. -/
def aliceFound : List (UInt64 × Event) := aliceIn ++ [(0, .findByUser "alice")]

theorem wellFormed_of_known_alice :
    let s := after aliceFound
    s.pool.WellFormed ∧ ∀ e, s.Known e → (∃ s', s.step e = some s') ∧
      ∀ u, lookedUp e = some u → (s.pool.findByUser u).1 = s.pool := by
  refine wellFormed_of_known [] _ (Runs.Reach.refl.run aliceFound ?_ rfl)
  refine ⟨fun u hu => (nomatch hu), fun s hs => ?_⟩
  cases hs
  refine ⟨fun u hu => (nomatch hu), fun s hs => ?_⟩
  cases hs
  refine ⟨fun u hu id hid hnone => ?_, fun s hs => ?_⟩
  · cases hu
    cases hid
    cases hnone
  · cases hs
    trivial

/-- The entry of an old name outlives its connection. -/
def aliceGone : List (UInt64 × Event) :=
  aliceEve ++ [(0, .disconnected 1), (0, .findByUser "alice")]

/-- Looking the name up leaves a null pointer. -/
theorem lookup_inserts_null : ∃ s,
    Runs.run step (MessengerServer.empty []) aliceGone = some s ∧ ¬ s.pool.WellFormed :=
  ⟨after aliceGone, rfl, fun hwf => hwf.1 1 rfl⟩

end MessengerServer

end MessengerBackend.Ws
