/-
  The pool as a registry: who is where, and which connection the index gives for a user.

  A `Registry` keeps of each connection what the index is about (`Core`) and is a pair of
  functions; queues, clocks and the order of the maps are gone. `Move` says all that one event
  does to it, and `move_of_step` that the server does no more:

  * a connect puts a fresh connection at its id, unless the pool is full;
  * an auth frame names its connection and points the user's entry to it;
  * a disconnect and a cleanup drop connections, each with the entry of its user;
  * a lookup by a user whose entry points to no connection leaves a null pointer there;
  * nothing else changes it.
-/
import Mathlib.Logic.Function.Basic
import MessengerBackend.Ws.Server

namespace MessengerBackend.Ws

structure Core where
  userId : String
  authenticated : Bool
  connected : Bool

def WebSocketConnection.core (c : WebSocketConnection) : Core where
  userId := c.userId
  authenticated := c.authenticated
  connected := c.connected

/-- `some none` is a null pointer. -/
@[ext] structure Registry where
  conns : Int → Option (Option Core)
  index : String → Option Int

namespace Registry

def connect (id : Int) (g : Registry) : Registry :=
  { g with conns := Function.update g.conns id (some (some ⟨"", false, true⟩)) }

def signIn (id : Int) (userId : String) (c : Core) (g : Registry) : Registry where
  conns := Function.update g.conns id (some (some ⟨userId, true, c.connected⟩))
  index := Function.update g.index userId (some id)

def drop (id : Int) (userId : String) (g : Registry) : Registry where
  conns := Function.update g.conns id none
  index := if userId = "" then g.index else Function.update g.index userId none

def nullAt (id : Int) (g : Registry) : Registry :=
  { g with conns := Function.update g.conns id (some none) }

section Lookup

variable (g : Registry) (id : Int) (u : String) (c : Core)

theorem connect_conns_self : (g.connect id).conns id = some (some ⟨"", false, true⟩) :=
  Function.update_self ..

theorem connect_conns_of_ne {i : Int} (h : i ≠ id) : (g.connect id).conns i = g.conns i :=
  Function.update_of_ne h _ _

theorem signIn_conns_self : (g.signIn id u c).conns id = some (some ⟨u, true, c.connected⟩) :=
  Function.update_self ..

theorem signIn_conns_of_ne {i : Int} (h : i ≠ id) : (g.signIn id u c).conns i = g.conns i :=
  Function.update_of_ne h _ _

theorem signIn_index_self : (g.signIn id u c).index u = some id := Function.update_self ..

theorem signIn_index_of_ne {v : String} (h : v ≠ u) : (g.signIn id u c).index v = g.index v :=
  Function.update_of_ne h _ _

theorem nullAt_conns_self : (g.nullAt id).conns id = some none := Function.update_self ..

theorem nullAt_conns_of_ne {i : Int} (h : i ≠ id) : (g.nullAt id).conns i = g.conns i :=
  Function.update_of_ne h _ _

end Lookup

/-- The connections of `ids` go, one after the other. -/
inductive Drops : List Int → Registry → Registry → Prop where
  | nil (g : Registry) : Drops [] g g
  | cons {id : Int} {ids : List Int} {c : Core} {g g' : Registry} :
      g.conns id = some (some c) → Drops ids (g.drop id c.userId) g' → Drops (id :: ids) g g'

/-- The user of the connection at `id`. -/
def userAt (g : Registry) (id : Int) : Option String := (g.conns id).join.map Core.userId

theorem userAt_of_conns {g : Registry} {id : Int} {c : Core} (h : g.conns id = some (some c)) :
    g.userAt id = some c.userId := by
  unfold userAt
  rw [h]
  rfl

theorem drop_conns (g : Registry) (id : Int) (u : String) (i : Int) :
    (g.drop id u).conns i = if i = id then none else g.conns i := by
  simp only [drop, Function.update_apply]

theorem drop_index (g : Registry) (id : Int) (u v : String) :
    (g.drop id u).index v = if u ≠ "" ∧ v = u then none else g.index v := by
  unfold drop
  by_cases hu : u = ""
  · simp [hu]
  · simp [hu, Function.update_apply]

theorem drop_userAt (g : Registry) (id : Int) (u : String) (i : Int) :
    (g.drop id u).userAt i = if i = id then none else g.userAt i := by
  unfold userAt
  rw [drop_conns]
  split <;> rfl

theorem Drops.conns {ids : List Int} {g g' : Registry} (h : Drops ids g g') (i : Int) :
    g'.conns i = if i ∈ ids then none else g.conns i := by
  induction h with
  | nil g => simp
  | @cons id ids c g g' hc _ ih =>
      rw [ih, drop_conns]
      by_cases hi : i = id
      · simp [hi]
      · simp [hi, List.mem_cons]

/-- An entry stays if its user is empty or has no connection among those that go. -/
theorem Drops.index_stays {ids : List Int} {g g' : Registry} (h : Drops ids g g') {v : String}
    (hv : v = "" ∨ ∀ id ∈ ids, g.userAt id ≠ some v) : g'.index v = g.index v := by
  induction h with
  | nil g => rfl
  | @cons id ids c g g' hc _ ih =>
      have hne : ¬ (c.userId ≠ "" ∧ v = c.userId) := by
        rintro ⟨hu, rfl⟩
        rcases hv with hv | hv
        · exact hu hv
        · exact hv id (by simp) (userAt_of_conns hc)
      rw [ih, drop_index, if_neg hne]
      refine hv.imp_right (fun hv i hi hat => hv i (by simp [hi]) ?_)
      rw [drop_userAt] at hat
      split at hat
      · cases hat
      · exact hat

/-- An entry that is left was there before, and no connection of its user has gone. -/
theorem Drops.index_left {ids : List Int} {g g' : Registry} (h : Drops ids g g') {v : String}
    {i : Int} (hi : g'.index v = some i) :
    g.index v = some i ∧ (v = "" ∨ ∀ id ∈ ids, g.userAt id ≠ some v) := by
  induction h with
  | nil g => exact ⟨hi, Or.inr (fun id hid => nomatch hid)⟩
  | @cons id ids c g g' hc _ ih =>
      obtain ⟨hold, hrest⟩ := ih hi
      rw [drop_index] at hold
      split at hold
      · cases hold
      · rename_i hne
        refine ⟨hold, ?_⟩
        by_cases hv : v = ""
        · exact Or.inl hv
        · refine Or.inr (fun k hk hat => ?_)
          by_cases hkid : k = id
          · rw [hkid, userAt_of_conns hc] at hat
            cases hat
            exact hne ⟨hv, rfl⟩
          · rcases List.mem_cons.mp hk with rfl | hk
            · exact hkid rfl
            · refine (hrest.resolve_left hv) k hk ?_
              rw [drop_userAt, if_neg hkid]
              exact hat

end Registry

/-! ## The registry of a pool -/

namespace ConnectionPool

open WebSocketConnection (core)

def registry (pool : ConnectionPool) : Registry where
  conns id := (pool.connections.lookup id).map (Option.map core)
  index userId := pool.userToConnection.lookup userId

variable {pool pool' : ConnectionPool} {id : Int}

theorem registry_conns_eq_some {k : Core} : pool.registry.conns id = some (some k) ↔
    ∃ c, pool.connections.lookup id = some (some c) ∧ c.core = k := by
  simp [registry]

theorem registry_conns_of_lookup {c : WebSocketConnection}
    (h : pool.connections.lookup id = some (some c)) :
    pool.registry.conns id = some (some c.core) := registry_conns_eq_some.mpr ⟨c, h, rfl⟩

/-- Whatever is put at an id. -/
theorem registry_insert (pool : ConnectionPool) (id : Int) (p : Option WebSocketConnection) :
    registry { pool with connections := pool.connections.insert id p } =
      { pool.registry with
        conns := Function.update pool.registry.conns id (some (p.map core)) } := by
  ext1
  · funext i
    simp only [registry, Assoc.lookup_insert, Function.update_apply]
    split <;> rfl
  · rfl

theorem registry_modify (f : WebSocketConnection → WebSocketConnection) {c : WebSocketConnection}
    (h : pool.connections.lookup id = some (some c)) : (pool.modify id f).registry =
      { pool.registry with
        conns := Function.update pool.registry.conns id (some (some (f c).core)) } := by
  unfold modify
  rw [h]
  exact registry_insert pool id (some (f c))

/-- A change that the registry does not see. -/
theorem registry_modify_of_core (pool : ConnectionPool) (id : Int)
    {f : WebSocketConnection → WebSocketConnection} (hf : ∀ c, (f c).core = c.core) :
    (pool.modify id f).registry = pool.registry := by
  cases hl : pool.connections.lookup id with
  | none => rw [modify, hl]
  | some p =>
      cases p with
      | none => rw [modify, hl]
      | some c =>
          rw [registry_modify f hl, hf]
          ext1
          · exact Function.update_eq_self_iff.mpr (registry_conns_of_lookup hl).symm
          · rfl

theorem registry_drop (pool : ConnectionPool) (id : Int) (u : String) :
    (pool.drop id u).registry = pool.registry.drop id u := by
  ext1
  · funext i
    simp only [registry, drop, Registry.drop, Assoc.lookup_erase, Function.update_apply]
    split <;> rfl
  · funext v
    unfold registry drop Registry.drop
    split
    · rfl
    · simp only [Assoc.lookup_erase, Function.update_apply]

theorem registry_createConnection {now : UInt64} (h : pool.createConnection id now = some pool') :
    pool.connections.size < maxConnections ∧
      (pool'.modify id (WebSocketConnection.markConnected now)).registry =
        pool.registry.connect id := by
  unfold createConnection at h
  split at h
  · cases h
  · cases h
    refine ⟨by omega, ?_⟩
    rw [registry_modify (c := WebSocketConnection.create id now) _
      (by rw [Assoc.lookup_insert, if_pos rfl]), registry_insert]
    ext1
    · exact Function.update_idem ..
    · rfl

theorem registry_signIn {c : WebSocketConnection} (u tok : String) (now : UInt64)
    (h : pool.connections.lookup id = some (some c)) :
    ((pool.modify id (MessengerServer.signIn u tok now)).registerUser u id).registry =
      pool.registry.signIn id u c.core := by
  ext1
  · have hconns := congrArg Registry.conns (registry_modify (MessengerServer.signIn u tok now) h)
    exact hconns
  · funext v
    have hindex := congrArg Registry.index (registry_modify (MessengerServer.signIn u tok now) h)
    simp only [registry, registerUser, Registry.signIn, Assoc.lookup_insert, Function.update_apply]
    split
    · rfl
    · exact congrFun hindex v

/-- The lookup leaves the registry alone, or a null pointer where the entry points. -/
theorem registry_findByUser (pool : ConnectionPool) (u : String) :
    (pool.findByUser u).1 = pool ∨ ∃ i, pool.registry.index u = some i ∧
      pool.registry.conns i = none ∧ (pool.findByUser u).1.registry = pool.registry.nullAt i ∧
      (pool.findByUser u).2 = none := by
  unfold findByUser
  split
  · rename_i i hi
    unfold subscript
    split
    · exact Or.inl rfl
    · rename_i hl
      exact Or.inr ⟨i, hi, by simp [registry, hl], registry_insert pool i none, rfl⟩
  · exact Or.inl rfl

theorem drops_of_removeEach {ids : List Int} (h : removeEach ids pool = some pool') :
    Registry.Drops ids pool.registry pool'.registry := by
  induction ids generalizing pool with
  | nil =>
      cases h
      exact .nil _
  | cons id ids ih =>
      unfold removeEach at h
      split at h
      · rename_i c hc
        refine .cons (registry_conns_of_lookup hc) ?_
        have hrest := ih h
        rwa [registry_drop] at hrest
      · cases h

theorem registry_queueEach {exclude : Int} {msg : Message} {ids : List Int}
    (h : queueEach exclude msg ids pool = some pool') : pool'.registry = pool.registry := by
  induction ids generalizing pool with
  | nil =>
      cases h
      rfl
  | cons id ids ih =>
      unfold queueEach at h
      split at h
      · exact ih h
      · split at h
        · rw [ih h]
          split
          · exact registry_modify_of_core pool id (fun _ => rfl)
          · rfl
        · cases h

end ConnectionPool

/-! ## What an event does -/

namespace MessengerServer

def registry (s : MessengerServer) : Registry := s.pool.registry

/-- The connections that the event removes. -/
def leaving (s : MessengerServer) : UInt64 × Event → List Int
  | (_, .disconnected id) => if (s.pool.getConnection id).isSome then [id] else []
  | (now, .cleanupInactive timeoutMs) =>
      (s.pool.toRemove timeoutMs now s.pool.connections.keys).getD []
  | _ => []

/-- The user that the event looks up. -/
def lookedUp : UInt64 × Event → Option String
  | (_, .findByUser userId) => some userId
  | (_, .sendToUser userId _) => some userId
  | (_, .getUserStatus userId) => some userId
  | _ => none

/-- What an event makes of the registry. -/
inductive Move (s : MessengerServer) : UInt64 × Event → Registry → Prop where
  | same (e : UInt64 × Event) : Move s e s.registry
  | connect {now : UInt64} {id : Int} :
      s.pool.connections.size < ConnectionPool.maxConnections →
      Move s (now, .connected id) (s.registry.connect id)
  | signIn {now : UInt64} {id : Int} {raw : Option Json} {u : String} {c : Core} :
      s.registry.conns id = some (some c) → signInName raw = some u →
      Move s (now, .message id raw) (s.registry.signIn id u c)
  | drops {e : UInt64 × Event} {g : Registry} : Registry.Drops (s.leaving e) s.registry g →
      Move s e g
  | null {e : UInt64 × Event} {u : String} {id : Int} : lookedUp e = some u →
      s.registry.index u = some id → s.registry.conns id = none →
      Move s e (s.registry.nullAt id)

theorem registry_queue (id : Int) (msg : Message) (s : MessengerServer) :
    (s.queue id msg).registry = s.registry :=
  ConnectionPool.registry_modify_of_core s.pool id (fun _ => rfl)

/-- A frame names the connection it is from, if it is an auth frame and the connection is
    there. -/
theorem move_of_message {s s' : MessengerServer} {id : Int} {now : UInt64} {raw : Option Json}
    {calls : List Redis.Call} (h : s.onClientMessage id now raw = .ok (s', calls)) :
    Move s (now, .message id raw) s'.registry := by
  have same : ∀ {t : MessengerServer}, t.registry = s.registry →
      Move s (now, .message id raw) t.registry := by
    intro t ht
    rw [ht]
    exact .same _
  cases handled_of_onClientMessage h with
  | unparsed => exact same (registry_queue id invalidFormat s)
  | ignored _ => exact .same _
  | refused _ _ _ => exact same (registry_queue id notAuthenticated s)
  | signedIn hc hname =>
      have hconn := ConnectionPool.getConnection_eq_some.mp hc
      rw [registry_queue]
      show Move s _ (ConnectionPool.registry _)
      rw [ConnectionPool.registry_signIn _ _ now hconn]
      exact .signIn (ConnectionPool.registry_conns_of_lookup hconn) hname
  | routed _ _ _ _ _ _ => exact same (registry_queue id _ s)
  | typing _ _ _ => exact same (ConnectionPool.registry_modify_of_core s.pool id (fun _ => rfl))
  | read _ _ _ => exact .same _

/-- A lookup by a user's name. -/
theorem move_of_lookup {s : MessengerServer} {e : UInt64 × Event} {u : String}
    (he : lookedUp e = some u) : Move s e (s.pool.findByUser u).1.registry := by
  rcases s.pool.registry_findByUser u with hsame | ⟨i, hi, hnone, hnull, _⟩
  · rw [hsame]
    exact .same e
  · rw [hnull]
    exact .null he hi hnone

theorem registry_broadcastToUser (pool : ConnectionPool) (u : String) (msg : Message) :
    (pool.broadcastToUser u msg).registry = (pool.findByUser u).1.registry := by
  unfold ConnectionPool.broadcastToUser
  split
  · rename_i hfind
    rw [hfind]
    split
    · exact ConnectionPool.registry_modify_of_core _ _ (fun _ => rfl)
    · rfl
  · rename_i hfind
    rw [hfind]

/-- The inversion lemma for one event. -/
theorem move_of_step {s s' : MessengerServer} {e : UInt64 × Event} (h : s.step e = some s') :
    Move s e s'.registry := by
  obtain ⟨now, e⟩ := e
  cases e with
  | connected id =>
      cases h
      unfold onClientConnected
      split
      · exact .same _
      · rename_i pool hpool
        obtain ⟨hroom, hreg⟩ := ConnectionPool.registry_createConnection hpool
        have hmove : Move s (now, .connected id) (s.registry.connect id) := .connect hroom
        unfold registry at hmove
        rwa [← hreg] at hmove
  | disconnected id =>
      obtain ⟨⟨s₁, calls⟩, hs₁, rfl⟩ := Option.map_eq_some_iff.mp h
      rcases disconnected_cases hs₁ with ⟨c, hc, rfl, _⟩ | ⟨_, rfl, _⟩
      · refine .drops ?_
        have hgone : leaving s (now, .disconnected id) = [id] :=
          if_pos (by rw [ConnectionPool.getConnection_eq_some.mpr hc]; rfl)
        rw [hgone]
        show Registry.Drops [id] s.registry (s.pool.drop id c.userId).registry
        rw [ConnectionPool.registry_drop]
        exact .cons (ConnectionPool.registry_conns_of_lookup hc) (.nil _)
      · exact .same _
  | message id raw =>
      rcases message_cases h with ⟨calls, hm⟩ | ⟨_, rfl⟩
      · exact move_of_message hm
      · exact .same _
  | findByUser u =>
      cases h
      exact move_of_lookup rfl
  | sendToUser u msg =>
      cases h
      show Move s _ (s.pool.broadcastToUser u msg).registry
      rw [registry_broadcastToUser]
      exact move_of_lookup rfl
  | getUserStatus u =>
      cases h
      exact move_of_lookup rfl
  | broadcastExcept exclude msg =>
      obtain ⟨pool, hpool, rfl⟩ := Option.map_eq_some_iff.mp h
      show Move s _ pool.registry
      rw [ConnectionPool.registry_queueEach hpool]
      exact .same _
  | cleanupInactive timeoutMs =>
      obtain ⟨pool, hpool, rfl⟩ := Option.map_eq_some_iff.mp h
      obtain ⟨ids, hids, hgone⟩ := Option.bind_eq_some_iff.mp hpool
      refine .drops ?_
      have hleave : leaving s (now, .cleanupInactive timeoutMs) = ids :=
        congrArg (fun o => Option.getD o []) hids
      rw [hleave]
      exact ConnectionPool.drops_of_removeEach hgone

end MessengerServer

end MessengerBackend.Ws
