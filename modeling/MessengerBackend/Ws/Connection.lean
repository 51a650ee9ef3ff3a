/-
  WebSocket connections and their pool (`websocket_connection.cpp`).

  * The pool maps ids to pointers, and a pointer may be null: `connections_[k]` inserts one
    for a key that is missing. An operation that goes through a null pointer faults (`none`).
  * `now` is `system_clock::now().time_since_epoch().count()`, nanoseconds as a `uint64_t`.
  * An object that the pool points to is changed in place; here that is `modify` at its id.
-/
import MessengerBackend.Json
import MessengerBackend.Lib.Assoc

namespace MessengerBackend.Ws

structure Message where
  type : String
  payload : Json
  timestamp : UInt64 := 0
  requiresAck : Bool := false

structure WebSocketConnection where
  connectionId : Int
  userId : String := ""
  sessionId : String := ""
  authenticated : Bool := false
  connected : Bool := false
  isTyping : Bool := false
  createdAt : UInt64
  lastActivity : UInt64
  outgoingQueue : List Message := []

namespace WebSocketConnection

/-- The constructor. -/
def create (connectionId : Int) (now : UInt64) : WebSocketConnection where
  connectionId := connectionId
  createdAt := now
  lastActivity := now

def setUserId (userId : String) (c : WebSocketConnection) : WebSocketConnection :=
  { c with userId := userId }

def setSessionId (sessionId : String) (c : WebSocketConnection) : WebSocketConnection :=
  { c with sessionId := sessionId }

def markAuthenticated (now : UInt64) (c : WebSocketConnection) : WebSocketConnection :=
  { c with authenticated := true, lastActivity := now }

def markConnected (now : UInt64) (c : WebSocketConnection) : WebSocketConnection :=
  { c with connected := true, lastActivity := now }

def setTyping (isTyping : Bool) (c : WebSocketConnection) : WebSocketConnection :=
  { c with isTyping := isTyping }

def queueMessage (msg : Message) (c : WebSocketConnection) : WebSocketConnection :=
  { c with outgoingQueue := c.outgoingQueue ++ [msg] }

/-- `none` when the queue is empty. -/
def dequeueMessage (c : WebSocketConnection) : Option (Message × WebSocketConnection) :=
  match c.outgoingQueue with
  | [] => none
  | msg :: rest => some (msg, { c with outgoingQueue := rest })

theorem dequeueMessage_some {c c' : WebSocketConnection} {msg : Message}
    (h : c.dequeueMessage = some (msg, c')) :
    c.outgoingQueue = msg :: c'.outgoingQueue ∧ c' = { c with outgoingQueue := c'.outgoingQueue } := by
  unfold dequeueMessage at h
  split at h
  · cases h
  · rename_i heq
    cases h
    exact ⟨heq, rfl⟩

/-- The loop `while (ws_conn->dequeue_message(msg))`. -/
def drain (c : WebSocketConnection) : List Message × WebSocketConnection :=
  match _h : c.dequeueMessage with
  | none => ([], c)
  | some (msg, c') => (msg :: (drain c').1, (drain c').2)
termination_by c.outgoingQueue.length
decreasing_by
  all_goals
    have hlen := congrArg List.length (dequeueMessage_some _h).1
    simp only [List.length_cons] at hlen
    omega

/-- The loop takes everything, in order. -/
theorem drain_eq (c : WebSocketConnection) :
    c.drain = (c.outgoingQueue, { c with outgoingQueue := [] }) := by
  induction c using drain.induct with
  | case1 c h =>
      rw [drain]
      split
      · unfold dequeueMessage at h
        split at h
        · rename_i hnil
          cases c
          cases hnil
          rfl
        · cases h
      · rename_i heq
        cases h.symm.trans heq
  | case2 c msg c' h ih =>
      obtain ⟨hqueue, hsame⟩ := dequeueMessage_some h
      rw [drain]
      split
      · rename_i heq
        cases h.symm.trans heq
      · rename_i heq
        cases h.symm.trans heq
        rw [ih, hqueue]
        simp only [Prod.mk.injEq, true_and]
        rw [hsame]

end WebSocketConnection

open WebSocketConnection

structure ConnectionPool where
  connections : Assoc Int (Option WebSocketConnection) := ∅
  userToConnection : Assoc String Int := ∅

namespace ConnectionPool

/-- `MAX_CONNECTIONS` -/
def maxConnections : Nat := 100000

/-- A change of the object that the pool points to at `id`. -/
def modify (id : Int) (f : WebSocketConnection → WebSocketConnection) (pool : ConnectionPool) :
    ConnectionPool :=
  match pool.connections.lookup id with
  | some (some c) => { pool with connections := pool.connections.insert id (some (f c)) }
  | _ => pool

theorem lookup_modify (pool : ConnectionPool) (id : Int)
    (f : WebSocketConnection → WebSocketConnection) (i : Int) :
    (pool.modify id f).connections.lookup i =
      if i = id then (pool.connections.lookup id).map (Option.map f)
      else pool.connections.lookup i := by
  unfold modify
  split
  · rename_i c hc
    simp only [Assoc.lookup_insert, hc]
    rfl
  · rename_i hno
    split
    · rename_i hi
      subst hi
      cases hl : pool.connections.lookup i with
      | none => rfl
      | some p =>
          cases p with
          | none => rfl
          | some c => exact absurd hl (hno c)
    · rfl

theorem lookup_modify_self {pool : ConnectionPool} {id : Int} {c : WebSocketConnection}
    (f : WebSocketConnection → WebSocketConnection)
    (h : pool.connections.lookup id = some (some c)) :
    (pool.modify id f).connections.lookup id = some (some (f c)) := by
  rw [lookup_modify, if_pos rfl, h]
  rfl

/-- `none` when the pool is full. -/
def createConnection (id : Int) (now : UInt64) (pool : ConnectionPool) : Option ConnectionPool :=
  if maxConnections ≤ pool.connections.size then none
  else some { pool with connections := pool.connections.insert id (some (create id now)) }

/-- The null pointer and a missing id look the same to the caller. -/
def getConnection (id : Int) (pool : ConnectionPool) : Option WebSocketConnection :=
  (pool.connections.lookup id).join

theorem getConnection_eq_some {pool : ConnectionPool} {id : Int} {c : WebSocketConnection} :
    pool.getConnection id = some c ↔ pool.connections.lookup id = some (some c) :=
  Option.join_eq_some_iff

/-- `connections_.erase(id)`, and the index entry of the connection's user if it has one. -/
def drop (id : Int) (userId : String) (pool : ConnectionPool) : ConnectionPool where
  connections := pool.connections.erase id
  userToConnection :=
    if userId = "" then pool.userToConnection else pool.userToConnection.erase userId

def removeConnection (id : Int) (pool : ConnectionPool) : Option (ConnectionPool × Bool) :=
  match pool.connections.lookup id with
  | some (some c) => some (pool.drop id c.userId, true)
  | some none => none
  | none => some (pool, false)

def registerUser (userId : String) (id : Int) (pool : ConnectionPool) : ConnectionPool :=
  { pool with userToConnection := pool.userToConnection.insert userId id }

/-- `connections_[id]` -/
def subscript (id : Int) (pool : ConnectionPool) : ConnectionPool × Option WebSocketConnection :=
  match pool.connections.lookup id with
  | some p => (pool, p)
  | none => ({ pool with connections := pool.connections.insert id none }, none)

/-- The pointer that is found, with the id that the pool has it at. -/
def findByUser (userId : String) (pool : ConnectionPool) :
    ConnectionPool × Option (Int × WebSocketConnection) :=
  match pool.userToConnection.lookup userId with
  | some id => ((pool.subscript id).1, (pool.subscript id).2.map (Prod.mk id))
  | none => (pool, none)

def broadcastToUser (userId : String) (msg : Message) (pool : ConnectionPool) : ConnectionPool :=
  match pool.findByUser userId with
  | (pool₁, some (id, c)) => if c.connected then pool₁.modify id (queueMessage msg) else pool₁
  | (pool₁, none) => pool₁

/-- The loop of `broadcast_except` over the ids still to come. -/
def queueEach (exclude : Int) (msg : Message) : List Int → ConnectionPool → Option ConnectionPool
  | [], pool => some pool
  | id :: ids, pool =>
      if id = exclude then queueEach exclude msg ids pool
      else
        match pool.connections.lookup id with
        | some (some c) => queueEach exclude msg ids
            (if c.connected then pool.modify id (queueMessage msg) else pool)
        | _ => none

def broadcastExcept (exclude : Int) (msg : Message) (pool : ConnectionPool) :
    Option ConnectionPool :=
  queueEach exclude msg pool.connections.keys pool

/-- `inactive_time > timeout_ms`; the difference is unsigned. -/
def inactive (timeoutMs now : UInt64) (c : WebSocketConnection) : Bool :=
  timeoutMs < now - c.lastActivity

/-- The first loop of `cleanup_inactive`: the ids to remove among these. -/
def toRemove (timeoutMs now : UInt64) (pool : ConnectionPool) : List Int → Option (List Int)
  | [] => some []
  | id :: ids =>
      match pool.connections.lookup id with
      | some (some c) => (toRemove timeoutMs now pool ids).map
          (fun rest => if inactive timeoutMs now c then id :: rest else rest)
      | _ => none

/-- The second loop. -/
def removeEach : List Int → ConnectionPool → Option ConnectionPool
  | [], pool => some pool
  | id :: ids, pool =>
      match pool.connections.lookup id with
      | some (some c) => removeEach ids (pool.drop id c.userId)
      | _ => none

def cleanupInactive (timeoutMs now : UInt64) (pool : ConnectionPool) : Option ConnectionPool :=
  (toRemove timeoutMs now pool pool.connections.keys).bind (fun ids => removeEach ids pool)

end ConnectionPool

end MessengerBackend.Ws
