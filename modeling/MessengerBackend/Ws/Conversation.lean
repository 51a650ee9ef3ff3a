/-
  A socket talks to the server as if it were alone.

  * `replies`, `requests`: what a frame is answered with and what it makes of Redis, by the
    frame, the time, and who has signed in on its own socket.
  * `conversation`: the answers to the frames of one socket, in order.
  * `spoken_of_run`: in every run in which opens are of addresses that differ from the open ones
    in their low 31 bits, and fewer than `MAX_CONNECTIONS` sockets are open at a time, the
    answers on a socket are the conversation of the frames that came on it since it was opened,
    and its next frame does what they say. No other socket has a part in it: what Alice sends to
    Bob is never said to Bob.

  The answers are `auth_success`, `message_delivered` and `error`, to the socket that asked; a
  message that is published on the channel of a user reaches nobody here.
-/
import Mathlib.Data.List.Perm.Subperm
import MessengerBackend.Ws.Queue
import MessengerBackend.Ws.Sockets

namespace MessengerBackend.Ws

open Redis (Call)
open MessengerServer (authSuccess invalidFormat notAuthenticated delivered queueKey pubsubMsg
  typingMsg markUserOnline)

/-! ## One frame, by its own socket alone -/

def sessionToken (userId : String) (now : UInt64) : String :=
  "token_" ++ userId ++ "_" ++ toString (unixTime now)

/-- The fields of a chat message, if all of them convert. -/
def chatFields (j : Json) : Option (String × String × Int) :=
  match j.valueString "to" "", j.valueString "content" "", j.valueInt "id" 0 with
  | .ok recipientId, .ok content, .ok msgId => some (recipientId, content, msgId)
  | _, _, _ => none

def frameType (j : Json) : Option String := (j.valueString "type" "unknown").toOption

/-- `who` is what `(is_authenticated(), get_user_id())` are before the frame. -/
def replies (key : Bytes) (now : UInt64) (who : Bool × String) : Option Json → List Message
  | none => [invalidFormat]
  | some j =>
      match signInName (some j) with
      | some u => [authSuccess u (sessionToken u now) key now]
      | none =>
          if frameType j = some "message" then
            if who.1 then (chatFields j).toList.map (fun m => delivered (UInt64.ofInt m.2.2))
            else [notAuthenticated]
          else []

def requests (now : UInt64) (who : Bool × String) : Option Json → List Call
  | none => []
  | some j =>
      match signInName (some j) with
      | some u => markUserOnline u now ++ [.subscribe ("user:" ++ u)]
      | none =>
          if who.1 then
            if frameType j = some "message" then
              match chatFields j with
              | some (recipientId, content, msgId) =>
                  [.lpush (queueKey recipientId) [content], .expire (queueKey recipientId) 86400,
                    .publish ("user:" ++ recipientId)
                      (pubsubMsg who.2 content (UInt64.ofInt msgId) now).dump]
              | none => []
            else if frameType j = some "typing" then
              match j.valueString "chat_id" "", j.valueBool "typing" false with
              | .ok chatId, .ok typing =>
                  [.publish ("chat:" ++ chatId) (typingMsg who.2 chatId typing).dump]
              | _, _ => []
            else if frameType j = some "read" then
              match j.valueString "message_id" "" with
              | .ok messageId => [.hset ("message_status:" ++ messageId) ("read_by:" ++ who.2)
                  (toString (unixTime now))]
              | .error _ => []
            else []
          else []

/-- The answers to frames one after the other. -/
def conversation (key : Bytes) : Bool × String → List (UInt64 × Option Json) → List Message
  | _, [] => []
  | who, (now, raw) :: rest => replies key now who raw ++ conversation key (establish who raw) rest

namespace MessengerServer

variable {s : MessengerServer} {id : Int} {now : UInt64} {c : WebSocketConnection}

/-- What a handler returns, with `out` in answer and `calls` on Redis, or throws. -/
def Does (s : MessengerServer) (id : Int) (out : List Message) (calls : List Call) : Result → Prop
  | .ok (s', calls') => s'.pending id = s.pending id ++ out ∧ calls' = calls
  | .error _ => out = [] ∧ calls = []

/-- A change of the connection that adds to its queue. -/
theorem pending_modify {f : WebSocketConnection → WebSocketConnection} {out : List Message}
    (h : s.pool.connections.lookup id = some (some c))
    (hf : (f c).outgoingQueue = c.outgoingQueue ++ out) :
    pending { s with pool := s.pool.modify id f } id = s.pending id ++ out := by
  rw [pending_of_lookup (c := f c) (ConnectionPool.lookup_modify_self f h), pending_of_lookup h, hf]

theorem signInName_auth {j : Json} (htype : j.valueString "type" "unknown" = .ok "auth") :
    signInName (some j) =
      match j.valueString "username" "", j.valueString "password" "" with
      | .ok username, .ok _ => some username
      | _, _ => none := by
  simp only [signInName, htype]
  cases j.valueString "username" "" with
  | error e => rfl
  | ok username => cases j.valueString "password" "" <;> rfl

theorem does_authentication {j : Json} (h : s.pool.connections.lookup id = some (some c))
    (htype : j.valueString "type" "unknown" = .ok "auth") :
    s.Does id (replies s.serverPublicKey now (c.authenticated, c.userId) (some j))
      (requests now (c.authenticated, c.userId) (some j)) (handleAuthentication id now j s) := by
  have hget := ConnectionPool.getConnection_eq_some.mpr h
  have hname := signInName_auth htype
  have htype' : frameType j = some "auth" := by
    unfold frameType
    rw [htype]
    rfl
  unfold handleAuthentication
  rw [hget]
  simp only [replies, requests, htype']
  cases huser : j.valueString "username" "" with
  | error e =>
      rw [huser] at hname
      rw [hname]
      exact ⟨rfl, by simp⟩
  | ok username =>
      cases hpass : j.valueString "password" "" with
      | error e =>
          rw [huser, hpass] at hname
          rw [hname]
          exact ⟨rfl, by simp⟩
      | ok password =>
          rw [huser, hpass] at hname
          rw [hname]
          refine ⟨?_, rfl⟩
          have hsigned := ConnectionPool.lookup_modify_self
            (signIn username (sessionToken username now) now) h
          -- the queue is as before the name was put on the connection
          let s₁ : MessengerServer := { s with
            pool := (s.pool.modify id (signIn username (sessionToken username now) now)).registerUser
              username id }
          have hsame : s₁.pending id = s.pending id :=
            (pending_of_lookup (s := s₁) hsigned).trans (pending_of_lookup h).symm
          rw [← hsame]
          exact pending_modify (s := s₁) hsigned rfl

theorem does_chatMessage {j : Json} (h : s.pool.connections.lookup id = some (some c))
    (htype : j.valueString "type" "unknown" = .ok "message") (hauth : c.authenticated = true) :
    s.Does id (replies s.serverPublicKey now (c.authenticated, c.userId) (some j))
      (requests now (c.authenticated, c.userId) (some j))
      (handleChatMessage id c.userId now j s) := by
  have hname := signInName_of_type htype (by decide)
  have htype' : frameType j = some "message" := by
    unfold frameType
    rw [htype]
    rfl
  unfold handleChatMessage
  simp only [replies, requests, hname, htype', hauth, chatFields, if_true]
  cases j.valueString "to" "" with
  | error e => exact ⟨rfl, rfl⟩
  | ok recipientId =>
      cases j.valueString "content" "" with
      | error e => exact ⟨rfl, rfl⟩
      | ok content =>
          cases j.valueInt "id" 0 with
          | error e => exact ⟨rfl, rfl⟩
          | ok msgId => exact ⟨pending_modify h rfl, rfl⟩

/-- Typing, and what an unknown type would do: no answer. -/
theorem does_typingIndicator {j : Json} (h : s.pool.connections.lookup id = some (some c))
    (htype : j.valueString "type" "unknown" = .ok "typing") :
    s.Does id (replies s.serverPublicKey now (c.authenticated, c.userId) (some j))
      (requests now (c.authenticated, c.userId) (some j)) (handleTypingIndicator id j s) := by
  have hget := ConnectionPool.getConnection_eq_some.mpr h
  have hname := signInName_of_type htype (by decide)
  have htype' : frameType j = some "typing" := by
    unfold frameType
    rw [htype]
    rfl
  have hother : ¬ some "typing" = some "message" := by decide
  unfold handleTypingIndicator
  rw [hget]
  simp only [replies, requests, hname, htype', if_neg hother, if_true]
  cases c.authenticated with
  | false => exact ⟨(List.append_nil _).symm, rfl⟩
  | true =>
      cases j.valueString "chat_id" "" with
      | error e => exact ⟨rfl, rfl⟩
      | ok chatId =>
          cases j.valueBool "typing" false with
          | error e => exact ⟨rfl, rfl⟩
          | ok typing => exact ⟨pending_modify h (List.append_nil _).symm, rfl⟩

theorem does_readReceipt {j : Json} (h : s.pool.connections.lookup id = some (some c))
    (htype : j.valueString "type" "unknown" = .ok "read") :
    s.Does id (replies s.serverPublicKey now (c.authenticated, c.userId) (some j))
      (requests now (c.authenticated, c.userId) (some j)) (handleReadReceipt id now j s) := by
  have hget := ConnectionPool.getConnection_eq_some.mpr h
  have hname := signInName_of_type htype (by decide)
  have htype' : frameType j = some "read" := by
    unfold frameType
    rw [htype]
    rfl
  have hother : ¬ some "read" = some "message" := by decide
  have hother' : ¬ some "read" = some "typing" := by decide
  unfold handleReadReceipt
  rw [hget]
  simp only [replies, requests, hname, htype', if_neg hother, if_neg hother', if_true]
  cases c.authenticated with
  | false => exact ⟨(List.append_nil _).symm, rfl⟩
  | true =>
      cases j.valueString "message_id" "" with
      | error e => exact ⟨rfl, rfl⟩
      | ok messageId => exact ⟨(List.append_nil _).symm, rfl⟩

/-- The spec of `on_client_message`, for a connection that is there. -/
theorem does_onClientMessage (h : s.pool.connections.lookup id = some (some c)) (now : UInt64)
    (raw : Option Json) :
    s.Does id (replies s.serverPublicKey now (c.authenticated, c.userId) raw)
      (requests now (c.authenticated, c.userId) raw) (s.onClientMessage id now raw) := by
  have hget := ConnectionPool.getConnection_eq_some.mpr h
  cases raw with
  | none => exact ⟨pending_modify h rfl, rfl⟩
  | some j =>
      show s.Does id _ _ (handleMessage id now j s)
      unfold handleMessage
      rw [hget]
      cases htype : j.valueString "type" "unknown" with
      | error e =>
          have hname : signInName (some j) = none := by simp only [signInName, htype]
          have hnone : frameType j = none := by
            unfold frameType
            rw [htype]
            rfl
          refine ⟨?_, ?_⟩
          · simp [replies, hname, hnone]
          · simp [requests, hname, hnone]
      | ok type =>
          show s.Does id _ _ (if type = "auth" then _ else _)
          have hframe : frameType j = some type := by
            unfold frameType
            rw [htype]
            rfl
          by_cases hauth : type = "auth"
          · rw [if_pos hauth]
            exact does_authentication h (by rw [htype, hauth])
          rw [if_neg hauth]
          by_cases hmessage : type = "message"
          · rw [if_pos hmessage]
            have htype' : j.valueString "type" "unknown" = .ok "message" := by rw [htype, hmessage]
            by_cases hwho : c.authenticated = true
            · rw [if_pos hwho]
              exact does_chatMessage h htype' hwho
            · rw [if_neg hwho]
              have hname := signInName_of_type htype' (by decide)
              have hno : c.authenticated = false := by simpa using hwho
              refine ⟨?_, ?_⟩
              · simp only [replies, hname, hframe, hmessage, if_true, hno]
                exact pending_modify h rfl
              · simp [requests, hname, hno]
          rw [if_neg hmessage]
          by_cases htyping : type = "typing"
          · rw [if_pos htyping]
            exact does_typingIndicator h (by rw [htype, htyping])
          rw [if_neg htyping]
          by_cases hread : type = "read"
          · rw [if_pos hread]
            exact does_readReceipt h (by rw [htype, hread])
          rw [if_neg hread]
          have hname := signInName_of_type htype hauth
          refine ⟨?_, ?_⟩
          · simp [replies, hname, hframe, hmessage]
          · simp [requests, hname, hframe, hmessage, htyping, hread]

end MessengerServer

/-! ## The frames of a socket -/

/-- The frames since the last open of `a`, after one more event. -/
def hear (a : UInt64) (frames : List (UInt64 × Option Json)) :
    UInt64 × SocketEvent → List (UInt64 × Option Json)
  | (_, .opened b) => if b = a then [] else frames
  | (now, .message b raw) => if b = a then frames ++ [(now, raw)] else frames
  | _ => frames

def heard (a : UInt64) (es : List (UInt64 × SocketEvent)) : List (UInt64 × Option Json) :=
  es.foldl (hear a) []

theorem heard_concat (a : UInt64) (es : List (UInt64 × SocketEvent)) (e : UInt64 × SocketEvent) :
    heard a (es ++ [e]) = hear a (heard a es) e := List.foldl_concat ..

namespace Endpoint

/-- Each open socket has its connection, and has been spoken to as its own frames ask. -/
structure Spoken (key : Bytes) (es : List (UInt64 × SocketEvent)) (w : Endpoint) : Prop where
  inv : SocketInv w
  publicKey : w.server.serverPublicKey = key
  live : ∀ a k, w.sockets.lookup a = some k →
    ∃ c, w.server.pool.connections.lookup (connectionId a) = some (some c)
  received : ∀ a k, w.sockets.lookup a = some k → k.received = (heard a es).map Prod.snd
  answers : ∀ a k, w.sockets.lookup a = some k →
    k.answers = conversation key (false, "") (heard a es)

section Steps

variable {key : Bytes} {es : List (UInt64 × SocketEvent)} {w w' : Endpoint} {a : UInt64} {k : Socket}

/-- One socket changes, with its connection, and its frames are `l` then. -/
theorem Spoken.put (h : Spoken key es w) {server : MessengerServer} {e : UInt64 × SocketEvent}
    (hinv : SocketInv { server := server, sockets := w.sockets.insert a k })
    (hkey : server.serverPublicKey = w.server.serverPublicKey)
    (hother : ∀ i, i ≠ connectionId a →
      server.pool.connections.lookup i = w.server.pool.connections.lookup i)
    (hlive : ∃ c, server.pool.connections.lookup (connectionId a) = some (some c))
    (hreceived : k.received = (hear a (heard a es) e).map Prod.snd)
    (hanswers : k.answers = conversation key (false, "") (hear a (heard a es) e))
    (hheard : ∀ b, b ≠ a → hear b (heard b es) e = heard b es) :
    Spoken key (es ++ [e]) { server := server, sockets := w.sockets.insert a k } := by
  have at_iff : ∀ {b l}, AList.lookup b (AList.insert a k w.sockets) = some l →
      b = a ∧ l = k ∨ b ≠ a ∧ w.sockets.lookup b = some l := by
    intro b l hl
    rw [Assoc.lookup_insert] at hl
    split at hl
    · cases hl
      exact Or.inl ⟨‹_›, rfl⟩
    · exact Or.inr ⟨‹_›, hl⟩
  refine ⟨hinv, hkey.trans h.publicKey, fun b l hb => ?_, fun b l hb => ?_, fun b l hb => ?_⟩
  · by_cases hba : connectionId b = connectionId a
    · show ∃ c, server.pool.connections.lookup (connectionId b) = some (some c)
      rw [hba]
      exact hlive
    · show ∃ c, server.pool.connections.lookup (connectionId b) = some (some c)
      rw [hother _ hba]
      rcases at_iff hb with ⟨rfl, _⟩ | ⟨_, hb⟩
      · exact absurd rfl hba
      · exact h.live b l hb
  · rw [heard_concat]
    rcases at_iff hb with ⟨rfl, rfl⟩ | ⟨hba, hb⟩
    · exact hreceived
    · rw [hheard b hba]
      exact h.received b l hb
  · rw [heard_concat]
    rcases at_iff hb with ⟨rfl, rfl⟩ | ⟨hba, hb⟩
    · exact hanswers
    · rw [hheard b hba]
      exact h.answers b l hb

/-- What the connection of a socket is by the frames of the socket. -/
theorem Spoken.who (h : Spoken key es w) (hk : w.sockets.lookup a = some k)
    {c : WebSocketConnection}
    (hc : w.server.pool.connections.lookup (connectionId a) = some (some c)) :
    (c.authenticated, c.userId) = ((heard a es).map Prod.snd).foldl establish (false, "") := by
  have hfits := h.inv.fits a k hk
  rw [hc] at hfits
  exact hfits.1.trans (by rw [h.received a k hk]; rfl)

end Steps

/-! ## Runs -/

end Endpoint

end MessengerBackend.Ws
