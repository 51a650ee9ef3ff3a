/-
  `MessengerServer`: what it does on each event of a client, and its own operations.

  A handler gives the next state and the calls it makes on `redis_`, in order. Their results
  are not looked at, so that a handler goes on in the same way whatever they are, as long as
  each call comes back; Ws/Malformed is about those that do not. An exception of `json::value`
  leaves a handler before it has changed or called anything.

  Not here: the ratchet that `handle_authentication` makes for the user (nothing reads it),
  and the lock around it, which is taken as got and given back; Ws/RatchetMutex has it.
-/
import MessengerBackend.Dump
import MessengerBackend.E2E.Hex
import MessengerBackend.Lib.Runs
import MessengerBackend.Redis.Hiredis
import MessengerBackend.Ws.Connection

namespace MessengerBackend.Ws

open Redis (Call)
open WebSocketConnection (queueMessage)

structure MessengerServer where
  pool : ConnectionPool := {}
  /-- The public half of `server_keys_`. -/
  serverPublicKey : Bytes

/-- `std::time(nullptr)` -/
def unixTime (now : UInt64) : Int := now.toNat / 1000000000

abbrev Result := Except JsonError (MessengerServer × List Call)

namespace MessengerServer

/-- `conn->queue_message(msg)` -/
def queue (id : Int) (msg : Message) (s : MessengerServer) : MessengerServer :=
  { s with pool := s.pool.modify id (queueMessage msg) }

/-! ## Sessions and presence -/

/-- A placeholder that accepts everybody. -/
def authenticateUser (username _password : String) (now : UInt64) : Option (String × String) :=
  some (username, "token_" ++ username ++ "_" ++ toString (unixTime now))

def markUserOnline (userId : String) (now : UInt64) : List Call :=
  [.set ("online:" ++ userId) (toString (unixTime now)) 300,
    .publish "user_status" (Json.dump (.obj [("type", .str "user_online"), ("user_id", .str userId),
      ("timestamp", .num (unixTime now))]))]

def markUserOffline (userId : String) (now : UInt64) : List Call :=
  [.del ("online:" ++ userId),
    .publish "user_status" (Json.dump (.obj [("type", .str "user_offline"),
      ("user_id", .str userId), ("last_seen", .num (unixTime now))]))]

/-! ## Connections -/

def onClientConnected (id : Int) (now : UInt64) (s : MessengerServer) : MessengerServer :=
  match s.pool.createConnection id now with
  | none => s
  | some pool => { s with pool := pool.modify id (WebSocketConnection.markConnected now) }

def onClientDisconnected (id : Int) (now : UInt64) (s : MessengerServer) :
    Option (MessengerServer × List Call) :=
  let calls := match s.pool.getConnection id with
    | some c =>
        if c.userId = "" then []
        else markUserOffline c.userId now ++
          [.publish "user_status" (Json.dump (.obj [("user_id", .str c.userId),
            ("timestamp", .num (unixTime now))]))]
    | none => []
  (s.pool.removeConnection id).map (fun x => ({ s with pool := x.1 }, calls))

/-! ## Frames -/

/-- The connection as it is once the user is known. -/
def signIn (userId sessionToken : String) (now : UInt64) (c : WebSocketConnection) :
    WebSocketConnection :=
  ((c.setUserId userId).setSessionId sessionToken).markAuthenticated now

def authSuccess (userId sessionToken : String) (publicKey : Bytes) (now : UInt64) : Message where
  type := "auth_success"
  payload := .obj [("user_id", .str userId), ("session_token", .str sessionToken),
    ("server_public_key", .str (E2E.bytesToHex publicKey)), ("timestamp", .num (unixTime now))]

def authFailed : Message where
  type := "auth_failed"
  payload := .obj [("message", .str "Invalid credentials"), ("code", .str "INVALID_AUTH")]

def handleAuthentication (id : Int) (now : UInt64) (authData : Json) (s : MessengerServer) :
    Result :=
  match s.pool.getConnection id with
  | none => .ok (s, [])
  | some _ => do
      let username ← authData.valueString "username" ""
      let password ← authData.valueString "password" ""
      match authenticateUser username password now with
      | some (userId, sessionToken) =>
          let pool := (s.pool.modify id (signIn userId sessionToken now)).registerUser userId id
          pure (queue id (authSuccess userId sessionToken s.serverPublicKey now)
            { s with pool := pool }, markUserOnline userId now ++ [.subscribe ("user:" ++ userId)])
      | none => pure (queue id authFailed s, [])

def queueKey (recipientId : String) : String := "queue:messages:" ++ recipientId

def pubsubMsg (senderId encryptedContent : String) (msgId : UInt64) (now : UInt64) : Json :=
  .obj [("type", .str "message"), ("from", .str senderId), ("message_id", .num msgId.toNat),
    ("content", .str encryptedContent), ("timestamp", .num (unixTime now))]

def delivered (msgId : UInt64) : Message where
  type := "message_delivered"
  payload := .obj [("message_id", .num msgId.toNat), ("status", .str "queued")]

/-- The branch of `handle_message` for an authenticated `message`. -/
def handleChatMessage (id : Int) (senderId : String) (now : UInt64) (message : Json)
    (s : MessengerServer) : Result := do
  let recipientId ← message.valueString "to" ""
  let encryptedContent ← message.valueString "content" ""
  let msgId ← message.valueInt "id" 0
  pure (queue id (delivered (UInt64.ofInt msgId)) s,
    [.lpush (queueKey recipientId) [encryptedContent], .expire (queueKey recipientId) 86400,
      .publish ("user:" ++ recipientId)
        (pubsubMsg senderId encryptedContent (UInt64.ofInt msgId) now).dump])

def typingMsg (userId chatId : String) (typing : Bool) : Json :=
  .obj [("type", .str "user_typing"), ("user_id", .str userId), ("chat_id", .str chatId),
    ("typing", .bool typing)]

def handleTypingIndicator (id : Int) (data : Json) (s : MessengerServer) : Result :=
  match s.pool.getConnection id with
  | none => .ok (s, [])
  | some c =>
      if c.authenticated then do
        let chatId ← data.valueString "chat_id" ""
        let typing ← data.valueBool "typing" false
        pure ({ s with pool := s.pool.modify id (WebSocketConnection.setTyping typing) },
          [.publish ("chat:" ++ chatId) (typingMsg c.userId chatId typing).dump])
      else .ok (s, [])

def handleReadReceipt (id : Int) (now : UInt64) (data : Json) (s : MessengerServer) : Result :=
  match s.pool.getConnection id with
  | none => .ok (s, [])
  | some c =>
      if c.authenticated then do
        let messageId ← data.valueString "message_id" ""
        pure (s, [.hset ("message_status:" ++ messageId) ("read_by:" ++ c.userId)
          (toString (unixTime now))])
      else .ok (s, [])

def notAuthenticated : Message where
  type := "error"
  payload := .obj [("message", .str "Not authenticated")]

def invalidFormat : Message where
  type := "error"
  payload := .obj [("message", .str "Invalid message format"), ("code", .str "INVALID_FORMAT")]

def handleMessage (id : Int) (now : UInt64) (message : Json) (s : MessengerServer) : Result :=
  match s.pool.getConnection id with
  | none => .ok (s, [])
  | some c => do
      let type ← message.valueString "type" "unknown"
      if type = "auth" then handleAuthentication id now message s
      else if type = "message" then
        if c.authenticated then handleChatMessage id c.userId now message s
        else pure (queue id notAuthenticated s, [])
      else if type = "typing" then handleTypingIndicator id message s
      else if type = "read" then handleReadReceipt id now message s
      else pure (s, [])

/-- `raw` is what `json::parse` makes of the data; only its own error is caught. -/
def onClientMessage (id : Int) (now : UInt64) (raw : Option Json) (s : MessengerServer) : Result :=
  match raw with
  | some message => handleMessage id now message s
  | none => .ok (queue id invalidFormat s, [])

/-! ## What a frame does -/

end MessengerServer

/-- The name of an auth frame that is well formed. -/
def signInName (raw : Option Json) : Option String :=
  match raw with
  | none => none
  | some j =>
      match j.valueString "type" "unknown", j.valueString "username" "",
        j.valueString "password" "" with
      | .ok type, .ok username, .ok _ => if type = "auth" then some username else none
      | _, _, _ => none

theorem signInName_of_type {j : Json} {type : String} (h : j.valueString "type" "unknown" = .ok type)
    (hne : type ≠ "auth") : signInName (some j) = none := by
  unfold signInName
  simp only [h]
  split
  · rename_i heq _ _
    cases heq
    exact if_neg hne
  · rfl

namespace MessengerServer

/-- Everything a frame of connection `id` may lead to, an exception apart. -/
inductive Handled (s : MessengerServer) (id : Int) (now : UInt64) :
    Option Json → MessengerServer → List Call → Prop where
  | unparsed : Handled s id now none (s.queue id invalidFormat) []
  | ignored {j : Json} : s.pool.getConnection id = none ∨ signInName (some j) = none →
      Handled s id now (some j) s []
  | refused {j : Json} {c : WebSocketConnection} : s.pool.getConnection id = some c →
      j.valueString "type" "unknown" = .ok "message" → c.authenticated = false →
      Handled s id now (some j) (s.queue id notAuthenticated) []
  | signedIn {j : Json} {c : WebSocketConnection} {u : String} :
      s.pool.getConnection id = some c → signInName (some j) = some u →
      Handled s id now (some j)
        (queue id (authSuccess u ("token_" ++ u ++ "_" ++ toString (unixTime now))
            s.serverPublicKey now)
          { s with
            pool := (s.pool.modify id (signIn u
              ("token_" ++ u ++ "_" ++ toString (unixTime now)) now)).registerUser u id })
        (markUserOnline u now ++ [.subscribe ("user:" ++ u)])
  | routed {j : Json} {c : WebSocketConnection} {recipientId content : String}
      {msgId : Int} : s.pool.getConnection id = some c → c.authenticated = true →
      j.valueString "type" "unknown" = .ok "message" → j.valueString "to" "" = .ok recipientId →
      j.valueString "content" "" = .ok content → j.valueInt "id" 0 = .ok msgId →
      Handled s id now (some j) (s.queue id (delivered (UInt64.ofInt msgId)))
        [.lpush (queueKey recipientId) [content], .expire (queueKey recipientId) 86400,
          .publish ("user:" ++ recipientId)
            (pubsubMsg c.userId content (UInt64.ofInt msgId) now).dump]
  | typing {j : Json} {c : WebSocketConnection} {chatId : String} {typing : Bool} :
      s.pool.getConnection id = some c → c.authenticated = true →
      j.valueString "type" "unknown" = .ok "typing" → Handled s id now (some j)
        { s with pool := s.pool.modify id (WebSocketConnection.setTyping typing) }
        [.publish ("chat:" ++ chatId) (typingMsg c.userId chatId typing).dump]
  | read {j : Json} {c : WebSocketConnection} {messageId : String} :
      s.pool.getConnection id = some c → c.authenticated = true →
      j.valueString "type" "unknown" = .ok "read" → Handled s id now (some j) s
        [.hset ("message_status:" ++ messageId) ("read_by:" ++ c.userId) (toString (unixTime now))]

section Handlers

variable {s s' : MessengerServer} {id : Int} {now : UInt64} {j : Json} {c : WebSocketConnection}
  {calls : List Call}

theorem handled_authentication (hc : s.pool.getConnection id = some c)
    (htype : j.valueString "type" "unknown" = .ok "auth")
    (h : handleAuthentication id now j s = .ok (s', calls)) :
    Handled s id now (some j) s' calls := by
  unfold handleAuthentication at h
  rw [hc] at h
  obtain ⟨username, hname, h⟩ := Except.bind_ok.mp h
  obtain ⟨password, hpassword, h⟩ := Except.bind_ok.mp h
  cases h
  refine .signedIn hc ?_
  simp only [signInName, htype, hname, hpassword, if_true]

theorem handled_chatMessage (hc : s.pool.getConnection id = some c) (hauth : c.authenticated = true)
    (htype : j.valueString "type" "unknown" = .ok "message")
    (h : handleChatMessage id c.userId now j s = .ok (s', calls)) :
    Handled s id now (some j) s' calls := by
  unfold handleChatMessage at h
  obtain ⟨recipientId, hto, h⟩ := Except.bind_ok.mp h
  obtain ⟨content, hcontent, h⟩ := Except.bind_ok.mp h
  obtain ⟨msgId, hid, h⟩ := Except.bind_ok.mp h
  cases h
  exact .routed hc hauth htype hto hcontent hid

theorem handled_typingIndicator (hc : s.pool.getConnection id = some c)
    (htype : j.valueString "type" "unknown" = .ok "typing")
    (h : handleTypingIndicator id j s = .ok (s', calls)) : Handled s id now (some j) s' calls := by
  unfold handleTypingIndicator at h
  rw [hc] at h
  by_cases hauth : c.authenticated = true
  · simp only [if_pos hauth] at h
    obtain ⟨chatId, _, h⟩ := Except.bind_ok.mp h
    obtain ⟨typing, _, h⟩ := Except.bind_ok.mp h
    cases h
    exact .typing hc hauth htype
  · simp only [if_neg hauth] at h
    cases h
    exact .ignored (Or.inr (signInName_of_type htype (by decide)))

theorem handled_readReceipt (hc : s.pool.getConnection id = some c)
    (htype : j.valueString "type" "unknown" = .ok "read")
    (h : handleReadReceipt id now j s = .ok (s', calls)) : Handled s id now (some j) s' calls := by
  unfold handleReadReceipt at h
  rw [hc] at h
  by_cases hauth : c.authenticated = true
  · simp only [if_pos hauth] at h
    obtain ⟨messageId, _, h⟩ := Except.bind_ok.mp h
    cases h
    exact .read hc hauth htype
  · simp only [if_neg hauth] at h
    cases h
    exact .ignored (Or.inr (signInName_of_type htype (by decide)))

/-- The inversion lemma for one frame. -/
theorem handled_of_onClientMessage {raw : Option Json}
    (h : s.onClientMessage id now raw = .ok (s', calls)) : Handled s id now raw s' calls := by
  cases raw with
  | none =>
      cases h
      exact .unparsed
  | some j =>
      have h : handleMessage id now j s = .ok (s', calls) := h
      unfold handleMessage at h
      split at h
      · rename_i hc
        cases h
        exact .ignored (Or.inl hc)
      · rename_i c hc
        obtain ⟨type, htype, h⟩ := Except.bind_ok.mp h
        split at h
        · rename_i hauth
          subst hauth
          exact handled_authentication hc htype h
        · rename_i hother
          have hname := signInName_of_type htype hother
          split at h
          · rename_i hmessage
            subst hmessage
            split at h
            · rename_i hauth
              exact handled_chatMessage hc hauth htype h
            · rename_i hauth
              cases h
              exact .refused hc htype (by simpa using hauth)
          · split at h
            · rename_i htyping
              subst htyping
              exact handled_typingIndicator hc htype h
            · split at h
              · rename_i hread
                subst hread
                exact handled_readReceipt hc htype h
              · cases h
                exact .ignored (Or.inr hname)

/-- Without the connection there is nothing to change. -/
theorem queue_absent (hno : s.pool.getConnection id = none) (msg : Message) :
    s.queue id msg = s := by
  unfold queue ConnectionPool.modify
  split
  · rename_i c hc
    rw [ConnectionPool.getConnection_eq_some.mpr hc] at hno
    cases hno
  · rfl

/-- Nor is there anything to do. -/
theorem handled_absent {raw : Option Json} (h : Handled s id now raw s' calls)
    (hno : s.pool.getConnection id = none) : s' = s ∧ calls = [] := by
  have gone : ∀ {d : WebSocketConnection}, s.pool.getConnection id ≠ some d := by
    intro d hd
    rw [hno] at hd
    cases hd
  cases h with
  | unparsed => exact ⟨queue_absent hno _, rfl⟩
  | ignored _ => exact ⟨rfl, rfl⟩
  | refused hc _ _ => exact absurd hc gone
  | signedIn hc _ => exact absurd hc gone
  | routed hc _ _ _ _ _ => exact absurd hc gone
  | typing hc _ _ => exact absurd hc gone
  | read hc _ _ => exact absurd hc gone

/-- A frame that throws names nobody. -/
theorem signInName_of_throws {raw : Option Json} {e : JsonError}
    (hc : s.pool.getConnection id = some c) (h : s.onClientMessage id now raw = .error e) :
    signInName raw = none := by
  cases raw with
  | none => rfl
  | some j =>
      have h : handleMessage id now j s = .error e := h
      by_contra hname
      obtain ⟨u, hu⟩ := Option.ne_none_iff_exists'.mp hname
      unfold signInName at hu
      simp only at hu
      split at hu
      · rename_i type username password htype hname hpassword
        split at hu
        · rename_i hauth
          subst hauth
          unfold handleMessage at h
          simp only [hc, htype] at h
          have hsign : handleAuthentication id now j s = .error e := h
          unfold handleAuthentication at hsign
          simp only [hc, hname, hpassword] at hsign
          cases hsign
        · cases hu
      · cases hu

end Handlers

/-! ## Operations of the server itself -/

def sendToUser (userId : String) (msg : Message) (s : MessengerServer) : MessengerServer :=
  { s with pool := s.pool.broadcastToUser userId msg }

/-- The status, and the state with what the lookup has done to the pool. -/
def getUserStatus (userId : String) (s : MessengerServer) : MessengerServer × Json :=
  ({ s with pool := (s.pool.findByUser userId).1 },
    match (s.pool.findByUser userId).2 with
    | some (_, c) => .obj [("online", .bool true), ("user_id", .str userId),
        ("last_activity", .num c.lastActivity.toNat), ("typing", .bool c.isTyping)]
    | none => .obj [("online", .bool false), ("user_id", .str userId), ("last_activity", .num 0)])

end MessengerServer

/-! ## Events -/

inductive Event where
  | connected (id : Int)
  | disconnected (id : Int)
  | message (id : Int) (raw : Option Json)
  | findByUser (userId : String)
  | sendToUser (userId : String) (msg : Message)
  | getUserStatus (userId : String)
  | broadcastExcept (exclude : Int) (msg : Message)
  | cleanupInactive (timeoutMs : UInt64)

namespace MessengerServer

/-- The state after an event at time `now`; `none` when a null pointer is dereferenced. -/
def step (s : MessengerServer) : UInt64 × Event → Option MessengerServer
  | (now, .connected id) => some (s.onClientConnected id now)
  | (now, .disconnected id) => (s.onClientDisconnected id now).map Prod.fst
  | (now, .message id raw) =>
      match s.onClientMessage id now raw with
      | .ok (s', _) => some s'
      | .error _ => some s
  | (_, .findByUser userId) => some { s with pool := (s.pool.findByUser userId).1 }
  | (_, .sendToUser userId msg) => some (s.sendToUser userId msg)
  | (_, .getUserStatus userId) => some (s.getUserStatus userId).1
  | (_, .broadcastExcept exclude msg) =>
      (s.pool.broadcastExcept exclude msg).map (fun pool => { s with pool := pool })
  | (now, .cleanupInactive timeoutMs) =>
      (s.pool.cleanupInactive timeoutMs now).map (fun pool => { s with pool := pool })

/-- The inversion lemma for a disconnect. -/
theorem disconnected_cases {s s' : MessengerServer} {id : Int} {now : UInt64} {calls : List Call}
    (h : s.onClientDisconnected id now = some (s', calls)) :
    (∃ c, s.pool.connections.lookup id = some (some c) ∧
      s' = { s with pool := s.pool.drop id c.userId } ∧
      calls = if c.userId = "" then []
        else markUserOffline c.userId now ++
          [.publish "user_status" (Json.dump (.obj [("user_id", .str c.userId),
            ("timestamp", .num (unixTime now))]))]) ∨
    s.pool.connections.lookup id = none ∧ s' = s ∧ calls = [] := by
  obtain ⟨⟨pool, found⟩, hpool, heq⟩ := Option.map_eq_some_iff.mp h
  obtain ⟨rfl, rfl⟩ := Prod.mk.inj heq
  unfold ConnectionPool.removeConnection at hpool
  split at hpool
  · rename_i c hc
    cases hpool
    rw [ConnectionPool.getConnection_eq_some.mpr hc]
    exact Or.inl ⟨c, hc, rfl, rfl⟩
  · cases hpool
  · rename_i hno
    cases hpool
    have hget : s.pool.getConnection id = none := by
      unfold ConnectionPool.getConnection
      rw [hno]
      rfl
    rw [hget]
    exact Or.inr ⟨hno, rfl, rfl⟩

/-- And for a frame. -/
theorem message_cases {s s' : MessengerServer} {id : Int} {now : UInt64} {raw : Option Json}
    (h : s.step (now, .message id raw) = some s') :
    (∃ calls, s.onClientMessage id now raw = .ok (s', calls)) ∨
      (∃ e, s.onClientMessage id now raw = .error e) ∧ s' = s := by
  cases hm : s.onClientMessage id now raw with
  | ok x =>
      simp only [step, hm] at h
      cases h
      exact Or.inl ⟨x.2, rfl⟩
  | error e =>
      simp only [step, hm] at h
      cases h
      exact Or.inr ⟨⟨e, rfl⟩, rfl⟩

/-- A server without connections. -/
def empty (serverPublicKey : Bytes) : MessengerServer := ⟨{}, serverPublicKey⟩

end MessengerServer

end MessengerBackend.Ws
