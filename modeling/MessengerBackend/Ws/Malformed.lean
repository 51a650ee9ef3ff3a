/-
  Data that is no frame: `on_client_message` on any bytes.

  Only `json::parse_error` is caught. A value that does not convert is a type_error, which
  leaves the handler and `on_client_message` with it; a number that no double holds is an
  out_of_range of the parser, which leaves it at once. A call of the `RedisClient` may not come
  back at all.

  * `Robust`: the handler returns, and if the data is malformed, one error frame is all that
    comes of it.
  * `robust_iff`: exactly when. `type_error_escapes` is the shortest way to miss it.

  What `json::parse` makes of the data, and from which texts `send_command` comes back, are
  parameters. It does not come back when `pool_mutex_` is held for good or a reconnect fails
  (Redis/Pool), and it crashes on a null context and on a text with directives, as
  "%s%s%s%s", for which `redisCommand` reads arguments that are not there.
-/
import MessengerBackend.Ws.Conversation

namespace MessengerBackend.Ws

open Redis (Call)

/-- What `json::parse` comes to. -/
inductive Parsed where
  | value (j : Json)
  | parseError
  /-- A number out of range. -/
  | outOfRange

/-- How `on_client_message` does not return: an exception leaves it, or a call of the
    `RedisClient` is not over. -/
inductive Escape where
  | typeError
  | outOfRange
  | lost

/-- A read of `json::value` that does not throw. -/
def Converts {α : Type} (read : Except JsonError α) : Prop := ∃ a, read = .ok a

/-- The fields that the handler of this type reads convert. Those of a chat message, a typing
    indicator and a read receipt are read for a sender who is authenticated. -/
def FieldsConvert (authenticated : Bool) (type : String) (j : Json) : Prop :=
  if type = "auth" then
    Converts (j.valueString "username" "") ∧ Converts (j.valueString "password" "")
  else if type = "message" then
    authenticated = true → Converts (j.valueString "to" "") ∧
      Converts (j.valueString "content" "") ∧ Converts (j.valueInt "id" 0)
  else if type = "typing" then
    authenticated = true → Converts (j.valueString "chat_id" "") ∧
      Converts (j.valueBool "typing" false)
  else if type = "read" then authenticated = true → Converts (j.valueString "message_id" "")
  else True

/-- An object whose type and fields convert. -/
def WellTyped (authenticated : Bool) (j : Json) : Prop :=
  ∃ type, j.valueString "type" "unknown" = .ok type ∧ FieldsConvert authenticated type j

/-- Not JSON, or not well typed; for a connection that is not there, as if its sender were
    authenticated. -/
def Malformed (c : Option WebSocketConnection) : Parsed → Prop
  | .value j => ¬ WellTyped ((c.map WebSocketConnection.authenticated).getD true) j
  | .parseError => True
  | .outOfRange => False

namespace MessengerServer

/-- The handler's calls, one after the other. -/
def calling (returns : String → Bool) : Result → Except Escape (MessengerServer × List Call)
  | .error _ => .error .typeError
  | .ok (s, calls) =>
      if (calls.filterMap Call.command).all returns then .ok (s, calls) else .error .lost

/-- `on_client_message(connection_id, raw_data)` -/
def onClientData (parse : Bytes → Parsed) (returns : String → Bool) (id : Int) (now : UInt64)
    (data : Bytes) (s : MessengerServer) : Except Escape (MessengerServer × List Call) :=
  match parse data with
  | .value j => calling returns (s.onClientMessage id now (some j))
  | .parseError => calling returns (s.onClientMessage id now none)
  | .outOfRange => .error .outOfRange

/-- It returns; and if the data is malformed, there is no call, and no change but an error frame
    on the queue of the connection, if it is there. -/
def Robust (parse : Bytes → Parsed) (returns : String → Bool) (id : Int) (now : UInt64)
    (data : Bytes) (s : MessengerServer) : Prop :=
  ∃ s' calls, s.onClientData parse returns id now data = .ok (s', calls) ∧
    (Malformed (s.pool.getConnection id) (parse data) →
      calls = [] ∧ ∃ msg : Message, msg.type = "error" ∧ s' = s.queue id msg)

/-! ## The handlers -/

section Handlers

variable {s s' : MessengerServer} {id : Int} {now : UInt64} {j : Json} {c : WebSocketConnection}

theorem authentication_ok (hc : s.pool.getConnection id = some c) :
    Converts (handleAuthentication id now j s) ↔
      Converts (j.valueString "username" "") ∧ Converts (j.valueString "password" "") := by
  unfold Converts handleAuthentication
  rw [hc]
  constructor
  · rintro ⟨r, h⟩
    obtain ⟨username, hname, h⟩ := Except.bind_ok.mp h
    obtain ⟨password, hpassword, _⟩ := Except.bind_ok.mp h
    exact ⟨⟨username, hname⟩, password, hpassword⟩
  · rintro ⟨⟨username, hname⟩, password, hpassword⟩
    exact ⟨_, Except.bind_ok.mpr ⟨username, hname, Except.bind_ok.mpr ⟨password, hpassword, rfl⟩⟩⟩

theorem chatMessage_ok (senderId : String) :
    Converts (handleChatMessage id senderId now j s) ↔ Converts (j.valueString "to" "") ∧
      Converts (j.valueString "content" "") ∧ Converts (j.valueInt "id" 0) := by
  unfold Converts handleChatMessage
  constructor
  · rintro ⟨r, h⟩
    obtain ⟨recipientId, hto, h⟩ := Except.bind_ok.mp h
    obtain ⟨content, hcontent, h⟩ := Except.bind_ok.mp h
    obtain ⟨msgId, hid, _⟩ := Except.bind_ok.mp h
    exact ⟨⟨recipientId, hto⟩, ⟨content, hcontent⟩, msgId, hid⟩
  · rintro ⟨⟨recipientId, hto⟩, ⟨content, hcontent⟩, msgId, hid⟩
    exact ⟨_, Except.bind_ok.mpr ⟨recipientId, hto, Except.bind_ok.mpr ⟨content, hcontent,
      Except.bind_ok.mpr ⟨msgId, hid, rfl⟩⟩⟩⟩

theorem typingIndicator_ok (hc : s.pool.getConnection id = some c) :
    Converts (handleTypingIndicator id j s) ↔ (c.authenticated = true →
      Converts (j.valueString "chat_id" "") ∧ Converts (j.valueBool "typing" false)) := by
  unfold Converts handleTypingIndicator
  rw [hc]
  by_cases hauth : c.authenticated = true
  · simp only [if_pos hauth]
    constructor
    · rintro ⟨r, h⟩ _
      obtain ⟨chatId, hchat, h⟩ := Except.bind_ok.mp h
      obtain ⟨typing, htyping, _⟩ := Except.bind_ok.mp h
      exact ⟨⟨chatId, hchat⟩, typing, htyping⟩
    · intro h
      obtain ⟨⟨chatId, hchat⟩, typing, htyping⟩ := h hauth
      exact ⟨_, Except.bind_ok.mpr ⟨chatId, hchat, Except.bind_ok.mpr ⟨typing, htyping, rfl⟩⟩⟩
  · simp only [if_neg hauth]
    exact ⟨fun _ h => absurd h hauth, fun _ => ⟨_, rfl⟩⟩

theorem readReceipt_ok (hc : s.pool.getConnection id = some c) :
    Converts (handleReadReceipt id now j s) ↔
      (c.authenticated = true → Converts (j.valueString "message_id" "")) := by
  unfold Converts handleReadReceipt
  rw [hc]
  by_cases hauth : c.authenticated = true
  · simp only [if_pos hauth]
    constructor
    · rintro ⟨r, h⟩ _
      obtain ⟨messageId, hmessage, _⟩ := Except.bind_ok.mp h
      exact ⟨messageId, hmessage⟩
    · intro h
      obtain ⟨messageId, hmessage⟩ := h hauth
      exact ⟨_, Except.bind_ok.mpr ⟨messageId, hmessage, rfl⟩⟩
  · simp only [if_neg hauth]
    exact ⟨fun _ h => absurd h hauth, fun _ => ⟨_, rfl⟩⟩

/-- A frame of a connection that is there is handled exactly when it is well typed. -/
theorem message_ok (hc : s.pool.getConnection id = some c) :
    Converts (handleMessage id now j s) ↔ WellTyped c.authenticated j := by
  have htyped : Converts (handleMessage id now j s) ↔ ∃ type,
      j.valueString "type" "unknown" = .ok type ∧ Converts (
        if type = "auth" then handleAuthentication id now j s
        else if type = "message" then
          if c.authenticated then handleChatMessage id c.userId now j s
          else pure (queue id notAuthenticated s, [])
        else if type = "typing" then handleTypingIndicator id j s
        else if type = "read" then handleReadReceipt id now j s
        else pure (s, [])) := by
    unfold Converts handleMessage
    rw [hc]
    constructor
    · rintro ⟨r, h⟩
      obtain ⟨type, htype, h⟩ := Except.bind_ok.mp h
      exact ⟨type, htype, r, h⟩
    · rintro ⟨type, htype, r, h⟩
      exact ⟨r, Except.bind_ok.mpr ⟨type, htype, h⟩⟩
  rw [htyped, WellTyped]
  refine exists_congr (fun type => and_congr_right (fun _ => ?_))
  unfold FieldsConvert
  split
  · exact authentication_ok hc
  · split
    · by_cases hauth : c.authenticated = true
      · rw [if_pos hauth]
        exact (chatMessage_ok c.userId).trans ⟨fun h _ => h, fun h => h hauth⟩
      · rw [if_neg hauth]
        exact ⟨fun _ h => absurd h hauth, fun _ => ⟨_, rfl⟩⟩
    · split
      · exact typingIndicator_ok hc
      · split
        · exact readReceipt_ok hc
        · exact ⟨fun _ => trivial, fun _ => ⟨_, rfl⟩⟩

theorem calling_ok {returns : String → Bool} {r : Result} {s' : MessengerServer}
    {calls : List Call} : calling returns r = .ok (s', calls) ↔
      r = .ok (s', calls) ∧ ∀ text ∈ calls.filterMap Call.command, returns text = true := by
  cases r with
  | error e => exact ⟨fun h => (nomatch h), fun h => (nomatch h.1)⟩
  | ok x =>
      obtain ⟨s₁, calls₁⟩ := x
      simp only [calling]
      split
      · rename_i hall
        refine ⟨fun h => ?_, fun h => ?_⟩
        · cases h
          exact ⟨rfl, List.all_eq_true.mp hall⟩
        · cases h.1
          rfl
      · rename_i hno
        refine ⟨fun h => (nomatch h), fun h => ?_⟩
        cases h.1
        exact absurd (List.all_eq_true.mpr h.2) hno

/-- The calls of a frame that is handled. -/
theorem calls_of_handleMessage {calls : List Call} (hc : s.pool.getConnection id = some c)
    (h : handleMessage id now j s = .ok (s', calls)) :
    calls = requests now (c.authenticated, c.userId) (some j) := by
  have hdoes := does_onClientMessage (ConnectionPool.getConnection_eq_some.mp hc) now (some j)
  rw [show s.onClientMessage id now (some j) = .ok (s', calls) from h] at hdoes
  exact hdoes.2

end Handlers

/-! ## Any data -/

/-- Data is handled robustly exactly if the parser reports a parse error, or gives a value that
    comes from a connection that is not there, or is well typed and makes calls that come back. -/
theorem robust_iff (parse : Bytes → Parsed) (returns : String → Bool) (id : Int) (now : UInt64)
    (data : Bytes) (s : MessengerServer) :
    s.Robust parse returns id now data ↔ parse data = .parseError ∨
      ∃ j, parse data = .value j ∧ ∀ c, s.pool.getConnection id = some c →
        WellTyped c.authenticated j ∧
          ∀ text ∈ (requests now (c.authenticated, c.userId) (some j)).filterMap Call.command,
            returns text = true := by
  unfold Robust onClientData
  cases parse data with
  | parseError =>
      refine ⟨fun _ => Or.inl rfl, fun _ => ?_⟩
      exact ⟨_, [], rfl, fun _ => ⟨rfl, invalidFormat, rfl, rfl⟩⟩
  | outOfRange =>
      constructor
      · rintro ⟨s', calls, h, _⟩
        cases h
      · rintro (h | ⟨j, h, _⟩) <;> cases h
  | value j =>
      have hcalling : ∀ s' calls, calling returns (s.onClientMessage id now (some j)) =
          .ok (s', calls) ↔ handleMessage id now j s = .ok (s', calls) ∧
            ∀ text ∈ calls.filterMap Call.command, returns text = true :=
        fun _ _ => calling_ok
      simp only [hcalling]
      cases hc : s.pool.getConnection id with
      | none =>
          have hok : handleMessage id now j s = .ok (s, []) := by
            unfold handleMessage
            rw [hc]
          refine ⟨fun _ => Or.inr ⟨j, rfl, fun c h => (nomatch h)⟩, fun _ => ?_⟩
          exact ⟨s, [], ⟨hok, fun _ h => nomatch h⟩,
            fun _ => ⟨rfl, invalidFormat, rfl, (queue_absent hc _).symm⟩⟩
      | some c =>
          constructor
          · rintro ⟨s', calls, ⟨hok, hreturns⟩, _⟩
            refine Or.inr ⟨j, rfl, fun c' hc' => ?_⟩
            cases hc'
            rw [← calls_of_handleMessage hc hok]
            exact ⟨(message_ok hc).mp ⟨_, hok⟩, hreturns⟩
          · rintro (h | ⟨j', hj, htyped⟩)
            · cases h
            · cases hj
              obtain ⟨hwell, hreturns⟩ := htyped c rfl
              obtain ⟨⟨s', calls⟩, hok⟩ : Converts (handleMessage id now j s) :=
                (message_ok hc).mpr hwell
              rw [← calls_of_handleMessage hc hok] at hreturns
              exact ⟨s', calls, ⟨hok, hreturns⟩, fun hno => absurd hwell hno⟩

/-- `[]` is JSON, but no object. -/
def parseBrackets (data : Bytes) : Parsed :=
  if data = utf8 "[]" then .value (.arr []) else .parseError

theorem type_error_escapes : ∃ s, (MessengerServer.empty []).step (0, .connected 1) = some s ∧
    s.onClientData parseBrackets (fun _ => true) 1 0 (utf8 "[]") = .error .typeError ∧
    ¬ s.Robust parseBrackets (fun _ => true) 1 0 (utf8 "[]") := by
  refine ⟨_, rfl, rfl, ?_⟩
  rintro ⟨s', calls, h, _⟩
  cases h

end MessengerServer

end MessengerBackend.Ws
