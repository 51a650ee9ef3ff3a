/-
  The eleven handlers that read a JSON body: does each answer every body?

  `json::parse` stands in a `try` of its own, but `value` and `get<std::string>` behind it in
  none: on the wrong kind of value the exception leaves the handler. `create_group` reads the
  elements of `memberIds` inside its `try`, after the chat is made, and answers 500.
  `update_me` looks with `contains`, which is false on whatever is no object.

  Two calls may not return at all: `regex_match` on a long email, and `store_redis_session`
  before a token is handed out.

  `served_iff_readable` is about every course of a handler (its statements in databases that
  others may change in between), long enough for it to end.
-/
import MessengerBackend.Api.Creation

namespace MessengerBackend

/-! ## What is read -/

namespace Json

/-- The types that the handlers read. -/
inductive Kind where
  | text
  /-- `contains`, `is_null`, then `get<std::string>`. -/
  | optionalText
  | flag

def Kind.accepts : Kind → Json → Bool
  | .text, .str _ => true
  | .optionalText, .str _ => true
  | .optionalText, .null => true
  | .flag, .bool _ => true
  | _, _ => false

/-- The field is absent or converts. -/
def fits (j : Json) (f : String × Kind) : Bool := (j.find f.1).all f.2.accepts

end Json

namespace Api

open Json (Kind)

/-- A handler that reads a body, with what else is in its request. -/
inductive Handler where
  | sendOtp (code : String) (now : Time)
  | verifyOtp
  | register (publicKey : String)
  | updateMe (uid : String)
  | openDirect (uid : String)
  | createGroup (uid : String)
  | addMember (uid : String) (chatId : Bytes)
  | reactMessage (uid : String) (chatId msgId : Bytes)
  | addContact (uid : String)
  | createChannel (uid : String)
  | createPost (uid : String) (channelId : Bytes)

namespace Handler

def request (body : Option Json) : Handler → Otp.Request ⊕ Request
  | sendOtp code now => .inl (.sendOtp body code now)
  | verifyOtp => .inl (.verifyOtp body)
  | register publicKey => .inl (.register body publicKey)
  | updateMe uid => .inr ⟨uid, .account (.updateMe body)⟩
  | openDirect uid => .inr ⟨uid, .chat (.openDirect body)⟩
  | createGroup uid => .inr ⟨uid, .chat (.createGroup body)⟩
  | addMember uid chatId => .inr ⟨uid, .chat (.addMember chatId body)⟩
  | reactMessage uid chatId msgId => .inr ⟨uid, .chat (.reactMessage chatId msgId body)⟩
  | addContact uid => .inr ⟨uid, .account (.addContact body)⟩
  | createChannel uid => .inr ⟨uid, .channel (.createChannel body)⟩
  | createPost uid channelId => .inr ⟨uid, .channel (.createPost channelId body)⟩

/-- The fields that it reads. -/
def fields : Handler → List (String × Kind)
  | sendOtp _ _ => [("email", .text)]
  | verifyOtp => [("email", .text), ("code", .text)]
  | register _ => [("email", .text), ("username", .text), ("displayName", .text), ("phone", .text)]
  | updateMe _ => Accounts.fields.map (fun f => (f.2, .optionalText))
  | openDirect _ => [("targetUserId", .text)]
  | createGroup _ => [("name", .text), ("description", .text)]
  | addMember _ _ => [("userId", .text)]
  | reactMessage _ _ _ => [("emoji", .text)]
  | addContact _ => [("contactId", .text), ("nickname", .text)]
  | createChannel _ =>
      [("username", .text), ("name", .text), ("description", .text), ("isPublic", .flag)]
  | createPost _ _ => [("content", .text), ("isPaid", .flag)]

/-- The elements of an array that it reads as texts. -/
def elements (j : Json) : Handler → List Json
  | createGroup _ => Chats.memberIds j
  | _ => []

/-- `value` throws on a receiver that is no object; `contains` does not. -/
def wantsObject : Handler → Bool
  | updateMe _ => false
  | _ => true

/-- The body is no object, or something that is read in it does not convert. -/
def Misfit (h : Handler) (j : Json) : Prop :=
  j.isObject = false ∨ (∃ f ∈ h.fields, j.fits f = false) ∨
    ∃ v ∈ h.elements j, Kind.text.accepts v = false

/-- A read outside `try` goes through. -/
def reads (h : Handler) (j : Json) (f : String × Kind) : Bool :=
  (!h.wantsObject || j.isObject) && j.fits f

/-- Every read goes through, or is not come to. -/
def Readable (h : Handler) (j : Json) : Prop :=
  h.fields.all (h.reads j) = true ∧
    (j.valueString "name" "" = .ok "" ∨ ∀ v ∈ h.elements j, Kind.text.accepts v = true)

/-- `regex_match` comes back for the email of `send-otp`. -/
def matched (helpers : Otp.Helpers) (j : Json) : Handler → Bool
  | sendOtp _ _ =>
      match j.valueString "email" "" with
      | .ok email => email == "" || helpers.regexReturns email
      | .error _ => true
  | _ => true

end Handler

/-! ## The handlers as one system -/

/-- What a step reads from outside. -/
structure Turn extends Input where
  /-- `store_redis_session`, if the step makes a token, comes back. -/
  stored : Bool

def makesToken (obs : List Otp.Obs) : Bool :=
  obs.any (fun o => match o with
    | .session _ _ => true
    | _ => false)

/-- The authentication endpoints and the rest of the API, over the state of the former. -/
def site (h : Otp.Helpers) (pg : Pg) :
    Interleave.System (Otp.Request ⊕ Request) (Otp.Thread ⊕ Thread) Otp.State Turn Otp.Obs where
  start r :=
    match r with
    | .inl r => .inl (Otp.start h r)
    | .inr r => .inr (start r)
  step l inp s :=
    match l with
    | .inl l =>
        let x := Otp.step h l ⟨inp.first, inp.now, inp.freshId⟩ s
        (x.1, .inl (if makesToken x.2.2 && !inp.stored then .exited .lost else x.2.1), x.2.2)
    | .inr l =>
        let x := step pg l inp.toInput s.db
        ({ s with db := x.1 }, .inr x.2.1, [])

/-- If the step makes a token, its session is stored and the call comes back. -/
def StoreReturns (h : Otp.Helpers) (l : Otp.Thread ⊕ Thread) (inp : Turn) (s : Otp.State) : Prop :=
  match l with
  | .inl l => makesToken (Otp.step h l ⟨inp.first, inp.now, inp.freshId⟩ s).2.2 = true →
      inp.stored = true
  | .inr _ => True

/-- How a handler has ended. -/
def exitOf : Otp.Thread ⊕ Thread → Option Exit
  | .inl (.exited e) => some e
  | .inr ⟨_, .account (.exited e)⟩ => some e
  | .inr ⟨_, .chat (.exited e)⟩ => some e
  | .inr ⟨_, .channel (.exited e)⟩ => some e
  | .inr ⟨_, .answered r⟩ => some (.response r)
  | _ => none

/-- The handler answers, and refuses a body that does not fit before it changes anything. -/
structure Served (h : Handler) (body : Option Json)
    (course : List (Otp.State × Otp.State) × (Otp.Thread ⊕ Thread)) : Prop where
  answered : ∃ r, exitOf course.2 = some (.response r)
  refused : ∀ j, body = some j → h.Misfit j → ∀ r, exitOf course.2 = some (.response r) →
    400 ≤ r.status ∧ r.status < 500 ∧ ∀ p ∈ course.1, p.2.db = p.1.db

/-! ## Before the first statement -/

/-- The handler has ended without a response. -/
def Unanswered {P : Type} (exited : Exit → P) (p : P) : Prop :=
  p = exited .exception ∨ p = exited .lost

section Start

variable {helpers : Otp.Helpers} {pg : Pg} {j : Json}

/-- `value` goes through if the receiver is an object and the field fits, and throws if not. -/
theorem valueWith_cases {α : Type} {conv : Json → Except JsonError α} {k : Kind}
    (hconv : ∀ v, (∃ a, conv v = .ok a ∧ k.accepts v = true) ∨
      ∃ e, conv v = .error e ∧ k.accepts v = false) (j : Json) (key : String) (dflt : α) :
    (∃ a, Json.valueWith conv j key dflt = .ok a ∧ (j.isObject && j.fits (key, k)) = true) ∨
      ∃ e, Json.valueWith conv j key dflt = .error e ∧
        (j.isObject && j.fits (key, k)) = false := by
  unfold Json.valueWith Json.fits
  by_cases hobj : j.isObject = true
  · rw [if_pos hobj, hobj, Bool.true_and]
    cases j.find key with
    | none => exact Or.inl ⟨dflt, rfl, rfl⟩
    | some v => exact hconv v
  · rw [if_neg hobj, Bool.eq_false_iff.mpr hobj, Bool.false_and]
    exact Or.inr ⟨_, rfl, rfl⟩

theorem valueString_cases (j : Json) (key dflt : String) :
    (∃ s, j.valueString key dflt = .ok s ∧ (j.isObject && j.fits (key, .text)) = true) ∨
      ∃ e, j.valueString key dflt = .error e ∧ (j.isObject && j.fits (key, .text)) = false :=
  valueWith_cases (fun v => by
    cases v with
    | str s => exact Or.inl ⟨s, rfl, rfl⟩
    | _ => exact Or.inr ⟨_, rfl, rfl⟩) j key dflt

theorem valueBool_cases (j : Json) (key : String) (dflt : Bool) :
    (∃ b, j.valueBool key dflt = .ok b ∧ (j.isObject && j.fits (key, .flag)) = true) ∨
      ∃ e, j.valueBool key dflt = .error e ∧ (j.isObject && j.fits (key, .flag)) = false :=
  valueWith_cases (fun v => by
    cases v with
    | bool b => exact Or.inl ⟨b, rfl, rfl⟩
    | _ => exact Or.inr ⟨_, rfl, rfl⟩) j key dflt

/-- The regex is not come to if the field does not fit. -/
theorem sendFields_crash : Unanswered .error (Otp.sendFields helpers (some j)) ↔
    (j.isObject && j.fits ("email", .text)) = false ∨
      (Handler.sendOtp "" 0).matched helpers j = false := by
  unfold Otp.sendFields Handler.matched Unanswered
  rcases valueString_cases j "email" "" with ⟨s, h, hr⟩ | ⟨e, h, hr⟩
  · simp only [h, hr]
    by_cases hempty : s = ""
    · simp [hempty]
    · cases helpers.regexReturns s with
      | false => simp [hempty]
      | true => cases Otp.emailFormat s <;> simp [hempty]
  · simp [h, hr]

theorem verifyFields_crash : Unanswered .error (Otp.verifyFields (some j)) ↔
    (j.isObject && j.fits ("email", .text) && (j.isObject && j.fits ("code", .text))) = false := by
  unfold Otp.verifyFields Unanswered
  rcases valueString_cases j "email" "" with ⟨s, h, hr⟩ | ⟨e, h, hr⟩
  · rcases valueString_cases j "code" "" with ⟨s', h', hr'⟩ | ⟨e', h', hr'⟩
    · simp only [h, h', hr, hr']
      split <;> simp
    · simp [h, h', hr, hr']
  · simp [h, hr]

theorem registerFields_crash (publicKey : String) :
    Unanswered .error (Otp.registerFields (some j) publicKey) ↔
      (j.isObject && j.fits ("email", .text) && ((j.isObject && j.fits ("username", .text)) &&
        ((j.isObject && j.fits ("displayName", .text)) &&
          (j.isObject && j.fits ("phone", .text))))) = false := by
  unfold Otp.registerFields Unanswered
  rcases valueString_cases j "email" "" with ⟨s, h, hr⟩ | ⟨e, h, hr⟩
  · rcases valueString_cases j "username" "" with ⟨s₁, h₁, hr₁⟩ | ⟨e₁, h₁, hr₁⟩
    · rcases valueString_cases j "displayName" s₁ with ⟨s₂, h₂, hr₂⟩ | ⟨e₂, h₂, hr₂⟩
      · rcases valueString_cases j "phone" "" with ⟨s₃, h₃, hr₃⟩ | ⟨e₃, h₃, hr₃⟩
        · simp only [h, h₁, h₂, h₃, hr, hr₁, hr₂, hr₃]
          split
          · simp
          · split <;> simp
        · simp [h, h₁, h₂, h₃, hr, hr₁, hr₂, hr₃]
      · simp [h, h₁, h₂, hr, hr₁, hr₂]
    · simp [h, h₁, hr, hr₁]
  · simp [h, hr]

theorem sendOtp_crash {code : String} {now : Time} :
    Unanswered .exited (Otp.routeSendOtp helpers (some j) code now) ↔
      (j.isObject && j.fits ("email", .text)) = false ∨
        (Handler.sendOtp code now).matched helpers j = false := by
  refine Iff.trans ?_ sendFields_crash
  unfold Otp.routeSendOtp Unanswered
  cases Otp.sendFields helpers (some j) <;> simp

theorem verifyOtp_crash : Unanswered .exited (Otp.routeVerifyOtp (some j)) ↔
    (j.isObject && j.fits ("email", .text) && (j.isObject && j.fits ("code", .text))) = false := by
  refine Iff.trans ?_ verifyFields_crash
  unfold Otp.routeVerifyOtp Unanswered
  cases Otp.verifyFields (some j) <;> simp

theorem register_crash {publicKey : String} :
    Unanswered .exited (Otp.routeRegister (some j) publicKey) ↔
      (j.isObject && j.fits ("email", .text) && ((j.isObject && j.fits ("username", .text)) &&
        ((j.isObject && j.fits ("displayName", .text)) &&
          (j.isObject && j.fits ("phone", .text))))) = false := by
  refine Iff.trans ?_ (registerFields_crash publicKey)
  unfold Otp.routeRegister Unanswered
  cases Otp.registerFields (some j) publicKey <;> simp

theorem withField_crash {key missing : String} {go : String → Chats.Point}
    (hgo : ∀ s, ¬ Unanswered .exited (go s)) :
    Unanswered .exited (Chats.withField (some j) key missing go) ↔
      (j.isObject && j.fits (key, .text)) = false := by
  unfold Chats.withField withBody Unanswered
  rcases valueString_cases j key "" with ⟨s, h, hr⟩ | ⟨e, h, hr⟩
  · simp only [h, hr]
    split
    · simp [Chats.refuse]
    · have := hgo s
      simpa [Unanswered] using this
  · simp [h, hr]

theorem createGroup_crash : Unanswered .exited (Chats.routeCreateGroup (some j)) ↔
    (j.isObject && j.fits ("name", .text) && (j.isObject && j.fits ("description", .text))) =
      false := by
  unfold Chats.routeCreateGroup withBody Unanswered
  rcases valueString_cases j "name" "" with ⟨s, h, hr⟩ | ⟨e, h, hr⟩
  · rcases valueString_cases j "description" "" with ⟨s', h', hr'⟩ | ⟨e', h', hr'⟩
    · simp only [h, h', hr, hr', bind, Except.bind, pure, Except.pure]
      split <;> simp [Chats.refuse]
    · simp [h, h', hr, hr', bind, Except.bind]
  · simp [h, hr, bind, Except.bind]

theorem addContact_crash {uid : String} :
    Unanswered .exited (Accounts.routeAddContact uid (some j)) ↔
      (j.isObject && j.fits ("contactId", .text) && (j.isObject && j.fits ("nickname", .text))) =
        false := by
  unfold Accounts.routeAddContact withBody Unanswered
  rcases valueString_cases j "contactId" "" with ⟨s, h, hr⟩ | ⟨e, h, hr⟩
  · rcases valueString_cases j "nickname" "" with ⟨s', h', hr'⟩ | ⟨e', h', hr'⟩
    · simp only [h, h', hr, hr', bind, Except.bind, pure, Except.pure]
      split
      · simp [Accounts.refuse]
      · split <;> simp [Accounts.refuse]
    · simp [h, h', hr, hr', bind, Except.bind]
  · simp [h, hr, bind, Except.bind]

theorem createChannel_crash : Unanswered .exited (Channels.routeCreateChannel (some j)) ↔
    (j.isObject && j.fits ("username", .text) && ((j.isObject && j.fits ("name", .text)) &&
      ((j.isObject && j.fits ("description", .text)) &&
        (j.isObject && j.fits ("isPublic", .flag))))) = false := by
  unfold Channels.routeCreateChannel withBody Unanswered
  rcases valueString_cases j "username" "" with ⟨s, h, hr⟩ | ⟨e, h, hr⟩
  · rcases valueString_cases j "name" "" with ⟨s₁, h₁, hr₁⟩ | ⟨e₁, h₁, hr₁⟩
    · rcases valueString_cases j "description" "" with ⟨s₂, h₂, hr₂⟩ | ⟨e₂, h₂, hr₂⟩
      · rcases valueBool_cases j "isPublic" true with ⟨s₃, h₃, hr₃⟩ | ⟨e₃, h₃, hr₃⟩
        · simp only [h, h₁, h₂, h₃, hr, hr₁, hr₂, hr₃, bind, Except.bind, pure, Except.pure]
          split <;> simp [Channels.refuse]
        · simp [h, h₁, h₂, h₃, hr, hr₁, hr₂, hr₃, bind, Except.bind]
      · simp [h, h₁, h₂, hr, hr₁, hr₂, bind, Except.bind]
    · simp [h, h₁, hr, hr₁, bind, Except.bind]
  · simp [h, hr, bind, Except.bind]

theorem createPost_crash {channelId : Bytes} :
    Unanswered .exited (Channels.routeCreatePost channelId (some j)) ↔
      (j.isObject && j.fits ("content", .text) && (j.isObject && j.fits ("isPaid", .flag))) =
        false := by
  unfold Channels.routeCreatePost withBody Unanswered
  rcases valueString_cases j "content" "" with ⟨s, h, hr⟩ | ⟨e, h, hr⟩
  · rcases valueBool_cases j "isPaid" false with ⟨s', h', hr'⟩ | ⟨e', h', hr'⟩
    · simp [h, h', hr, hr', bind, Except.bind, pure, Except.pure]
    · simp [h, h', hr, hr', bind, Except.bind]
  · simp [h, hr, bind, Except.bind]

/-- One `add_field`. -/
theorem addField_cases (u : Accounts.Update) (f : Accounts.Column × String) :
    (∃ u', Accounts.addField j u f = .ok u' ∧ j.fits (f.2, .optionalText) = true) ∨
      ∃ e, Accounts.addField j u f = .error e ∧ j.fits (f.2, .optionalText) = false := by
  unfold Accounts.addField Json.fits
  cases j.find f.2 with
  | none => exact Or.inl ⟨u, rfl, rfl⟩
  | some v =>
      cases v with
      | null => exact Or.inl ⟨u, rfl, rfl⟩
      | str s => exact Or.inl ⟨_, rfl, rfl⟩
      | _ => exact Or.inr ⟨_, rfl, rfl⟩

theorem addFields_cases (fs : List (Accounts.Column × String)) (u : Accounts.Update) :
    (∃ u', fs.foldlM (Accounts.addField j) u = .ok u' ∧
        fs.all (fun f => j.fits (f.2, .optionalText)) = true) ∨
      ∃ e, fs.foldlM (Accounts.addField j) u = .error e ∧
        fs.all (fun f => j.fits (f.2, .optionalText)) = false := by
  induction fs generalizing u with
  | nil => exact Or.inl ⟨u, rfl, rfl⟩
  | cons f fs ih =>
      rw [List.foldlM_cons, List.all_cons]
      rcases addField_cases (j := j) u f with ⟨u', h, hfits⟩ | ⟨e, h, hfits⟩
      · rw [h, hfits, Bool.true_and]
        exact ih u'
      · rw [h, hfits, Bool.false_and]
        exact Or.inr ⟨e, rfl, rfl⟩

theorem updateMe_crash {uid : String} :
    Unanswered .exited (Accounts.routeUpdateMe uid (some j)) ↔
      Accounts.fields.all (fun f => j.fits (f.2, .optionalText)) = false := by
  unfold Accounts.routeUpdateMe withBody Unanswered
  rcases addFields_cases (j := j) Accounts.fields ⟨[], [], 1⟩ with ⟨u, h, hfits⟩ | ⟨e, h, hfits⟩
  · simp only [h, hfits]
    split <;> simp [Accounts.refuse]
  · simp [h, hfits]

theorem exitOf_otp {l : Otp.Thread} {e : Exit} : exitOf (.inl l) = some e ↔ l = .exited e := by
  cases l <;> simp [exitOf]

theorem exitOf_account {uid : String} {p : Accounts.Point} {e : Exit} :
    exitOf (.inr ⟨uid, .account p⟩) = some e ↔ p = .exited e := by
  cases p <;> simp [exitOf]

theorem exitOf_chat {uid : String} {p : Chats.Point} {e : Exit} :
    exitOf (.inr ⟨uid, .chat p⟩) = some e ↔ p = .exited e := by
  cases p <;> simp [exitOf]

theorem exitOf_channel {uid : String} {p : Channels.Point} {e : Exit} :
    exitOf (.inr ⟨uid, .channel p⟩) = some e ↔ p = .exited e := by
  cases p <;> simp [exitOf]

theorem unanswered_otp {l : Otp.Thread} :
    Unanswered some (exitOf (.inl l)) ↔ Unanswered .exited l := or_congr exitOf_otp exitOf_otp

theorem unanswered_account {uid : String} {p : Accounts.Point} :
    Unanswered some (exitOf (.inr ⟨uid, .account p⟩)) ↔ Unanswered .exited p :=
  or_congr exitOf_account exitOf_account

theorem unanswered_chat {uid : String} {p : Chats.Point} :
    Unanswered some (exitOf (.inr ⟨uid, .chat p⟩)) ↔ Unanswered .exited p :=
  or_congr exitOf_chat exitOf_chat

theorem unanswered_channel {uid : String} {p : Channels.Point} :
    Unanswered some (exitOf (.inr ⟨uid, .channel p⟩)) ↔ Unanswered .exited p :=
  or_congr exitOf_channel exitOf_channel

/-- A handler ends without a response before its first statement if and only if a read does not
    go through, or the regex does not come back. -/
theorem start_crash (helpers : Otp.Helpers) (pg : Pg) (h : Handler) (j : Json) :
    Unanswered some (exitOf ((site helpers pg).start (h.request (some j)))) ↔
      h.fields.all (h.reads j) = false ∨ h.matched helpers j = false := by
  unfold Handler.fields Handler.reads Handler.wantsObject
  cases h with
  | updateMe uid =>
      refine unanswered_account.trans (updateMe_crash.trans ?_)
      simp only [List.all_map, Function.comp_def, Bool.not_false, Bool.true_or, Bool.true_and,
        Handler.matched, Bool.true_eq_false, or_false]
  | sendOtp code now =>
      refine unanswered_otp.trans (sendOtp_crash.trans ?_)
      simp only [List.all_cons, List.all_nil, Bool.and_true, Bool.not_true, Bool.false_or,
        Handler.matched]
  | verifyOtp =>
      refine unanswered_otp.trans (verifyOtp_crash.trans ?_)
      simp only [List.all_cons, List.all_nil, Bool.and_true, Bool.not_true, Bool.false_or,
        Handler.matched, Bool.true_eq_false, or_false]
  | register publicKey =>
      refine unanswered_otp.trans (register_crash.trans ?_)
      simp only [List.all_cons, List.all_nil, Bool.and_true, Bool.not_true, Bool.false_or,
        Handler.matched, Bool.true_eq_false, or_false]
  | openDirect uid =>
      refine unanswered_chat.trans ((withField_crash (fun _ => by simp [Unanswered])).trans ?_)
      simp only [List.all_cons, List.all_nil, Bool.and_true, Bool.not_true, Bool.false_or,
        Handler.matched, Bool.true_eq_false, or_false]
  | createGroup uid =>
      refine unanswered_chat.trans (createGroup_crash.trans ?_)
      simp only [List.all_cons, List.all_nil, Bool.and_true, Bool.not_true, Bool.false_or,
        Handler.matched, Bool.true_eq_false, or_false]
  | addMember uid chatId =>
      refine unanswered_chat.trans ((withField_crash (fun _ => by simp [Unanswered])).trans ?_)
      simp only [List.all_cons, List.all_nil, Bool.and_true, Bool.not_true, Bool.false_or,
        Handler.matched, Bool.true_eq_false, or_false]
  | reactMessage uid chatId msgId =>
      refine unanswered_chat.trans ((withField_crash (fun _ => by simp [Unanswered])).trans ?_)
      simp only [List.all_cons, List.all_nil, Bool.and_true, Bool.not_true, Bool.false_or,
        Handler.matched, Bool.true_eq_false, or_false]
  | addContact uid =>
      refine unanswered_account.trans (addContact_crash.trans ?_)
      simp only [List.all_cons, List.all_nil, Bool.and_true, Bool.not_true, Bool.false_or,
        Handler.matched, Bool.true_eq_false, or_false]
  | createChannel uid =>
      refine unanswered_channel.trans (createChannel_crash.trans ?_)
      simp only [List.all_cons, List.all_nil, Bool.and_true, Bool.not_true, Bool.false_or,
        Handler.matched, Bool.true_eq_false, or_false]
  | createPost uid channelId =>
      refine unanswered_channel.trans (createPost_crash.trans ?_)
      simp only [List.all_cons, List.all_nil, Bool.and_true, Bool.not_true, Bool.false_or,
        Handler.matched, Bool.true_eq_false, or_false]

end Start

/-! ## The statements -/

/-- How many statements are left, at most. -/
def otpLeft : Otp.Thread → Nat
  | .fetch _ _ => 5
  | .increment _ _ _ => 4
  | .expiry _ _ _ => 3
  | .delete _ _ _ => 2
  | .lookup _ => 1
  | .upsert _ _ _ => 1
  | .dupUser _ => 4
  | .dupEmail _ => 3
  | .dupPhone _ => 2
  | .insert _ => 1
  | .exited _ => 0

def accountLeft : Accounts.Point → Nat
  | .exited _ => 0
  | _ => 1

def chatLeft : Chats.Point → Nat
  | .findDirect _ => 3
  | .createDirect _ => 2
  | .createGroup _ _ memberIds => memberIds.length + 2
  | .ownGroup _ _ memberIds => memberIds.length + 1
  | .joinGroup _ _ _ rest => rest.length + 1
  | .exited _ => 0
  | _ => 1

def channelLeft : Channels.Point → Nat
  | .createChannel _ _ _ _ => 2
  | .subscribe _ => 2
  | .readRole _ _ _ => 2
  | .exited _ => 0
  | _ => 1

def left : Otp.Thread ⊕ Thread → Nat
  | .inl l => otpLeft l
  | .inr ⟨_, .query _⟩ => 1
  | .inr ⟨_, .answered _⟩ => 0
  | .inr ⟨_, .account p⟩ => accountLeft p
  | .inr ⟨_, .chat p⟩ => chatLeft p
  | .inr ⟨_, .channel p⟩ => channelLeft p

/-- A handler with no statement left has ended. -/
theorem exitOf_of_left {l : Otp.Thread ⊕ Thread} (h : left l = 0) : ∃ e, exitOf l = some e := by
  rcases l with l | ⟨uid, p⟩
  · cases l <;> first | exact ⟨_, rfl⟩ | simp [left, otpLeft] at h
  · cases p with
    | query r => simp [left] at h
    | answered r => exact ⟨_, rfl⟩
    | account p => cases p <;> first | exact ⟨_, rfl⟩ | simp [left, accountLeft] at h
    | chat p => cases p <;> first | exact ⟨_, rfl⟩ | simp [left, chatLeft] at h
    | channel p => cases p <;> first | exact ⟨_, rfl⟩ | simp [left, channelLeft] at h

/-- A handler goes on or has its response, with at most `n` statements left. -/
def Goes {P : Type} (left : P → Nat) (exited : Exit → P) (n : Nat) (p : P) : Prop :=
  ¬ Unanswered exited p ∧ left p ≤ n

section Steps

variable (helpers : Otp.Helpers) (pg : Pg)

theorem otpLeft_step (l : Otp.Thread) (inp : Otp.Input) (s : Otp.State)
    (h : ¬ Unanswered .exited l) :
    Goes otpLeft .exited (otpLeft l - 1) (Otp.step helpers l inp s).2.1 := by
  have hdup : ∀ (res : Except SqlError (Option User)) (msg : String) (next : Otp.Thread),
      ¬ Unanswered .exited next → Goes otpLeft .exited (otpLeft next)
        (Otp.dupCheck res msg next) := by
    intro res msg next hnext
    unfold Otp.dupCheck
    split
    · exact ⟨by simp [Unanswered, Otp.refuse], Nat.zero_le _⟩
    · exact ⟨by simp [Unanswered, Otp.refuse], Nat.zero_le _⟩
    · exact ⟨hnext, Nat.le_refl _⟩
  cases l with
  | exited e => exact ⟨h, Nat.le_refl 0⟩
  | dupUser f => exact hdup _ _ _ (by simp [Unanswered])
  | dupEmail f =>
      obtain ⟨hne, hle⟩ := hdup (PgDb.exec inp.outcome (Otp.selectUser (Otp.hasEmail f.email)) s).2
        "Email already registered" (if f.phone = "" then .insert f else .dupPhone f)
        (by split <;> simp [Unanswered])
      refine ⟨hne, hle.trans ?_⟩
      split <;> simp [otpLeft]
  | dupPhone f => exact hdup _ _ _ (by simp [Unanswered])
  | _ =>
      simp only [Otp.step]
      repeat' split
      all_goals exact ⟨by simp [Unanswered, Otp.refuse, Otp.respond], by simp [otpLeft, Otp.refuse, Otp.respond]⟩

theorem accountLeft_step (uid : String) (p : Accounts.Point) (inp : Input) (db : Db)
    (h : ¬ Unanswered .exited p) :
    Goes accountLeft .exited (accountLeft p - 1) (Accounts.step uid p inp db).2 := by
  have hanswer : ∀ status body, Goes accountLeft .exited 0 (Accounts.respond status body) :=
    fun _ _ => ⟨by simp [Unanswered, Accounts.respond], Nat.le_refl 0⟩
  have hfailed : ∀ e, Goes accountLeft .exited 0 (Accounts.failed e) := fun _ =>
    ⟨by simp [Unanswered, Accounts.failed], Nat.le_refl 0⟩
  cases p with
  | exited e => exact ⟨h, Nat.le_refl 0⟩
  | _ => exact attempt_next (fun _ => hanswer _ _) hfailed

/-- The loop over `memberIds` comes to an element of the rest, or to an answer. -/
theorem chatLeft_nextMember (uid chatId name : String) (l : List Json) :
    Goes chatLeft .exited l.length (Chats.nextMember uid chatId name l) := by
  induction l with
  | nil => exact ⟨by simp [Unanswered, Chats.nextMember, Chats.respond], Nat.le_refl 0⟩
  | cons v l ih =>
      rw [Chats.nextMember]
      cases v.getString with
      | error e => exact ⟨by simp [Unanswered], Nat.zero_le _⟩
      | ok s =>
          by_cases hs : s = uid
          · simp only [if_pos hs]
            exact ⟨ih.1, ih.2.trans (Nat.le_succ _)⟩
          · simp only [if_neg hs]
            exact ⟨by simp [Unanswered], Nat.le_refl _⟩

theorem chatLeft_step (uid : String) (p : Chats.Point) (inp : Input) (db : Db)
    (h : ¬ Unanswered .exited p) :
    Goes chatLeft .exited (chatLeft p - 1) (Chats.step pg uid p inp db).2 := by
  have hanswer : ∀ n status body, Goes chatLeft .exited n (Chats.respond status body) :=
    fun _ _ _ => ⟨by simp [Unanswered, Chats.respond], Nat.zero_le _⟩
  have hfailed : ∀ n e, Goes chatLeft .exited n (Chats.failed e) := fun _ _ =>
    ⟨by simp [Unanswered, Chats.failed], Nat.zero_le _⟩
  cases p with
  | exited e => exact ⟨h, Nat.le_refl 0⟩
  | findDirect targetId =>
      refine attempt_next (fun a => ?_) (hfailed _)
      cases a with
      | none => exact ⟨by simp [Unanswered], Nat.le_refl 2⟩
      | some c => exact hanswer _ _ _
  | createDirect targetId =>
      exact attempt_next (fun _ => ⟨by simp [Unanswered], Nat.le_refl 1⟩) (hfailed _)
  | createGroup name desc memberIds =>
      exact attempt_next (fun _ => ⟨by simp [Unanswered], Nat.le_refl _⟩) (hfailed _)
  | ownGroup chatId name memberIds =>
      exact attempt_next (fun _ => chatLeft_nextMember uid chatId name memberIds) (hfailed _)
  | joinGroup chatId name memberId rest =>
      exact attempt_next (fun _ => chatLeft_nextMember uid chatId name rest)
        (fun _ => chatLeft_nextMember uid chatId name rest)
  | _ => exact attempt_next (fun _ => hanswer _ _ _) (hfailed _)

theorem channelLeft_step (uid : String) (p : Channels.Point) (inp : Input) (db : Db)
    (h : ¬ Unanswered .exited p) :
    Goes channelLeft .exited (channelLeft p - 1) (Channels.step uid p inp db).2 := by
  have hanswer : ∀ n status body, Goes channelLeft .exited n (Channels.respond status body) :=
    fun _ _ _ => ⟨by simp [Unanswered, Channels.respond], Nat.zero_le _⟩
  have hfailed : ∀ n e, Goes channelLeft .exited n (Channels.failed e) := fun _ _ =>
    ⟨by simp [Unanswered, Channels.failed], Nat.zero_le _⟩
  have hcreate : ∀ n e, Goes channelLeft .exited n (Channels.createFailed e) := by
    intro n e
    unfold Channels.createFailed
    split
    · exact ⟨by simp [Unanswered, Channels.refuse], Nat.zero_le _⟩
    · exact ⟨by simp [Unanswered], Nat.zero_le _⟩
  cases p with
  | exited e => exact ⟨h, Nat.le_refl 0⟩
  | createChannel username name description isPublic =>
      exact attempt_next (fun _ => ⟨by simp [Unanswered], Nat.le_refl 1⟩) (hcreate _)
  | ownChannel chanId username => exact attempt_next (fun _ => hanswer _ _ _) (hcreate _)
  | subscribe channelId => exact attempt_next (fun _ => ⟨by simp [Unanswered], Nat.le_refl 1⟩) (hfailed _)
  | readRole channelId content isPaid =>
      refine attempt_next (fun role => ?_) (hfailed _)
      split
      · exact ⟨by simp [Unanswered], Nat.le_refl 1⟩
      · exact ⟨by simp [Unanswered, Channels.refuse], Nat.zero_le _⟩
  | _ => exact attempt_next (fun _ => hanswer _ _ _) (hfailed _)

/-- One step: a handler that was not at its end without a response is not, if the session that
    it makes is stored and the call returns; and one statement fewer is left. -/
theorem left_step (l : Otp.Thread ⊕ Thread) (inp : Turn) (s : Otp.State)
    (h : ¬ Unanswered some (exitOf l)) (hstore : StoreReturns helpers l inp s) :
    ¬ Unanswered some (exitOf ((site helpers pg).step l inp s).2.1) ∧
      left ((site helpers pg).step l inp s).2.1 ≤ left l - 1 := by
  rcases l with l | ⟨uid, p⟩
  · obtain ⟨hne, hle⟩ := otpLeft_step helpers l ⟨inp.first, inp.now, inp.freshId⟩ s
      (fun he => h (unanswered_otp.mpr he))
    have hreturns : ¬ (makesToken (Otp.step helpers l ⟨inp.first, inp.now, inp.freshId⟩ s).2.2 &&
        !inp.stored) = true := by
      rw [Bool.and_eq_true, Bool.not_eq_true']
      rintro ⟨hmakes, hno⟩
      rw [hstore hmakes] at hno
      cases hno
    have hstep : ((site helpers pg).step (.inl l) inp s).2.1 =
        .inl (Otp.step helpers l ⟨inp.first, inp.now, inp.freshId⟩ s).2.1 := by
      simp only [site, if_neg hreturns]
    rw [hstep]
    exact ⟨fun he => hne (unanswered_otp.mp he), hle⟩
  · cases p with
    | query r => exact ⟨by simp [Unanswered, site, step, exitOf], Nat.le_refl 0⟩
    | answered r => exact ⟨h, Nat.le_refl 0⟩
    | account p =>
        obtain ⟨hne, hle⟩ := accountLeft_step uid p inp.toInput s.db
          (fun he => h (unanswered_account.mpr he))
        exact ⟨fun he => hne (unanswered_account.mp he), hle⟩
    | chat p =>
        obtain ⟨hne, hle⟩ := chatLeft_step pg uid p inp.toInput s.db
          (fun he => h (unanswered_chat.mpr he))
        exact ⟨fun he => hne (unanswered_chat.mp he), hle⟩
    | channel p =>
        obtain ⟨hne, hle⟩ := channelLeft_step uid p inp.toInput s.db
          (fun he => h (unanswered_channel.mpr he))
        exact ⟨fun he => hne (unanswered_channel.mp he), hle⟩

/-- A session whose storing does not return is the end of it. -/
theorem lost_step {l : Otp.Thread ⊕ Thread} {inp : Turn} {s : Otp.State}
    (h : ¬ StoreReturns helpers l inp s) :
    exitOf ((site helpers pg).step l inp s).2.1 = some .lost := by
  rcases l with l | l
  · obtain ⟨hmakes, hno⟩ := Classical.not_imp.mp h
    have hlost : (makesToken (Otp.step helpers l ⟨inp.first, inp.now, inp.freshId⟩ s).2.2 &&
        !inp.stored) = true := by
      rw [hmakes, Bool.eq_false_iff.mpr hno]
      rfl
    simp only [site, if_pos hlost]
    rfl
  · exact absurd trivial h

/-- A handler that has ended stays as it is, and leaves the state as it is. -/
theorem ended_step {l : Otp.Thread ⊕ Thread} {e : Exit} (h : exitOf l = some e) (inp : Turn)
    (s : Otp.State) : ((site helpers pg).step l inp s).1.db = s.db ∧
      ((site helpers pg).step l inp s).2.1 = l := by
  rcases l with l | ⟨uid, p⟩
  · obtain rfl := exitOf_otp.mp h
    exact ⟨rfl, rfl⟩
  · cases p with
    | query r => cases h
    | answered r => exact ⟨rfl, rfl⟩
    | account p =>
        obtain rfl := exitOf_account.mp h
        exact ⟨rfl, rfl⟩
    | chat p =>
        obtain rfl := exitOf_chat.mp h
        exact ⟨rfl, rfl⟩
    | channel p =>
        obtain rfl := exitOf_channel.mp h
        exact ⟨rfl, rfl⟩

theorem ended_course {l : Otp.Thread ⊕ Thread} {e : Exit} (h : exitOf l = some e)
    (xs : List (Otp.State × Turn)) :
    (∀ p ∈ ((site helpers pg).course l xs).1, p.2.db = p.1.db) ∧
      ((site helpers pg).course l xs).2 = l :=
  (site helpers pg).course_rule (· = l) (fun s s' => s'.db = s.db)
    (fun l' inp s hl => by subst hl; exact ended_step helpers pg h inp s) xs l rfl

theorem left_of_exit {l : Otp.Thread ⊕ Thread} {e : Exit} (h : exitOf l = some e) : left l = 0 := by
  rcases l with l | ⟨uid, p⟩
  · obtain rfl := exitOf_otp.mp h
    rfl
  · cases p with
    | query r => cases h
    | answered r => rfl
    | account p =>
        obtain rfl := exitOf_account.mp h
        rfl
    | chat p =>
        obtain rfl := exitOf_chat.mp h
        rfl
    | channel p =>
        obtain rfl := exitOf_channel.mp h
        rfl

/-- Whatever returns, a step brings a handler nearer to its end. -/
theorem left_lower (l : Otp.Thread ⊕ Thread) (inp : Turn) (s : Otp.State) :
    left ((site helpers pg).step l inp s).2.1 ≤ left l - 1 := by
  by_cases hend : Unanswered some (exitOf l)
  · obtain ⟨e, he⟩ : ∃ e, exitOf l = some e := by
      rcases hend with h | h
      · exact ⟨_, h⟩
      · exact ⟨_, h⟩
    rw [(ended_step helpers pg he inp s).2, left_of_exit he]
  · by_cases hstore : StoreReturns helpers l inp s
    · exact (left_step helpers pg l inp s hend hstore).2
    · rw [left_of_exit (lost_step helpers pg hstore)]
      exact Nat.zero_le _

/-- A course that has not ended without a response at its start does so only where a session is
    stored and the call does not return. -/
theorem course_cases {l : Otp.Thread ⊕ Thread} (h : ¬ Unanswered some (exitOf l))
    (xs : List (Otp.State × Turn)) :
    ((site helpers pg).CourseMeets (StoreReturns helpers) l xs ∧
        ¬ Unanswered some (exitOf ((site helpers pg).course l xs).2)) ∨
      (¬ (site helpers pg).CourseMeets (StoreReturns helpers) l xs ∧
        exitOf ((site helpers pg).course l xs).2 = some .lost) :=
  (site helpers pg).course_split (B := fun l => exitOf l = some .lost)
    (fun l inp s hl hstore => (left_step helpers pg l inp s hl hstore).1)
    (fun _ _ _ _ hstore => lost_step helpers pg hstore)
    (fun _ inp s hl => (congrArg exitOf (ended_step helpers pg hl inp s).2).trans hl) xs l h

/-- A group whose members do not all fit: what is left of them has one that does not, or the
    answer is 500. -/
def Stuck : Chats.Point → Prop
  | .createGroup _ _ l | .ownGroup _ _ l | .joinGroup _ _ _ l =>
      ∃ v ∈ l, Kind.text.accepts v = false
  | .exited e => e = .response serverError
  | _ => False

theorem stuck_nextMember (uid chatId name : String) (l : List Json)
    (h : ∃ v ∈ l, Kind.text.accepts v = false) : Stuck (Chats.nextMember uid chatId name l) := by
  induction l with
  | nil =>
      obtain ⟨v, hv, _⟩ := h
      cases hv
  | cons v l ih =>
      rw [Chats.nextMember]
      have hrest : ∀ s, v.getString = .ok s → ∃ v ∈ l, Kind.text.accepts v = false := by
        intro s hs
        obtain ⟨x, hx, hbad⟩ := h
        rcases List.mem_cons.mp hx with rfl | hx
        · cases x with
          | str s' => cases hbad
          | _ => cases hs
        · exact ⟨x, hx, hbad⟩
      cases hs : v.getString with
      | error e => exact rfl
      | ok s =>
          by_cases huid : s = uid
          · simp only [if_pos huid]
            exact ih (hrest s hs)
          · simp only [if_neg huid]
            exact hrest s hs

theorem stuck_step (uid : String) (p : Chats.Point) (inp : Input) (db : Db) (h : Stuck p) :
    Stuck (Chats.step pg uid p inp db).2 := by
  cases p with
  | createGroup name desc l => exact attempt_next (fun _ => h) (fun _ => rfl)
  | ownGroup chatId name l =>
      exact attempt_next (fun _ => stuck_nextMember uid chatId name l h) (fun _ => rfl)
  | joinGroup chatId name memberId l =>
      exact attempt_next (fun _ => stuck_nextMember uid chatId name l h)
        (fun _ => stuck_nextMember uid chatId name l h)
  | exited e => exact h
  | _ => exact h.elim

/-- Such a request is answered 500 and nothing else. -/
theorem stuck_course (uid : String) {p : Chats.Point} (h : Stuck p)
    (xs : List (Otp.State × Turn)) {e : Exit}
    (he : exitOf ((site helpers pg).course (.inr ⟨uid, .chat p⟩) xs).2 = some e) :
    e = .response serverError := by
  obtain ⟨_, p', hp', hstuck⟩ := (site helpers pg).course_rule
    (fun l => ∃ p', l = .inr ⟨uid, .chat p'⟩ ∧ Stuck p') (fun _ _ => True)
    (fun l inp s hl => by
      obtain ⟨p', rfl, hstuck⟩ := hl
      exact ⟨trivial, _, rfl, stuck_step pg uid p' inp.toInput s.db hstuck⟩) xs _ ⟨p, rfl, h⟩
  rw [hp'] at he
  obtain rfl := exitOf_chat.mp he
  exact hstuck

end Steps

/-! ## Every body -/

section Bodies

variable (helpers : Otp.Helpers) (pg : Pg) (h : Handler)

theorem start_none : exitOf ((site helpers pg).start (h.request none)) =
    some (.response (errorResp 400 "Invalid JSON")) := by
  cases h <;> rfl

variable {h} {j : Json}

/-- A group without a name is refused before its members are read. -/
theorem routeCreateGroup_nameless (hreads : (j.isObject && j.fits ("description", .text)) = true)
    (hname : j.valueString "name" "" = .ok "") :
    Chats.routeCreateGroup (some j) = Chats.refuse 400 "name required" := by
  unfold Chats.routeCreateGroup withBody
  rcases valueString_cases j "description" "" with ⟨s, hs, _⟩ | ⟨e, _, hr⟩
  · simp only [hname, hs, bind, Except.bind, pure, Except.pure, if_true]
  · rw [hreads] at hr
    cases hr

theorem routeCreateGroup_named
    (hreads : (j.isObject && j.fits ("name", .text) && (j.isObject && j.fits ("description", .text)))
      = true) (hname : j.valueString "name" "" ≠ .ok "") :
    ∃ name desc, Chats.routeCreateGroup (some j) = .createGroup name desc (Chats.memberIds j) := by
  unfold Chats.routeCreateGroup withBody
  rcases valueString_cases j "name" "" with ⟨s, hs, hr⟩ | ⟨e, _, hr⟩
  · rcases valueString_cases j "description" "" with ⟨s', hs', _⟩ | ⟨e, _, hr'⟩
    · have hne : s ≠ "" := fun heq => hname (heq ▸ hs)
      refine ⟨s, s', ?_⟩
      simp only [hs, hs', bind, Except.bind, pure, Except.pure, if_neg hne]
    · rw [hr, hr'] at hreads
      cases hreads
  · rw [hr] at hreads
    cases hreads

/-- A body that does not fit and that no read fails on is refused at once. -/
theorem refused_start (hread : h.Readable j) (hmisfit : h.Misfit j) :
    ∃ msg, exitOf ((site helpers pg).start (h.request (some j))) =
      some (.response (errorResp 400 msg)) := by
  obtain ⟨hreads, hmembers⟩ := hread
  have hall := List.all_eq_true.mp hreads
  rcases hmisfit with hobj | ⟨f, hf, hbad⟩ | ⟨v, hv, hbad⟩
  · cases h with
    | updateMe uid =>
        refine ⟨"Nothing to update", ?_⟩
        cases j <;> first | rfl | cases hobj
    | _ =>
        have hfirst := hall _ List.mem_cons_self
        simp [Handler.reads, Handler.wantsObject, hobj] at hfirst
  · have hfits := hall f hf
    rw [Handler.reads, hbad, Bool.and_false] at hfits
    cases hfits
  · cases h with
    | createGroup uid =>
        rcases hmembers with hname | hgood
        · refine ⟨"name required", exitOf_chat.mpr ?_⟩
          exact routeCreateGroup_nameless
            (hall ("description", .text) (by simp [Handler.fields])) hname
        · rw [hgood v hv] at hbad
          cases hbad
    | _ => cases hv

variable {helpers pg}

theorem start_answered {body : Option Json}
    (hread : ∀ j, body = some j → h.Readable j ∧ h.matched helpers j = true) :
    ¬ Unanswered some (exitOf ((site helpers pg).start (h.request body))) := by
  cases body with
  | none =>
      rw [start_none]
      simp [Unanswered]
  | some j =>
      obtain ⟨hreadable, hmatched⟩ := hread j rfl
      rw [start_crash, hreadable.1, hmatched]
      simp

theorem served_of_readable {body : Option Json} {xs : List (Otp.State × Turn)}
    (henough : left ((site helpers pg).start (h.request body)) ≤ xs.length)
    (hread : ∀ j, body = some j → h.Readable j ∧ h.matched helpers j = true)
    (hstore : (site helpers pg).CourseMeets (StoreReturns helpers)
      ((site helpers pg).start (h.request body)) xs) :
    Served h body ((site helpers pg).course ((site helpers pg).start (h.request body)) xs) := by
  have hleft := (site helpers pg).course_rank (left_lower helpers pg) xs
    ((site helpers pg).start (h.request body))
  obtain ⟨e, he⟩ := exitOf_of_left (Nat.le_zero.mp (hleft.trans (by omega)))
  refine ⟨?_, ?_⟩
  · rcases course_cases helpers pg (start_answered hread) xs with ⟨_, hsafe⟩ | ⟨hno, _⟩
    · cases e with
      | response r => exact ⟨r, he⟩
      | exception => exact absurd (Or.inl he) hsafe
      | lost => exact absurd (Or.inr he) hsafe
    · exact absurd hstore hno
  · rintro j rfl hmisfit r hr
    obtain ⟨msg, hmsg⟩ := refused_start helpers pg (hread j rfl).1 hmisfit
    obtain ⟨hsame, hend⟩ := ended_course helpers pg hmsg xs
    rw [hend, hmsg] at hr
    cases hr
    exact ⟨Nat.le_refl 400, (by decide : (400 : Nat) < 500), hsame⟩

theorem readable_of_served {xs : List (Otp.State × Turn)}
    (hserved : Served h (some j)
      ((site helpers pg).course ((site helpers pg).start (h.request (some j))) xs)) :
    h.Readable j ∧ h.matched helpers j = true := by
  obtain ⟨r, hr⟩ := hserved.answered
  have hstart : ¬ (h.fields.all (h.reads j) = false ∨ h.matched helpers j = false) := by
    rw [← start_crash helpers pg h j]
    rintro (hcrash | hcrash)
    · rw [(ended_course helpers pg hcrash xs).2, hcrash] at hr
      cases hr
    · rw [(ended_course helpers pg hcrash xs).2, hcrash] at hr
      cases hr
  rw [not_or, Bool.not_eq_false, Bool.not_eq_false] at hstart
  obtain ⟨hreads, hmatched⟩ := hstart
  refine ⟨⟨hreads, ?_⟩, hmatched⟩
  by_contra hno
  obtain ⟨hname, hbad⟩ := not_or.mp hno
  simp only [not_forall, Bool.not_eq_true, exists_prop] at hbad
  cases h with
  | createGroup uid =>
      obtain ⟨name, desc, hroute⟩ := routeCreateGroup_named (by
        simpa [Handler.fields, Handler.reads, Handler.wantsObject] using hreads) hname
      have hstuck : Stuck (Chats.routeCreateGroup (some j)) := by
        rw [hroute]
        exact hbad
      obtain rfl : r = serverError :=
        Exit.response.inj (stuck_course helpers pg uid hstuck xs hr)
      exact absurd (hserved.refused j rfl (Or.inr (Or.inr hbad)) _ hr).2.1 (by decide)
  | _ =>
      obtain ⟨v, hv, _⟩ := hbad
      cases hv

/-- A course that is long enough for the handler to end serves the body if and only if the body is
    not JSON, or everything goes through that is read in it and the regex comes back; and the
    session of a token, if one is made, is stored by a call that comes back. -/
theorem served_iff_readable (helpers : Otp.Helpers) (pg : Pg) (h : Handler) (body : Option Json)
    (xs : List (Otp.State × Turn))
    (henough : left ((site helpers pg).start (h.request body)) ≤ xs.length) :
    Served h body ((site helpers pg).course ((site helpers pg).start (h.request body)) xs) ↔
      (∀ j, body = some j → h.Readable j ∧ h.matched helpers j = true) ∧
        (site helpers pg).CourseMeets (StoreReturns helpers)
          ((site helpers pg).start (h.request body)) xs := by
  refine ⟨fun hserved => ?_, fun hread => served_of_readable henough hread.1 hread.2⟩
  have hread : ∀ j, body = some j → h.Readable j ∧ h.matched helpers j = true := by
    rintro j rfl
    exact readable_of_served hserved
  refine ⟨hread, ?_⟩
  have hstart : ¬ Unanswered some (exitOf ((site helpers pg).start (h.request body))) :=
    start_answered hread
  rcases course_cases helpers pg hstart xs with ⟨hstore, _⟩ | ⟨_, hlost⟩
  · exact hstore
  · obtain ⟨r, hr⟩ := hserved.answered
    rw [hlost] at hr
    cases hr

end Bodies

def registerBody : Json := .obj [("email", .str "a@b.cd"), ("username", .str "abc")]

def registerTurns : List (Otp.State × Turn) :=
  List.replicate 4 (Otp.State.initial {}, ⟨answered 0, true⟩)

/-- A registration in an empty database whose session is stored. -/
theorem served_iff_readable_register :
    Served (.register "") (some registerBody)
      ((site Otp.plainHelpers plainPg).course
        ((site Otp.plainHelpers plainPg).start (Handler.request (some registerBody) (.register "")))
        registerTurns) := by
  refine (served_iff_readable Otp.plainHelpers plainPg (.register "") (some registerBody)
    registerTurns (Nat.le_refl 4)).mpr ⟨?_, fun _ => rfl, fun _ => rfl, fun _ => rfl, fun _ => rfl, trivial⟩
  rintro _ ⟨⟩
  exact ⟨⟨by decide, Or.inr (fun v hv => nomatch hv)⟩, rfl⟩

/-- `POST /api/auth/send-otp` with an empty array: an exception leaves the handler. -/
theorem array_crashes : ¬ Served (.sendOtp "123456" 0) (some (.arr []))
    ((site Otp.plainHelpers plainPg).course ((site Otp.plainHelpers plainPg).start
      (Handler.request (some (.arr [])) (.sendOtp "123456" 0))) []) := by
  intro hserved
  obtain ⟨r, hr⟩ := hserved.answered
  cases hr

end Api

end MessengerBackend
