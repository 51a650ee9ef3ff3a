/-
  Every request comes to its end, once.

  `left` bounds the steps that a thread still takes: what remains of `authenticate_request`, the
  statements of the handler (two and one for each member in `create_group`), and
  `store_redis_session`. Each of its own steps lowers it, whatever fails and whatever other
  threads do in between. A thread with nothing left has ended and does nothing more.

  It has ended with an answer (`Proper`) if each of its calls has come back (`Returns`): the
  ones of the `RedisClient` may not, since a failed `connect` waits for a mutex that it holds
  itself, and everybody who wants the mutex after that waits with it; `regex_match` may not,
  on a long email. Statements may fail as they like.

  * `answered_of_run`: after `cost` steps of its own a request has ended, with an answer if and
    only if its calls have come back, and no continuation of the run changes that.

  An exception that leaves a handler is an answer too: Crow's 500.
-/
import MessengerBackend.Api.Bodies
import MessengerBackend.HttpApi.Mediation

namespace MessengerBackend

/-! ## The answers -/

/-- The codes of the errors. -/
def errorCodes : List Nat := [400, 401, 403, 404, 409, 429, 500, 503]

/-- JSON with 200 or 201, or an object with the error. -/
inductive Proper : Exit → Prop where
  | success {status : Nat} {body : Json} (h : status = 200 ∨ status = 201) :
      Proper (.response (jsonResp status body))
  | error {status : Nat} {msg : String} (h : status ∈ errorCodes) :
      Proper (.response (errorResp status msg))
  | exception : Proper .exception

theorem proper_ok (body : Json) : Proper (.response (jsonResp 200 body)) := .success (Or.inl rfl)

theorem proper_created (body : Json) : Proper (.response (jsonResp 201 body)) :=
  .success (Or.inr rfl)

theorem proper_serverError : Proper (.response Api.serverError) := .error (by decide)

/-- If the handler has ended here, then properly. -/
def Ends {P : Type} (exited : Exit → P) (p : P) : Prop := ∀ e, p = exited e → Proper e

namespace Api

theorem withBody_error {α : Type} {body : Option Json} {read : Json → Except JsonError α} {e : Exit}
    (h : withBody body read = .error e) : Proper e := by
  unfold withBody at h
  split at h
  · cases h
    exact .error (by decide)
  · split at h
    · cases h
      exact .exception
    · cases h

theorem proper_answer {rows : Except SqlError (List Json)} {k : List Json → Response}
    (hk : ∀ rs, Proper (.response (k rs))) : Proper (.response (answer rows k)) := by
  unfold answer
  split
  · exact hk _
  · exact proper_serverError

theorem proper_arrayOf (f : Json → Json) (rows : List Json) : Proper (.response (arrayOf f rows)) :=
  proper_ok _

/-- The GET routes. -/
theorem proper_respond (pg : Pg) (q : Env) (uid : String) (r : GetRequest) (db : Db) :
    Proper (.response (respond pg q uid r db)) := by
  cases r with
  | health => exact proper_ok _
  | me | user userId | channel username =>
      -- one row or none
      refine proper_answer (fun rs => ?_)
      cases rs with
      | nil => exact .error (by decide)
      | cons x xs => exact proper_ok _
  | searchUsers s | searchMessages chatId s =>
      show Proper (.response (if _ then _ else _))
      split
      · exact proper_ok _
      · exact proper_answer (proper_arrayOf _)
  | chatInfo chatId =>
      refine proper_answer (fun mem => ?_)
      split
      · exact .error (by decide)
      · refine proper_answer (fun rs => ?_)
        cases rs with
        | nil => exact .error (by decide)
        | cons x xs => exact proper_ok _
  | messages chatId before =>
      refine proper_answer (fun mem => ?_)
      split
      · exact .error (by decide)
      · exact proper_answer (proper_arrayOf _)
  | findByPhone phone =>
      show Proper (.response (if _ then _ else _))
      split
      · exact .error (by decide)
      · refine proper_answer (fun rs => ?_)
        cases rs with
        | nil => exact .error (by decide)
        | cons x xs => exact proper_ok _
  | checkContact contactId => exact proper_answer (fun _ => proper_ok _)
  | chats | members _ | chatSearchUsers _ | contacts | exploreChannels _ | myChannels
  | channelPosts _ _ => exact proper_answer (proper_arrayOf _)

namespace Accounts

theorem ends_exited {e : Exit} (h : Proper e) : Ends .exited (Point.exited e) := by
  rintro _ ⟨⟩
  exact h

theorem ends_failed (e : SqlError) : Ends .exited (failed e) := ends_exited proper_serverError

theorem ends_start (uid : String) (c : Call) : Ends .exited (start uid c) := by
  cases c with
  | updateMe body =>
      show Ends .exited (routeUpdateMe uid body)
      unfold routeUpdateMe
      split
      · rename_i e hbody
        exact ends_exited (withBody_error hbody)
      · split
        · exact ends_exited (.error (by decide))
        · exact fun _ h => nomatch h
  | addContact body =>
      show Ends .exited (routeAddContact uid body)
      unfold routeAddContact
      split
      · rename_i e hbody
        exact ends_exited (withBody_error hbody)
      · split
        · exact ends_exited (.error (by decide))
        · split
          · exact ends_exited (.error (by decide))
          · exact fun _ h => nomatch h
  | removeContact contactId => exact fun _ h => nomatch h

theorem ends_step (uid : String) {p : Point} (h : Ends .exited p) (inp : Input) (db : Db) :
    Ends .exited (step uid p inp db).2 := by
  cases p with
  | updateMe u => exact attempt_next (fun _ => ends_exited (proper_ok _)) ends_failed
  | addContact contactId nickname =>
      exact attempt_next (fun _ => ends_exited (proper_created _)) ends_failed
  | removeContact contactId => exact attempt_next (fun _ => ends_exited (proper_ok _)) ends_failed
  | exited e => exact h

end Accounts

namespace Chats

theorem ends_exited {e : Exit} (h : Proper e) : Ends .exited (Point.exited e) := by
  rintro _ ⟨⟩
  exact h

theorem ends_failed (e : SqlError) : Ends .exited (failed e) := ends_exited proper_serverError

theorem ends_withField (body : Option Json) (key missing : String) {go : String → Point}
    (hgo : ∀ s, Ends .exited (go s)) : Ends .exited (withField body key missing go) := by
  unfold withField
  split
  · rename_i e hbody
    exact ends_exited (withBody_error hbody)
  · split
    · exact ends_exited (.error (by decide))
    · exact hgo _

theorem ends_start (c : Call) : Ends .exited (start c) := by
  cases c with
  | openDirect body => exact ends_withField body _ _ (fun _ _ h => nomatch h)
  | createGroup body =>
      show Ends .exited (routeCreateGroup body)
      unfold routeCreateGroup
      split
      · rename_i e hbody
        exact ends_exited (withBody_error hbody)
      · split
        · exact ends_exited (.error (by decide))
        · exact fun _ h => nomatch h
  | addMember chatId body => exact ends_withField body _ _ (fun _ _ h => nomatch h)
  | reactMessage chatId msgId body => exact ends_withField body _ _ (fun _ _ h => nomatch h)
  | _ => exact fun _ h => nomatch h

theorem ends_nextMember (uid chatId name : String) (l : List Json) :
    Ends .exited (nextMember uid chatId name l) := by
  induction l with
  | nil => exact ends_exited (proper_created _)
  | cons v l ih =>
      rw [nextMember]
      split
      · exact ends_exited proper_serverError
      · split
        · exact ih
        · rintro _ ⟨⟩

theorem ends_step (pg : Pg) (uid : String) {p : Point} (h : Ends .exited p) (inp : Input) (db : Db) :
    Ends .exited (step pg uid p inp db).2 := by
  cases p with
  | exited e => exact h
  | findDirect targetId =>
      refine attempt_next (fun found => ?_) ends_failed
      cases found with
      | none => exact fun _ h => nomatch h
      | some c => exact ends_exited (proper_ok _)
  | createDirect targetId => exact attempt_next (fun _ _ h => nomatch h) ends_failed
  | joinDirect chatId targetId => exact attempt_next (fun _ => ends_exited (proper_created _)) ends_failed
  | createGroup name desc members => exact attempt_next (fun _ _ h => nomatch h) ends_failed
  | ownGroup chatId name members => exact attempt_next (fun _ => ends_nextMember _ _ _ _) ends_failed
  | joinGroup chatId name memberId rest =>
      exact attempt_next (fun _ => ends_nextMember _ _ _ _) (fun _ => ends_nextMember _ _ _ _)
  | _ => exact attempt_next (fun _ => ends_exited (proper_ok _)) ends_failed

end Chats

namespace Channels

theorem ends_exited {e : Exit} (h : Proper e) : Ends .exited (Point.exited e) := by
  rintro _ ⟨⟩
  exact h

theorem ends_failed (e : SqlError) : Ends .exited (failed e) := ends_exited proper_serverError

theorem ends_createFailed (e : SqlError) : Ends .exited (createFailed e) := by
  unfold createFailed
  split
  · exact ends_exited (.error (by decide))
  · exact ends_failed e

theorem ends_start (c : Call) : Ends .exited (start c) := by
  cases c with
  | createChannel body =>
      show Ends .exited (routeCreateChannel body)
      unfold routeCreateChannel
      split
      · rename_i e hbody
        exact ends_exited (withBody_error hbody)
      · split
        · exact ends_exited (.error (by decide))
        · exact fun _ h => nomatch h
  | createPost channelId body =>
      show Ends .exited (routeCreatePost channelId body)
      unfold routeCreatePost
      split
      · rename_i e hbody
        exact ends_exited (withBody_error hbody)
      · exact fun _ h => nomatch h
  | _ => exact fun _ h => nomatch h

theorem ends_step (uid : String) {p : Point} (h : Ends .exited p) (inp : Input) (db : Db) :
    Ends .exited (step uid p inp db).2 := by
  cases p with
  | exited e => exact h
  | createChannel username name description isPublic =>
      exact attempt_next (fun _ _ h => nomatch h) ends_createFailed
  | ownChannel chanId username =>
      exact attempt_next (fun _ => ends_exited (proper_created _)) ends_createFailed
  | subscribe channelId => exact attempt_next (fun _ _ h => nomatch h) ends_failed
  | countSubscriber channelId => exact attempt_next (fun _ => ends_exited (proper_ok _)) ends_failed
  | readRole channelId content isPaid =>
      refine attempt_next (fun role => ?_) ends_failed
      split
      · exact fun _ h => nomatch h
      · exact ends_exited (.error (by decide))
  | createPost channelId content isPaid =>
      exact attempt_next (fun _ => ends_exited (proper_created _)) ends_failed
  | deletePost channelId postId => exact attempt_next (fun _ => ends_exited (proper_ok _)) ends_failed

end Channels

end Api

namespace Otp

theorem ends_exited {e : Exit} (h : Proper e) : Ends .exited (Thread.exited e) := by
  rintro _ ⟨⟩
  exact h

theorem proper_sendFields {h : Helpers} {body : Option Json} {e : Exit} (hl : e ≠ .lost)
    (hf : sendFields h body = .error e) : Proper e := by
  unfold sendFields at hf
  repeat' split at hf
  all_goals cases hf
  all_goals first | exact .exception | exact .error (by decide) | exact absurd rfl hl

theorem proper_verifyFields {body : Option Json} {e : Exit} (h : verifyFields body = .error e) :
    Proper e := by
  unfold verifyFields at h
  repeat' split at h
  all_goals cases h
  all_goals first | exact .exception | exact .error (by decide)

theorem proper_registerFields {body : Option Json} {publicKey : String} {e : Exit}
    (h : registerFields body publicKey = .error e) : Proper e := by
  unfold registerFields at h
  repeat' split at h
  all_goals cases h
  all_goals first | exact .exception | exact .error (by decide)

/-- `regex_match` comes back for the email of the request. -/
def RegexReturns (h : Helpers) : Request → Prop
  | .sendOtp (some j) code now => (Api.Handler.sendOtp code now).matched h j = true
  | _ => True

theorem sendFields_ne_lost {h : Helpers} {body : Option Json} {code : String} {now : Time} :
    RegexReturns h (.sendOtp body code now) ↔ sendFields h body ≠ .error .lost := by
  cases body with
  | none => simp [RegexReturns, sendFields]
  | some j =>
      simp only [RegexReturns, Api.Handler.matched, sendFields]
      cases j.valueString "email" "" with
      | error e => simp
      | ok email =>
          by_cases hempty : email = ""
          · simp [hempty]
          · cases hregex : h.regexReturns email with
            | false => simp [hempty, hregex]
            | true =>
                simp only [hempty, hregex, if_false, Bool.or_true, Bool.not_true, true_iff,
                  Bool.false_eq_true]
                split <;> simp

theorem ends_start (h : Helpers) {r : Request} (hr : RegexReturns h r) : Ends .exited (start h r) := by
  cases r with
  | sendOtp body code now =>
      show Ends .exited (routeSendOtp h body code now)
      have hne := sendFields_ne_lost.mp hr
      unfold routeSendOtp
      split
      · rename_i e hbody
        exact ends_exited (proper_sendFields (fun he => hne (he ▸ hbody)) hbody)
      · exact fun _ h => nomatch h
  | verifyOtp body =>
      show Ends .exited (routeVerifyOtp body)
      unfold routeVerifyOtp
      split
      · rename_i e hbody
        exact ends_exited (proper_verifyFields hbody)
      · exact fun _ h => nomatch h
  | register body publicKey =>
      show Ends .exited (routeRegister body publicKey)
      unfold routeRegister
      split
      · rename_i e hbody
        exact ends_exited (proper_registerFields hbody)
      · exact fun _ h => nomatch h

theorem start_lost {h : Helpers} {r : Request} (hr : ¬ RegexReturns h r) :
    start h r = .exited .lost := by
  cases r with
  | sendOtp body code now =>
      have hlost : sendFields h body = .error .lost := by
        by_contra hne
        exact hr (sendFields_ne_lost.mpr hne)
      simp only [start, routeSendOtp, hlost]
  | verifyOtp body => exact absurd trivial hr
  | register body publicKey => exact absurd trivial hr

theorem ends_dupCheck (res : Except SqlError (Option User)) (msg : String) {next : Thread}
    (hnext : Ends .exited next) : Ends .exited (dupCheck res msg next) := by
  unfold dupCheck
  split
  · exact ends_exited (.error (by decide))
  · exact ends_exited (.error (by decide))
  · exact hnext

theorem ends_step (h : Helpers) {l : Thread} (hl : Ends .exited l) (inp : Input) (s : State) :
    Ends .exited (step h l inp s).2.1 := by
  cases l with
  | exited e => exact hl
  | dupUser f => exact ends_dupCheck _ _ (by rintro _ ⟨⟩)
  | dupEmail f =>
      refine ends_dupCheck _ _ ?_
      split
      · rintro _ ⟨⟩
      · rintro _ ⟨⟩
  | dupPhone f => exact ends_dupCheck _ _ (by rintro _ ⟨⟩)
  | _ =>
      simp only [step]
      repeat' split
      all_goals first
        | exact ends_exited (proper_ok _)
        | exact ends_exited (proper_created _)
        | exact ends_exited (.error (by decide))
        | rintro _ ⟨⟩

end Otp

namespace HttpApi

open Interleave (Each turns)
open Session (Phase)

/-! ## How far a thread is from its answer -/

/-- The steps of `authenticate_request` that are left, at most. -/
def phaseLeft : Phase → Nat
  | .gate _ => 8
  | .connecting _ => 7
  | .verifying _ => 6
  | .second _ _ => 5
  | .acquiring _ _ => 4
  | .command _ _ => 3
  | .reconnecting _ _ => 2
  | .retry _ _ => 1
  | .done _ _ => 1
  | .stuck => 1

/-- Those of the handler, whoever the caller is. -/
def callLeft : Api.Call → Nat
  | .query _ => 1
  | .account _ => 1
  | .chat c => Api.chatLeft (Api.Chats.start c)
  | .channel c => Api.channelLeft (Api.Channels.start c)

/-- With the step that stores a session. -/
def authLeft (t : Otp.Thread) : Nat := if Api.otpLeft t = 0 then 0 else Api.otpLeft t + 1

def left : Thread → Nat
  | .auth t => authLeft t
  | .storing _ _ t => authLeft t + 1
  | .authenticating p call => phaseLeft p + callLeft call
  | .serving t => Api.left (.inr t)
  | .refused _ => 0
  | .background => 0
  | .stuck => 0

/-- How a thread has ended, if it has. -/
def exitOf : Thread → Option Exit
  | .auth t => Api.exitOf (.inl t)
  | .serving t => Api.exitOf (.inr t)
  | .refused r => some (.response r)
  | .stuck => some .lost
  | _ => none

/-! ## One step -/

theorem left_serving (uid : String) (call : Api.Call) :
    left (.serving (Api.start ⟨uid, call⟩)) ≤ callLeft call := by
  cases call with
  | query r => exact Nat.le_refl 1
  | account c =>
      show Api.accountLeft (Api.Accounts.start uid c) ≤ 1
      cases Api.Accounts.start uid c <;> simp [Api.accountLeft]
  | chat c => exact Nat.le_refl _
  | channel c => exact Nat.le_refl _

theorem left_passOn_done (call : Api.Call) (u : String) (status : Nat) :
    left (passOn call (.done u status)) ≤ callLeft call := by
  simp only [passOn]
  split
  · exact Nat.zero_le _
  · exact left_serving u call

theorem left_passOn (call : Api.Call) (p : Phase) : left (passOn call p) ≤ phaseLeft p + callLeft call := by
  cases p with
  | done u status => exact (left_passOn_done call u status).trans (Nat.le_add_left _ _)
  | stuck => exact Nat.zero_le _
  | _ => exact Nat.le_refl _

theorem phaseLeft_pos (p : Phase) : 0 < phaseLeft p := by
  cases p <;> simp [phaseLeft]

theorem judge_done (u : String) (stored : Bytes) :
    ∃ v status, Session.judge u stored = .done v status := by
  unfold Session.judge
  split <;> exact ⟨_, _, rfl⟩

/-- `authenticate_request` returns or never does, or a phase with less before it follows. -/
theorem phaseLeft_step (env : Session.Env) (p : Phase) (inp : Session.Input) (w : Session.World) :
    (Session.step env p inp w).2 = .stuck ∨
      (∃ u status, (Session.step env p inp w).2 = .done u status) ∨
        phaseLeft (Session.step env p inp w).2 < phaseLeft p := by
  have hjudge : ∀ {q : Phase} (u : String) (stored : Bytes), q = Session.judge u stored →
      q = .stuck ∨ (∃ u status, q = .done u status) ∨ phaseLeft q < phaseLeft p := by
    rintro _ u stored rfl
    exact Or.inr (Or.inl (judge_done u stored))
  cases p with
  | gate token =>
      simp only [Session.step]
      split <;> exact Or.inr (Or.inr (by simp [phaseLeft]))
  | connecting token =>
      simp only [Session.step]
      split
      · exact Or.inl rfl
      · split
        · exact Or.inr (Or.inr (by simp [phaseLeft]))
        · cases inp.connects with
          | none => exact Or.inl rfl
          | some ok =>
              cases ok
              · exact Or.inr (Or.inl ⟨_, _, rfl⟩)
              · exact Or.inr (Or.inr (by simp [phaseLeft]))
  | verifying token =>
      simp only [Session.step]
      split
      · exact Or.inr (Or.inl ⟨_, _, rfl⟩)
      · exact Or.inr (Or.inr (by simp [phaseLeft]))
  | second token userId =>
      simp only [Session.step]
      split
      · exact Or.inr (Or.inr (by simp [phaseLeft]))
      · exact Or.inr (Or.inl ⟨_, _, rfl⟩)
  | acquiring token userId =>
      simp only [Session.step]
      split
      · exact Or.inl rfl
      · split
        · exact Or.inr (Or.inr (by simp [phaseLeft]))
        · exact hjudge userId [] rfl
  | command token userId =>
      simp only [Session.step]
      split
      · exact Or.inl rfl
      · split
        · exact hjudge userId _ rfl
        · exact Or.inr (Or.inr (by simp [phaseLeft]))
  | reconnecting token userId =>
      simp only [Session.step]
      split
      · exact Or.inl rfl
      · cases inp.connects with
        | none => exact Or.inl rfl
        | some ok =>
            cases ok
            · exact hjudge userId [] rfl
            · exact Or.inr (Or.inr (by simp [phaseLeft]))
  | retry token userId =>
      simp only [Session.step]
      split
      · exact Or.inl rfl
      · split
        · exact hjudge userId _ rfl
        · exact hjudge userId [] rfl
  | done u status => exact Or.inr (Or.inl ⟨u, status, rfl⟩)
  | stuck => exact Or.inl rfl

theorem left_authenticating (env : Session.Env) (p : Phase) (call : Api.Call) (inp : Session.Input)
    (w : Session.World) :
    left (passOn call (Session.step env p inp w).2) ≤ phaseLeft p + callLeft call - 1 := by
  have hpos := phaseLeft_pos p
  rcases phaseLeft_step env p inp w with hstuck | ⟨u, status, hdone⟩ | hless
  · rw [hstuck]
    exact Nat.zero_le _
  · rw [hdone]
    have hserve := left_passOn_done call u status
    omega
  · have hpass := left_passOn call (Session.step env p inp w).2
    omega

/-- The thread that made a session has its answer. -/
theorem exited_of_session {h : Otp.Helpers} {inp : Otp.Input} {s s' : Otp.State}
    {l l' : Otp.Thread} {obs : List Otp.Obs} (hm : Otp.Moves h inp s l s' l' obs)
    {x : String × String} (hx : sessionOf obs = some x) : ∃ e, l' = .exited e := by
  cases hm with
  | fetched _ _ => cases hx
  | counted _ => cases hx
  | uncounted _ => cases hx
  | matched _ _ _ => cases hx
  | removed _ _ => cases hx
  | kept _ => cases hx
  | checked _ _ => cases hx
  | _ => exact ⟨_, rfl⟩

theorem left_afterAuth {t : Otp.Thread} {obs : List Otp.Obs} {n : Nat} (hn : 0 < n)
    (hleft : authLeft t ≤ n) (hend : ∀ x, sessionOf obs = some x → ∃ e, t = .exited e) :
    left (afterAuth t obs) ≤ n := by
  unfold afterAuth
  split
  · rename_i token userId hsession
    obtain ⟨e, rfl⟩ := hend _ hsession
    exact hn
  · exact hleft

theorem left_auth (env : Env) (t : Otp.Thread) (inp : Input) (s : State) :
    left (stepAuth env t inp s).2.1 ≤ authLeft t - 1 := by
  by_cases hexit : ∃ e, t = .exited e
  · obtain ⟨e, rfl⟩ := hexit
    exact Nat.zero_le _
  · have hpos : Api.otpLeft t ≠ 0 := by
      intro hzero
      obtain ⟨e, he⟩ := Api.exitOf_of_left (l := .inl t) hzero
      exact hexit ⟨e, Api.exitOf_otp.mp he⟩
    have hrunning : ¬ Api.Unanswered .exited t := by
      rintro (h | h)
      · exact hexit ⟨_, h⟩
      · exact hexit ⟨_, h⟩
    have hless := (Api.otpLeft_step env.helpers t (inp.otpInput s.now) s.otp hrunning).2
    have hauth : authLeft t = Api.otpLeft t + 1 := if_neg hpos
    refine left_afterAuth (by omega) ?_ (fun x hx => exited_of_session (Otp.moves_step _ _ _ t) hx)
    unfold authLeft
    split <;> omega

theorem left_storing (env : Env) (token userId : String) (t : Otp.Thread) (inp : Input) (s : State) :
    left (stepStoring env token userId t inp s).2.1 ≤ authLeft t := by
  rcases stepStoring_cases env token userId t inp s with h | h
  · rw [h]
    exact Nat.le_refl _
  · rw [h]
    exact Nat.zero_le _

/-- Its own step brings a thread nearer to its end. -/
theorem left_step (env : Env) (l : Thread) (inp : Input) (s : State) :
    left (step env l inp s).2.1 ≤ left l - 1 := by
  cases l with
  | auth t => exact left_auth env t inp s
  | storing token userId t => exact left_storing env token userId t inp s
  | authenticating p call => exact left_authenticating env.session p call inp.session s.world
  | serving t => exact Api.left_lower env.helpers env.pg (.inr t) ⟨inp.apiInput s.now, true⟩ s.otp
  | refused r => exact Nat.le_refl 0
  | background => exact Nat.le_refl 0
  | stuck => exact Nat.le_refl 0

/-! ## What comes back -/

/-- The call of the phase, if it makes one, comes back. -/
def PhaseReturns : Phase → Session.Input → Session.World → Prop
  | .connecting _, inp, w => w.locked = false ∧ (w.running = true ∨ inp.connects.isSome = true)
  | .acquiring _ _, _, w => w.locked = false
  | .command _ _, inp, _ | .retry _ _, inp, _ => inp.sent ≠ .crashed
  | .reconnecting _ _, inp, w => w.locked = false ∧ inp.connects.isSome = true
  | _, _, _ => True

/-- The same for a step of the server: nobody has the mutex for good, and `connect`,
    `reconnect` and `redisCommand` return. -/
def Returns : Thread → Input → State → Prop
  | .authenticating p _, inp, s => PhaseReturns p inp.session s.world
  | .storing _ _ _, inp, s => s.running = true →
      s.locked = false ∧ (inp.store.acquired = true → inp.store.returned = true)
  | _, _, _ => True

instance (p : Phase) (inp : Session.Input) (w : Session.World) :
    Decidable (PhaseReturns p inp w) :=
  match p with
  | .connecting _ => inferInstanceAs (Decidable (_ ∧ _))
  | .acquiring _ _ => inferInstanceAs (Decidable (_ = _))
  | .command _ _ | .retry _ _ => inferInstanceAs (Decidable (_ ≠ _))
  | .reconnecting _ _ => inferInstanceAs (Decidable (_ ∧ _))
  | .gate _ | .verifying _ | .second _ _ | .done _ _ | .stuck => inferInstanceAs (Decidable True)

instance (l : Thread) (inp : Input) (s : State) : Decidable (Returns l inp s) :=
  match l with
  | .authenticating p _ => inferInstanceAs (Decidable (PhaseReturns p inp.session s.world))
  | .storing _ _ _ => inferInstanceAs (Decidable (_ → _))
  | .auth _ | .serving _ | .refused _ | .background | .stuck => inferInstanceAs (Decidable True)

theorem judge_ne_stuck (u : String) (stored : Bytes) : Session.judge u stored ≠ .stuck := by
  obtain ⟨v, status, h⟩ := judge_done u stored
  rw [h]
  nofun

theorem stuck_phase (env : Session.Env) {p : Phase} (hp : p ≠ .stuck) (inp : Session.Input)
    (w : Session.World) : (Session.step env p inp w).2 = .stuck ↔ ¬ PhaseReturns p inp w := by
  cases p with
  | gate token =>
      simp only [Session.step, PhaseReturns]
      split <;> simp
  | connecting token =>
      simp only [Session.step, PhaseReturns]
      cases hl : w.locked with
      | true => simp
      | false =>
          cases hr : w.running with
          | true => simp
          | false =>
              cases inp.connects with
              | none => simp
              | some ok => cases ok <;> simp
  | verifying token =>
      simp only [Session.step, PhaseReturns]
      split <;> simp
  | second token userId =>
      simp only [Session.step, PhaseReturns]
      split <;> simp
  | acquiring token userId =>
      simp only [Session.step, PhaseReturns]
      cases w.locked with
      | true => simp
      | false => cases inp.acquired <;> simp [judge_ne_stuck]
  | command token userId =>
      simp only [Session.step, PhaseReturns]
      by_cases hs : inp.sent = .crashed
      · simp [hs]
      · rw [if_neg hs]
        cases Session.issue env token inp.sent w <;> simp [hs, judge_ne_stuck]
  | reconnecting token userId =>
      simp only [Session.step, PhaseReturns]
      cases w.locked with
      | true => simp
      | false =>
          cases inp.connects with
          | none => simp
          | some ok => cases ok <;> simp [judge_ne_stuck]
  | retry token userId =>
      simp only [Session.step, PhaseReturns]
      by_cases hs : inp.sent = .crashed
      · simp [hs]
      · rw [if_neg hs]
        cases Session.issue env token inp.sent w <;> simp [hs, judge_ne_stuck]
  | done u status => simp [Session.step, PhaseReturns]
  | stuck => exact absurd rfl hp

theorem stepStoring_of_returns {env : Env} {token userId : String} {t : Otp.Thread} {inp : Input}
    {s : State} (h : Returns (.storing token userId t) inp s) :
    (stepStoring env token userId t inp s).2.1 = .auth t := by
  unfold stepStoring
  cases hrun : s.running with
  | false => rfl
  | true =>
      obtain ⟨hlocked, hstore⟩ := h hrun
      have hback : ({ inp.store with available := true } : Session.StoreInput).comesBack = true := by
        unfold Session.StoreInput.comesBack
        cases hacq : inp.store.acquired with
        | false => rfl
        | true => rw [hstore hacq]; rfl
      simp [hlocked, hback]

theorem stepStoring_of_not_returns {env : Env} {token userId : String} {t : Otp.Thread} {inp : Input}
    {s : State} (h : ¬ Returns (.storing token userId t) inp s) :
    (stepStoring env token userId t inp s).2.1 = .stuck := by
  obtain ⟨hrun, hno⟩ := Classical.not_imp.mp h
  unfold stepStoring
  rw [hrun]
  cases hlocked : s.locked with
  | true => rfl
  | false =>
      have hback : ({ inp.store with available := true } : Session.StoreInput).comesBack = false := by
        unfold Session.StoreInput.comesBack
        cases hacq : inp.store.acquired with
        | false => exact absurd ⟨hlocked, fun ha => by rw [hacq] at ha; cases ha⟩ hno
        | true =>
            cases hret : inp.store.returned with
            | false => rfl
            | true => exact absurd ⟨hlocked, fun _ => hret⟩ hno
      simp [hback]

/-- A thread that has ended does nothing. -/
theorem step_of_exit {env : Env} {l : Thread} {e : Exit} (h : exitOf l = some e) (inp : Input)
    (s : State) : step env l inp s = (s, l, []) := by
  cases l with
  | auth t =>
      obtain rfl := Api.exitOf_otp.mp h
      rfl
  | serving t =>
      have hstep : Api.step env.pg t (inp.apiInput s.now) s.db = (s.db, t, []) := by
        obtain ⟨uid, p⟩ := t
        cases p with
        | query r => cases h
        | answered r => rfl
        | account p =>
            obtain rfl := Api.exitOf_account.mp h
            rfl
        | chat p =>
            obtain rfl := Api.exitOf_chat.mp h
            rfl
        | channel p =>
            obtain rfl := Api.exitOf_channel.mp h
            rfl
      simp only [step, stepServing, hstep, if_true]
      rfl
  | refused r => rfl
  | stuck => rfl
  | storing token userId t => cases h
  | authenticating p call => cases h
  | background => cases h

/-! ## The answer -/

/-- A handler of the API ends properly. -/
def ApiEnds (t : Api.Thread) : Prop := ∀ e, Api.exitOf (.inr t) = some e → Proper e

theorem apiEnds_start (r : Api.Request) : ApiEnds (Api.start r) := by
  obtain ⟨uid, call⟩ := r
  intro e he
  cases call with
  | query r => cases he
  | account c => exact Api.Accounts.ends_start uid c e (Api.exitOf_account.mp he)
  | chat c => exact Api.Chats.ends_start c e (Api.exitOf_chat.mp he)
  | channel c => exact Api.Channels.ends_start c e (Api.exitOf_channel.mp he)

theorem apiEnds_step {pg : Pg} {t : Api.Thread} (h : ApiEnds t) (inp : Api.Input) (db : Db) :
    ApiEnds (Api.step pg t inp db).2.1 := by
  obtain ⟨uid, p⟩ := t
  intro e he
  cases p with
  | query r =>
      cases he
      exact Api.proper_respond pg _ uid r db
  | answered r => exact h e he
  | account p =>
      exact Api.Accounts.ends_step uid (fun e' he' => h e' (Api.exitOf_account.mpr he')) inp db e
        (Api.exitOf_account.mp he)
  | chat p =>
      exact Api.Chats.ends_step pg uid (fun e' he' => h e' (Api.exitOf_chat.mpr he')) inp db e
        (Api.exitOf_chat.mp he)
  | channel p =>
      exact Api.Channels.ends_step uid (fun e' he' => h e' (Api.exitOf_channel.mpr he')) inp db e
        (Api.exitOf_channel.mp he)

/-- A thread whose calls have come back so far. -/
def Going : Thread → Prop
  | .auth t | .storing _ _ t => Ends .exited t
  | .authenticating p _ => p ≠ .stuck
  | .serving t => ApiEnds t
  | .refused _ | .background => True
  | .stuck => False

theorem going_passOn {p : Phase} (hp : p ≠ .stuck) (call : Api.Call) : Going (passOn call p) := by
  cases p with
  | done u status =>
      simp only [passOn]
      split
      · trivial
      · exact apiEnds_start _
  | stuck => exact absurd rfl hp
  | _ => simp [passOn, Going]

theorem going_start (env : Env) {r : Request} (hr : ∀ q, r = .auth q → Otp.RegexReturns env.helpers q) :
    Going (start env r) := by
  cases r with
  | auth q => exact Otp.ends_start _ (hr q rfl)
  | background => trivial
  | api authHeader call =>
      show Going (if isPublic call then _ else _)
      split
      · exact apiEnds_start _
      · refine going_passOn ?_ call
        unfold Session.start
        split <;> nofun

/-- The step of a call that comes back. -/
theorem going_step (env : Env) {l : Thread} (h : Going l) {inp : Input} {s : State}
    (hr : Returns l inp s) : Going (step env l inp s).2.1 := by
  cases l with
  | auth t =>
      have hends := Otp.ends_step env.helpers h (inp.otpInput s.now) s.otp
      show Going (afterAuth _ _)
      unfold afterAuth
      split <;> exact hends
  | storing token userId t =>
      show Going (stepStoring env token userId t inp s).2.1
      rw [stepStoring_of_returns hr]
      exact h
  | authenticating p call =>
      refine going_passOn (fun hstuck => ?_) call
      exact (stuck_phase env.session h inp.session s.world).mp hstuck hr
  | serving t => exact apiEnds_step h _ _
  | refused resp => trivial
  | background => trivial
  | stuck => exact h

/-- And of one that does not. -/
theorem stuck_step (env : Env) {l : Thread} (h : Going l) {inp : Input} {s : State}
    (hr : ¬ Returns l inp s) : (step env l inp s).2.1 = .stuck := by
  cases l with
  | storing token userId t => exact stepStoring_of_not_returns hr
  | authenticating p call =>
      have hstuck := (stuck_phase env.session h inp.session s.world).mpr hr
      show passOn call (Session.step env.session p inp.session s.world).2 = .stuck
      rw [hstuck]
      rfl
  | _ => exact absurd trivial hr

/-- With nothing left there is an end. -/
theorem exitOf_of_left {env : Env} {tr : List (Nat × Obs)} {i : Nat} {r : Request} {l : Thread}
    (hfit : Fits env tr i r l) (hr : r ≠ .background) (hleft : left l = 0) :
    ∃ e, exitOf l = some e := by
  cases l with
  | auth t =>
      refine Api.exitOf_of_left (l := .inl t) ?_
      by_contra (hne : Api.otpLeft t ≠ 0)
      rw [left, authLeft, if_neg hne] at hleft
      exact Nat.succ_ne_zero _ hleft
  | storing token userId t => exact absurd hleft (Nat.succ_ne_zero _)
  | authenticating p call =>
      have hpos := phaseLeft_pos p
      rw [left] at hleft
      omega
  | serving t => exact Api.exitOf_of_left (l := .inr t) hleft
  | refused resp => exact ⟨_, rfl⟩
  | stuck => exact ⟨_, rfl⟩
  | background =>
      cases r with
      | background => exact absurd rfl hr
      | auth r => exact hfit.elim
      | api authHeader call => exact hfit.elim

/-- A thread whose calls have all come back ends properly. -/
theorem proper_of_going {env : Env} {tr : List (Nat × Obs)} {i : Nat} {r : Request} {l : Thread}
    (hfit : Fits env tr i r l) (h : Going l) {e : Exit} (he : exitOf l = some e) : Proper e := by
  cases l with
  | auth t => exact h e (Api.exitOf_otp.mp he)
  | serving t => exact h e he
  | refused resp =>
      cases he
      cases r with
      | api authHeader call =>
          rcases hfit with rfl | rfl
          · exact .error (by decide)
          · exact .error (by decide)
      | auth r => exact hfit.elim
      | background => exact hfit.elim
  | storing token userId t => cases he
  | authenticating p call => cases he
  | background => cases he
  | stuck => exact h.elim

/-! ## After a run -/

/-- The steps that a request needs, at most. -/
def cost : Request → Nat
  | .auth _ => 6
  | .api _ call => 8 + callLeft call
  | .background => 0

theorem left_start (env : Env) (r : Request) : left (start env r) ≤ cost r := by
  cases r with
  | auth r =>
      have hle : Api.otpLeft (Otp.start env.helpers r) ≤ 5 := by
        cases Otp.start env.helpers r <;> simp [Api.otpLeft]
      show authLeft _ ≤ 6
      unfold authLeft
      split <;> omega
  | background => exact Nat.le_refl 0
  | api authHeader call =>
      show left (if isPublic call then _ else _) ≤ 8 + callLeft call
      split
      · exact (left_serving "" call).trans (Nat.le_add_left _ _)
      · refine (left_passOn call _).trans (Nat.add_le_add_right ?_ _)
        unfold Session.start
        split <;> simp [phaseLeft]

/-- All calls that request `r` makes in its turns in `as` come back. -/
def Undelayed (env : Env) (c : Config) (r : Request) (as : List Action) : Prop :=
  (∀ q, r = .auth q → Otp.RegexReturns env.helpers q) ∧
    (system env).Meets (Interleave.OwnTurn Returns c.threads.length)
      ((system env).next c (.spawn r)) as

/-- The turns of a request decide how it ends. -/
theorem proper_iff_undelayed {env : Env} {c : Config} {r : Request} {as : List Action}
    {tr : List (Nat × Obs)} {l : Thread} {e : Exit}
    (hspawned : ((system env).next c (.spawn r)).threads[c.threads.length]? =
      some (r, start env r))
    (hl : (as.foldl (system env).next ((system env).next c (.spawn r))).threads[c.threads.length]? =
      some (r, l))
    (hfit : Fits env tr c.threads.length r l) (he : exitOf l = some e) :
    Proper e ↔ Undelayed env c r as := by
  have hstays : ∀ l inp s, exitOf l = some .lost → exitOf (step env l inp s).2.1 = some .lost := by
    intro l inp s h
    rw [step_of_exit h]
    exact h
  have hlost : exitOf l = some .lost → ¬ Proper e := by
    intro h
    cases he.symm.trans h
    nofun
  by_cases hr : ∀ q, r = .auth q → Otp.RegexReturns env.helpers q
  · obtain ⟨l', hl', hcases⟩ := (system env).turn_split (B := fun l => exitOf l = some .lost)
      (fun l inp s h hret => going_step env h hret)
      (fun l inp s h hret => congrArg exitOf (stuck_step env h hret)) hstays as hspawned
      (going_start env hr)
    cases hl.symm.trans hl'
    rcases hcases with ⟨hmeets, hgoing⟩ | ⟨hno, hbad⟩
    · exact ⟨fun _ => ⟨hr, hmeets⟩, fun _ => proper_of_going hfit hgoing he⟩
    · exact ⟨fun h => absurd h (hlost hbad), fun h => absurd h.2 hno⟩
  · have hstart : exitOf (start env r) = some .lost := by
      simp only [not_forall] at hr
      obtain ⟨q, rfl, hq⟩ := hr
      exact Api.exitOf_otp.mpr (Otp.start_lost hq)
    obtain ⟨l', hl', hbad⟩ := (system env).forever_run (B := fun l => exitOf l = some .lost) hstays
      as hspawned hstart
    cases hl.symm.trans hl'
    exact ⟨fun h => absurd h (hlost hbad), fun h => absurd h.1 hr⟩

/-- A request comes after `as`, and has its turns in `as₁`. -/
theorem answered_of_run (env : Env) (s : State) (as : List Action) (r : Request) (as₁ : List Action)
    (hr : r ≠ .background) (hturns : cost r ≤ turns (run env s as).threads.length as₁) :
    ∃ l e, exitOf l = some e ∧ (Proper e ↔ Undelayed env (run env s as) r as₁) ∧
      (∀ inp s', step env l inp s' = (s', l, [])) ∧
      ∀ as₂, (run env s (as ++ .spawn r :: (as₁ ++ as₂))).threads[(run env s as).threads.length]? =
        some (r, l) := by
  have hsplit : ∀ bs, run env s (as ++ .spawn r :: bs) =
      bs.foldl (system env).next ((system env).next (run env s as) (.spawn r)) := by
    intro bs
    unfold run
    rw [List.foldl_append]
    rfl
  have hspawned : ((system env).next (run env s as) (.spawn r)).threads[(run env s as).threads.length]? =
      some (r, start env r) := List.getElem?_concat_length
  obtain ⟨l, hl, hleft⟩ := (system env).rank_run (left_step env) as₁ hspawned
  have hzero : left l = 0 := by
    have hstart := left_start env r
    have hsum : left (start env r) - turns (run env s as).threads.length as₁ = 0 := by omega
    exact Nat.le_zero.mp (hsum ▸ hleft)
  have hfit := (sound_run env s (as ++ .spawn r :: as₁)).fits _ r l (by rw [hsplit]; exact hl)
  obtain ⟨e, he⟩ := exitOf_of_left hfit hr hzero
  refine ⟨l, e, he, ?_, step_of_exit he, fun as₂ => ?_⟩
  · exact proper_iff_undelayed hspawned hl hfit he
  · rw [hsplit, List.foldl_append]
    exact (system env).settled_run (fun inp s' => congrArg (fun x => x.2.1) (step_of_exit he inp s'))
      as₂ hl

/-- A registration next to another one. -/
def besides : List Action := [go 1, go 0, go 1, go 1, go 0, go 1, go 1, go 1]

theorem answered_of_run_register : ∃ l e, exitOf l = some e ∧ Proper e ∧
    (∀ inp s', step plainServer l inp s' = (s', l, [])) ∧
      ∀ as₂, (run plainServer (serverOf {}) ([.spawn (.auth Otp.registerRequest), go 0] ++
        .spawn (.auth Otp.registerRequest) :: (besides ++ as₂))).threads[1]? =
          some (.auth Otp.registerRequest, l) := by
  obtain ⟨l, e, he, hproper, hrest⟩ := answered_of_run plainServer (serverOf {})
    [.spawn (.auth Otp.registerRequest), go 0] (.auth Otp.registerRequest) besides nofun (by decide)
  have hturns : (system plainServer).Meets (Interleave.OwnTurn Returns 1)
      ((system plainServer).next (run plainServer (serverOf {})
        [.spawn (.auth Otp.registerRequest), go 0]) (.spawn (.auth Otp.registerRequest)))
      besides := by decide +kernel
  refine ⟨l, e, he, hproper.mpr ⟨?_, hturns⟩, hrest⟩
  rintro q ⟨⟩
  trivial

end HttpApi

end MessengerBackend
