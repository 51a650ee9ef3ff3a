/-
  One address's code is out of reach of requests about other addresses.

  `elsewhere k` are the `send-otp` and `verify-otp` requests whose body names an email other
  than `k` (as the parameter of the statement: cut at its first NUL). Requests that are
  refused before their first statement and `register` requests are not among them.

  `isolated_of_run` compares a run with the run in which the requests elsewhere never get to a
  statement (`Interleave.visible`): the `users` table is the same, the stored code of `k` is
  the same up to the number of its issuance, and every other request is at the same point,
  its answer included. So no traffic about other addresses, in whatever interleaving and with
  whatever failures, uses up the five attempts of `k`, replaces, prolongs or consumes its
  code, or changes what anybody who asks about `k` or registers is told.

  `Alike` and `Like` are the two halves of the relation between the two runs, for states and
  for threads; the step lemmas are one for each statement.

  Timing is not modelled, and neither is the mail that carries the code.
-/
import MessengerBackend.Lib.Isolation
import MessengerBackend.Auth.OtpSteps

namespace MessengerBackend.Otp

open Interleave
open PgDb (Outcome Stmt exec reading cstr)

/-- A request for the code of an email other than `k`. -/
def elsewhere (h : Helpers) (k : String) : Request → Bool
  | .sendOtp body _ _ =>
      match sendFields h body with
      | .ok email => cstr email != k
      | .error _ => false
  | .verifyOtp body =>
      match verifyFields body with
      | .ok (email, _) => cstr email != k
      | .error _ => false
  | .register _ _ => false

/-! ## Up to the number of an issuance -/

/-- A row without the number of its issuance, which no statement reads. -/
def unnumbered (r : OtpCode) : OtpCode := { r with issue := 0 }

/-- The states agree on the users and on the code of `k`. -/
structure Alike (k : String) (s s' : State) : Prop where
  users : s.db.users = s'.db.users
  code : (s.code k).map unnumbered = (s'.code k).map unnumbered

/-- The threads are at the same point, with rows of possibly different issuances. -/
inductive Like : Thread → Thread → Prop where
  | same (l : Thread) : Like l l
  | increment (email code : String) {row row' : OtpCode} : unnumbered row = unnumbered row' →
      Like (.increment email code row) (.increment email code row')
  | expiry (email code : String) {row row' : OtpCode} : unnumbered row = unnumbered row' →
      Like (.expiry email code row) (.expiry email code row')
  | delete (email code : String) {row row' : OtpCode} : unnumbered row = unnumbered row' →
      Like (.delete email code row) (.delete email code row')

/-- A thread at its end is like none but itself. -/
theorem Like.exited {e : Exit} {l : Thread} (hl : Like (.exited e) l) : l = .exited e := by
  cases hl
  rfl

/-- States and threads after a step. -/
structure After (k : String) (x y : State × Thread × List Obs) : Prop where
  alike : Alike k x.1 y.1
  like : Like x.2.1 y.2.1

theorem attempts_of_unnumbered {r r' : OtpCode} (h : unnumbered r = unnumbered r') :
    r.attempts = r'.attempts := (OtpCode.mk.inj h).2.2.1

theorem expiresAt_of_unnumbered {r r' : OtpCode} (h : unnumbered r = unnumbered r') :
    r.expiresAt = r'.expiresAt := (OtpCode.mk.inj h).2.2.2.1

theorem codeHash_of_unnumbered {r r' : OtpCode} (h : unnumbered r = unnumbered r') :
    r.codeHash = r'.codeHash := (OtpCode.mk.inj h).2.1

/-! ## The updates of `otp_codes` -/

section Updates

variable {k : String} {s s' : State}

theorem Alike.refl (k : String) (s : State) : Alike k s s := ⟨rfl, rfl⟩

/-- Both states hold a row of `k`, or neither does. -/
theorem Alike.row (ha : Alike k s s') :
    (s.code k = none ∧ s'.code k = none) ∨
      ∃ r r', s.code k = some r ∧ s'.code k = some r' ∧ unnumbered r = unnumbered r' := by
  have hcode := ha.code
  cases hr : s.code k with
  | none =>
      rw [hr] at hcode
      exact Or.inl ⟨rfl, Option.map_eq_none_iff.mp hcode.symm⟩
  | some r =>
      rw [hr] at hcode
      obtain ⟨r', hr', he⟩ := Option.map_eq_some_iff.mp hcode.symm
      exact Or.inr ⟨r, r', rfl, hr', he.symm⟩

theorem Alike.issue (ha : Alike k s s') (codeHash : String) (exp : Time) :
    Alike k (s.issue k codeHash exp) (s'.issue k codeHash exp) := by
  refine ⟨ha.users, ?_⟩
  rw [code_issue, code_issue, if_pos rfl, if_pos rfl]
  rfl

theorem Alike.count (ha : Alike k s s') : Alike k (s.count k) (s'.count k) := by
  refine ⟨ha.users, ?_⟩
  rw [code_count, code_count, if_pos rfl, if_pos rfl]
  have hbump : ∀ o : Option OtpCode, (o.map bump).map unnumbered = (o.map unnumbered).map bump := by
    intro o
    cases o <;> rfl
  rw [hbump, hbump, ha.code]

theorem Alike.remove (ha : Alike k s s') : Alike k (s.remove k) (s'.remove k) := by
  refine ⟨ha.users, ?_⟩
  rw [code_remove, code_remove, if_pos rfl, if_pos rfl]

theorem Alike.withUsers (ha : Alike k s s') (t : Table User) :
    Alike k (s.withUsers t) (s'.withUsers t) := ⟨rfl, ha.code⟩

/-- A statement about another email, on one side. -/
theorem Alike.issue_elsewhere (ha : Alike k s s') {k' : String} (hk : k' ≠ k) (codeHash : String)
    (exp : Time) : Alike k (s.issue k' codeHash exp) s' := by
  refine ⟨ha.users, ?_⟩
  rw [code_issue, if_neg hk.symm, ha.code]

theorem Alike.count_elsewhere (ha : Alike k s s') {k' : String} (hk : k' ≠ k) :
    Alike k (s.count k') s' := by
  refine ⟨ha.users, ?_⟩
  rw [code_count, if_neg hk.symm, ha.code]

theorem Alike.remove_elsewhere (ha : Alike k s s') {k' : String} (hk : k' ≠ k) :
    Alike k (s.remove k') s' := by
  refine ⟨ha.users, ?_⟩
  rw [code_remove, if_neg hk.symm, ha.code]

end Updates

/-! ## A request elsewhere -/

theorem elsewhere_send {h : Helpers} {k : String} {body : Option Json} {email : String}
    (hf : sendFields h body = .ok email) (code : String) (now : Time) :
    elsewhere h k (.sendOtp body code now) = (cstr email != k) := by
  simp only [elsewhere, hf]

theorem elsewhere_verify {h : Helpers} {k : String} {body : Option Json} {email code : String}
    (hf : verifyFields body = .ok (email, code)) :
    elsewhere h k (.verifyOtp body) = (cstr email != k) := by
  simp only [elsewhere, hf]

/-- It leaves the users and the code of `k` as they are. -/
theorem alike_moves {h : Helpers} {inp : Input} {k : String} {s s' t : State} {l l' : Thread}
    {q : Request} {obs : List Obs} (hm : Moves h inp s l t l' obs) (hb : Belongs h q l)
    (hq : elsewhere h k q = true) (ha : Alike k s s') : Alike k t s' := by
  cases hm with
  | issued _ =>
      obtain ⟨body, code, now, rfl, hf, _⟩ := hb
      rw [elsewhere_send hf] at hq
      exact ha.issue_elsewhere (bne_iff_ne.mp hq) _ _
  | counted _ =>
      obtain ⟨body, rfl, hf⟩ := hb
      rw [elsewhere_verify hf] at hq
      exact ha.count_elsewhere (bne_iff_ne.mp hq)
  | removed _ _ =>
      obtain ⟨body, rfl, hf⟩ := hb
      rw [elsewhere_verify hf] at hq
      exact ha.remove_elsewhere (bne_iff_ne.mp hq)
  | enrolled _ _ _ _ =>
      obtain ⟨body, publicKey, rfl, _⟩ := hb
      cases hq
  | _ => exact ha

/-! ## The statements, on both sides -/

section Steps

variable {h : Helpers} {inp : Input} {k : String} {s s' : State} (ha : Alike k s s')
  {email code : String} (hk : cstr email = k)
include ha

/-- A SELECT of a user. -/
theorem Alike.selectUser (o : Outcome) (p : User → Bool) :
    (exec o (selectUser p) s).2 = (exec o (selectUser p) s').2 := by
  cases o <;> simp [exec, Otp.selectUser, reading, ha.users, Except.map]

include hk

theorem Alike.step_upsert (codeHash : String) (exp : Time) :
    After k (step h (.upsert email codeHash exp) inp s)
      (step h (.upsert email codeHash exp) inp s') := by
  subst hk
  have hissue : ∀ s : State, upsertOtp email codeHash exp s =
      if (cstr email).length ≤ 255 then .ok (s.issue (cstr email) codeHash exp, ())
      else .error .tooLong := fun _ => rfl
  have hnext := ha.issue codeHash exp
  simp only [step]
  by_cases hl : (cstr email).length ≤ 255
  · cases inp.outcome with
    | failed msg => exact ⟨ha, .same _⟩
    | done => simpa only [exec, hissue, if_pos hl] using ⟨hnext, .same _⟩
    | lost msg => simpa only [exec, hissue, if_pos hl] using ⟨hnext, .same _⟩
  · cases inp.outcome with
    | failed msg => exact ⟨ha, .same _⟩
    | done => simpa only [exec, hissue, if_neg hl] using ⟨ha, .same _⟩
    | lost msg => simpa only [exec, hissue, if_neg hl] using ⟨ha, .same _⟩

/-- What the SELECT of the code answers. -/
theorem Alike.selectOtp (o : Outcome) :
    (∃ e, (exec o (selectOtp email) s).2 = .error e ∧ (exec o (selectOtp email) s').2 = .error e) ∨
      ((exec o (selectOtp email) s).2 = .ok none ∧ (exec o (selectOtp email) s').2 = .ok none) ∨
      ∃ r r', (exec o (selectOtp email) s).2 = .ok (some r) ∧
        (exec o (selectOtp email) s').2 = .ok (some r') ∧ unnumbered r = unnumbered r' := by
  subst hk
  have hread : ∀ s : State, Otp.selectOtp email s = .ok (s, s.code (cstr email)) := fun _ => rfl
  cases o with
  | failed msg => exact Or.inl ⟨_, rfl, rfl⟩
  | lost msg => exact Or.inl ⟨_, rfl, rfl⟩
  | done =>
      right
      simp only [exec, hread]
      rcases ha.row with ⟨hr, hr'⟩ | ⟨r, r', hr, hr', he⟩
      · exact Or.inl ⟨by rw [hr], by rw [hr']⟩
      · exact Or.inr ⟨r, r', by rw [hr], by rw [hr'], he⟩

theorem Alike.step_fetch :
    After k (step h (.fetch email code) inp s) (step h (.fetch email code) inp s') := by
  simp only [step]
  rcases ha.selectOtp hk inp.outcome with ⟨e, hx, hx'⟩ | ⟨hx, hx'⟩ | ⟨r, r', hx, hx', he⟩
  · simp only [hx, hx']
    exact ⟨ha, .same _⟩
  · simp only [hx, hx']
    exact ⟨ha, .same _⟩
  · simp only [hx, hx', ← attempts_of_unnumbered he]
    split
    · exact ⟨ha, .same _⟩
    · exact ⟨ha, .increment email code he⟩

theorem Alike.step_increment {row row' : OtpCode} (he : unnumbered row = unnumbered row') :
    After k (step h (.increment email code row) inp s)
      (step h (.increment email code row') inp s') := by
  subst hk
  refine ⟨?_, .expiry email code he⟩
  have hinc : ∀ s : State, incAttempts email s =
      if (s.code (cstr email)).any (fun r => 2 ^ 31 ≤ r.attempts + 1) then .error .outOfRange
      else .ok (s.count (cstr email), ()) := fun _ => rfl
  have hbig : (s.code (cstr email)).any (fun r => 2 ^ 31 ≤ r.attempts + 1) =
      (s'.code (cstr email)).any (fun r => 2 ^ 31 ≤ r.attempts + 1) := by
    rcases ha.row with ⟨hr, hr'⟩ | ⟨r, r', hr, hr', he⟩
    · rw [hr, hr']
    · simp only [hr, hr', Option.any_some, attempts_of_unnumbered he]
  have hs := hinc s
  have hs' := hinc s'
  rw [← hbig] at hs'
  simp only [step]
  split at hs
  · rename_i hb
    rw [if_pos hb] at hs'
    cases inp.outcome <;> simpa only [exec, hs, hs'] using ha
  · rename_i hb
    rw [if_neg hb] at hs'
    cases inp.outcome with
    | failed msg => exact ha
    | done => simpa only [exec, hs, hs'] using ha.count
    | lost msg => simpa only [exec, hs, hs'] using ha.count

/-- What the SELECT of the expiry answers. -/
theorem Alike.otpValid (o : Outcome) (now : Time) :
    (exec o (otpValid email now) s).2 = (exec o (otpValid email now) s').2 := by
  subst hk
  have hread : ∀ s : State, Otp.otpValid email now s =
      .ok (s, (s.code (cstr email)).map (fun r => decide (now < r.expiresAt))) := fun _ => rfl
  have hval : (s.code (cstr email)).map (fun r => decide (now < r.expiresAt)) =
      (s'.code (cstr email)).map (fun r => decide (now < r.expiresAt)) := by
    rcases ha.row with ⟨hr, hr'⟩ | ⟨r, r', hr, hr', he⟩
    · rw [hr, hr']
    · simp only [hr, hr', Option.map_some, expiresAt_of_unnumbered he]
  cases o with
  | failed msg => rfl
  | done => simp only [exec, hread, hval]
  | lost msg => rfl

theorem Alike.step_expiry {row row' : OtpCode} (he : unnumbered row = unnumbered row') :
    After k (step h (.expiry email code row) inp s)
      (step h (.expiry email code row') inp s') := by
  simp only [step, ← ha.otpValid hk, ← codeHash_of_unnumbered he]
  split
  · exact ⟨ha, .same _⟩
  · split
    · exact ⟨ha, .delete email code he⟩
    · exact ⟨ha, .same _⟩
  · exact ⟨ha, .same _⟩

theorem Alike.step_delete (row row' : OtpCode) :
    After k (step h (.delete email code row) inp s)
      (step h (.delete email code row') inp s') := by
  subst hk
  refine ⟨?_, .same _⟩
  have hdel : ∀ s : State, deleteOtp email s = .ok (s.remove (cstr email), ()) := fun _ => rfl
  simp only [step]
  cases inp.outcome with
  | failed msg => exact ha
  | done => simpa only [exec, hdel] using ha.remove
  | lost msg => simpa only [exec, hdel] using ha.remove

omit hk

theorem Alike.step_lookup :
    After k (step h (.lookup email) inp s) (step h (.lookup email) inp s') := by
  simp only [step, ← ha.selectUser]
  split <;> exact ⟨ha, .same _⟩

/-- What the INSERT of a user does. -/
theorem Alike.insertUser (f : Registration) (id : Uuid) (now : Time) :
    (∃ e, Otp.insertUser f id now s = .error e ∧ Otp.insertUser f id now s' = .error e) ∨
      ∃ t u, Otp.insertUser f id now s = .ok (s.withUsers t, u) ∧
        Otp.insertUser f id now s' = .ok (s'.withUsers t, u) := by
  unfold Otp.insertUser
  rw [← ha.users]
  split
  · exact Or.inl ⟨_, rfl, rfl⟩
  · split
    · exact Or.inl ⟨_, rfl, rfl⟩
    · exact Or.inr ⟨_, _, rfl, rfl⟩

theorem Alike.step_insert (f : Registration) :
    After k (step h (.insert f) inp s) (step h (.insert f) inp s') := by
  simp only [step]
  rcases ha.insertUser f inp.freshId inp.now with ⟨e, hx, hx'⟩ | ⟨t, u, hx, hx'⟩
  · cases inp.outcome <;> simpa only [exec, hx, hx'] using ⟨ha, .same _⟩
  · cases inp.outcome with
    | failed msg => exact ⟨ha, .same _⟩
    | done => simpa only [exec, hx, hx'] using ⟨ha.withUsers t, .same _⟩
    | lost msg => simpa only [exec, hx, hx'] using ⟨ha.withUsers t, .same _⟩

theorem Alike.step_registering {l : Thread} {f : Registration} (hl : l.registering = some f) :
    After k (step h l inp s) (step h l inp s') := by
  cases l with
  | dupUser f | dupEmail f | dupPhone f =>
      simp only [step, ← ha.selectUser]
      exact ⟨ha, .same _⟩
  | insert f => exact ha.step_insert f
  | _ => cases hl

end Steps

/-- One step of a request that is not elsewhere, in alike states. -/
theorem after_step {h : Helpers} {inp : Input} {k : String} {s s' : State} {l l' : Thread}
    {q : Request} (hb : Belongs h q l) (hq : elsewhere h k q = false) (hl : Like l l')
    (ha : Alike k s s') : After k (step h l inp s) (step h l' inp s') := by
  have hverify : ∀ {body : Option Json} {email code : String}, q = .verifyOtp body →
      verifyFields body = .ok (email, code) → cstr email = k := by
    rintro body email code rfl hf
    rw [elsewhere_verify hf] at hq
    simpa using hq
  cases hl with
  | increment email code he =>
      obtain ⟨body, hbody, hf⟩ := hb
      exact ha.step_increment (hverify hbody hf) he
  | expiry email code he =>
      obtain ⟨body, hbody, hf⟩ := hb
      exact ha.step_expiry (hverify hbody hf) he
  | delete email code he =>
      obtain ⟨body, hbody, hf⟩ := hb
      exact ha.step_delete (hverify hbody hf) _ _
  | same =>
      cases l with
      | upsert email codeHash exp =>
          obtain ⟨body, code, now, rfl, hf, _⟩ := hb
          rw [elsewhere_send hf] at hq
          exact ha.step_upsert (by simpa using hq) codeHash exp
      | fetch email code =>
          obtain ⟨body, hbody, hf⟩ := hb
          exact ha.step_fetch (hverify hbody hf)
      | increment email code row =>
          obtain ⟨body, hbody, hf⟩ := hb
          exact ha.step_increment (hverify hbody hf) rfl
      | expiry email code row =>
          obtain ⟨body, hbody, hf⟩ := hb
          exact ha.step_expiry (hverify hbody hf) rfl
      | delete email code row =>
          obtain ⟨body, hbody, hf⟩ := hb
          exact ha.step_delete (hverify hbody hf) row row
      | lookup email => exact ha.step_lookup
      | dupUser f | dupEmail f | dupPhone f | insert f =>
          exact ha.step_registering (f := f) rfl
      | exited e => exact ⟨ha, .same _⟩

/-! ## Runs -/

/-- A thread keeps the fields of its request whatever it does. -/
theorem belongs_step {h : Helpers} {inp : Input} {s : State} {l : Thread} {q : Request}
    (hb : Belongs h q l) : Belongs h q (step h l inp s).2.1 :=
  belongs_moves (moves_step h inp s l) hb

theorem unwinding (h : Helpers) (k : String) :
    Unwinding (system h) (elsewhere h k) (Alike k) (Belongs h)
      (fun q l l' => Belongs h q l ∧ Like l l') where
  hidden_start q _ := belongs_start h q
  hidden_step _ l inp s _ hq hb ha :=
    ⟨alike_moves (moves_step h inp s l) hb hq ha, belongs_step hb⟩
  visible_start q _ := ⟨belongs_start h q, .same _⟩
  visible_step _ _ _ _ _ _ hq hs ha :=
    have hafter := after_step hs.1 hq hs.2 ha
    ⟨hafter.alike, belongs_step hs.1, hafter.like⟩

/-- The same run, with the requests elsewhere stopped before their first statement, ends with
    the same users, the same code of `k`, and the same answer to every other request. -/
theorem isolated_of_run (h : Helpers) (k : String) (s : State) (as : List Action) :
    let c := as.foldl (system h).next (Config.init s)
    let c' := (visible (elsewhere h k) [] as).foldl (system h).next (Config.init s)
    c.shared.db.users = c'.shared.db.users ∧
      (c.shared.code k).map unnumbered = (c'.shared.code k).map unnumbered ∧
      ∀ (i : Nat) (q : Request) (l : Thread), c.threads[i]? = some (q, l) → elsewhere h k q = false →
        ∃ l', c'.threads[i]? = some (q, l') ∧ ∀ e, l = .exited e ↔ l' = .exited e := by
  intro c c'
  have haligned : Aligned (elsewhere h k) (Alike k) (Belongs h)
      (fun q l l' => Belongs h q l ∧ Like l l') c c' :=
    (unwinding h k).aligned as (Aligned.init (Alike.refl k s))
  refine ⟨haligned.shared.users, haligned.shared.code, fun i q l hi hq => ?_⟩
  obtain ⟨l', hi'⟩ := haligned.counterpart hi
  obtain ⟨_, hlike⟩ := haligned.seen i q l l' hi hi' hq
  refine ⟨l', hi', fun e => ?_⟩
  constructor
  · rintro rfl
    exact hlike.exited
  · rintro rfl
    cases hlike
    rfl

end MessengerBackend.Otp
