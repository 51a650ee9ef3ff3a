/-
  What one step of the authentication endpoints can do.

  `State.code` is `otp_codes` as a map from emails to rows, and each statement is an update
  of it (`code_issue`, `code_count`, `code_remove`). `Moves` lists the transitions of a
  thread with their guards, effects and observations; `moves_step` says `step` does nothing
  else. Every invariant of these endpoints is a case analysis over `Moves`.
-/
import MessengerBackend.Auth.Otp

namespace MessengerBackend.Otp

open PgDb (Outcome Stmt exec reading cstr)

/-! ## `otp_codes` as a map -/

def State.code (s : State) (k : String) : Option OtpCode := s.db.otpCodes.lookup OtpCode.email k

theorem otpRow_eq (s : State) (email : String) : otpRow s email = s.code (cstr email) := rfl

theorem clash_otpCode (a b : OtpCode) : Keyed.clash a b = (a.email == b.email) := rfl

/-- The state after an executed `send-otp` upsert. -/
def State.issue (s : State) (k codeHash : String) (expiresAt : Time) : State :=
  { s.withOtp (s.db.otpCodes.upsert ⟨k, codeHash, 0, expiresAt, s.issued⟩
      (reissue codeHash expiresAt s.issued) (fun _ _ => rfl)) with issued := s.issued + 1 }

/-- The state after an executed attempt count. -/
def State.count (s : State) (k : String) : State :=
  s.withOtp (s.db.otpCodes.modify (fun r => r.email == k) bump clash_bump)

/-- The state after an executed DELETE. -/
def State.remove (s : State) (k : String) : State :=
  s.withOtp (s.db.otpCodes.erase (fun r => r.email == k))

theorem code_email {s : State} {k : String} {r : OtpCode} (h : s.code k = some r) :
    r.email = k := Table.key_of_lookup h

theorem code_issue (s : State) (k codeHash : String) (expiresAt : Time) (k' : String) :
    (s.issue k codeHash expiresAt).code k' =
      if k' = k then some ⟨k, codeHash, 0, expiresAt, s.issued⟩ else s.code k' := by
  have hl := Table.lookup_upsert (t := s.db.otpCodes)
    (a := ⟨k, codeHash, 0, expiresAt, s.issued⟩) (f := reissue codeHash expiresAt s.issued)
    (fun _ _ => rfl) clash_otpCode (fun _ => rfl) k'
  refine hl.trans ?_
  by_cases hk : k' = k
  · simp only [hk, if_true]
    cases ho : s.db.otpCodes.lookup OtpCode.email k with
    | none => rfl
    | some r =>
        have he : r.email = k := Table.key_of_lookup ho
        simp [reissue, he]
  · simp only [hk, if_false]
    rfl

theorem code_count (s : State) (k k' : String) :
    (s.count k).code k' = if k' = k then (s.code k').map bump else s.code k' :=
  Table.lookup_modify (t := s.db.otpCodes) (f := bump) (fun _ _ => rfl) (fun _ => rfl) k k'

theorem code_remove (s : State) (k k' : String) :
    (s.remove k).code k' = if k' = k then none else s.code k' :=
  Table.lookup_erase (t := s.db.otpCodes) k k'

theorem remove_of_none {s : State} {k : String} (h : s.code k = none) : s.remove k = s := by
  have hne : ∀ r ∈ s.db.otpCodes, (r.email == k) = false := by
    intro r hr
    simpa using Table.lookup_eq_none.mp h r hr
  unfold State.remove State.withOtp
  rw [Table.erase_of_none hne]

theorem code_initial (db : Db) (k : String) : (State.initial db).code k = none := rfl

/-! ## The transitions -/

/-- A 2xx answer. -/
def succeeded : Exit → Bool
  | .response r => r.status < 300
  | .exception => false
  | .lost => false

/-- A thread is about to run a statement of `register`. -/
def Thread.registering : Thread → Option Registration
  | .dupUser f | .dupEmail f | .dupPhone f | .insert f => some f
  | _ => none

/-! ## Before the first statement -/

theorem sendFields_error {h : Helpers} {body : Option Json} {e : Exit}
    (hf : sendFields h body = .error e) : succeeded e = false := by
  unfold sendFields at hf
  repeat' split at hf
  all_goals cases hf <;> rfl

theorem verifyFields_error {body : Option Json} {e : Exit} (hf : verifyFields body = .error e) :
    succeeded e = false := by
  unfold verifyFields at hf
  repeat' split at hf
  all_goals cases hf <;> rfl

theorem registerFields_error {body : Option Json} {publicKey : String} {e : Exit}
    (hf : registerFields body publicKey = .error e) : succeeded e = false := by
  unfold registerFields at hf
  repeat' split at hf
  all_goals cases hf <;> rfl

/-- A request ends before its first statement only in a refusal. -/
theorem start_exited {h : Helpers} {q : Request} {e : Exit} (hs : start h q = .exited e) :
    succeeded e = false := by
  cases q with
  | sendOtp body code now =>
      simp only [start, routeSendOtp] at hs
      split at hs
      · rename_i hf
        cases hs
        exact sendFields_error hf
      · cases hs
  | verifyOtp body =>
      simp only [start, routeVerifyOtp] at hs
      split at hs
      · rename_i hf
        cases hs
        exact verifyFields_error hf
      · cases hs
  | register body publicKey =>
      simp only [start, routeRegister] at hs
      split at hs
      · rename_i hf
        cases hs
        exact registerFields_error hf
      · cases hs

/-- The first statement of a request is its upsert, its SELECT of the code or its check of
    the username. -/
theorem start_cases (h : Helpers) (q : Request) :
    (∃ e, start h q = .exited e) ∨
      (∃ email codeHash exp, start h q = .upsert email codeHash exp) ∨
      (∃ email code, start h q = .fetch email code) ∨ ∃ f, start h q = .dupUser f := by
  cases q with
  | sendOtp body code now =>
      simp only [start, routeSendOtp]
      split <;> simp
  | verifyOtp body =>
      simp only [start, routeVerifyOtp]
      split <;> simp
  | register body publicKey =>
      simp only [start, routeRegister]
      split <;> simp

/-! ## The moves -/

/-- The transitions of a thread in state `s` on input `inp`: the state after, the thread
    after, and what is observed. -/
inductive Moves (h : Helpers) (inp : Input) (s : State) :
    Thread → State → Thread → List Obs → Prop where
  | refused {l : Thread} {e : Exit} : succeeded e = false → Moves h inp s l s (.exited e) []
  | stayed {e : Exit} : Moves h inp s (.exited e) s (.exited e) []
  | issued {email codeHash : String} {exp : Time} {e : Exit} : inp.outcome.executes = true →
      Moves h inp s (.upsert email codeHash exp) (s.issue (cstr email) codeHash exp) (.exited e)
        [.upserted (cstr email) s.issued]
  | fetched {email code : String} {row : OtpCode} : s.code (cstr email) = some row →
      row.attempts < 5 →
      Moves h inp s (.fetch email code) s (.increment email code row) []
  | counted {email code : String} {row : OtpCode} : inp.outcome.executes = true →
      Moves h inp s (.increment email code row) (s.count (cstr email))
        (.expiry email code row) []
  | uncounted {email code : String} {row : OtpCode} :
      inp.outcome.executes = false ∨
        (∃ r, s.code (cstr email) = some r ∧ 2 ^ 31 ≤ r.attempts + 1) →
      Moves h inp s (.increment email code row) s (.expiry email code row) []
  | mismatched {email code : String} {row : OtpCode} {e : Exit} :
      row.codeHash ≠ h.hash code → succeeded e = false →
      Moves h inp s (.expiry email code row) s (.exited e) [.compared row.issue]
  | matched {email code : String} {row r : OtpCode} : row.codeHash = h.hash code →
      s.code (cstr email) = some r → inp.now < r.expiresAt →
      Moves h inp s (.expiry email code row) s (.delete email code row) [.compared row.issue]
  | removed {email code : String} {row r : OtpCode} : inp.outcome.executes = true →
      s.code (cstr email) = some r →
      Moves h inp s (.delete email code row) (s.remove (cstr email)) (.lookup email)
        [.removed r inp.now]
  | kept {email code : String} {row : OtpCode} :
      inp.outcome.executes = false ∨ s.code (cstr email) = none →
      Moves h inp s (.delete email code row) s (.lookup email) []
  | welcomed {email : String} {r : Response} : r.status = 200 →
      Moves h inp s (.lookup email) s (.exited (.response r)) []
  | loggedIn {email : String} {u : User} {r : Response} : r.status = 200 →
      u ∈ s.db.users → u.email = cstr email →
      Moves h inp s (.lookup email) s (.exited (.response r))
        [.session (h.create (Uuid.uuidOut u.id) inp.now) (Uuid.uuidOut u.id)]
  | checked {l l' : Thread} {f : Registration} : l.registering = some f →
      l'.registering = some f → Moves h inp s l s l' []
  | enrolled {f : Registration} {u : User} {t : Table User} {e : Exit} {obs : List Obs} :
      inp.outcome.executes = true → userRow f inp.freshId inp.now = .ok u →
      s.db.users.insert u = some t →
      obs = [] ∨ obs = [.session (h.create (Uuid.uuidOut u.id) inp.now) (Uuid.uuidOut u.id)] →
      Moves h inp s (.insert f) (s.withUsers t) (.exited e) (.inserted u :: obs)

/-! ## `step` makes exactly these moves -/

variable (h : Helpers) (inp : Input) (s : State)

theorem moves_upsert (email codeHash : String) (exp : Time) :
    Moves h inp s (.upsert email codeHash exp) (step h (.upsert email codeHash exp) inp s).1
      (step h (.upsert email codeHash exp) inp s).2.1
      (step h (.upsert email codeHash exp) inp s).2.2 := by
  have hissue : upsertOtp email codeHash exp s =
      if (cstr email).length ≤ 255 then .ok (s.issue (cstr email) codeHash exp, ())
      else .error .tooLong := rfl
  have hne : (s.issue (cstr email) codeHash exp).issued ≠ s.issued := by
    simp [State.issue]
  simp only [step]
  by_cases hl : (cstr email).length ≤ 255
  · rw [if_pos hl] at hissue
    cases ho : inp.outcome with
    | failed msg => simpa [exec] using .refused rfl
    | done => simpa [exec, hissue, hne] using .issued (by rw [ho]; rfl)
    | lost msg => simpa [exec, hissue, hne] using .issued (by rw [ho]; rfl)
  · rw [if_neg hl] at hissue
    cases inp.outcome <;> simpa [exec, hissue] using .refused rfl

theorem moves_fetch (email code : String) :
    Moves h inp s (.fetch email code) (step h (.fetch email code) inp s).1
      (step h (.fetch email code) inp s).2.1 (step h (.fetch email code) inp s).2.2 := by
  simp only [step]
  split
  · exact .refused rfl
  · exact .refused rfl
  · rename_i row hrow
    have hread : otpRow s email = some row := by
      have := PgDb.exec_reading_ok hrow
      simpa using this
    split
    · exact .refused rfl
    · exact .fetched hread (by omega)

theorem moves_increment (email code : String) (row : OtpCode) :
    Moves h inp s (.increment email code row) (step h (.increment email code row) inp s).1
      (step h (.increment email code row) inp s).2.1
      (step h (.increment email code row) inp s).2.2 := by
  simp only [step]
  have hinc : incAttempts email s =
      if (otpRow s email).any (fun r => 2 ^ 31 ≤ r.attempts + 1) then .error .outOfRange
      else .ok (s.count (cstr email), ()) := rfl
  by_cases hbig : (otpRow s email).any (fun r => 2 ^ 31 ≤ r.attempts + 1) = true
  · rw [if_pos hbig] at hinc
    have hrow : ∃ r, s.code (cstr email) = some r ∧ 2 ^ 31 ≤ r.attempts + 1 := by
      cases hr : otpRow s email with
      | none => simp [hr] at hbig
      | some r => exact ⟨r, hr, by simpa [hr] using hbig⟩
    cases inp.outcome <;> simpa [exec, hinc] using .uncounted (Or.inr hrow)
  · rw [if_neg hbig] at hinc
    cases ho : inp.outcome with
    | failed msg => simpa [exec] using .uncounted (Or.inl (by rw [ho]; rfl))
    | done => simpa [exec, hinc] using .counted (by rw [ho]; rfl)
    | lost msg => simpa [exec, hinc] using .counted (by rw [ho]; rfl)

theorem moves_expiry (email code : String) (row : OtpCode) :
    Moves h inp s (.expiry email code row) (step h (.expiry email code row) inp s).1
      (step h (.expiry email code row) inp s).2.1
      (step h (.expiry email code row) inp s).2.2 := by
  simp only [step]
  split
  · exact .refused rfl
  · rename_i hvalid
    have hread : (otpRow s email).map (fun r => decide (inp.now < r.expiresAt)) = some true := by
      have := PgDb.exec_reading_ok hvalid
      simpa using this
    obtain ⟨r, hr, hlt⟩ := Option.map_eq_some_iff.mp hread
    split
    · rename_i heq
      exact .matched heq hr (by simpa using hlt)
    · rename_i hne
      exact .mismatched hne rfl
  · exact .refused rfl

theorem moves_delete (email code : String) (row : OtpCode) :
    Moves h inp s (.delete email code row) (step h (.delete email code row) inp s).1
      (step h (.delete email code row) inp s).2.1
      (step h (.delete email code row) inp s).2.2 := by
  have hdel : deleteOtp email s = .ok (s.remove (cstr email), ()) := rfl
  have hgone : otpRow (s.remove (cstr email)) email = none := by
    rw [otpRow_eq, code_remove, if_pos rfl]
  simp only [step]
  cases hr : otpRow s email with
  | none =>
      have hrm : s.remove (cstr email) = s := remove_of_none hr
      cases inp.outcome <;> simpa [exec, hdel, hrm] using .kept (Or.inr hr)
  | some r =>
      cases ho : inp.outcome with
      | failed msg => simpa [exec, hr] using .kept (Or.inl (by rw [ho]; rfl))
      | done => simpa [exec, hdel, hgone] using .removed (by rw [ho]; rfl) hr
      | lost msg => simpa [exec, hdel, hgone] using .removed (by rw [ho]; rfl) hr

theorem moves_lookup (email : String) :
    Moves h inp s (.lookup email) (step h (.lookup email) inp s).1
      (step h (.lookup email) inp s).2.1 (step h (.lookup email) inp s).2.2 := by
  simp only [step]
  split
  · exact .refused rfl
  · exact .welcomed rfl
  · rename_i u hu
    have hfind : s.db.users.rows.find? (hasEmail email) = some u := by
      have := PgDb.exec_reading_ok hu
      simpa using this
    have hmail := List.find?_some hfind
    exact .loggedIn rfl (List.mem_of_find?_eq_some hfind) (by simpa [hasEmail] using hmail)

/-- A duplicate check goes on with the registration or refuses it. -/
theorem moves_dupCheck {l next : Thread} {f : Registration} (hl : l.registering = some f)
    (hn : next.registering = some f) (res : Except SqlError (Option User)) (msg : String) :
    Moves h inp s l s (dupCheck res msg next) [] := by
  unfold dupCheck
  split
  · exact .refused rfl
  · exact .refused rfl
  · exact .checked hl hn

theorem moves_insert (f : Registration) :
    Moves h inp s (.insert f) (step h (.insert f) inp s).1
      (step h (.insert f) inp s).2.1 (step h (.insert f) inp s).2.2 := by
  simp only [step]
  cases hu : userRow f inp.freshId inp.now with
  | error e =>
      have hins : insertUser f inp.freshId inp.now s = .error e := by simp [insertUser, hu]
      cases inp.outcome <;> simpa [exec, hins] using .refused rfl
  | ok u =>
      cases ht : s.db.users.insert u with
      | none =>
          have hins : insertUser f inp.freshId inp.now s = .error .unique := by
            simp [insertUser, hu, ht]
          cases inp.outcome <;> simpa [exec, hins] using .refused rfl
      | some t =>
          have hins : insertUser f inp.freshId inp.now s = .ok (s.withUsers t, u) := by
            simp [insertUser, hu, ht]
          cases ho : inp.outcome with
          | failed msg => simpa [exec, hins, Outcome.executes] using .refused rfl
          | done =>
              simpa [exec, hins, Outcome.executes] using
                .enrolled (by rw [ho]; rfl) hu ht (Or.inr rfl)
          | lost msg =>
              simpa [exec, hins, Outcome.executes] using
                .enrolled (by rw [ho]; rfl) hu ht (Or.inl rfl)

/-- The inversion of `step`: whatever a thread does is one of the moves. -/
theorem moves_step (l : Thread) :
    Moves h inp s l (step h l inp s).1 (step h l inp s).2.1 (step h l inp s).2.2 := by
  cases l with
  | upsert email codeHash exp => exact moves_upsert h inp s email codeHash exp
  | fetch email code => exact moves_fetch h inp s email code
  | increment email code row => exact moves_increment h inp s email code row
  | expiry email code row => exact moves_expiry h inp s email code row
  | delete email code row => exact moves_delete h inp s email code row
  | lookup email => exact moves_lookup h inp s email
  | dupUser f => exact moves_dupCheck h inp s rfl rfl _ _
  | dupEmail f =>
      refine moves_dupCheck h inp s (f := f) rfl ?_ _ _
      split <;> rfl
  | dupPhone f => exact moves_dupCheck h inp s rfl rfl _ _
  | insert f => exact moves_insert h inp s f
  | exited e => exact .stayed

/-! ## Issuances -/

/-- The stored rows are of different issuances, all of them past. -/
structure State.Numbered (s : State) : Prop where
  past : ∀ k r, s.code k = some r → r.issue < s.issued
  apart : ∀ k k' r r', s.code k = some r → s.code k' = some r' → r.issue = r'.issue → k = k'

theorem numbered_initial (db : Db) : (State.initial db).Numbered where
  past k r hr := by rw [code_initial] at hr; cases hr
  apart k k' r r' hr := by rw [code_initial] at hr; cases hr

/-- A stored row after an upsert is the new one or an old one. -/
theorem code_issue_cases {k codeHash : String} {exp : Time} {k' : String} {r : OtpCode}
    (hr : (s.issue k codeHash exp).code k' = some r) :
    (k' = k ∧ r = ⟨k, codeHash, 0, exp, s.issued⟩) ∨ (k' ≠ k ∧ s.code k' = some r) := by
  rw [code_issue] at hr
  split at hr
  · rename_i hk
    exact Or.inl ⟨hk, (Option.some.inj hr).symm⟩
  · rename_i hk
    exact Or.inr ⟨hk, hr⟩

/-- A stored row after a count is the old one, counted if it is the email's. -/
theorem code_count_cases {k k' : String} {r : OtpCode} (hr : (s.count k).code k' = some r) :
    ∃ r₀, s.code k' = some r₀ ∧ r = if k' = k then bump r₀ else r₀ := by
  rw [code_count] at hr
  split at hr
  · rename_i hk
    obtain ⟨r₀, hr₀, rfl⟩ := Option.map_eq_some_iff.mp hr
    exact ⟨r₀, hr₀, by rw [if_pos hk]⟩
  · rename_i hk
    exact ⟨r, hr, by rw [if_neg hk]⟩

/-- A stored row after a removal is an old one of another email. -/
theorem code_remove_cases {k k' : String} {r : OtpCode} (hr : (s.remove k).code k' = some r) :
    k' ≠ k ∧ s.code k' = some r := by
  rw [code_remove] at hr
  split at hr
  · cases hr
  · rename_i hk
    exact ⟨hk, hr⟩

variable {h inp s} in
theorem numbered_moves {l l' : Thread} {s' : State} {obs : List Obs}
    (hm : Moves h inp s l s' l' obs) (hn : s.Numbered) : s'.Numbered := by
  cases hm with
  | issued _ =>
      refine ⟨?_, ?_⟩
      · intro k r hr
        rcases code_issue_cases s hr with ⟨_, rfl⟩ | ⟨_, hold⟩
        · exact Nat.lt_succ_self _
        · exact Nat.lt_succ_of_lt (hn.past k r hold)
      · intro k k' r r' hr hr' heq
        rcases code_issue_cases s hr with ⟨hk, rfl⟩ | ⟨_, hold⟩
        · rcases code_issue_cases s hr' with ⟨hk', _⟩ | ⟨_, hold'⟩
          · rw [hk, hk']
          · exact absurd heq.symm (Nat.ne_of_lt (hn.past k' r' hold'))
        · rcases code_issue_cases s hr' with ⟨_, rfl⟩ | ⟨_, hold'⟩
          · exact absurd heq (Nat.ne_of_lt (hn.past k r hold))
          · exact hn.apart k k' r r' hold hold' heq
  | counted _ =>
      have hissue : ∀ {k k' r}, (s.count k).code k' = some r →
          ∃ r₀, s.code k' = some r₀ ∧ r.issue = r₀.issue := by
        intro k k' r hr
        obtain ⟨r₀, hr₀, rfl⟩ := code_count_cases s hr
        exact ⟨r₀, hr₀, by split <;> rfl⟩
      refine ⟨?_, ?_⟩
      · intro k r hr
        obtain ⟨r₀, hr₀, hi⟩ := hissue hr
        rw [hi]
        exact hn.past k r₀ hr₀
      · intro k k' r r' hr hr' heq
        obtain ⟨r₀, hr₀, hi⟩ := hissue hr
        obtain ⟨r₁, hr₁, hi'⟩ := hissue hr'
        exact hn.apart k k' r₀ r₁ hr₀ hr₁ (by rw [← hi, ← hi', heq])
  | removed _ _ =>
      refine ⟨?_, ?_⟩
      · intro k r hr
        exact hn.past k r (code_remove_cases s hr).2
      · intro k k' r r' hr hr'
        exact hn.apart k k' r r' (code_remove_cases s hr).2 (code_remove_cases s hr').2
  | enrolled _ _ _ _ => exact ⟨hn.past, hn.apart⟩
  | _ => exact hn

/-! ## A thread and its request -/

/-- Thread `l` carries the fields of request `q`. -/
def Belongs (h : Helpers) (q : Request) : Thread → Prop
  | .upsert email codeHash exp => ∃ body code now, q = .sendOtp body code now ∧
      sendFields h body = .ok email ∧ codeHash = h.hash code ∧ exp = expiresAt now
  | .fetch email code | .increment email code _ | .expiry email code _ | .delete email code _ =>
      ∃ body, q = .verifyOtp body ∧ verifyFields body = .ok (email, code)
  | .lookup email => ∃ body code, q = .verifyOtp body ∧ verifyFields body = .ok (email, code)
  | .dupUser f | .dupEmail f | .dupPhone f | .insert f =>
      ∃ body publicKey, q = .register body publicKey ∧ registerFields body publicKey = .ok f
  | .exited _ => True

theorem belongs_start (q : Request) : Belongs h q (start h q) := by
  cases q with
  | sendOtp body code now =>
      simp only [start, routeSendOtp]
      split
      · trivial
      · rename_i hf
        exact ⟨body, code, now, rfl, hf, rfl, rfl⟩
  | verifyOtp body =>
      simp only [start, routeVerifyOtp]
      split
      · trivial
      · rename_i hf
        exact ⟨body, rfl, hf⟩
  | register body publicKey =>
      simp only [start, routeRegister]
      split
      · trivial
      · rename_i hf
        exact ⟨body, publicKey, rfl, hf⟩

theorem belongs_registering {q : Request} {l : Thread} {f : Registration}
    (hl : l.registering = some f) :
    Belongs h q l ↔
      ∃ body publicKey, q = .register body publicKey ∧ registerFields body publicKey = .ok f := by
  cases l <;> first | (cases hl; rfl) | cases hl

variable {h inp s} in
theorem belongs_moves {q : Request} {l l' : Thread} {s' : State} {obs : List Obs}
    (hm : Moves h inp s l s' l' obs) (hb : Belongs h q l) : Belongs h q l' := by
  cases hm with
  | refused _ => trivial
  | stayed => trivial
  | issued _ => trivial
  | fetched _ _ => exact hb
  | counted _ => exact hb
  | uncounted _ => exact hb
  | mismatched _ _ => trivial
  | matched _ _ _ => exact hb
  | removed _ _ =>
      obtain ⟨body, hq, hf⟩ := hb
      exact ⟨body, _, hq, hf⟩
  | kept _ =>
      obtain ⟨body, hq, hf⟩ := hb
      exact ⟨body, _, hq, hf⟩
  | welcomed _ => trivial
  | loggedIn _ _ _ => trivial
  | checked hl hl' => exact (belongs_registering h hl').mpr ((belongs_registering h hl).mp hb)
  | enrolled _ _ _ _ => trivial

variable {h} in
/-- In every run each thread carries the fields of its own request. -/
theorem belongs_of_reach {P : Config → Action → Prop} {s₀ : State} {c : Config}
    (hr : (system h).Reach P (Interleave.Config.init s₀) c) (i : Nat) (q : Request) (l : Thread)
    (ht : c.threads[i]? = some (q, l)) : Belongs h q l :=
  Interleave.System.Reach.each (Belongs h) (belongs_start h)
    (fun _ l inp s hb => belongs_moves (moves_step h inp s l) hb) hr i q l ht

/-! ## Concrete runs -/

/-- The hash of a code is itself, and a token is the user id. -/
def plainHelpers : Helpers := ⟨id, fun userId _ => userId, fun _ => true⟩

def sendRequest (code : String) : Request :=
  .sendOtp (some (.obj [("email", .str "a@b.cd")])) code 0

def submitRequest (code : String) : Request :=
  .verifyOtp (some (.obj [("email", .str "a@b.cd"), ("code", .str code)]))

/-- Thread `i` takes its next step at time `0`, and the statement succeeds. -/
def go (i : Nat) : Action := .run i ⟨.done, 0, .zero⟩

end MessengerBackend.Otp
