/-
  Whether a 200 answer of `verify-otp` has consumed a fresh code.

  `FreshUse` is the property: a row leaves `otp_codes` only through a request that submitted
  its code, while unexpired; every 200 answer made a row leave; and different requests make
  rows of different issuances leave.

  The hash, the expiry and the deletion are separate statements that name the row by its
  email alone, and the failure of the DELETE is swallowed. So a request that read an old row
  deletes the one that replaced it (`stale_code_accepted`), and one whose DELETE fails
  answers 200 and leaves the code usable.

  The property is kept by every run whose steps are `Undisturbed`
  (`freshUse_of_undisturbed`): a DELETE takes effect on an unexpired row and no other request
  is about to delete it, and a code is not replaced by a different one between its read by a
  request that submitted it and the DELETE of that request. That different requests consume
  different issuances needs no condition (`single_of_reach`).
-/
import MessengerBackend.Auth.OtpSteps

namespace MessengerBackend.Otp

open Interleave
open PgDb (cstr)

/-! ## The property -/

/-- `row`, leaving `otp_codes` at `now`, is what a request with this body may consume. -/
def Consumes (h : Helpers) (body : Option Json) (row : OtpCode) (now : Time) : Prop :=
  ∃ email code, verifyFields body = .ok (email, code) ∧ row.email = cstr email ∧
    row.codeHash = h.hash code ∧ now < row.expiresAt

structure FreshUse (h : Helpers) (c : Config) : Prop where
  consumed : ∀ (i : Nat) (body : Option Json) (r : Response),
    c.threads[i]? = some (.verifyOtp body, .exited (.response r)) → r.status = 200 →
    ∃ row now, (i, .removed row now) ∈ c.trace
  genuine : ∀ (i : Nat) (row : OtpCode) (now : Time), (i, .removed row now) ∈ c.trace →
    ∃ body l, c.threads[i]? = some (.verifyOtp body, l) ∧ Consumes h body row now
  single : ∀ (i j : Nat) (row row' : OtpCode) (now now' : Time), i ≠ j →
    (i, .removed row now) ∈ c.trace → (j, .removed row' now') ∈ c.trace →
    row.issue ≠ row'.issue

/-- The email, the code and the row of a request between its SELECT and its DELETE. -/
def Thread.attempt : Thread → Option (String × String × OtpCode)
  | .increment email code row | .expiry email code row | .delete email code row =>
      some (email, code, row)
  | _ => none

/-- The condition on a step: a DELETE takes effect on an unexpired row that no other request
    is about to delete, and an upsert does not replace a code that a request has read and
    submitted by a different one. -/
def Undisturbed (h : Helpers) (c : Config) : Action → Prop
  | .spawn _ => True
  | .run i inp =>
      match c.threads[i]? with
      | some (_, .delete email _ _) => inp.outcome.executes = true ∧
          (∀ r, c.shared.code (cstr email) = some r → inp.now < r.expiresAt) ∧
          ∀ (j : Nat) (q : Request) (email' code : String) (row : OtpCode), j ≠ i →
            c.threads[j]? = some (q, .delete email' code row) → cstr email' ≠ cstr email
      | some (_, .upsert email codeHash _) => inp.outcome.executes = true →
          ∀ (j : Nat) (q : Request) (l : Thread) (email' code : String) (row : OtpCode),
            c.threads[j]? = some (q, l) → l.attempt = some (email', code, row) →
            cstr email' = cstr email → row.codeHash = h.hash code → codeHash = h.hash code
      | _ => True

/-! ## Different requests, different issuances -/

structure Single (c : Config) : Prop where
  numbered : c.shared.Numbered
  gone : ∀ (i : Nat) (row : OtpCode) (now : Time), (i, .removed row now) ∈ c.trace →
    row.issue < c.shared.issued ∧ ∀ k r, c.shared.code k = some r → r.issue ≠ row.issue
  single : ∀ (i j : Nat) (row row' : OtpCode) (now now' : Time), i ≠ j →
    (i, .removed row now) ∈ c.trace → (j, .removed row' now') ∈ c.trace →
    row.issue ≠ row'.issue

theorem single_init (db : Db) : Single (Config.init (State.initial db)) where
  numbered := numbered_initial db
  gone i row now hm := by simp [Config.init] at hm
  single i j row row' now now' _ hm := by simp [Config.init] at hm

section Step

variable {h : Helpers} {inp : Input} {c : Config} {i : Nat} {q : Request} {l l' : Thread}
  {s' : State} {obs : List Obs}

/-- A move that records no removal. -/
theorem single_quiet (hs : Single c) (hn : s'.Numbered) (hle : c.shared.issued ≤ s'.issued)
    (hcode : ∀ k r, s'.code k = some r → c.shared.issued ≤ r.issue ∨
      ∃ r₀, c.shared.code k = some r₀ ∧ r.issue = r₀.issue)
    (hobs : ∀ row now, Obs.removed row now ∉ obs) {ts : List (Request × Thread)} :
    Single ⟨s', ts, c.trace ++ obs.map (Prod.mk i)⟩ := by
  have hold : ∀ {j : Nat} {row : OtpCode} {now : Time},
      (j, .removed row now) ∈ c.trace ++ obs.map (Prod.mk i) →
      (j, .removed row now) ∈ c.trace := by
    intro j row now hm
    rcases mem_trace_moved hm with hm | ⟨_, hm⟩
    · exact hm
    · exact absurd hm (hobs row now)
  refine ⟨hn, ?_, ?_⟩
  · intro j row now hm
    obtain ⟨hlt, hne⟩ := hs.gone j row now (hold hm)
    refine ⟨lt_of_lt_of_le hlt hle, ?_⟩
    intro k r hr
    rcases hcode k r hr with hnew | ⟨r₀, hr₀, heq⟩
    · omega
    · rw [heq]
      exact hne k r₀ hr₀
  · intro j j' row row' now now' hjj hm hm'
    exact hs.single j j' row row' now now' hjj (hold hm) (hold hm')

theorem single_moves (hs : Single c) (hm : Moves h inp c.shared l s' l' obs) :
    Single ⟨s', c.threads.set i (q, l'), c.trace ++ obs.map (Prod.mk i)⟩ := by
  have hn := numbered_moves hm hs.numbered
  have hsame : ∀ k r, c.shared.code k = some r → c.shared.issued ≤ r.issue ∨
      ∃ r₀, c.shared.code k = some r₀ ∧ r.issue = r₀.issue :=
    fun _ r hr => Or.inr ⟨r, hr, rfl⟩
  cases hm with
  | issued _ =>
      refine single_quiet hs hn (Nat.le_succ _) ?_ (by simp)
      intro k r hr
      rcases code_issue_cases c.shared hr with ⟨_, rfl⟩ | ⟨_, hold⟩
      · exact Or.inl (le_refl _)
      · exact Or.inr ⟨r, hold, rfl⟩
  | counted _ =>
      refine single_quiet hs hn (le_refl _) ?_ (by simp)
      intro k r hr
      obtain ⟨r₀, hr₀, rfl⟩ := code_count_cases c.shared hr
      exact Or.inr ⟨r₀, hr₀, by split <;> rfl⟩
  | @removed email _ _ r₁ _ hr₁ =>
      -- the row that leaves was stored until now, so nothing older has its number
      have hnew : ∀ {j : Nat} {row : OtpCode} {now : Time},
          (j, .removed row now) ∈ c.trace ++ [Obs.removed r₁ inp.now].map (Prod.mk i) →
          (j, .removed row now) ∈ c.trace ∨ (j = i ∧ row = r₁) := by
        intro j row now hm
        rcases mem_trace_moved hm with hm | ⟨hj, hm⟩
        · exact Or.inl hm
        · cases List.mem_singleton.mp hm
          exact Or.inr ⟨hj, rfl⟩
      refine ⟨hn, ?_, ?_⟩
      · intro j row now hm
        rcases hnew hm with hm | ⟨_, rfl⟩
        · obtain ⟨hlt, hne⟩ := hs.gone j row now hm
          exact ⟨hlt, fun k r hr => hne k r (code_remove_cases c.shared hr).2⟩
        · refine ⟨hs.numbered.past _ _ hr₁, ?_⟩
          intro k r hr heq
          obtain ⟨hk, hold⟩ := code_remove_cases c.shared hr
          exact hk (hs.numbered.apart k (cstr email) r row hold hr₁ heq)
      · intro j j' row row' now now' hjj hm hm'
        rcases hnew hm with hm₀ | ⟨hj, rfl⟩ <;> rcases hnew hm' with hm₁ | ⟨hj', rfl⟩
        · exact hs.single j j' row row' now now' hjj hm₀ hm₁
        · exact ((hs.gone j row now hm₀).2 _ _ hr₁).symm
        · exact (hs.gone j' row' now' hm₁).2 _ _ hr₁
        · exact absurd (hj.trans hj'.symm) hjj
  | enrolled _ _ _ hobs =>
      refine single_quiet hs hn (le_refl _) hsame ?_
      rcases hobs with rfl | rfl <;> simp
  | _ => exact single_quiet hs hn (le_refl _) hsame (by simp)

end Step

theorem single_of_reach {h : Helpers} {db : Db} {P : Config → Action → Prop} {c : Config}
    (hr : (system h).Reach P (Config.init (State.initial db)) c) : Single c := by
  refine Interleave.System.Reach.induct Single (single_init db) ?_ ?_ hr
  · intro c q _ hs _
    exact ⟨hs.numbered, hs.gone, hs.single⟩
  · intro c i q l inp _ hs _ _
    exact single_moves hs (moves_step h inp c.shared l)

/-! ## What a request knows of the stored row -/

/-- A request whose code matched the row it read finds only rows with that hash under its
    email, and one about to delete finds a row. -/
def Knows (h : Helpers) (s : State) : Thread → Prop
  | .increment email code row | .expiry email code row => row.codeHash = h.hash code →
      ∀ r, s.code (cstr email) = some r → r.codeHash = h.hash code
  | .delete email code row => row.codeHash = h.hash code ∧
      ∃ r, s.code (cstr email) = some r ∧ r.codeHash = h.hash code
  | _ => True

/-- The request is past its DELETE, with no refusal. -/
def Thread.accepted : Thread → Prop
  | .lookup _ => True
  | .exited (.response r) => r.status = 200
  | _ => False

structure Matched (h : Helpers) (c : Config) : Prop where
  knows : ∀ (j : Nat) (q : Request) (l : Thread), c.threads[j]? = some (q, l) →
    Knows h c.shared l
  consumed : ∀ (j : Nat) (body : Option Json) (l : Thread),
    c.threads[j]? = some (.verifyOtp body, l) → l.accepted →
    ∃ row now, (j, .removed row now) ∈ c.trace
  genuine : ∀ (j : Nat) (row : OtpCode) (now : Time), (j, .removed row now) ∈ c.trace →
    ∃ body l, c.threads[j]? = some (.verifyOtp body, l) ∧ Consumes h body row now

theorem matched_init (h : Helpers) (db : Db) : Matched h (Config.init (State.initial db)) where
  knows j q l hj := by simp [Config.init] at hj
  consumed j body l hj := by simp [Config.init] at hj
  genuine j row now hm := by simp [Config.init] at hm

theorem knows_count {h : Helpers} {s : State} {k : String} {l : Thread} (hk : Knows h s l) :
    Knows h (s.count k) l := by
  have hback : ∀ {k' r}, (s.count k).code k' = some r →
      ∃ r₀, s.code k' = some r₀ ∧ r.codeHash = r₀.codeHash := by
    intro k' r hr
    obtain ⟨r₀, hr₀, rfl⟩ := code_count_cases s hr
    exact ⟨r₀, hr₀, by split <;> rfl⟩
  have hread : ∀ {email code : String} {row : OtpCode},
      (row.codeHash = h.hash code → ∀ r, s.code (cstr email) = some r →
        r.codeHash = h.hash code) →
      row.codeHash = h.hash code → ∀ r, (s.count k).code (cstr email) = some r →
        r.codeHash = h.hash code := by
    intro email code row hk hrow r hr
    obtain ⟨r₀, hr₀, heq⟩ := hback hr
    rw [heq]
    exact hk hrow r₀ hr₀
  cases l with
  | increment email code row => exact hread hk
  | expiry email code row => exact hread hk
  | delete email code row =>
      obtain ⟨hrow, r, hr, heq⟩ := hk
      refine ⟨hrow, ?_⟩
      rw [code_count, hr]
      split
      · exact ⟨bump r, rfl, heq⟩
      · exact ⟨r, rfl, heq⟩
  | _ => trivial

/-- An upsert that replaces no code the request has read and submitted by another. -/
theorem knows_issue {h : Helpers} {s : State} {k codeHash : String} {exp : Time} {l : Thread}
    (hk : Knows h s l)
    (hsame : ∀ email code row, l.attempt = some (email, code, row) → cstr email = k →
      row.codeHash = h.hash code → codeHash = h.hash code) :
    Knows h (s.issue k codeHash exp) l := by
  have hread : ∀ {email code : String} {row : OtpCode},
      l.attempt = some (email, code, row) →
      (row.codeHash = h.hash code → ∀ r, s.code (cstr email) = some r →
        r.codeHash = h.hash code) →
      row.codeHash = h.hash code → ∀ r, (s.issue k codeHash exp).code (cstr email) = some r →
        r.codeHash = h.hash code := by
    intro email code row hl hk hrow r hr
    rcases code_issue_cases s hr with ⟨he, rfl⟩ | ⟨_, hold⟩
    · exact hsame email code row hl he hrow
    · exact hk hrow r hold
  cases l with
  | increment email code row => exact hread rfl hk
  | expiry email code row => exact hread rfl hk
  | delete email code row =>
      obtain ⟨hrow, r, hr, heq⟩ := hk
      refine ⟨hrow, ?_⟩
      rw [code_issue]
      split
      · rename_i he
        exact ⟨_, rfl, hsame email code row rfl he hrow⟩
      · exact ⟨r, hr, heq⟩
  | _ => trivial

/-- A removal of a row the request is not about to delete. -/
theorem knows_remove {h : Helpers} {s : State} {k : String} {l : Thread} (hk : Knows h s l)
    (hother : ∀ email code row, l = .delete email code row → cstr email ≠ k) :
    Knows h (s.remove k) l := by
  cases l with
  | increment email code row =>
      exact fun hrow r hr => hk hrow r (code_remove_cases s hr).2
  | expiry email code row => exact fun hrow r hr => hk hrow r (code_remove_cases s hr).2
  | delete email code row =>
      obtain ⟨hrow, r, hr, heq⟩ := hk
      refine ⟨hrow, r, ?_, heq⟩
      rw [code_remove, if_neg (hother email code row rfl)]
      exact hr
  | _ => trivial

theorem knows_withUsers {h : Helpers} {s : State} (t : Table User) {l : Thread}
    (hk : Knows h s l) : Knows h (s.withUsers t) l := by
  cases l <;> exact hk

theorem not_accepted_of_refused {e : Exit} (he : succeeded e = false) :
    ¬ (Thread.exited e).accepted := by
  cases e with
  | response r =>
      intro (h200 : r.status = 200)
      simp [succeeded, h200] at he
  | exception => exact id
  | lost => exact id

theorem start_accepted (h : Helpers) (q : Request) : ¬ (start h q).accepted := by
  rcases start_cases h q with ⟨e, hs⟩ | ⟨_, _, _, hs⟩ | ⟨_, _, hs⟩ | ⟨_, hs⟩
  · rw [hs]
    exact not_accepted_of_refused (start_exited hs)
  all_goals rw [hs]; exact id

theorem start_knows (h : Helpers) (q : Request) (s : State) : Knows h s (start h q) := by
  rcases start_cases h q with ⟨_, hs⟩ | ⟨_, _, _, hs⟩ | ⟨_, _, hs⟩ | ⟨_, hs⟩ <;> rw [hs] <;>
    trivial

theorem matched_spawn {h : Helpers} {c : Config} (q : Request) (hm : Matched h c) :
    Matched h { c with threads := c.threads ++ [(q, start h q)] } := by
  refine ⟨?_, ?_, ?_⟩
  · exact each_spawned hm.knows (start_knows h q c.shared)
  · intro j body l hj hacc
    rcases getElem?_spawn hj with heq | hj
    · cases heq
      exact absurd hacc (start_accepted h _)
    · exact hm.consumed j body l hj hacc
  · intro j row now hmem
    obtain ⟨body, l, hj, hc⟩ := hm.genuine j row now hmem
    exact ⟨body, l, getElem?_spawned _ hj, hc⟩

section Step

variable {h : Helpers} {inp : Input} {c : Config} {i : Nat} {q : Request} {l l' : Thread}
  {s' : State} {obs : List Obs}

/-- A step, given what becomes of the other threads' knowledge, and of the thread's own. -/
theorem matched_moved (hm : Matched h c) (ht : c.threads[i]? = some (q, l))
    (hothers : ∀ (j : Nat) (q' : Request) (l₁ : Thread), j ≠ i →
      c.threads[j]? = some (q', l₁) → Knows h c.shared l₁ → Knows h s' l₁)
    (hown : Knows h s' l')
    (hacc : ∀ body, q = .verifyOtp body → l'.accepted →
      l.accepted ∨ ∃ row now, Obs.removed row now ∈ obs)
    (hobs : ∀ row now, Obs.removed row now ∈ obs →
      ∃ body, q = .verifyOtp body ∧ Consumes h body row now) :
    Matched h ⟨s', c.threads.set i (q, l'), c.trace ++ obs.map (Prod.mk i)⟩ := by
  have hi : i < c.threads.length := (List.getElem?_eq_some_iff.mp ht).1
  refine ⟨?_, ?_, ?_⟩
  · intro j q' l₁ hj
    rcases getElem?_moved hj with ⟨_, heq⟩ | ⟨hne, hold⟩
    · cases heq
      exact hown
    · exact hothers j q' l₁ hne hold (hm.knows j q' l₁ hold)
  · intro j body l₁ hj hl₁
    rcases getElem?_moved hj with ⟨rfl, heq⟩ | ⟨_, hold⟩
    · cases heq
      rcases hacc body rfl hl₁ with hl | ⟨row, now, hmem⟩
      · obtain ⟨row, now, hmem⟩ := hm.consumed j body l ht hl
        exact ⟨row, now, List.mem_append_left _ hmem⟩
      · exact ⟨row, now, List.mem_append_right _ (List.mem_map_of_mem hmem)⟩
    · obtain ⟨row, now, hmem⟩ := hm.consumed j body l₁ hold hl₁
      exact ⟨row, now, List.mem_append_left _ hmem⟩
  · intro j row now hmem
    rcases mem_trace_moved hmem with hold | ⟨rfl, hnew⟩
    · obtain ⟨body, l₁, hj, hc⟩ := hm.genuine j row now hold
      obtain ⟨l₂, hj₂⟩ := request_moved l' ht hj
      exact ⟨body, l₂, hj₂, hc⟩
    · obtain ⟨body, rfl, hc⟩ := hobs row now hnew
      exact ⟨body, l', List.getElem?_set_self hi, hc⟩

/-- The step lemma. -/
theorem matched_moves (hm : Matched h c) (hg : Undisturbed h c (.run i inp))
    (ht : c.threads[i]? = some (q, l)) (hb : Belongs h q l)
    (hmv : Moves h inp c.shared l s' l' obs) :
    Matched h ⟨s', c.threads.set i (q, l'), c.trace ++ obs.map (Prod.mk i)⟩ := by
  simp only [Undisturbed, ht] at hg
  have hown := hm.knows i q l ht
  have hstay : ∀ (j : Nat) (q' : Request) (l₁ : Thread), j ≠ i →
      c.threads[j]? = some (q', l₁) → Knows h c.shared l₁ → Knows h c.shared l₁ :=
    fun _ _ _ _ _ hk => hk
  cases hmv with
  | refused he =>
      exact matched_moved hm ht hstay trivial
        (fun _ _ ha => absurd ha (not_accepted_of_refused he)) (by simp)
  | stayed => exact matched_moved hm ht hstay trivial (fun _ _ => Or.inl) (by simp)
  | @issued email codeHash exp e hex =>
      obtain ⟨body, code, now, rfl, _⟩ := hb
      refine matched_moved hm ht ?_ trivial (fun _ hq => nomatch hq) (by simp)
      intro j q' l₁ _ hj hk
      exact knows_issue hk (fun email' code' row' hl₁ => hg hex j q' l₁ email' code' row' hj hl₁)
  | fetched hrow _ =>
      refine matched_moved hm ht hstay ?_ (fun _ _ ha => ha.elim) (by simp)
      intro hhash r hr
      rw [hrow] at hr
      cases hr
      exact hhash
  | counted _ =>
      exact matched_moved hm ht (fun _ _ _ _ _ hk => knows_count hk) (knows_count hown)
        (fun _ _ ha => ha.elim) (by simp)
  | uncounted _ => exact matched_moved hm ht hstay hown (fun _ _ ha => ha.elim) (by simp)
  | mismatched _ he =>
      exact matched_moved hm ht hstay trivial
        (fun _ _ ha => absurd ha (not_accepted_of_refused he)) (by simp)
  | matched hhash hr _ =>
      exact matched_moved hm ht hstay ⟨hhash, _, hr, hown hhash _ hr⟩ (fun _ _ ha => ha.elim) (by simp)
  | @removed email code row r hex hr =>
      obtain ⟨_, hlive, halone⟩ := hg
      obtain ⟨hhash, r₀, hr₀, hr₀hash⟩ := hown
      rw [hr] at hr₀
      cases hr₀
      obtain ⟨body, hq, hf⟩ := hb
      refine matched_moved hm ht ?_ trivial (fun _ _ _ => Or.inr ⟨r, inp.now, by simp⟩) ?_
      · intro j q' l₁ hji hj hk
        exact knows_remove hk (fun email' code' row' hl₁ =>
          halone j q' email' code' row' hji (hl₁ ▸ hj))
      · intro row' now hmem
        cases List.mem_singleton.mp hmem
        exact ⟨body, hq, email, code, hf, code_email hr, hr₀hash, hlive r hr⟩
  | kept hwhy =>
      obtain ⟨hex, _, _⟩ := hg
      obtain ⟨_, r₀, hr₀, _⟩ := hown
      rcases hwhy with hno | hnone
      · rw [hex] at hno
        cases hno
      · rw [hnone] at hr₀
        cases hr₀
  | welcomed _ => exact matched_moved hm ht hstay trivial (fun _ _ _ => Or.inl trivial) (by simp)
  | loggedIn _ _ _ =>
      exact matched_moved hm ht hstay trivial (fun _ _ _ => Or.inl trivial) (by simp)
  | checked hl hl' =>
      obtain ⟨body, publicKey, rfl, _⟩ := (belongs_registering h hl).mp hb
      refine matched_moved hm ht hstay ?_ (fun _ hq => nomatch hq) (by simp)
      cases l' <;> trivial
  | @enrolled _ _ t _ _ _ _ _ hobs =>
      obtain ⟨body, publicKey, rfl, _⟩ := hb
      refine matched_moved hm ht (fun _ _ _ _ _ hk => knows_withUsers t hk) trivial
        (fun _ hq => nomatch hq) ?_
      rcases hobs with rfl | rfl <;> simp

end Step

/-! ## Runs -/

theorem matched_of_undisturbed {h : Helpers} {db : Db} {c : Config}
    (hr : (system h).Reach (Undisturbed h) (Config.init (State.initial db)) c) :
    Matched h c := by
  refine Interleave.System.Reach.induct (Matched h) (matched_init h db) ?_ ?_ hr
  · intro c q _ hm _
    exact matched_spawn q hm
  · intro c i q l inp hr hm hg ht
    exact matched_moves hm hg ht (belongs_of_reach hr i q l ht) (moves_step h inp c.shared l)

/-- In every undisturbed run, every 200 answer of `verify-otp` has consumed a fresh code. -/
theorem freshUse_of_undisturbed (h : Helpers) (db : Db) (c : Config)
    (hr : (system h).Reach (Undisturbed h) (Config.init (State.initial db)) c) :
    FreshUse h c := by
  have hm := matched_of_undisturbed hr
  refine ⟨?_, hm.genuine, (single_of_reach hr).single⟩
  intro i body r hi h200
  exact hm.consumed i body _ hi h200

/-- One code is issued, submitted and consumed. -/
theorem freshUse_of_undisturbed_once :
    FreshUse plainHelpers ([.spawn (sendRequest "123456"), go 0,
      .spawn (submitRequest "123456"), go 1, go 1, go 1, go 1,
      go 1].foldl (system plainHelpers).next (Config.init (State.initial {}))) := by
  refine freshUse_of_undisturbed plainHelpers {} _
    (Interleave.System.Reach.foldl _ _ .refl ?_)
  refine ⟨trivial, ?_, trivial, trivial, trivial, trivial, ⟨rfl, ?_, ?_⟩, trivial, trivial⟩
  · intro _ j q l email' code row hj hl
    cases j with
    | zero => cases hj; cases hl
    | succ j => cases hj
  · intro r hr
    cases hr
    decide
  · intro j q email' code row hji hj
    match j, hji with
    | 0, _ => cases hj
    | 1, hji => exact absurd rfl hji
    | j + 2, _ => cases hj

/-- A second code is issued between the comparison of the first one and the DELETE. -/
def staleRun : Config :=
  [.spawn (sendRequest "123456"), go 0, .spawn (submitRequest "123456"),
    .spawn (sendRequest "654321"), go 1, go 1, go 1, go 2, go 1,
    go 1].foldl (system plainHelpers).next (Config.init (State.initial {}))

/-- The request that matched the first code has deleted the second one. -/
theorem stale_code_accepted :
    (system plainHelpers).Reach (fun _ _ => True) (Config.init (State.initial {})) staleRun ∧
      (1, .removed ⟨"a@b.cd", "654321", 0, 600000000, 1⟩ 0) ∈ staleRun.trace ∧
      ¬ FreshUse plainHelpers staleRun := by
  have hremoved : (1, .removed ⟨"a@b.cd", "654321", 0, 600000000, 1⟩ 0) ∈ staleRun.trace := by
    decide
  refine ⟨Interleave.System.reach_foldl _ _ _, hremoved, fun hfresh => ?_⟩
  obtain ⟨body, l, hl, email, code, hf, _, hhash, _⟩ := hfresh.genuine 1 _ 0 hremoved
  cases hl
  cases hf
  exact absurd hhash (by decide)

end MessengerBackend.Otp
