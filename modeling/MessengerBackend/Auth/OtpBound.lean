/-
  How many guesses an issued code takes.

  `attempts >= 5` answers 429, but the counter is read in one statement and incremented in
  another, and the failure of the UPDATE is swallowed. So the limit of five comparisons per
  issued code is not kept by every interleaving (`six_comparisons`): six requests read
  `attempts = 0` before the first increment.

  It is kept by every run whose steps are `Guarded` (`bruteForceBound_of_guarded`): no
  increment fails, and a request that reads the row with `attempts < 5` does so while
  `attempts` and the requests still about to count on that issuance are below five together.

  The invariant is `Bounded`. For each issuance it adds up the requests about to count, the
  requests past the count and the comparisons made; for the stored row it bounds the last two
  by `attempts`.

  A bound on comparisons, not on the probability of a correct guess.
-/
import Mathlib.Data.Finset.Card
import MessengerBackend.Auth.OtpSteps

namespace MessengerBackend.Otp

open Interleave
open PgDb (cstr)

/-! ## Counting -/

/-- The thread read the row of issuance `v` and has not counted its attempt. -/
def pendingOn (v : Nat) : Request × Thread → Bool
  | (_, .increment _ _ row) => row.issue == v
  | _ => false

/-- The thread read the row of issuance `v`, ran its count and has not compared. -/
def waitingOn (v : Nat) : Request × Thread → Bool
  | (_, .expiry _ _ row) => row.issue == v
  | _ => false

/-- A comparison with the hash of issuance `v`. -/
def comparedOn (v : Nat) : Nat × Obs → Bool
  | (_, .compared w) => w == v
  | _ => false

def pending (v : Nat) (c : Config) : Nat := c.threads.countP (pendingOn v)
def waiting (v : Nat) (c : Config) : Nat := c.threads.countP (waitingOn v)
def comparisons (v : Nat) (c : Config) : Nat := c.trace.countP (comparedOn v)

/-- The requests that reached the comparison with the hash of issuance `v`. -/
def comparers (v : Nat) (c : Config) : Finset Nat :=
  ((c.trace.filter (comparedOn v)).map Prod.fst).toFinset

theorem card_comparers_le (v : Nat) (c : Config) : (comparers v c).card ≤ comparisons v c := by
  unfold comparers comparisons
  refine (List.toFinset_card_le _).trans ?_
  rw [List.length_map, List.countP_eq_length_filter]

/-- At most five requests per issued code reach the comparison. -/
def BruteForceBound (c : Config) : Prop := ∀ v, (comparers v c).card ≤ 5

/-- The condition on a step: an attempt count is executed, and a row with `attempts < 5` is
    read only while the requests about to count on it leave room below five. -/
def Guarded (c : Config) : Action → Prop
  | .spawn _ => True
  | .run i inp =>
      match c.threads[i]? with
      | some (_, .increment _ _ _) => inp.outcome.executes = true
      | some (_, .fetch email _) => ∀ row, c.shared.code (cstr email) = some row →
          row.attempts < 5 → row.attempts + pending row.issue c < 5
      | _ => True

/-! ## The invariant -/

/-- The row a thread holds between its SELECT and its comparison. -/
def Thread.holding : Thread → Option (String × OtpCode)
  | .increment email _ row => some (email, row)
  | .expiry email _ row => some (email, row)
  | _ => none

structure Bounded (c : Config) : Prop where
  fresh : ∀ v, c.shared.issued ≤ v → pending v c + waiting v c + comparisons v c = 0
  numbered : c.shared.Numbered
  home : ∀ (i : Nat) (q : Request) (l : Thread) (email : String) (row : OtpCode),
    c.threads[i]? = some (q, l) → l.holding = some (email, row) →
    ∀ k r, c.shared.code k = some r → r.issue = row.issue → k = cstr email
  total : ∀ v, pending v c + waiting v c + comparisons v c ≤ 5
  spent : ∀ k r, c.shared.code k = some r →
    waiting r.issue c + comparisons r.issue c ≤ r.attempts

theorem bounded_init (db : Db) : Bounded (Config.init (State.initial db)) where
  fresh _ _ := rfl
  numbered := numbered_initial db
  home i q l email row hi := by simp [Config.init] at hi
  total _ := Nat.zero_le 5
  spent k r hr := by rw [Config.init, code_initial] at hr; cases hr

/-- A request starts before its SELECT. -/
theorem start_holding (h : Helpers) (q : Request) : (start h q).holding = none := by
  rcases start_cases h q with ⟨_, hs⟩ | ⟨_, _, _, hs⟩ | ⟨_, _, hs⟩ | ⟨_, hs⟩ <;> rw [hs] <;> rfl

theorem pendingOn_of_holding {q : Request} {l : Thread} (h : l.holding = none) (v : Nat) :
    pendingOn v (q, l) = false := by
  cases l <;> first | rfl | cases h

theorem waitingOn_of_holding {q : Request} {l : Thread} (h : l.holding = none) (v : Nat) :
    waitingOn v (q, l) = false := by
  cases l <;> first | rfl | cases h

theorem bounded_spawn {h : Helpers} {c : Config} (q : Request) (hb : Bounded c) :
    Bounded { c with threads := c.threads ++ [(q, start h q)] } := by
  have hhold := start_holding h q
  have hp : ∀ v, pending v { c with threads := c.threads ++ [(q, start h q)] } = pending v c := by
    intro v
    simp [pending, List.countP_append, pendingOn_of_holding hhold]
  have hw : ∀ v, waiting v { c with threads := c.threads ++ [(q, start h q)] } = waiting v c := by
    intro v
    simp [waiting, List.countP_append, waitingOn_of_holding hhold]
  refine ⟨?_, hb.numbered, ?_, ?_, ?_⟩
  · intro v hv
    rw [hp, hw]
    exact hb.fresh v hv
  · intro i q' l email row hi hl
    have hnew : (start h q).holding ≠ some (email, row) := by simp [hhold]
    exact hb.home i q' l email row
      (old_of_spawn (p := fun t : Thread => t.holding = some (email, row)) hnew hi hl) hl
  · intro v
    rw [hp, hw]
    exact hb.total v
  · intro k r hr
    rw [hw]
    exact hb.spent k r hr

/-- A thread that holds a row counts as pending or as waiting on it. -/
theorem held_pos {c : Config} {i : Nat} {q : Request} {l : Thread} {email : String}
    {row : OtpCode} (ht : c.threads[i]? = some (q, l)) (hl : l.holding = some (email, row)) :
    0 < pending row.issue c + waiting row.issue c := by
  cases l with
  | increment email' code row' =>
      cases hl
      have : 0 < pending row.issue c := countP_pos_of_getElem? ht (by simp [pendingOn])
      omega
  | expiry email' code row' =>
      cases hl
      have : 0 < waiting row.issue c := countP_pos_of_getElem? ht (by simp [waitingOn])
      omega
  | _ => cases hl

/-! ## One step -/

section Step

variable {h : Helpers} {inp : Input} {c : Config} {i : Nat} {q : Request} {l : Thread}

/-- The configuration after thread `i` moved. -/
def moved (c : Config) (i : Nat) (q : Request) (s' : State) (l' : Thread) (obs : List Obs) :
    Config :=
  ⟨s', c.threads.set i (q, l'), c.trace ++ obs.map (Prod.mk i)⟩

theorem pending_moved (ht : c.threads[i]? = some (q, l)) (s' : State) (l' : Thread)
    (obs : List Obs) (v : Nat) :
    pending v (moved c i q s' l' obs) + (if pendingOn v (q, l) then 1 else 0) =
      pending v c + (if pendingOn v (q, l') then 1 else 0) :=
  countP_set_getElem? (pendingOn v) ht

theorem waiting_moved (ht : c.threads[i]? = some (q, l)) (s' : State) (l' : Thread)
    (obs : List Obs) (v : Nat) :
    waiting v (moved c i q s' l' obs) + (if waitingOn v (q, l) then 1 else 0) =
      waiting v c + (if waitingOn v (q, l') then 1 else 0) :=
  countP_set_getElem? (waitingOn v) ht

theorem comparisons_moved (s' : State) (l' : Thread) (obs : List Obs) (v : Nat) :
    comparisons v (moved c i q s' l' obs) =
      comparisons v c + (obs.map (Prod.mk i)).countP (comparedOn v) :=
  List.countP_append

/-- `home` after a move: for the thread that moved, and for a thread that did not. -/
theorem home_moved {s' : State} {l' : Thread} {obs : List Obs}
    (hl : ∀ (email : String) (row : OtpCode), l'.holding = some (email, row) →
      ∀ k r, s'.code k = some r → r.issue = row.issue → k = cstr email)
    (hs : ∀ (j : Nat) (q' : Request) (l₁ : Thread) (email : String) (row : OtpCode),
      c.threads[j]? = some (q', l₁) → l₁.holding = some (email, row) →
      ∀ k r, s'.code k = some r → r.issue = row.issue → k = cstr email) :
    ∀ (j : Nat) (q' : Request) (l₁ : Thread) (email : String) (row : OtpCode),
      (moved c i q s' l' obs).threads[j]? = some (q', l₁) → l₁.holding = some (email, row) →
      ∀ k r, s'.code k = some r → r.issue = row.issue → k = cstr email := by
  intro j q' l₁ email row hj hl₁
  rcases getElem?_moved hj with ⟨_, heq⟩ | ⟨_, hold⟩
  · cases heq
    exact hl email row hl₁
  · exact hs j q' l₁ email row hold hl₁

/-- A move that writes no row, ends in a thread that holds none and compares nothing. -/
theorem bounded_quiet (hb : Bounded c) (ht : c.threads[i]? = some (q, l)) {s' : State}
    {l' : Thread} {obs : List Obs} (hn : s'.Numbered) (hissued : s'.issued = c.shared.issued)
    (hcode : ∀ k r, s'.code k = some r → c.shared.code k = some r) (hl' : l'.holding = none)
    (hobs : ∀ v, (obs.map (Prod.mk i)).countP (comparedOn v) = 0) :
    Bounded (moved c i q s' l' obs) := by
  have hp : ∀ v, pending v (moved c i q s' l' obs) ≤ pending v c := by
    intro v
    have := pending_moved ht s' l' obs v
    rw [pendingOn_of_holding hl'] at this
    simp only [Bool.false_eq_true, if_false] at this
    omega
  have hw : ∀ v, waiting v (moved c i q s' l' obs) ≤ waiting v c := by
    intro v
    have := waiting_moved ht s' l' obs v
    rw [waitingOn_of_holding hl'] at this
    simp only [Bool.false_eq_true, if_false] at this
    omega
  have hc : ∀ v, comparisons v (moved c i q s' l' obs) = comparisons v c := by
    intro v
    rw [comparisons_moved, hobs v, Nat.add_zero]
  refine ⟨?_, hn, ?_, ?_, ?_⟩
  · intro v hv
    have := hb.fresh v (hissued ▸ hv)
    have := hp v
    have := hw v
    have := hc v
    omega
  · refine home_moved ?_ ?_
    · intro email row hhold
      rw [hl'] at hhold
      cases hhold
    · intro j q' l₁ email row hj hl₁ k r hr
      exact hb.home j q' l₁ email row hj hl₁ k r (hcode k r hr)
  · intro v
    have := hb.total v
    have := hp v
    have := hw v
    have := hc v
    omega
  · intro k r hr
    have := hb.spent k r (hcode k r hr)
    have := hw r.issue
    have := hc r.issue
    omega

/-- A new issuance: nothing holds or has compared its hash. -/
theorem bounded_issued (hb : Bounded c) {email codeHash : String} {exp : Time} {e : Exit}
    (ht : c.threads[i]? = some (q, .upsert email codeHash exp))
    (hn : (c.shared.issue (cstr email) codeHash exp).Numbered) :
    Bounded (moved c i q (c.shared.issue (cstr email) codeHash exp) (.exited e)
      [.upserted (cstr email) c.shared.issued]) := by
  have hp : ∀ v, pending v (moved c i q (c.shared.issue (cstr email) codeHash exp) (.exited e)
      [.upserted (cstr email) c.shared.issued]) = pending v c :=
    fun v => pending_moved ht _ _ _ v
  have hw : ∀ v, waiting v (moved c i q (c.shared.issue (cstr email) codeHash exp) (.exited e)
      [.upserted (cstr email) c.shared.issued]) = waiting v c :=
    fun v => waiting_moved ht _ _ _ v
  have hc : ∀ v, comparisons v (moved c i q (c.shared.issue (cstr email) codeHash exp)
      (.exited e) [.upserted (cstr email) c.shared.issued]) = comparisons v c :=
    fun v => comparisons_moved _ _ _ v
  refine ⟨?_, hn, ?_, ?_, ?_⟩
  · intro v hv
    rw [hp, hw, hc]
    exact hb.fresh v (Nat.le_of_succ_le hv)
  · refine home_moved ?_ ?_
    · intro email row hhold
      cases hhold
    · intro j q' l₁ email' row hj hl₁ k r hr heq
      rcases code_issue_cases c.shared hr with ⟨_, rfl⟩ | ⟨_, hold⟩
      · -- a thread holding a row of an issuance that has not happened yet
        have hzero := hb.fresh row.issue (le_of_eq heq)
        have hpos := held_pos hj hl₁
        omega
      · exact hb.home j q' l₁ email' row hj hl₁ k r hold heq
  · intro v
    rw [hp, hw, hc]
    exact hb.total v
  · intro k r hr
    rw [hw, hc]
    rcases code_issue_cases c.shared hr with ⟨_, rfl⟩ | ⟨_, hold⟩
    · have := hb.fresh c.shared.issued (le_refl _)
      show waiting c.shared.issued c + comparisons c.shared.issued c ≤ 0
      omega
    · exact hb.spent k r hold

/-- A guarded read: there is room for one more request on this issuance. -/
theorem bounded_fetched (hb : Bounded c) {email code : String} {row : OtpCode}
    (ht : c.threads[i]? = some (q, .fetch email code))
    (hrow : c.shared.code (cstr email) = some row)
    (hroom : row.attempts + pending row.issue c < 5) :
    Bounded (moved c i q c.shared (.increment email code row) []) := by
  have hp : ∀ v, pending v (moved c i q c.shared (.increment email code row) []) =
      pending v c + (if row.issue = v then 1 else 0) := by
    intro v
    have := pending_moved ht c.shared (.increment email code row) [] v
    simpa [pendingOn] using this
  have hw : ∀ v, waiting v (moved c i q c.shared (.increment email code row) []) = waiting v c :=
    fun v => waiting_moved ht _ _ _ v
  have hc : ∀ v, comparisons v (moved c i q c.shared (.increment email code row) []) =
      comparisons v c := fun v => comparisons_moved _ _ _ v
  refine ⟨?_, hb.numbered, ?_, ?_, ?_⟩
  · intro v hv
    have hlt : row.issue < v := lt_of_lt_of_le (hb.numbered.past _ row hrow) hv
    rw [hp, hw, hc, if_neg (Nat.ne_of_lt hlt)]
    exact hb.fresh v hv
  · refine home_moved ?_ hb.home
    intro email' row' hhold k r hr heq
    cases hhold
    exact hb.numbered.apart k (cstr email) r row hr hrow heq
  · intro v
    have htotal := hb.total v
    rw [hp, hw, hc]
    split
    · rename_i hv
      subst hv
      have := hb.spent _ row hrow
      omega
    · omega
  · intro k r hr
    rw [hw, hc]
    exact hb.spent k r hr

/-- From the count to the comparison; the row of the email is as it was, or counted. -/
theorem bounded_counted (hb : Bounded c) {email code : String} {row : OtpCode} {s' : State}
    (ht : c.threads[i]? = some (q, .increment email code row)) (hn : s'.Numbered)
    (hissued : s'.issued = c.shared.issued)
    (hcode : ∀ k r, s'.code k = some r → ∃ r₀, c.shared.code k = some r₀ ∧
      r.issue = r₀.issue ∧ r₀.attempts ≤ r.attempts ∧
      (k = cstr email → r₀.attempts + 1 ≤ r.attempts ∨ 5 ≤ r.attempts)) :
    Bounded (moved c i q s' (.expiry email code row) []) := by
  have hp : ∀ v, pending v (moved c i q s' (.expiry email code row) []) +
      (if row.issue = v then 1 else 0) = pending v c := by
    intro v
    have := pending_moved ht s' (.expiry email code row) [] v
    simpa [pendingOn] using this
  have hw : ∀ v, waiting v (moved c i q s' (.expiry email code row) []) =
      waiting v c + (if row.issue = v then 1 else 0) := by
    intro v
    have := waiting_moved ht s' (.expiry email code row) [] v
    simpa [waitingOn] using this
  have hc : ∀ v, comparisons v (moved c i q s' (.expiry email code row) []) =
      comparisons v c := fun v => comparisons_moved _ _ _ v
  have hsum : ∀ v, pending v (moved c i q s' (.expiry email code row) []) +
      waiting v (moved c i q s' (.expiry email code row) []) +
      comparisons v (moved c i q s' (.expiry email code row) []) =
      pending v c + waiting v c + comparisons v c := by
    intro v
    have := hp v
    have := hw v
    have := hc v
    omega
  refine ⟨?_, hn, ?_, ?_, ?_⟩
  · intro v hv
    rw [hsum]
    exact hb.fresh v (hissued ▸ hv)
  · refine home_moved ?_ ?_
    · intro email' row' hhold k r hr heq
      cases hhold
      obtain ⟨r₀, hr₀, hissue, _⟩ := hcode k r hr
      exact hb.home i q _ email row ht rfl k r₀ hr₀ (by omega)
    · intro j q' l₁ email' row' hj hl₁ k r hr heq
      obtain ⟨r₀, hr₀, hissue, _⟩ := hcode k r hr
      exact hb.home j q' l₁ email' row' hj hl₁ k r₀ hr₀ (by omega)
  · intro v
    rw [hsum]
    exact hb.total v
  · intro k r hr
    obtain ⟨r₀, hr₀, hissue, hle, hmine⟩ := hcode k r hr
    have hspent := hb.spent k r₀ hr₀
    have htotal := hb.total r.issue
    rw [hw, hc]
    split
    · rename_i hv
      have hk := hb.home i q _ email row ht rfl k r₀ hr₀ (by omega)
      have hpos := hp r.issue
      rw [if_pos hv] at hpos
      rw [hissue] at hpos htotal ⊢
      rcases hmine hk with h | h <;> omega
    · rw [hissue]
      omega

/-- The comparison: a waiting request becomes a comparison. -/
theorem bounded_compared (hb : Bounded c) {email code : String} {row : OtpCode} {l' : Thread}
    (ht : c.threads[i]? = some (q, .expiry email code row)) (hl' : l'.holding = none) :
    Bounded (moved c i q c.shared l' [.compared row.issue]) := by
  have hp : ∀ v, pending v (moved c i q c.shared l' [.compared row.issue]) = pending v c := by
    intro v
    have := pending_moved ht c.shared l' [.compared row.issue] v
    rw [pendingOn_of_holding hl'] at this
    simpa [pendingOn] using this
  have hwc : ∀ v, waiting v (moved c i q c.shared l' [.compared row.issue]) +
      comparisons v (moved c i q c.shared l' [.compared row.issue]) =
      waiting v c + comparisons v c := by
    intro v
    have hw := waiting_moved ht c.shared l' [.compared row.issue] v
    have hc := comparisons_moved (c := c) (i := i) (q := q) c.shared l' [.compared row.issue] v
    rw [waitingOn_of_holding hl'] at hw
    by_cases hv : row.issue = v
    · simp [waitingOn, comparedOn, hv] at hw hc ⊢
      omega
    · simp [waitingOn, comparedOn, hv] at hw hc ⊢
      omega
  refine ⟨?_, hb.numbered, ?_, ?_, ?_⟩
  · intro v hv
    have := hb.fresh v hv
    have := hwc v
    rw [hp]
    omega
  · refine home_moved ?_ hb.home
    intro email' row' hhold
    rw [hl'] at hhold
    cases hhold
  · intro v
    have := hb.total v
    have := hwc v
    rw [hp]
    omega
  · intro k r hr
    rw [hwc]
    exact hb.spent k r hr

/-- A registering thread holds no row. -/
theorem holding_of_registering {l : Thread} {f : Registration} (hl : l.registering = some f) :
    l.holding = none := by
  cases l <;> first | rfl | cases hl

/-- The step lemma: a guarded step of any thread keeps the invariant. -/
theorem bounded_moves (hb : Bounded c) (hg : Guarded c (.run i inp))
    (ht : c.threads[i]? = some (q, l)) {s' : State} {l' : Thread} {obs : List Obs}
    (hm : Moves h inp c.shared l s' l' obs) : Bounded (moved c i q s' l' obs) := by
  simp only [Guarded, ht] at hg
  have hn := numbered_moves hm hb.numbered
  cases hm with
  | refused _ => exact bounded_quiet hb ht hn rfl (fun _ _ hr => hr) rfl (fun _ => rfl)
  | stayed => exact bounded_quiet hb ht hn rfl (fun _ _ hr => hr) rfl (fun _ => rfl)
  | issued _ => exact bounded_issued hb ht hn
  | fetched hrow hlow => exact bounded_fetched hb ht hrow (hg _ hrow hlow)
  | @counted email _ _ _ =>
      refine bounded_counted hb ht hn rfl ?_
      intro k r hr
      obtain ⟨r₀, hr₀, rfl⟩ := code_count_cases c.shared hr
      refine ⟨r₀, hr₀, ?_⟩
      split
      · exact ⟨rfl, Nat.le_succ _, fun _ => Or.inl (le_refl _)⟩
      · rename_i hk
        exact ⟨rfl, le_refl _, fun he => absurd he hk⟩
  | uncounted hwhy =>
      refine bounded_counted hb ht hn rfl ?_
      intro k r hr
      refine ⟨r, hr, rfl, le_refl _, fun he => Or.inr ?_⟩
      -- under the guard only an overflow keeps the UPDATE from counting
      rcases hwhy with hfail | ⟨r₀, hr₀, hbig⟩
      · rw [hg] at hfail
        cases hfail
      · rw [he, hr₀] at hr
        cases hr
        omega
  | mismatched _ _ => exact bounded_compared hb ht rfl
  | matched _ _ _ => exact bounded_compared hb ht rfl
  | removed _ _ =>
      exact bounded_quiet hb ht hn rfl (fun _ _ hr => (code_remove_cases c.shared hr).2) rfl
        (fun _ => rfl)
  | kept _ => exact bounded_quiet hb ht hn rfl (fun _ _ hr => hr) rfl (fun _ => rfl)
  | welcomed _ => exact bounded_quiet hb ht hn rfl (fun _ _ hr => hr) rfl (fun _ => rfl)
  | loggedIn _ _ _ => exact bounded_quiet hb ht hn rfl (fun _ _ hr => hr) rfl (fun _ => rfl)
  | checked _ hl' =>
      exact bounded_quiet hb ht hn rfl (fun _ _ hr => hr) (holding_of_registering hl')
        (fun _ => rfl)
  | enrolled _ _ _ hobs =>
      refine bounded_quiet hb ht hn rfl (fun _ _ hr => hr) rfl ?_
      rcases hobs with rfl | rfl <;> exact fun _ => rfl

end Step

/-! ## Runs -/

/-- The run lemma. -/
theorem bounded_of_guarded {h : Helpers} {db : Db} {c : Config}
    (hr : (system h).Reach Guarded (Config.init (State.initial db)) c) : Bounded c := by
  refine Interleave.System.Reach.induct Bounded (bounded_init db) ?_ ?_ hr
  · intro c q _ hb _
    exact bounded_spawn q hb
  · intro c i q l inp _ hb hg ht
    exact bounded_moves hb hg ht (moves_step h inp c.shared l)

/-- In every run of guarded steps, at most five requests per issued code reach the
    comparison of their code with the stored hash. -/
theorem bruteForceBound_of_guarded (h : Helpers) (db : Db) (c : Config)
    (hr : (system h).Reach Guarded (Config.init (State.initial db)) c) : BruteForceBound c := by
  intro v
  have := (bounded_of_guarded hr).total v
  exact (card_comparers_le v c).trans (by omega)

/-- One code is issued and guessed once. -/
theorem bruteForceBound_of_guarded_once :
    BruteForceBound
      ([.spawn (sendRequest "123456"), go 0, .spawn (submitRequest "000000"), go 1, go 1, go 1].foldl
        (system plainHelpers).next (Config.init (State.initial {}))) := by
  refine bruteForceBound_of_guarded plainHelpers {} _
    (Interleave.System.Reach.foldl _ _ .refl ?_)
  refine ⟨trivial, trivial, trivial, ?_, rfl, trivial, trivial⟩
  intro row hrow _
  cases hrow
  decide

/-- A code is issued, and six guesses take their statements in turn. -/
def sixTurns : List Action :=
  [.spawn (sendRequest "123456"), go 0] ++ List.replicate 6 (.spawn (submitRequest "000000")) ++
    (List.range 6).map (fun j => go (j + 1)) ++ (List.range 6).map (fun j => go (j + 1)) ++
    (List.range 6).map (fun j => go (j + 1))

def sixGuesses : Config :=
  sixTurns.foldl (system plainHelpers).next (Config.init (State.initial {}))

/-- They read `attempts = 0` before any of them counts: all six are compared. -/
theorem six_comparisons :
    (system plainHelpers).Reach (fun _ _ => True) (Config.init (State.initial {})) sixGuesses ∧
      (comparers 0 sixGuesses).card = 6 ∧ ¬ BruteForceBound sixGuesses := by
  have hsix : (comparers 0 sixGuesses).card = 6 := by decide
  refine ⟨Interleave.System.reach_foldl _ _ _, hsix, fun hbound => ?_⟩
  have hfive := hbound 0
  omega

end MessengerBackend.Otp
