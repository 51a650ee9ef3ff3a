/-
  Library: sequential threads interleaved on a shared state.

  A `System` turns a request into a thread (`start`) and runs one atomic action of a thread
  (`step`), which may also emit observations. A `Config` is the shared state, every thread
  started so far next to its request, and the trace of observations with the index of the
  thread that emitted them. An `Action` starts a thread or lets one thread take one step
  with an input chosen from outside (a failure, a clock reading).

  * `Reach P c₀ c`: some run from `c₀` to `c` whose every action meets the condition `P` in
    the configuration it is taken in. `P := fun _ _ => True` is every interleaving.
  * `Reach.induct`: the invariant rule, one case for a new thread and one for a step.
  * `alone`: one request with nothing interleaved, with its invariant rule `alone_inv`, and
    `alone_split` for a condition on its steps that decides what it ends in.
  * `Reach.each`: the rule for a property of each thread on its own; `each_spawned` and
    `each_moved` are its two steps, for a property that also looks at the shared state.
  * `course`: one thread in states that others may change between its steps, with the rule
    `course_rule` for each step, and `course_rank` and `course_split` for its end.
  * `countP_set_getElem?`: how a count over the threads changes when one of them moves.

  No fairness: a thread may stop forever at any point. Names nothing of the server.
-/
import Mathlib.Data.List.Basic

namespace Interleave

/-- Threads over a shared state `S`: requests `R`, thread states `L`, step inputs `I`,
    observations `O`. -/
structure System (R L S I O : Type) where
  start : R → L
  step : L → I → S → S × L × List O

structure Config (R L S O : Type) where
  shared : S
  threads : List (R × L)
  trace : List (Nat × O)

inductive Action (R I : Type) where
  | spawn (r : R)
  | run (i : Nat) (inp : I)

variable {R L S I O : Type}

/-- The configuration with no thread. -/
def Config.init (s : S) : Config R L S O := ⟨s, [], []⟩

/-- The configuration after thread `i`, at `(r, l)`, stepped with `inp`. -/
def System.advance (sys : System R L S I O) (c : Config R L S O) (i : Nat) (r : R) (l : L)
    (inp : I) : Config R L S O where
  shared := (sys.step l inp c.shared).1
  threads := c.threads.set i (r, (sys.step l inp c.shared).2.1)
  trace := c.trace ++ (sys.step l inp c.shared).2.2.map (Prod.mk i)

/-- A new thread is appended; a step of a thread that does not exist changes nothing. -/
def System.next (sys : System R L S I O) (c : Config R L S O) : Action R I → Config R L S O
  | .spawn r => { c with threads := c.threads ++ [(r, sys.start r)] }
  | .run i inp =>
      match c.threads[i]? with
      | none => c
      | some (r, l) => sys.advance c i r l inp

/-- `c` is reached from `c₀` by actions that each meet `P` where they are taken. -/
inductive System.Reach (sys : System R L S I O) (P : Config R L S O → Action R I → Prop)
    (c₀ : Config R L S O) : Config R L S O → Prop where
  | refl : Reach sys P c₀ c₀
  | next {c : Config R L S O} (a : Action R I) :
      Reach sys P c₀ c → P c a → Reach sys P c₀ (sys.next c a)

/-- Every action of the list meets `P` where it is taken. -/
def System.Meets (sys : System R L S I O) (P : Config R L S O → Action R I → Prop) :
    Config R L S O → List (Action R I) → Prop
  | _, [] => True
  | c, a :: as => P c a ∧ System.Meets sys P (sys.next c a) as

theorem System.next_run (sys : System R L S I O) {c : Config R L S O} {i : Nat} {r : R} {l : L}
    (h : c.threads[i]? = some (r, l)) (inp : I) :
    sys.next c (.run i inp) = sys.advance c i r l inp := by
  simp only [System.next, h]

theorem System.next_run_none (sys : System R L S I O) {c : Config R L S O} {i : Nat}
    (h : c.threads[i]? = none) (inp : I) : sys.next c (.run i inp) = c := by
  simp only [System.next, h]

theorem System.Reach.foldl (sys : System R L S I O) {P : Config R L S O → Action R I → Prop}
    {c₀ : Config R L S O} (as : List (Action R I)) :
    ∀ {c : Config R L S O}, sys.Reach P c₀ c → sys.Meets P c as →
      sys.Reach P c₀ (as.foldl sys.next c) := by
  induction as with
  | nil => intro c hr _; exact hr
  | cons a as ih =>
      intro c hr hm
      exact ih (hr.next a hm.1) hm.2

theorem System.meets_true (sys : System R L S I O) (as : List (Action R I)) :
    ∀ c : Config R L S O, sys.Meets (fun _ _ => True) c as := by
  induction as with
  | nil => intro _; trivial
  | cons a as ih => intro c; exact ⟨trivial, ih _⟩

/-- A run with no condition on its actions. -/
theorem System.reach_foldl (sys : System R L S I O) (c : Config R L S O) (as : List (Action R I)) :
    sys.Reach (fun _ _ => True) c (as.foldl sys.next c) :=
  System.Reach.foldl sys as .refl (sys.meets_true as c)

/-- The invariant rule: `K` holds at the start, a new thread keeps it, and so does one
    step of one thread under the condition on the run. -/
theorem System.Reach.induct {sys : System R L S I O}
    {P : Config R L S O → Action R I → Prop} {c₀ c : Config R L S O}
    (K : Config R L S O → Prop) (h0 : K c₀)
    (hspawn : ∀ c r, sys.Reach P c₀ c → K c → P c (.spawn r) →
      K { c with threads := c.threads ++ [(r, sys.start r)] })
    (hrun : ∀ c i r l inp, sys.Reach P c₀ c → K c → P c (.run i inp) →
      c.threads[i]? = some (r, l) → K (sys.advance c i r l inp))
    (h : sys.Reach P c₀ c) : K c := by
  induction h with
  | refl => exact h0
  | @next c a hr hp ih =>
      cases a with
      | spawn r => exact hspawn c r hr ih hp
      | run i inp =>
          cases ht : c.threads[i]? with
          | none => rw [sys.next_run_none ht]; exact ih
          | some t =>
              rw [sys.next_run ht]
              exact hrun c i t.1 t.2 inp hr ih hp ht

/-! ## The thread table -/

/-- After a new thread, an entry is the new one or an old one. -/
theorem getElem?_spawn {ts : List (R × L)} {x y : R × L} {j : Nat}
    (h : (ts ++ [x])[j]? = some y) : y = x ∨ ts[j]? = some y := by
  rcases Nat.lt_or_ge j ts.length with hj | hj
  · right
    rwa [List.getElem?_append_left hj] at h
  · left
    rw [List.getElem?_append_right hj] at h
    have := List.mem_of_getElem? h
    simpa using this

/-- After thread `i` moved to `x`, an entry is `x` at `i` or another thread's old one. -/
theorem getElem?_moved {ts : List (R × L)} {x y : R × L} {i j : Nat}
    (h : (ts.set i x)[j]? = some y) : (j = i ∧ y = x) ∨ (j ≠ i ∧ ts[j]? = some y) := by
  rw [List.getElem?_set] at h
  split at h
  · rename_i hij
    split at h
    · exact Or.inl ⟨hij.symm, (Option.some.inj h).symm⟩
    · cases h
  · rename_i hij
    exact Or.inr ⟨fun e => hij e.symm, h⟩

/-- A thread that is what the new one is not is an old one. -/
theorem old_of_spawn {ts : List (R × L)} {r r' : R} {l l' : L} {j : Nat} {p : L → Prop}
    (hnew : ¬ p l) (h : (ts ++ [(r, l)])[j]? = some (r', l')) (hp : p l') :
    ts[j]? = some (r', l') := by
  rcases getElem?_spawn h with heq | hold
  · cases heq
    exact absurd hp hnew
  · exact hold

/-- What every thread satisfies, after a new one. -/
theorem each_spawned {ts : List (R × L)} {K : R → L → Prop} {r : R} {l : L}
    (h : ∀ (j : Nat) (r : R) (l : L), ts[j]? = some (r, l) → K r l) (hnew : K r l) :
    ∀ (j : Nat) (r' : R) (l' : L), (ts ++ [(r, l)])[j]? = some (r', l') → K r' l' := by
  intro j r' l' hj
  rcases getElem?_spawn hj with heq | hold
  · cases heq
    exact hnew
  · exact h j r' l' hold

/-- And after thread `i` moved to `l'`, given what becomes of the others. -/
theorem each_moved {ts : List (R × L)} {K K' : R → L → Prop} {i : Nat} {r : R} {l' : L}
    (h : ∀ (j : Nat) (r : R) (l : L), ts[j]? = some (r, l) → K r l)
    (hothers : ∀ r l, K r l → K' r l) (hown : K' r l') :
    ∀ (j : Nat) (r' : R) (l₁ : L), (ts.set i (r, l'))[j]? = some (r', l₁) → K' r' l₁ := by
  intro j r' l₁ hj
  rcases getElem?_moved hj with ⟨_, heq⟩ | ⟨_, hold⟩
  · cases heq
    exact hown
  · exact hothers r' l₁ (h j r' l₁ hold)

theorem getElem?_spawned {ts : List (R × L)} {y : R × L} (x : R × L) {j : Nat}
    (h : ts[j]? = some y) : (ts ++ [x])[j]? = some y :=
  (List.getElem?_append_left (List.getElem?_eq_some_iff.mp h).1).trans h

/-- A step keeps every thread's request. -/
theorem request_moved {ts : List (R × L)} {i j : Nat} {r r' : R} {l l₁ : L} (l' : L)
    (hi : ts[i]? = some (r, l)) (hj : ts[j]? = some (r', l₁)) :
    ∃ l₂, (ts.set i (r, l'))[j]? = some (r', l₂) := by
  by_cases hij : j = i
  · subst hij
    rw [hi] at hj
    cases hj
    exact ⟨l', List.getElem?_set_self (List.getElem?_eq_some_iff.mp hi).1⟩
  · exact ⟨l₁, (List.getElem?_set_ne (Ne.symm hij)).trans hj⟩

/-- An observation of the trace after a step is an old one or the step's own. -/
theorem mem_trace_moved {tr : List (Nat × O)} {obs : List O} {i j : Nat} {o : O}
    (h : (j, o) ∈ tr ++ obs.map (Prod.mk i)) : (j, o) ∈ tr ∨ (j = i ∧ o ∈ obs) := by
  rcases List.mem_append.mp h with hold | hnew
  · exact Or.inl hold
  · obtain ⟨o', ho', heq⟩ := List.mem_map.mp hnew
    cases heq
    exact Or.inr ⟨rfl, ho'⟩

/-- When `a` at `i` becomes `b`, the count loses `a` and gains `b`. -/
theorem countP_set_getElem? {α : Type} (p : α → Bool) {ts : List α} {i : Nat} {a b : α}
    (h : ts[i]? = some a) :
    (ts.set i b).countP p + (if p a then 1 else 0) = ts.countP p + (if p b then 1 else 0) := by
  obtain ⟨hi, rfl⟩ := List.getElem?_eq_some_iff.mp h
  rw [List.countP_set hi]
  have hpos : p ts[i] = true → 0 < ts.countP p :=
    fun hp => List.countP_pos_iff.mpr ⟨_, List.getElem_mem hi, hp⟩
  by_cases hp : p ts[i] = true
  · have := hpos hp
    simp only [hp, if_true]
    omega
  · simp only [hp]
    simp

/-- An entry that counts makes the count positive. -/
theorem countP_pos_of_getElem? {α : Type} {p : α → Bool} {ts : List α} {i : Nat} {a : α}
    (h : ts[i]? = some a) (hp : p a = true) : 0 < ts.countP p :=
  List.countP_pos_iff.mpr ⟨a, List.mem_of_getElem? h, hp⟩

/-- The rule for what every thread satisfies next to its request, whatever the others do. -/
theorem System.Reach.each {sys : System R L S I O} {P : Config R L S O → Action R I → Prop}
    {s : S} {c : Config R L S O} (K : R → L → Prop) (h0 : ∀ r, K r (sys.start r))
    (hstep : ∀ r l inp s, K r l → K r (sys.step l inp s).2.1)
    (h : sys.Reach P (Config.init s) c) :
    ∀ (i : Nat) (r : R) (l : L), c.threads[i]? = some (r, l) → K r l := by
  refine System.Reach.induct
    (fun c => ∀ (i : Nat) (r : R) (l : L), c.threads[i]? = some (r, l) → K r l) ?_ ?_ ?_ h
  · intro i r l hi
    simp [Config.init] at hi
  · exact fun c r₀ _ hc _ => each_spawned hc (h0 r₀)
  · exact fun c j r₀ l₀ inp _ hc _ hj =>
      each_moved hc (fun _ _ hk => hk) (hstep r₀ l₀ inp c.shared (hc j r₀ l₀ hj))

/-! ## One request alone -/

/-- One step of a lone thread. -/
def System.solo (sys : System R L S I O) (x : S × L) (inp : I) : S × L :=
  ((sys.step x.2 inp x.1).1, (sys.step x.2 inp x.1).2.1)

/-- Request `r` run from `s` with no other thread, one input a step. -/
def System.alone (sys : System R L S I O) (r : R) (inps : List I) (s : S) : S × L :=
  inps.foldl sys.solo (s, sys.start r)

/-- The invariant rule for a lone request. -/
theorem System.alone_inv (sys : System R L S I O) (K : S → L → Prop) {r : R} {s : S}
    (h0 : K s (sys.start r))
    (hstep : ∀ s l inp, K s l → K (sys.step l inp s).1 (sys.step l inp s).2.1)
    (inps : List I) : K (sys.alone r inps s).1 (sys.alone r inps s).2 := by
  have key : ∀ (inps : List I) (x : S × L), K x.1 x.2 →
      K (inps.foldl sys.solo x).1 (inps.foldl sys.solo x).2 := by
    intro inps
    induction inps with
    | nil => intro x hx; exact hx
    | cons inp inps ih => intro x hx; exact ih _ (hstep x.1 x.2 inp hx)
  exact key inps _ h0

/-- Every step of a lone thread meets `P` where it is taken. -/
def System.AloneMeets (sys : System R L S I O) (P : S × L → I → Prop) : S × L → List I → Prop
  | _, [] => True
  | x, inp :: inps => P x inp ∧ System.AloneMeets sys P (sys.solo x inp) inps

/-- Steps that meet `P` keep `K`; the first one that does not ends in `B`, for good. -/
theorem System.alone_split (sys : System R L S I O) {P : S × L → I → Prop} {K B : S × L → Prop}
    (hstep : ∀ x inp, K x → P x inp → K (sys.solo x inp))
    (hbad : ∀ x inp, K x → ¬ P x inp → B (sys.solo x inp))
    (hstays : ∀ x inp, B x → B (sys.solo x inp)) (inps : List I) :
    ∀ x, K x → (sys.AloneMeets P x inps ∧ K (inps.foldl sys.solo x)) ∨
      (¬ sys.AloneMeets P x inps ∧ B (inps.foldl sys.solo x)) := by
  have hforever : ∀ (inps : List I) (x : S × L), B x → B (inps.foldl sys.solo x) := by
    intro inps
    induction inps with
    | nil => intro x hx; exact hx
    | cons inp inps ih => intro x hx; exact ih _ (hstays x inp hx)
  induction inps with
  | nil => intro x hx; exact Or.inl ⟨trivial, hx⟩
  | cons inp inps ih =>
      intro x hx
      by_cases hp : P x inp
      · rcases ih _ (hstep x inp hx hp) with ⟨hm, hk⟩ | ⟨hm, hb⟩
        · exact Or.inl ⟨⟨hp, hm⟩, hk⟩
        · exact Or.inr ⟨fun h => hm h.2, hb⟩
      · exact Or.inr ⟨fun h => hp h.1, hforever inps _ (hbad x inp hx hp)⟩

/-! ## One thread among any others -/

/-- The steps of a thread from `l`, each in a state from outside, so that anything may happen
    between two of them: the states before and after each step, and where the thread ends. -/
def System.course (sys : System R L S I O) : L → List (S × I) → List (S × S) × L
  | l, [] => ([], l)
  | l, x :: xs =>
      let rest := System.course sys (sys.step l x.2 x.1).2.1 xs
      ((x.1, (sys.step l x.2 x.1).1) :: rest.1, rest.2)

/-- What each step does from a thread state with `K`. -/
theorem System.course_rule (sys : System R L S I O) (K : L → Prop) (Q : S → S → Prop)
    (hstep : ∀ l inp s, K l → Q s (sys.step l inp s).1 ∧ K (sys.step l inp s).2.1)
    (xs : List (S × I)) :
    ∀ l, K l → (∀ p ∈ (sys.course l xs).1, Q p.1 p.2) ∧ K (sys.course l xs).2 := by
  induction xs with
  | nil => exact fun l hl => ⟨fun p hp => (by cases hp), hl⟩
  | cons x xs ih =>
      intro l hl
      obtain ⟨hq, hk⟩ := hstep l x.2 x.1 hl
      obtain ⟨hrest, hend⟩ := ih _ hk
      refine ⟨fun p hp => ?_, hend⟩
      rcases List.mem_cons.mp hp with rfl | hp
      · exact hq
      · exact hrest p hp

/-- Every step of a course meets `P` where it is taken. -/
def System.CourseMeets (sys : System R L S I O) (P : L → I → S → Prop) : L → List (S × I) → Prop
  | _, [] => True
  | l, x :: xs => P l x.2 x.1 ∧ System.CourseMeets sys P (sys.step l x.2 x.1).2.1 xs

/-- Steps that meet `P` keep `K`; the first one that does not ends in `B`, for good. -/
theorem System.course_split (sys : System R L S I O) {P : L → I → S → Prop} {K B : L → Prop}
    (hstep : ∀ l inp s, K l → P l inp s → K (sys.step l inp s).2.1)
    (hbad : ∀ l inp s, K l → ¬ P l inp s → B (sys.step l inp s).2.1)
    (hstays : ∀ l inp s, B l → B (sys.step l inp s).2.1) (xs : List (S × I)) :
    ∀ l, K l → (sys.CourseMeets P l xs ∧ K (sys.course l xs).2) ∨
      (¬ sys.CourseMeets P l xs ∧ B (sys.course l xs).2) := by
  have hforever : ∀ (xs : List (S × I)) (l : L), B l → B (sys.course l xs).2 := by
    intro xs
    induction xs with
    | nil => intro l hl; exact hl
    | cons x xs ih => intro l hl; exact ih _ (hstays l x.2 x.1 hl)
  induction xs with
  | nil => intro l hl; exact Or.inl ⟨trivial, hl⟩
  | cons x xs ih =>
      intro l hl
      by_cases hp : P l x.2 x.1
      · rcases ih _ (hstep l x.2 x.1 hl hp) with ⟨hm, hk⟩ | ⟨hm, hb⟩
        · exact Or.inl ⟨⟨hp, hm⟩, hk⟩
        · exact Or.inr ⟨fun h => hm h.2, hb⟩
      · exact Or.inr ⟨fun h => hp h.1, hforever xs _ (hbad l x.2 x.1 hl hp)⟩

/-- A thread whose every step lowers a rank has used it up after so many steps. -/
theorem System.course_rank (sys : System R L S I O) {rank : L → Nat}
    (hstep : ∀ l inp s, rank (sys.step l inp s).2.1 ≤ rank l - 1) (xs : List (S × I)) :
    ∀ l, rank (sys.course l xs).2 ≤ rank l - xs.length := by
  induction xs with
  | nil => exact fun l => Nat.le_refl _
  | cons x xs ih =>
      intro l
      have hless := hstep l x.2 x.1
      refine Nat.le_trans (ih _) ?_
      rw [List.length_cons]
      omega

end Interleave
