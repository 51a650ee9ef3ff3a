/-
  Library: runs of a machine that takes one event after another.

  `step s e` is the state after event `e`, or `none` when the machine faults on it and stops
  for good. `Reach step P s₀ s`: a run from `s₀` to `s` whose every event meets the condition
  `P` in the state it happens in. `Reach.invariant` is the rule for what every such run keeps,
  `run_invariant` the same with the events so far, and `run_iff_meets` the one for a history
  that each event adds its part to.

  A machine's step is often a computation in `Except`, which succeeds if and only if each of its
  parts does; a proof about one that has succeeded peels it apart with `Except.bind_ok`.
  Names nothing of the server.
-/
import Mathlib.Data.List.Basic

namespace Except

variable {ε α β : Type}

theorem bind_ok {x : Except ε α} {f : α → Except ε β} {b : β} :
    x >>= f = .ok b ↔ ∃ a, x = .ok a ∧ f a = .ok b := by
  cases x <;> simp [bind, Except.bind]

theorem map_eq_ok {x : Except ε α} {f : α → β} {b : β} :
    x.map f = .ok b ↔ ∃ a, x = .ok a ∧ f a = b := by
  cases x <;> simp [Except.map]

end Except

namespace Runs

variable {S E : Type}

inductive Reach (step : S → E → Option S) (P : S → E → Prop) (s₀ : S) : S → Prop where
  | refl : Reach step P s₀ s₀
  | next {s s' : S} (e : E) : Reach step P s₀ s → P s e → step s e = some s' →
      Reach step P s₀ s'

variable {step : S → E → Option S} {P : S → E → Prop} {s₀ s : S}

/-- The invariant rule. -/
theorem Reach.invariant (K : S → Prop) (h0 : K s₀)
    (hstep : ∀ s e s', K s → P s e → step s e = some s' → K s') (hr : Reach step P s₀ s) : K s := by
  induction hr with
  | refl => exact h0
  | next e _ hp hs ih => exact hstep _ e _ ih hp hs

/-- The state after a list of events. -/
def run (step : S → E → Option S) : S → List E → Option S
  | s, [] => some s
  | s, e :: es => (step s e).bind (fun s' => run step s' es)

/-- Every event of the list meets `P` where it happens. -/
def Meets (step : S → E → Option S) (P : S → E → Prop) : S → List E → Prop
  | _, [] => True
  | s, e :: es => P s e ∧ ∀ s', step s e = some s' → Meets step P s' es

/-- Whether a given run meets `P` can be computed. -/
instance Meets.decidable [∀ s e, Decidable (P s e)] :
    ∀ s es, Decidable (Meets step P s es)
  | _, [] => .isTrue trivial
  | s, e :: es =>
      match hs : step s e with
      | none => decidable_of_iff (P s e) ⟨fun h => ⟨h, fun s' hs' => by simp [hs] at hs'⟩, And.left⟩
      | some s₁ =>
          have : Decidable (Meets step P s₁ es) := Meets.decidable s₁ es
          decidable_of_iff (P s e ∧ Meets step P s₁ es)
            ⟨fun h => ⟨h.1, fun s' hs' => Option.some.inj (hs.symm.trans hs') ▸ h.2⟩,
              fun h => ⟨h.1, h.2 s₁ hs⟩⟩

theorem Reach.run (es : List E) :
    ∀ {s s' : S}, Reach step P s₀ s → Meets step P s es → Runs.run step s es = some s' →
      Reach step P s₀ s' := by
  induction es with
  | nil =>
      intro s s' hr _ hrun
      cases hrun
      exact hr
  | cons e es ih =>
      intro s s' hr hm hrun
      obtain ⟨s₁, hs₁, hrun⟩ := Option.bind_eq_some_iff.mp hrun
      exact ih (hr.next e hm.1 hs₁) (hm.2 s₁ hs₁) hrun

/-- What each event adds its own part to holds after a run exactly when each event meets its
    condition. -/
theorem run_iff_meets (K : S → Prop)
    (hstep : ∀ s e s', step s e = some s' → (K s' ↔ K s ∧ P s e)) (es : List E) :
    ∀ {s s' : S}, Runs.run step s es = some s' → (K s' ↔ K s ∧ Meets step P s es) := by
  induction es with
  | nil =>
      intro s s' hrun
      cases hrun
      exact (and_iff_left trivial).symm
  | cons e es ih =>
      intro s s' hrun
      obtain ⟨s₁, hs₁, hrun⟩ := Option.bind_eq_some_iff.mp hrun
      rw [ih hrun, hstep s e s₁ hs₁, and_assoc]
      refine and_congr_right (fun _ => and_congr_right (fun _ => ?_))
      refine ⟨fun hm s₂ hs₂ => ?_, fun hm => hm s₁ hs₁⟩
      cases hs₁.symm.trans hs₂
      exact hm

end Runs
