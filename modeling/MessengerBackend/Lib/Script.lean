/-
  Library: scripts of statements that may be run again.

  A statement takes a state to a state or refuses. `Guarded`: it only adds (in a preorder of
  the states), and once its effect is there it does nothing, whatever else was added since;
  so is every `… IF NOT EXISTS`. A run of a script stops at the first statement that refuses,
  fails outside, or is not reached (`run`); `exec` is the run in which nothing outside fails.

  * `exec_run`: after a run that was cut off anywhere, a whole run gives what it would have
    given without it; `exec_runs` for any number of cut runs.
  * `run_done`: after a whole run no run changes anything.

  Names nothing of the server.
-/
import Mathlib.Order.Defs.PartialOrder

namespace Script

/-- What becomes of a statement: it is not executed, it is executed and answered, or executed
    with its answer lost. -/
inductive Fate where
  | failed
  | done
  | lost
deriving DecidableEq

variable {S : Type}

abbrev Statement (S : Type) := S → Option S

/-- The state after the statements that were reached, and whether the whole script was. Where
    the fates end, so does the process. -/
def run : List (Statement S) → List Fate → S → S × Bool
  | [], _, s => (s, true)
  | _ :: _, [], s => (s, false)
  | f :: fs, fate :: fates, s =>
      match f s with
      | none => (s, false)
      | some s' =>
          match fate with
          | .failed => (s, false)
          | .done => run fs fates s'
          | .lost => (s', false)

/-- Nothing fails but what refuses. -/
def exec : List (Statement S) → S → S × Bool
  | [], s => (s, true)
  | f :: fs, s =>
      match f s with
      | some s' => exec fs s'
      | none => (s, false)

/-- `exec` is a run. -/
theorem run_replicate (fs : List (Statement S)) : ∀ s,
    run fs (List.replicate fs.length .done) s = exec fs s := by
  induction fs with
  | nil => exact fun s => rfl
  | cons f fs ih =>
      intro s
      rw [List.length_cons, List.replicate_succ]
      simp only [run, exec]
      cases f s with
      | none => rfl
      | some s' => exact ih s'

section Guarded

variable [Preorder S]

structure Guarded (f : Statement S) : Prop where
  adds : ∀ s s', f s = some s' → s ≤ s'
  stays : ∀ s s' t, f s = some s' → s' ≤ t → f t = some t

variable {fs : List (Statement S)} (h : ∀ f ∈ fs, Guarded f)
include h

theorem le_run (fates : List Fate) (s : S) : s ≤ (run fs fates s).1 := by
  induction fs generalizing fates s with
  | nil => exact le_refl s
  | cons f fs ih =>
      have htail := ih (fun g hg => h g (List.mem_cons_of_mem f hg))
      cases fates with
      | nil => exact le_refl s
      | cons fate fates =>
          cases hf : f s with
          | none =>
              simp only [run, hf]
              exact le_refl s
          | some s' =>
              have hle := (h f List.mem_cons_self).adds s s' hf
              cases fate with
              | failed =>
                  simp only [run, hf]
                  exact le_refl s
              | done =>
                  simp only [run, hf]
                  exact le_trans hle (htail fates s')
              | lost =>
                  simp only [run, hf]
                  exact hle

theorem le_exec (s : S) : s ≤ (exec fs s).1 := by
  rw [← run_replicate]
  exact le_run h _ s

/-- What a cut run did is not done again, and the rest is done as it would have been. -/
theorem exec_run (fates : List Fate) (s : S) : exec fs (run fs fates s).1 = exec fs s := by
  induction fs generalizing fates s with
  | nil => rfl
  | cons f fs ih =>
      have htail : ∀ g ∈ fs, Guarded g := fun g hg => h g (List.mem_cons_of_mem f hg)
      cases fates with
      | nil => rfl
      | cons fate fates =>
          cases hf : f s with
          | none => simp only [run, hf]
          | some s' =>
              have hstays := (h f List.mem_cons_self).stays s s'
              cases fate with
              | failed => simp only [run, hf]
              | done =>
                  have hagain := hstays _ hf (le_run htail fates s')
                  simp only [run, hf, exec, hagain]
                  exact ih htail fates s'
              | lost =>
                  have hagain := hstays _ hf (le_refl s')
                  simp only [run, hf, exec, hagain]

/-- Any number of cut runs. -/
theorem exec_runs (runs : List (List Fate)) : ∀ s,
    exec fs (runs.foldl (fun s fates => (run fs fates s).1) s) = exec fs s := by
  induction runs with
  | nil => exact fun s => rfl
  | cons fates runs ih => exact fun s => (ih _).trans (exec_run h fates s)

theorem le_runs (runs : List (List Fate)) : ∀ s,
    s ≤ runs.foldl (fun s fates => (run fs fates s).1) s := by
  induction runs with
  | nil => exact fun s => le_refl s
  | cons fates runs ih => exact fun s => le_trans (le_run h fates s) (ih _)

/-- Each statement of a script that went through has its effect. -/
theorem stays_of_exec {s d : S} (hd : exec fs s = (d, true)) : ∀ f ∈ fs, ∀ t, d ≤ t → f t = some t := by
  induction fs generalizing s with
  | nil => exact fun f hf => absurd hf List.not_mem_nil
  | cons g fs ih =>
      have htail : ∀ f ∈ fs, Guarded f := fun f hf => h f (List.mem_cons_of_mem g hf)
      simp only [exec] at hd
      cases hg : g s with
      | none =>
          rw [hg] at hd
          cases hd
      | some s' =>
          rw [hg] at hd
          intro f hf t ht
          rcases List.mem_cons.mp hf with rfl | hf
          · refine (h f List.mem_cons_self).stays s s' t hg (le_trans ?_ ht)
            have hle := le_exec htail s'
            rwa [show exec fs s' = (d, true) from hd] at hle
          · exact ih htail hd f hf t ht

/-- After a whole run no run changes anything. -/
theorem run_done {s d : S} (hd : exec fs s = (d, true)) (fates : List Fate) :
    (run fs fates d).1 = d := by
  have key : ∀ (gs : List (Statement S)) (fates : List Fate), (∀ g ∈ gs, g d = some d) →
      (run gs fates d).1 = d := by
    intro gs
    induction gs with
    | nil => exact fun _ _ => rfl
    | cons g gs ih =>
        intro fates hall
        cases fates with
        | nil => rfl
        | cons fate fates =>
            have hg := hall g List.mem_cons_self
            cases fate with
            | failed => simp only [run, hg]
            | done =>
                simp only [run, hg]
                exact ih fates (fun g' hg' => hall g' (List.mem_cons_of_mem g hg'))
            | lost => simp only [run, hg]
  exact key fs fates (fun g hg => stays_of_exec h hd g hg d (le_refl d))

end Guarded

end Script
