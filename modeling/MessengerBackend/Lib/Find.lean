/-
  Library: the searches of `std::string`.

  * `find a s`: the first index of an element. `rfind a s`: the last one.
  * `findSub w s`: the first index at which the word `w` begins.

  Each has a lemma for a text that is put together around what is searched (`find_append`,
  `rfind_append`, `findSub_append`). Names nothing of the server.
-/
import Mathlib.Data.List.Basic

namespace Find

variable {α : Type} [DecidableEq α]

def find (a : α) (s : List α) : Option Nat := s.idxOf? a

def rfind (a : α) (s : List α) : Option Nat :=
  (s.reverse.idxOf? a).map (fun i => s.length - 1 - i)

def findSub (w : List α) : List α → Option Nat
  | [] => if w = [] then some 0 else none
  | a :: s => if w.isPrefixOf (a :: s) = true then some 0 else (findSub w s).map (· + 1)

variable {a : α} {x y s w : List α}

theorem find_append (h : a ∉ x) : find a (x ++ a :: y) = some x.length := by
  unfold find
  rw [List.idxOf?_eq_some_iff]
  refine ⟨by simp, by simp, fun j hj => ?_⟩
  rw [List.getElem_append_left hj]
  exact fun heq => h (heq ▸ List.getElem_mem hj)

theorem find_none (h : a ∉ s) : find a s = none := List.idxOf?_eq_none_iff.mpr h

theorem rfind_append (h : a ∉ y) : rfind a (x ++ a :: y) = some x.length := by
  have hrev : (x ++ a :: y).reverse = y.reverse ++ a :: x.reverse := by simp
  have hfirst := find_append (y := x.reverse)
    (fun hmem : a ∈ y.reverse => h (List.mem_reverse.mp hmem))
  unfold find at hfirst
  unfold rfind
  rw [hrev, hfirst]
  simp only [Option.map_some, List.length_append, List.length_cons, List.length_reverse]
  congr 1
  omega

theorem rfind_none (h : a ∉ s) : rfind a s = none := by
  unfold rfind
  rw [List.idxOf?_eq_none_iff.mpr (fun hmem => h (List.mem_reverse.mp hmem)), Option.map_none]

/-- Nothing before the word has its first element. -/
theorem findSub_append (h : a ∉ x) : findSub (a :: w) (x ++ (a :: w ++ y)) = some x.length := by
  induction x with
  | nil =>
      have hhere : (a :: w).isPrefixOf (a :: (w ++ y)) = true :=
        List.isPrefixOf_iff_prefix.mpr (List.prefix_append (a :: w) y)
      rw [List.nil_append, List.cons_append, findSub, if_pos hhere]
      rfl
  | cons b x ih =>
      have hne : ¬ (a :: w).isPrefixOf (b :: (x ++ (a :: w ++ y))) = true := by
        simp only [List.isPrefixOf, Bool.and_eq_true, beq_iff_eq, not_and]
        exact fun heq => absurd (heq ▸ List.mem_cons_self) h
      rw [List.cons_append, findSub, if_neg hne, ih (fun hmem => h (List.mem_cons_of_mem b hmem))]
      rfl

end Find
