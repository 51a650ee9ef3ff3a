/-
  Library: keyset pagination.

  The rows are in descending order of a key. A page is the first `n` of the rows below a bound,
  and the next bound is the key of its last row. `Sweep` goes from page to page until one is
  empty.

  * `exists_sweep`: it ends.
  * `sweep_eq_iff`: it returns every row if and only if no group of equal keys begins before the
    end of a full page and ends behind it (`Straddled`).

  Names nothing of the server.
-/
import Mathlib.Data.List.Sort
import Mathlib.Order.Defs.LinearOrder

namespace Keyset

variable {α κ : Type} [LinearOrder κ]

def Descending (key : α → κ) (l : List α) : Prop := l.Pairwise (fun a b => key b ≤ key a)

/-- What the pages from `l` on return, one behind the other. -/
inductive Sweep (key : α → κ) (n : Nat) : List α → List α → Prop where
  | done {l : List α} : l.take n = [] → Sweep key n l []
  | page {l w : List α} {x : α} : (l.take n).getLast? = some x →
      Sweep key n (l.filter (fun a => key a < key x)) w → Sweep key n l (l.take n ++ w)

/-- Some rows with one key are on both sides of a multiple of `n`. -/
def Straddled (key : α → κ) (n : Nat) (rows : List α) : Prop :=
  ∃ t j, rows.countP (fun a => t < key a) < n * (j + 1) ∧
    n * (j + 1) < rows.countP (fun a => t ≤ key a)

variable {key : α → κ} {n : Nat} {l w w' : List α}

theorem straddled_perm {rows rows' : List α} (h : rows.Perm rows') :
    Straddled key n rows ↔ Straddled key n rows' := by
  unfold Straddled
  simp only [h.countP_eq]

theorem straddled_map {β : Type} {f : β → α} {rows : List β} :
    Straddled key n (rows.map f) ↔ Straddled (key ∘ f) n rows := by
  unfold Straddled
  simp only [List.countP_map, Function.comp_def]

/-- It is enough to look at the keys of the rows and the ends of full pages. -/
theorem straddled_iff {rows : List α} : Straddled key n rows ↔
    ∃ x ∈ rows, ∃ j ∈ List.range (rows.length / n),
      rows.countP (fun a => key x < key a) < n * (j + 1) ∧
        n * (j + 1) < rows.countP (fun a => key x ≤ key a) := by
  constructor
  · rintro ⟨t, j, hlo, hhi⟩
    have hrow : ∃ x ∈ rows, key x = t := by
      by_contra hno
      have hsame : rows.countP (fun a => t ≤ key a) = rows.countP (fun a => t < key a) := by
        refine List.countP_congr (fun a ha => ?_)
        simpa using ⟨fun h => lt_of_le_of_ne h (fun heq => hno ⟨a, ha, heq.symm⟩), le_of_lt⟩
      omega
    obtain ⟨x, hx, rfl⟩ := hrow
    refine ⟨x, hx, j, ?_, hlo, hhi⟩
    have hcount : rows.countP (fun a => key x ≤ key a) ≤ rows.length := List.countP_le_length
    have hn : 0 < n := Nat.pos_of_ne_zero (fun hn => by simp [hn] at hlo)
    have hpage : n * (j + 1) ≤ rows.length := by omega
    rw [List.mem_range]
    exact (Nat.le_div_iff_mul_le hn).mpr (by rwa [Nat.mul_comm])
  · rintro ⟨x, _, j, _, hlo, hhi⟩
    exact ⟨key x, j, hlo, hhi⟩

instance {rows : List α} : Decidable (Straddled key n rows) := decidable_of_iff _ straddled_iff.symm

/-- 31 rows at one time, 30 on a page. -/
example : Straddled (id : Int → Int) 30 (List.replicate 31 0) := by decide

/-! ## The walk -/

theorem exists_sweep (key : α → κ) (n : Nat) (l : List α) : ∃ w, Sweep key n l w := by
  induction hlen : l.length using Nat.strong_induction_on generalizing l with
  | _ len ih =>
      cases hlast : (l.take n).getLast? with
      | none => exact ⟨[], .done (List.getLast?_eq_none_iff.mp hlast)⟩
      | some x =>
          have hx : x ∈ l := List.mem_of_mem_take (List.mem_of_getLast? hlast)
          have hless : (l.filter (fun a => key a < key x)).length < len := by
            rw [← hlen]
            exact List.length_filter_lt_length_iff_exists.mpr ⟨x, hx, by simp⟩
          obtain ⟨w, hw⟩ := ih _ hless _ rfl
          exact ⟨l.take n ++ w, .page hlast hw⟩

/-! ## What is lost -/

theorem Descending.sublist (hs : Descending key l) (h : w.Sublist l) : Descending key w :=
  List.Pairwise.sublist h hs

theorem Descending.last_le (hs : Descending key l) {x a : α} (hlast : l.getLast? = some x)
    (ha : a ∈ l) : key x ≤ key a := by
  obtain ⟨ys, rfl⟩ := List.getLast?_eq_some_iff.mp hlast
  rcases List.mem_append.mp ha with ha | ha
  · exact (List.pairwise_append.mp hs).2.2 a ha x (List.mem_singleton.mpr rfl)
  · rw [List.mem_singleton.mp ha]

/-- The last row of each full page has another key than the row behind it. -/
def Clear (key : α → κ) (n : Nat) (l : List α) : Prop :=
  ∀ j x y, l[n * (j + 1) - 1]? = some x → l[n * (j + 1)]? = some y → key x ≠ key y

/-- If there is a row behind the page, the page is full. -/
theorem last_of_behind (hn : 0 < n) {x y : α} {i : Nat} (hlast : (l.take n).getLast? = some x)
    (hy : (l.drop n)[i]? = some y) : l[n - 1]? = some x := by
  rw [List.getElem?_drop] at hy
  have hlen := (List.getElem?_eq_some_iff.mp hy).1
  rw [List.getLast?_eq_getElem?, List.length_take, Nat.min_eq_left (by omega),
    List.getElem?_take_of_lt (by omega)] at hlast
  exact hlast

/-- In a clear list every row behind the page has a smaller key than its last one. -/
theorem Clear.lt_last (h : Clear key n l) (hn : 0 < n) (hs : Descending key l) {x y : α}
    (hlast : (l.take n).getLast? = some x) (hy : y ∈ l.drop n) : key y < key x := by
  have hsd : Descending key (l.drop n) := hs.sublist (List.drop_sublist n l)
  cases hd : l.drop n with
  | nil =>
      rw [hd] at hy
      cases hy
  | cons d ds =>
      have hd0 : (l.drop n)[0]? = some d := by rw [hd]; rfl
      have hx := last_of_behind hn hlast hd0
      rw [List.getElem?_drop, Nat.add_zero] at hd0
      have hne : key x ≠ key d := h 0 x d (by simpa using hx) (by simpa using hd0)
      have hdx : key d ≤ key x := by
        obtain ⟨hlx, rfl⟩ := List.getElem?_eq_some_iff.mp hx
        obtain ⟨hld, rfl⟩ := List.getElem?_eq_some_iff.mp hd0
        exact List.pairwise_iff_getElem.mp hs _ _ hlx hld (by omega)
      have hyd : key y ≤ key d := by
        rw [hd] at hy hsd
        rcases List.mem_cons.mp hy with rfl | hy
        · exact le_refl _
        · exact (List.pairwise_cons.mp hsd).1 y hy
      exact lt_of_le_of_lt hyd (lt_of_le_of_ne hdx hne.symm)

theorem clear_step (hn : 0 < n) (hs : Descending key l) {x : α}
    (hlast : (l.take n).getLast? = some x) :
    Clear key n l ↔ (∀ y ∈ l.drop n, key y < key x) ∧ Clear key n (l.drop n) := by
  have hshift : ∀ j, n * (j + 1 + 1) - 1 = n + (n * (j + 1) - 1) := by
    intro j
    have hpos : 0 < n * (j + 1) := Nat.mul_pos hn (Nat.succ_pos j)
    rw [Nat.mul_succ n (j + 1)]
    omega
  constructor
  · intro h
    refine ⟨fun y hy => h.lt_last hn hs hlast hy, ?_⟩
    intro j x' y' hx' hy'
    rw [List.getElem?_drop] at hx' hy'
    exact h (j + 1) x' y' (by rw [hshift]; exact hx')
      (by rw [Nat.mul_succ n (j + 1), Nat.add_comm]; exact hy')
  · rintro ⟨hless, h⟩ j x' y' hx' hy'
    cases j with
    | zero =>
        rw [Nat.zero_add, Nat.mul_one] at hx' hy'
        have hy0 : (l.drop n)[0]? = some y' := by rw [List.getElem?_drop]; exact hy'
        rw [last_of_behind hn hlast hy0] at hx'
        obtain rfl := Option.some.inj hx'
        exact (hless y' (List.mem_of_getElem? hy0)).ne'
    | succ j =>
        refine h j x' y' ?_ ?_
        · rw [List.getElem?_drop, ← hshift]
          exact hx'
        · rw [List.getElem?_drop, Nat.add_comm, ← Nat.mul_succ]
          exact hy'

/-- The pages return rows of the list, and all of them if and only if it is clear. -/
theorem sweep_clear (hn : 0 < n) (h : Sweep key n l w) (hs : Descending key l) :
    w.Sublist l ∧ (w = l ↔ Clear key n l) := by
  induction h with
  | @done l hnil =>
      have hl : l = [] := by
        rcases List.take_eq_nil_iff.mp hnil with hzero | hl
        · omega
        · exact hl
      subst hl
      exact ⟨List.Sublist.refl [], fun _ j x y hx => (by simp at hx), fun _ => rfl⟩
  | @page l w x hlast _ ih =>
      have hhead : (l.take n).filter (fun a => key a < key x) = [] := by
        rw [List.filter_eq_nil_iff]
        intro a ha
        have hle := (hs.sublist (List.take_sublist n l)).last_le hlast ha
        simpa using hle
      have hrows : l.filter (fun a => key a < key x) =
          (l.drop n).filter (fun a => key a < key x) := by
        conv => lhs; rw [← List.take_append_drop n l]
        rw [List.filter_append, hhead, List.nil_append]
      have hdrop : Descending key (l.drop n) := hs.sublist (List.drop_sublist n l)
      rw [hrows] at ih
      obtain ⟨hsub, hiff⟩ := ih (hdrop.sublist List.filter_sublist)
      have hin : w.Sublist (l.drop n) := hsub.trans List.filter_sublist
      refine ⟨?_, ?_⟩
      · have happend := (List.Sublist.refl (l.take n)).append hin
        rwa [List.take_append_drop] at happend
      · rw [clear_step hn hs hlast]
        have hcancel : l.take n ++ w = l ↔ w = l.drop n :=
          ⟨fun h => List.append_cancel_left (h.trans (List.take_append_drop n l).symm),
            fun h => by rw [h, List.take_append_drop]⟩
        rw [hcancel]
        constructor
        · intro hw
          have hall : (l.drop n).filter (fun a => key a < key x) = l.drop n :=
            List.filter_sublist.eq_of_length_le (hw ▸ hsub.length_le)
          refine ⟨fun y hy => by simpa using List.filter_eq_self.mp hall y hy, ?_⟩
          rw [hall] at hiff
          exact hiff.mp hw
        · rintro ⟨hless, hclear⟩
          have hall : (l.drop n).filter (fun a => key a < key x) = l.drop n :=
            List.filter_eq_self.mpr (fun y hy => by simpa using hless y hy)
          rw [hall] at hiff
          exact hiff.mpr hclear

/-! ## Counting -/

/-- The rows with a property that no smaller key has are the first ones. -/
theorem Descending.index {p : α → Bool} (hp : ∀ a b, key b ≤ key a → p b = true → p a = true)
    (hs : Descending key l) : ∀ (i : Nat) (a : α), l[i]? = some a →
      (p a = true ↔ i < l.countP p) := by
  induction l with
  | nil => intro i a h; simp at h
  | cons b l ih =>
      have htail := (List.pairwise_cons.mp hs).1
      have hnone : ¬ p b = true → ∀ a ∈ l, ¬ p a = true := fun hb a ha h =>
        hb (hp b a (htail a ha) h)
      intro i a h
      by_cases hb : p b = true
      · rw [List.countP_cons_of_pos hb]
        cases i with
        | zero =>
            obtain rfl := Option.some.inj h
            simp [hb]
        | succ i =>
            rw [ih (List.pairwise_cons.mp hs).2 i a h]
            omega
      · rw [List.countP_cons_of_neg hb, List.countP_eq_zero.mpr (hnone hb)]
        have ha : ¬ p a = true := by
          rcases List.mem_cons.mp (List.mem_of_getElem? h) with rfl | ha
          · exact hb
          · exact hnone hb a ha
        simp [ha]

theorem clear_iff (hn : 0 < n) (hs : Descending key l) :
    Clear key n l ↔ ¬ Straddled key n l := by
  have habove : ∀ t (i : Nat) (a : α), l[i]? = some a →
      (t < key a ↔ i < l.countP (fun a => t < key a)) := by
    intro t i a h
    have := Descending.index (p := fun a => decide (t < key a))
      (fun a b hle hb => by simp only [decide_eq_true_eq] at hb ⊢; exact lt_of_lt_of_le hb hle)
      hs i a h
    simpa using this
  have hfrom : ∀ t (i : Nat) (a : α), l[i]? = some a →
      (t ≤ key a ↔ i < l.countP (fun a => t ≤ key a)) := by
    intro t i a h
    have := Descending.index (p := fun a => decide (t ≤ key a))
      (fun a b hle hb => by simp only [decide_eq_true_eq] at hb ⊢; exact le_trans hb hle)
      hs i a h
    simpa using this
  constructor
  · rintro h ⟨t, j, hlo, hhi⟩
    have hlen : n * (j + 1) < l.length := lt_of_lt_of_le hhi List.countP_le_length
    have hy := List.getElem?_eq_getElem hlen
    have hx := List.getElem?_eq_getElem (l := l) (i := n * (j + 1) - 1) (by omega)
    refine h j _ _ hx hy ?_
    have hxle : ¬ t < key l[n * (j + 1) - 1] := by
      rw [habove t _ _ hx]
      omega
    have hyle : ¬ t < key l[n * (j + 1)] := by
      rw [habove t _ _ hy]
      omega
    have hxge : t ≤ key l[n * (j + 1) - 1] := (hfrom t _ _ hx).mpr (by omega)
    have hyge : t ≤ key l[n * (j + 1)] := (hfrom t _ _ hy).mpr hhi
    exact (le_antisymm (not_lt.mp hxle) hxge).trans (le_antisymm hyge (not_lt.mp hyle))
  · intro h j x y hx hy hxy
    refine h ⟨key x, j, ?_, ?_⟩
    · have hpos : 0 < n * (j + 1) := Nat.mul_pos hn (Nat.succ_pos j)
      have := (habove (key x) _ x hx).not.mp (lt_irrefl _)
      omega
    · exact (hfrom (key x) _ y hy).mp (le_of_eq hxy)

/-- A walk returns rows of the list, and all of them if and only if no group of equal keys
    straddles the end of a page. -/
theorem sweep_eq_iff (hn : 0 < n) (hs : Descending key l) (h : Sweep key n l w) :
    w.Sublist l ∧ (w = l ↔ ¬ Straddled key n l) := by
  rw [← clear_iff hn hs]
  exact sweep_clear hn h hs

end Keyset
