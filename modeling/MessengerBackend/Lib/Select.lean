/-
  Library: the parts of a SELECT over lists of rows.

  * `join`: FROM one list JOIN another ON a condition, as the nested loop.
  * `orderBy`: a stable sort, so rows that compare equal stay in table order.
  * `desc`, `asc`: the sort orders of a nullable column, with NULL above every value.

  * `filter_orderBy`: a condition may be applied before or after the sort.
  * `map_fst_join`: what a join on a key of the second table keeps of the first.

  `filter_join_filter` says when rows may be dropped before a join: if the WHERE clause
  keeps no pair they are part of. Names nothing of the server.
-/
import Mathlib.Data.List.Nodup
import Mathlib.Data.List.Sort

namespace Select

variable {α β : Type}

def join (on : α → β → Bool) (xs : List α) (ys : List β) : List (α × β) :=
  xs.flatMap (fun x => (ys.filter (on x)).map (Prod.mk x))

def orderBy (le : α → α → Bool) (xs : List α) : List α :=
  xs.insertionSort (fun a b => le a b = true)

/-- ORDER BY … DESC: NULLS FIRST. -/
def desc (le : α → α → Bool) : Option α → Option α → Bool
  | none, _ => true
  | some _, none => false
  | some a, some b => le b a

/-- ORDER BY … ASC: NULLS LAST. -/
def asc (le : α → α → Bool) : Option α → Option α → Bool
  | _, none => true
  | none, some _ => false
  | some a, some b => le a b

theorem mem_join {on : α → β → Bool} {xs : List α} {ys : List β} {x : α} {y : β} :
    (x, y) ∈ join on xs ys ↔ x ∈ xs ∧ y ∈ ys ∧ on x y = true := by
  simp only [join, List.mem_flatMap, List.mem_map, List.mem_filter]
  constructor
  · rintro ⟨x', hx, y', ⟨hy, hon⟩, heq⟩
    obtain ⟨rfl, rfl⟩ := Prod.mk.inj heq
    exact ⟨hx, hy, hon⟩
  · rintro ⟨hx, hy, hon⟩
    exact ⟨x, hx, y, ⟨hy, hon⟩, rfl⟩

theorem join_cons (on : α → β → Bool) (x : α) (xs : List α) (ys : List β) :
    join on (x :: xs) ys = (ys.filter (on x)).map (Prod.mk x) ++ join on xs ys :=
  List.flatMap_cons

theorem mem_orderBy {le : α → α → Bool} {xs : List α} {x : α} :
    x ∈ orderBy le xs ↔ x ∈ xs :=
  List.mem_insertionSort _

/-! ## Order and conditions -/

section Order

variable {le : α → α → Bool} (htotal : ∀ a b, le a b = true ∨ le b a = true)
  (htrans : ∀ a b c, le a b = true → le b c = true → le a c = true)

include htotal htrans

theorem pairwise_orderBy (xs : List α) :
    (orderBy le xs).Pairwise (fun a b => le a b = true) := by
  have : Std.Total (fun a b => le a b = true) := ⟨htotal⟩
  have : IsTrans α (fun a b => le a b = true) := ⟨htrans⟩
  exact List.pairwise_insertionSort _ xs

/-- LIMIT: what is left out comes after what is not. -/
theorem mem_take_orderBy (n : Nat) {xs : List α} {x : α} (hx : x ∈ xs) :
    x ∈ (orderBy le xs).take n ∨
      ((orderBy le xs).take n).length = n ∧ ∀ y ∈ (orderBy le xs).take n, le y x = true := by
  have hmem : x ∈ (orderBy le xs).take n ++ (orderBy le xs).drop n := by
    rw [List.take_append_drop]
    exact mem_orderBy.mpr hx
  have hsorted := pairwise_orderBy htotal htrans xs
  rw [← List.take_append_drop n (orderBy le xs), List.pairwise_append] at hsorted
  rcases List.mem_append.mp hmem with htake | hdrop
  · exact Or.inl htake
  · refine Or.inr ⟨?_, fun y hy => hsorted.2.2 y hy x hdrop⟩
    have hlen : n < (orderBy le xs).length := by
      by_contra hle
      rw [List.drop_eq_nil_of_le (by omega)] at hdrop
      cases hdrop
    rw [List.length_take, Nat.min_eq_left hlen.le]

omit htotal in
theorem filter_orderedInsert (p : α → Bool) (a : α) (xs : List α)
    (hs : xs.Pairwise (fun a b => le a b = true)) :
    (xs.orderedInsert (fun a b => le a b = true) a).filter p =
      if p a then (xs.filter p).orderedInsert (fun a b => le a b = true) a else xs.filter p := by
  induction xs with
  | nil => by_cases ha : p a = true <;> simp [ha]
  | cons b xs ih =>
      obtain ⟨hb, htail⟩ := List.pairwise_cons.mp hs
      rw [List.orderedInsert_cons]
      by_cases hab : le a b = true
      · rw [if_pos hab]
        by_cases ha : p a = true
        · rw [List.filter_cons_of_pos ha, if_pos ha]
          cases hf : (b :: xs).filter p with
          | nil => rfl
          | cons c cs =>
              have hc : c ∈ b :: xs := (List.mem_filter.mp (hf ▸ List.mem_cons_self)).1
              have hac : le a c = true := by
                rcases List.mem_cons.mp hc with rfl | hc
                · exact hab
                · exact htrans a b c hab (hb c hc)
              rw [List.orderedInsert_cons, if_pos hac]
        · rw [List.filter_cons_of_neg ha, if_neg ha]
      · rw [if_neg hab]
        by_cases hpb : p b = true
        · rw [List.filter_cons_of_pos hpb, List.filter_cons_of_pos hpb, ih htail,
            List.orderedInsert_cons, if_neg hab]
          split <;> rfl
        · rw [List.filter_cons_of_neg hpb, List.filter_cons_of_neg hpb, ih htail]

/-- The sort is stable, so a WHERE clause may be applied after it. -/
theorem filter_orderBy (p : α → Bool) (xs : List α) :
    (orderBy le xs).filter p = orderBy le (xs.filter p) := by
  induction xs with
  | nil => rfl
  | cons a xs ih =>
      have hinsert := filter_orderedInsert htrans p a (orderBy le xs)
        (pairwise_orderBy htotal htrans xs)
      by_cases ha : p a = true
      · rw [if_pos ha, ih] at hinsert
        rw [List.filter_cons_of_pos ha]
        exact hinsert
      · rw [if_neg ha, ih] at hinsert
        rw [List.filter_cons_of_neg ha]
        exact hinsert

end Order

/-! ## The order of a column -/

section Column

variable {le : α → α → Bool}

theorem desc_total (htotal : ∀ a b, le a b = true ∨ le b a = true) :
    ∀ a b, desc le a b = true ∨ desc le b a = true
  | none, _ => Or.inl rfl
  | some _, none => Or.inr rfl
  | some a, some b => htotal b a

theorem desc_trans (htrans : ∀ a b c, le a b = true → le b c = true → le a c = true) :
    ∀ a b c, desc le a b = true → desc le b c = true → desc le a c = true
  | none, _, _, _, _ => rfl
  | some _, none, _, h, _ => by cases h
  | some _, some _, none, _, h => by cases h
  | some a, some b, some c, h, h' => htrans c b a h' h

end Column

/-! ## Joins on a key -/

/-- A WHERE clause on the first table. -/
theorem filter_join_fst (on : α → β → Bool) (p : α → Bool) (xs : List α) (ys : List β) :
    (join on xs ys).filter (fun x => p x.1) = join on (xs.filter p) ys := by
  induction xs with
  | nil => rfl
  | cons x xs ih =>
      rw [join_cons, List.filter_append, ih]
      by_cases hx : p x = true
      · rw [List.filter_cons_of_pos hx, join_cons]
        congr 1
        rw [List.filter_map]
        congr 1
        exact List.filter_eq_self.mpr (fun _ _ => hx)
      · rw [List.filter_cons_of_neg hx]
        have hnone : ((ys.filter (on x)).map (Prod.mk x)).filter (fun x => p x.1) = [] := by
          rw [List.filter_map, List.map_eq_nil_iff, List.filter_eq_nil_iff]
          exact fun _ _ => hx
        rw [hnone, List.nil_append]

/-- If at most one row of the second table fits, a join drops those of the first that none fits. -/
theorem map_fst_join {on : α → β → Bool} {xs : List α} {ys : List β}
    (h : ∀ x ∈ xs, (ys.filter (on x)).length ≤ 1) :
    (join on xs ys).map Prod.fst = xs.filter (fun x => ys.any (on x)) := by
  induction xs with
  | nil => rfl
  | cons x xs ih =>
      have htail := ih (fun y hy => h y (List.mem_cons_of_mem _ hy))
      have hx := h x List.mem_cons_self
      rw [join_cons, List.map_append, htail, List.map_map]
      cases hf : ys.filter (on x) with
      | nil =>
          have hno : ¬ ys.any (on x) = true := by
            intro hany
            obtain ⟨y, hy, hon⟩ := List.any_eq_true.mp hany
            exact List.filter_eq_nil_iff.mp hf y hy hon
          rw [List.filter_cons_of_neg (p := fun x => ys.any (on x)) hno]
          rfl
      | cons y rest =>
          obtain rfl : rest = [] := by
            rw [hf, List.length_cons] at hx
            exact List.length_eq_zero_iff.mp (by omega)
          have hmem : y ∈ ys.filter (on x) := by rw [hf]; exact List.mem_cons_self
          have hany : ys.any (on x) = true :=
            List.any_eq_true.mpr ⟨y, (List.mem_filter.mp hmem).1, (List.mem_filter.mp hmem).2⟩
          rw [List.filter_cons_of_pos (p := fun x => ys.any (on x)) hany]
          rfl

/-- No pair twice. -/
theorem nodup_join (on : α → β → Bool) {xs : List α} {ys : List β} (hx : xs.Nodup) (hy : ys.Nodup) :
    (join on xs ys).Nodup := by
  induction xs with
  | nil => exact List.nodup_nil
  | cons x xs ih =>
      obtain ⟨hnew, htail⟩ := List.nodup_cons.mp hx
      rw [join_cons]
      refine List.Nodup.append ((hy.filter _).map (Prod.mk_right_injective x)) (ih htail) ?_
      rintro ⟨x', y⟩ hhead hrest
      obtain ⟨_, _, heq⟩ := List.mem_map.mp hhead
      cases heq
      exact hnew (mem_join.mp hrest).1

theorem nodup_orderBy (le : α → α → Bool) {xs : List α} (h : xs.Nodup) : (orderBy le xs).Nodup :=
  (List.perm_insertionSort _ xs).nodup_iff.mpr h

/-! ## Columns that a statement does not read -/

theorem join_map_right (on : α → β → Bool) (g : β → β) (xs : List α) (ys : List β) :
    join on xs (ys.map g) = (join (fun x y => on x (g y)) xs ys).map (Prod.map id g) := by
  induction xs with
  | nil => rfl
  | cons x xs ih =>
      rw [join_cons, join_cons, ih, List.map_append, List.filter_map, List.map_map, List.map_map]
      rfl

theorem orderBy_map {γ : Type} (le : γ → γ → Bool) (g : α → γ) (xs : List α) :
    orderBy le (xs.map g) = (orderBy (fun a b => le (g a) (g b)) xs).map g :=
  (List.map_insertionSort _ _ g xs (fun _ _ _ _ => Iff.rfl)).symm

/-- A join that does not see what `g` changes in the second table. -/
theorem orderBy_join_map {on : α → β → Bool} {w : α × β → Bool} {le : α × β → α × β → Bool}
    {g : β → β} (hon : ∀ x y, on x (g y) = on x y) (hw : ∀ p, w (Prod.map id g p) = w p)
    (hle : ∀ p p', le (Prod.map id g p) (Prod.map id g p') = le p p') (xs : List α) (ys : List β) :
    orderBy le ((join on xs (ys.map g)).filter w) =
      (orderBy le ((join on xs ys).filter w)).map (Prod.map id g) := by
  have hw' : w ∘ Prod.map id g = w := funext hw
  have hon' : (fun x y => on x (g y)) = on := funext (fun x => funext (hon x))
  have hle' : (fun p p' => le (Prod.map id g p) (Prod.map id g p')) = le :=
    funext (fun p => funext (hle p))
  rw [join_map_right, List.filter_map, hw', hon', orderBy_map, hle']

/-- Rows that are in no pair the WHERE clause keeps may be dropped before the join. -/
theorem filter_join_filter {on : α → β → Bool} {a : α → Bool} {b : β → Bool} {w : α × β → Bool}
    {ys : List β} (xs : List α)
    (h : ∀ x ∈ xs, ∀ y ∈ ys, on x y = true → w (x, y) = true → a x = true ∧ b y = true) :
    (join on (xs.filter a) (ys.filter b)).filter w = (join on xs ys).filter w := by
  induction xs with
  | nil => rfl
  | cons x xs ih =>
      have htail := ih (fun x' hx' => h x' (List.mem_cons_of_mem _ hx'))
      by_cases ha : a x = true
      · have hhead : (((ys.filter b).filter (on x)).map (Prod.mk x)).filter w =
            ((ys.filter (on x)).map (Prod.mk x)).filter w := by
          simp only [List.filter_map, List.filter_filter]
          congr 1
          apply List.filter_congr
          intro y hy
          have hrow := h x List.mem_cons_self y hy
          by_cases hon : on x y = true <;> by_cases hw : w (x, y) = true
          · simp [hon, hw, (hrow hon hw).2]
          all_goals simp [hon, hw]
        rw [List.filter_cons_of_pos ha, join_cons, join_cons, List.filter_append,
          List.filter_append, htail, hhead]
      · have hnone : ((ys.filter (on x)).map (Prod.mk x)).filter w = [] := by
          rw [List.filter_eq_nil_iff]
          intro p hp hw
          obtain ⟨y, hy, rfl⟩ := List.mem_map.mp hp
          obtain ⟨hy, hon⟩ := List.mem_filter.mp hy
          exact ha (h x List.mem_cons_self y hy hon hw).1
        rw [List.filter_cons_of_neg ha, join_cons, List.filter_append, hnone, htail,
          List.nil_append]

end Select
