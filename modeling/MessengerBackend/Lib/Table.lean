/-
  Library: a relational table as a list of rows with its uniqueness constraints.

  `Keyed α` says when two rows of type `α` violate a PRIMARY KEY or UNIQUE constraint of
  their table (`clash`). A `Table α` is a list of rows no two of which clash, so a state
  that breaks a constraint cannot be written down. The statements:

  * `insert` refuses a row that clashes with a stored one.
  * `upsert` changes the stored rows that clash with the new one (ON CONFLICT DO UPDATE).
  * `modify` changes the rows that match, by a function that keeps their keys.
  * `update` changes the rows that match by any function, and refuses a clash in the result.
  * `erase` removes the rows that match.

  Each has a membership lemma (`mem_insert`, `mem_modify`, `mem_erase`, …) and a lemma for
  the rows a predicate selects that the statement does not touch. `eq_of_clash` is
  uniqueness. Names nothing of the server.
-/
import Mathlib.Data.List.Pairwise
import Mathlib.Data.List.Find

/-- The uniqueness constraints of a table: which two rows may not be stored together. -/
class Keyed (α : Type) where
  clash : α → α → Bool
  symm : ∀ a b, clash a b = clash b a

open Keyed (clash)

structure Table (α : Type) [Keyed α] where
  rows : List α
  distinct : rows.Pairwise (fun a b => clash a b = false)

namespace Table

variable {α : Type} [Keyed α]

instance : Membership α (Table α) := ⟨fun t a => a ∈ t.rows⟩

theorem mem_iff {t : Table α} {a : α} : a ∈ t ↔ a ∈ t.rows := Iff.rfl

@[ext] theorem ext {t u : Table α} (h : t.rows = u.rows) : t = u := by
  cases t; cases u; cases h; rfl

instance [DecidableEq α] : DecidableEq (Table α) := fun t u =>
  decidable_of_iff (t.rows = u.rows) ⟨ext, fun h => h ▸ rfl⟩

def empty : Table α := ⟨[], List.Pairwise.nil⟩

instance : Inhabited (Table α) := ⟨empty⟩

@[simp] theorem rows_empty : (empty : Table α).rows = [] := rfl

/-- The rows a WHERE clause keeps. -/
def select (t : Table α) (p : α → Bool) : List α := t.rows.filter p

theorem mem_select {t : Table α} {p : α → Bool} {a : α} :
    a ∈ t.select p ↔ a ∈ t ∧ p a = true := List.mem_filter

/-- Two stored rows that clash are one row. -/
theorem eq_of_clash {t : Table α} {a b : α} (ha : a ∈ t) (hb : b ∈ t) (h : clash a b = true) :
    a = b := by
  by_contra hne
  have : Std.Symm (fun x y : α => clash x y = false) :=
    ⟨fun x y hxy => by rw [Keyed.symm, hxy]⟩
  have := t.distinct.forall ha hb hne
  rw [this] at h
  cases h

/-- A WHERE clause on a key selects one row at most. -/
theorem length_select_le_one {t : Table α} {p : α → Bool}
    (h : ∀ a b, p a = true → p b = true → clash a b = true) : (t.select p).length ≤ 1 := by
  have hdistinct := t.distinct.filter p
  cases hsel : t.rows.filter p with
  | nil => rw [select, hsel]; exact Nat.zero_le 1
  | cons a rest =>
      cases rest with
      | nil => rw [select, hsel]; exact Nat.le_refl 1
      | cons b rest =>
          rw [hsel] at hdistinct
          have hno := (List.pairwise_cons.mp hdistinct).1 b List.mem_cons_self
          have ha : a ∈ t.rows.filter p := hsel ▸ List.mem_cons_self
          have hb : b ∈ t.rows.filter p := hsel ▸ List.mem_cons_of_mem a List.mem_cons_self
          rw [h a b (List.mem_filter.mp ha).2 (List.mem_filter.mp hb).2] at hno
          cases hno

/-! ## INSERT -/

/-- INSERT: `none` is a unique violation. -/
def insert (t : Table α) (a : α) : Option (Table α) :=
  if h : t.rows.any (clash a) = true then none
  else some ⟨t.rows ++ [a], by
    rw [List.pairwise_append]
    refine ⟨t.distinct, List.pairwise_singleton _ _, ?_⟩
    intro x hx y hy
    rw [List.mem_singleton] at hy
    subst hy
    rw [Keyed.symm]
    by_contra hc
    exact h (List.any_eq_true.mpr ⟨x, hx, by simpa using hc⟩)⟩

theorem insert_rows {t u : Table α} {a : α} (h : t.insert a = some u) :
    u.rows = t.rows ++ [a] := by
  unfold insert at h
  split at h
  · cases h
  · rw [← Option.some.inj h]

theorem mem_insert {t u : Table α} {a b : α} (h : t.insert a = some u) :
    b ∈ u ↔ b ∈ t ∨ b = a := by
  rw [mem_iff, insert_rows h, List.mem_append, List.mem_singleton, mem_iff]

/-- An inserted row clashed with no stored one. -/
theorem insert_fresh {t u : Table α} {a : α} (h : t.insert a = some u) :
    ∀ b ∈ t, clash a b = false := by
  intro b hb
  unfold insert at h
  split at h
  · cases h
  · rename_i hany
    by_contra hc
    exact hany (List.any_eq_true.mpr ⟨b, hb, by simpa using hc⟩)

theorem insert_isSome {t : Table α} {a : α} (h : ∀ b ∈ t, clash a b = false) :
    ∃ u, t.insert a = some u := by
  unfold insert
  split
  · rename_i hany
    obtain ⟨b, hb, hc⟩ := List.any_eq_true.mp hany
    rw [h b hb] at hc
    cases hc
  · exact ⟨_, rfl⟩

/-- A WHERE clause that the new row does not meet selects what it did. -/
theorem select_insert_of_not {t u : Table α} {a : α} {p : α → Bool}
    (h : t.insert a = some u) (hp : p a = false) : u.select p = t.select p := by
  simp [select, insert_rows h, hp]

/-! ## UPDATE -/

/-- UPDATE by a function that keeps every key. -/
def modify (t : Table α) (p : α → Bool) (f : α → α)
    (hf : ∀ a b, clash (f a) b = clash a b) : Table α :=
  ⟨t.rows.map (fun a => if p a then f a else a), by
    rw [List.pairwise_map]
    refine t.distinct.imp ?_
    intro a b hab
    have hr : ∀ x y : α, clash x (f y) = clash x y := by
      intro x y
      rw [Keyed.symm, hf, Keyed.symm]
    split <;> split <;> simp only [hf, hr, hab]⟩

theorem mem_modify {t : Table α} {p : α → Bool} {f : α → α}
    (hf : ∀ a b, clash (f a) b = clash a b) {b : α} :
    b ∈ t.modify p f hf ↔ ∃ a ∈ t, (if p a then f a else a) = b := List.mem_map

/-- A lookup whose WHERE clause `f` does not change finds the changed row. -/
theorem find?_modify {t : Table α} {p q : α → Bool} {f : α → α}
    (hf : ∀ a b, clash (f a) b = clash a b) (hq : ∀ a, q (f a) = q a) :
    (t.modify p f hf).rows.find? q =
      (t.rows.find? q).map (fun a => if p a then f a else a) := by
  have hcomp : ∀ a, q (if p a then f a else a) = q a := by
    intro a
    split
    · exact hq a
    · rfl
  unfold modify
  simp only [List.find?_map]
  congr 1
  exact List.find?_congr (fun a _ => hcomp a)

/-- UPDATE by any function: `none` is a unique violation. -/
def update (t : Table α) (p : α → Bool) (f : α → α) : Option (Table α) :=
  if h : (t.rows.map (fun a => if p a then f a else a)).Pairwise
      (fun a b => clash a b = false) then some ⟨_, h⟩
  else none

/-! ## INSERT … ON CONFLICT DO UPDATE -/

/-- A stored row that clashes with `a` becomes `f` of itself; without one, `a` is added. -/
def upsert (t : Table α) (a : α) (f : α → α) (hf : ∀ a b, clash (f a) b = clash a b) :
    Table α :=
  match t.insert a with
  | some u => u
  | none => t.modify (clash a) f hf

theorem insert_eq_none {t : Table α} {a : α} (h : t.insert a = none) :
    ∃ b ∈ t, clash a b = true := by
  unfold insert at h
  split at h
  · rename_i hany
    exact List.any_eq_true.mp hany
  · cases h

/-! ## DELETE -/

def erase (t : Table α) (p : α → Bool) : Table α :=
  ⟨t.rows.filter (fun a => !p a), t.distinct.filter _⟩

theorem mem_erase {t : Table α} {p : α → Bool} {a : α} :
    a ∈ t.erase p ↔ a ∈ t ∧ p a = false := by
  simp [mem_iff, erase]

/-- A WHERE clause that no erased row meets selects what it did. -/
theorem select_erase_of_disjoint {t : Table α} {p q : α → Bool}
    (h : ∀ a ∈ t, q a = true → p a = false) : (t.erase p).select q = t.select q := by
  simp only [select, erase, List.filter_filter]
  apply List.filter_congr
  intro a ha
  by_cases hq : q a = true
  · simp [hq, h a ha hq]
  · simp [hq]

theorem erase_of_none {t : Table α} {p : α → Bool} (h : ∀ a ∈ t, p a = false) :
    t.erase p = t := by
  apply ext
  exact List.filter_eq_self.mpr (fun a ha => by simp [h a ha])

/-! ## Lookup by the key

  When a table has one key, it is a finite map from keys to rows, and each statement that
  addresses one key is an update of that map. -/

section Lookup

variable {κ : Type} [DecidableEq κ] (key : α → κ)

/-- The row with key `k`. -/
def lookup (t : Table α) (k : κ) : Option α := t.rows.find? (fun a => key a == k)

variable {key}

theorem key_of_lookup {t : Table α} {k : κ} {a : α} (h : t.lookup key k = some a) :
    key a = k := by
  simpa using List.find?_some h

theorem mem_of_lookup {t : Table α} {k : κ} {a : α} (h : t.lookup key k = some a) : a ∈ t :=
  List.mem_of_find?_eq_some h

theorem lookup_eq_none {t : Table α} {k : κ} :
    t.lookup key k = none ↔ ∀ a ∈ t, key a ≠ k := by
  simp [lookup, List.find?_eq_none, mem_iff]

/-- A stored row is what its key looks up. -/
theorem lookup_of_mem {t : Table α} {a : α} (hkey : ∀ a b : α, clash a b = (key a == key b))
    (h : a ∈ t) : t.lookup key (key a) = some a := by
  cases hl : t.lookup key (key a) with
  | none => exact absurd rfl (lookup_eq_none.mp hl a h)
  | some b =>
      have hb := key_of_lookup hl
      rw [eq_of_clash (mem_of_lookup hl) h (by rw [hkey, hb]; simp)]

theorem lookup_erase {t : Table α} (k k' : κ) :
    (t.erase (fun a => key a == k)).lookup key k' =
      if k' = k then none else t.lookup key k' := by
  split
  · rename_i hk
    subst hk
    rw [lookup_eq_none]
    intro a ha
    simpa using (mem_erase.mp ha).2
  · rename_i hk
    unfold lookup erase
    rw [List.find?_filter]
    apply List.find?_congr
    intro a _
    by_cases ha : key a = k'
    · simp [ha, hk]
    · simp [ha]

theorem lookup_modify {t : Table α} {f : α → α} (hf : ∀ a b, clash (f a) b = clash a b)
    (hk : ∀ a, key (f a) = key a) (k k' : κ) :
    (t.modify (fun a => key a == k) f hf).lookup key k' =
      if k' = k then (t.lookup key k').map f else t.lookup key k' := by
  have hfind := find?_modify (t := t) (p := fun a => key a == k) (q := fun a => key a == k')
    hf (fun a => by simp only [hk])
  unfold lookup
  rw [hfind]
  cases hl : t.rows.find? (fun a => key a == k') with
  | none => simp
  | some b =>
      have hb : key b = k' := key_of_lookup (t := t) hl
      by_cases hkk : k' = k <;> simp [hb, hkk]

theorem lookup_upsert {t : Table α} {a : α} {f : α → α}
    (hf : ∀ a b, clash (f a) b = clash a b)
    (hkey : ∀ a b : α, clash a b = (key a == key b)) (hk : ∀ a, key (f a) = key a) (k : κ) :
    (t.upsert a f hf).lookup key k =
      if k = key a then some ((t.lookup key k).elim a f) else t.lookup key k := by
  have hclash : clash a = fun b => key b == key a := by
    funext b
    rw [hkey, Bool.beq_comm]
  unfold upsert
  split
  · rename_i u hu
    have hnone : t.lookup key (key a) = none := by
      rw [lookup_eq_none]
      intro b hb hbk
      have := insert_fresh hu b hb
      rw [hkey, hbk] at this
      simp at this
    have hfind : u.lookup key k = (t.lookup key k).or (if key a = k then some a else none) := by
      unfold lookup
      rw [insert_rows hu, List.find?_append]
      congr 1
      by_cases hka : key a = k <;> simp [hka]
    rw [hfind]
    by_cases hka : k = key a
    · subst hka
      simp [hnone]
    · simp [hka, Ne.symm hka]
  · rename_i hu
    obtain ⟨b, hb, hc⟩ := insert_eq_none hu
    have hbk : key a = key b := by
      rw [hkey] at hc
      simpa using hc
    have hsome := lookup_of_mem hkey hb
    rw [← hbk] at hsome
    simp only [hclash]
    rw [lookup_modify hf hk]
    by_cases hka : k = key a
    · subst hka
      simp [hsome]
    · simp [hka]

end Lookup

end Table
