/-
  Library: a finite map, as a list of entries with distinct keys.

  `Assoc κ α` is Mathlib's `AList` for values of one type. Its two laws of `lookup` after
  `insert` and `erase` are stated here with one `if` for all keys, and `size` counts the
  entries. `mem_keys_iff` says which keys are there. Names nothing of the server.
-/
import Mathlib.Data.List.AList

abbrev Assoc (κ α : Type) := AList (fun _ : κ => α)

namespace Assoc

variable {κ α : Type} [DecidableEq κ]

theorem lookup_insert (m : Assoc κ α) (k : κ) (a : α) (k' : κ) :
    (AList.insert k a m).lookup k' = if k' = k then some a else m.lookup k' := by
  split
  · rename_i hk
    subst hk
    exact AList.lookup_insert m
  · rename_i hk
    exact AList.lookup_insert_ne hk

theorem lookup_erase (m : Assoc κ α) (k k' : κ) :
    (AList.erase k m).lookup k' = if k' = k then none else m.lookup k' := by
  split
  · rename_i hk
    subst hk
    exact AList.lookup_erase _ m
  · rename_i hk
    exact AList.lookup_erase_ne hk

/-- The number of entries. -/
def size (m : Assoc κ α) : Nat := m.keys.length

theorem mem_keys_iff {m : Assoc κ α} {k : κ} : k ∈ m.keys ↔ ∃ a, m.lookup k = some a := by
  rw [← AList.mem_keys, ← AList.lookup_isSome, Option.isSome_iff_exists]

theorem size_insert_le (m : Assoc κ α) (k : κ) (a : α) :
    size (AList.insert k a m) ≤ size m + 1 := by
  unfold size
  rw [AList.keys_insert, List.length_cons]
  have := m.keys.length_erase_le (a := k)
  omega

/-- Another value for a key that is there. -/
theorem size_insert_of_lookup {m : Assoc κ α} {k : κ} {b : α} (h : m.lookup k = some b) (a : α) :
    size (AList.insert k a m) = size m := by
  have hk : k ∈ m.keys := mem_keys_iff.mpr ⟨b, h⟩
  have hpos := List.length_pos_of_mem hk
  unfold size
  rw [AList.keys_insert, List.length_cons, List.length_erase_of_mem hk]
  omega

theorem size_erase_le (m : Assoc κ α) (k : κ) : size (AList.erase k m) ≤ size m := by
  unfold size
  rw [AList.keys_erase]
  exact m.keys.length_erase_le

end Assoc
