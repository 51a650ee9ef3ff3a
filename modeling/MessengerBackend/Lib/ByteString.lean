/-
  Library: byte strings, blocks of a fixed length, slices and little-endian integers.

  * `Bytes`: a byte string. `Block n`: one of exactly `n` bytes.
  * `slice d off n`: the `n` bytes from offset `off`, if they all lie inside `d`.
  * `toLE w x`: the `w` low bytes of `x`, least significant first; `ofLE` reads them back
    (`ofLE_toLE`, `toLE_ofLE`).
  * `utf8 s`: the bytes of a text; one below 128 is a character of it (`mem_utf8`). `asText`
    is the text of ASCII bytes.

  Names nothing of the server.
-/
import Mathlib.Data.List.GetD
import Mathlib.Data.Nat.Digits.Defs

abbrev Bytes := List UInt8

/-- A byte string of length `n`. -/
def Block (n : Nat) := { bs : Bytes // bs.length = n }

/-- What 256 cases say of all bytes. -/
theorem forall_byte {p : UInt8 → Prop} (h : ∀ n : Fin 256, p (UInt8.ofNat n)) (b : UInt8) :
    p b := by
  have hb := h ⟨b.toNat, b.toNat_lt⟩
  rwa [UInt8.ofNat_toNat] at hb

/-- The bytes of a text. -/
def utf8 (s : String) : Bytes := s.toUTF8.data.toList

theorem utf8_append (s t : String) : utf8 (s ++ t) = utf8 s ++ utf8 t := by
  unfold utf8
  simp

theorem utf8_injective {s t : String} (h : utf8 s = utf8 t) : s = t := by
  unfold utf8 at h
  rw [← String.toByteArray_inj]
  exact ByteArray.ext (Array.toList_inj.mp h)

theorem utf8_eq_flatMap (s : String) : utf8 s = s.toList.flatMap String.utf8EncodeChar := by
  unfold utf8
  rw [String.toUTF8_eq_toByteArray, ← String.utf8Encode_toList]
  simp [List.utf8Encode]

/-- The bytes of a longer character are all 128 or more. -/
theorem toNat_of_mem_utf8EncodeChar {c : Char} {b : UInt8} (h : b ∈ String.utf8EncodeChar c)
    (hb : b < 128) : c.toNat = b.toNat := by
  have hb : b.toNat < 128 := hb
  have hval : c.val.toNat = c.toNat := rfl
  unfold String.utf8EncodeChar at h
  simp only [] at h
  split at h
  · rw [List.mem_singleton] at h
    subst h
    simp [UInt8.toNat_ofNat']
    omega
  · split at h
    · simp at h
      rcases h with rfl | rfl <;> simp [UInt8.toNat_ofNat'] at hb <;> omega
    · split at h
      · simp at h
        rcases h with rfl | rfl | rfl <;> simp [UInt8.toNat_ofNat'] at hb <;> omega
      · simp at h
        rcases h with rfl | rfl | rfl | rfl <;> simp [UInt8.toNat_ofNat'] at hb <;> omega

theorem mem_utf8 {s : String} {b : UInt8} (h : b ∈ utf8 s) (hb : b < 128) :
    ∃ c ∈ s.toList, c.toNat = b.toNat := by
  rw [utf8_eq_flatMap] at h
  obtain ⟨c, hc, h⟩ := List.mem_flatMap.mp h
  exact ⟨c, hc, toNat_of_mem_utf8EncodeChar h hb⟩

/-- An ASCII character is one byte. -/
theorem mem_utf8_of_lt {s : String} {c : Char} (h : c ∈ s.toList) (hc : c.toNat < 128) :
    UInt8.ofNat c.toNat ∈ utf8 s := by
  have hval : c.val.toNat = c.toNat := rfl
  rw [utf8_eq_flatMap]
  refine List.mem_flatMap.mpr ⟨c, h, ?_⟩
  simp only [String.utf8EncodeChar, hval]
  rw [if_pos (by omega)]
  exact List.mem_singleton.mpr rfl

theorem utf8_intercalate (ws : List String) :
    utf8 (" ".intercalate ws) = [32].intercalate (ws.map utf8) := by
  induction ws with
  | nil =>
      rw [String.intercalate_nil]
      rfl
  | cons w ws ih =>
      cases ws with
      | nil => rw [String.intercalate_singleton, List.map_singleton, List.intercalate_singleton]
      | cons v ws =>
          simp only [List.map_cons] at ih ⊢
          rw [String.intercalate_cons_cons, utf8_append, utf8_append, ih,
            List.intercalate_cons_cons]
          rfl

/-- The text of ASCII bytes. -/
def asText (bs : Bytes) : String := String.ofList (bs.map (fun b => Char.ofNat b.toNat))

theorem utf8_asText {bs : Bytes} (h : ∀ b ∈ bs, b < 128) : utf8 (asText bs) = bs := by
  have hchar : ∀ b ∈ bs, String.utf8EncodeChar (Char.ofNat b.toNat) = [b] := by
    intro b hb
    have hlt : b.toNat < 128 := h b hb
    have hvalid : b.toNat.isValidChar := Or.inl (by omega)
    have hval : (Char.ofNat b.toNat).val.toNat = b.toNat := by
      unfold Char.ofNat
      rw [dif_pos hvalid]
      rfl
    simp only [String.utf8EncodeChar, hval]
    rw [if_pos (by omega), UInt8.ofNat_toNat]
  rw [utf8_eq_flatMap, asText, String.toList_ofList, List.flatMap_map]
  rw [List.flatMap_def, List.map_congr_left hchar]
  exact List.flatMap_singleton' bs

namespace Block

variable {n : Nat}

instance : DecidableEq (Block n) := inferInstanceAs (DecidableEq { bs : Bytes // bs.length = n })

@[ext] theorem ext {x y : Block n} (h : x.1 = y.1) : x = y := Subtype.ext h

@[simp] theorem length_val (x : Block n) : x.1.length = n := x.2

def zero (n : Nat) : Block n := ⟨List.replicate n 0, List.length_replicate⟩

/-- The first `n` bytes of a longer string. -/
def ofTake (n : Nat) (bs : Bytes) (h : n ≤ bs.length) : Block n :=
  ⟨bs.take n, by rw [List.length_take]; omega⟩

/-- The last `n` bytes of a longer string. -/
def ofEnd (n : Nat) (bs : Bytes) (h : n ≤ bs.length) : Block n :=
  ⟨bs.drop (bs.length - n), by rw [List.length_drop]; omega⟩

/-- The first bytes of a string, padded with zeros to length `n`. -/
def pad (n : Nat) (bs : Bytes) : Block n :=
  ⟨bs.take n ++ List.replicate (n - bs.length) 0, by
    rw [List.length_append, List.length_take, List.length_replicate]; omega⟩

/-- Byte by byte, with 0 for those that the string does not have. -/
theorem getD_pad {i : Nat} (h : i < n) (bs : Bytes) : (pad n bs).1.getD i 0 = bs.getD i 0 := by
  show (bs.take n ++ List.replicate (n - bs.length) 0).getD i 0 = bs.getD i 0
  by_cases hi : i < bs.length
  · rw [List.getD_append _ _ _ _ (by simp; omega)]
    simp [List.getD_eq_getElem?_getD, h]
  · have htake : bs.take n = bs := List.take_of_length_le (by omega)
    rw [htake, List.getD_append_right _ _ _ _ (by omega), List.getD_eq_default bs 0 (by omega)]
    exact List.getD_replicate 0 (by omega)

theorem ext_getD {x y : Block n} (h : ∀ i < n, x.1.getD i 0 = y.1.getD i 0) : x = y := by
  apply Block.ext
  apply List.ext_getElem (by simp)
  intro i hi hi'
  have hget := h i (by simpa using hi)
  rwa [List.getD_eq_getElem _ _ hi, List.getD_eq_getElem _ _ hi'] at hget

/-- Two blocks one after the other. -/
def append {m : Nat} (x : Block n) (y : Block m) : Block (n + m) :=
  ⟨x.1 ++ y.1, by rw [List.length_append, x.2, y.2]⟩

end Block

namespace Bytes

/-! ## Slices -/

/-- The `n` bytes of `d` from `off`, or `none` when one of them is outside. -/
def slice (d : Bytes) (off n : Nat) : Option (Block n) :=
  if h : off + n ≤ d.length then
    some ⟨(d.drop off).take n, by rw [List.length_take, List.length_drop]; omega⟩
  else none

theorem slice_eq_none {d : Bytes} {off n : Nat} : slice d off n = none ↔ d.length < off + n := by
  unfold slice
  split
  · simp; omega
  · simp; omega

theorem slice_val {d : Bytes} {off n : Nat} {x : Block n} (h : slice d off n = some x) :
    x.1 = (d.drop off).take n := by
  unfold slice at h
  split at h
  · rw [← Option.some.inj h]
  · cases h

/-- What stands between a prefix and a suffix is the slice at the prefix's length. -/
theorem slice_append {a c : Bytes} {n off : Nat} (x : Block n) (h : a.length = off) :
    slice (a ++ (x.1 ++ c)) off n = some x := by
  unfold slice
  rw [dif_pos (by simp only [List.length_append, x.2]; omega)]
  congr 1
  apply Block.ext
  show ((a ++ (x.1 ++ c)).drop off).take n = x.1
  rw [List.drop_left' h, List.take_left' x.2]

/-! ## Little-endian integers -/

/-- The `w` low bytes of `x`. -/
def toLE : Nat → Nat → Bytes
  | 0, _ => []
  | w + 1, x => UInt8.ofNat x :: toLE w (x / 256)

def ofLE (bs : Bytes) : Nat := Nat.ofDigits 256 (bs.map UInt8.toNat)

theorem ofLE_cons (b : UInt8) (bs : Bytes) : ofLE (b :: bs) = b.toNat + 256 * ofLE bs := by
  unfold ofLE
  rw [List.map_cons, Nat.ofDigits_cons]

theorem length_toLE (w x : Nat) : (toLE w x).length = w := by
  induction w generalizing x with
  | zero => rfl
  | succ w ih => rw [toLE, List.length_cons, ih]

theorem ofLE_lt (bs : Bytes) : ofLE bs < 256 ^ bs.length := by
  have hlt := Nat.ofDigits_lt_base_pow_length (b := 256) (l := bs.map UInt8.toNat) (by omega) ?_
  · rwa [List.length_map] at hlt
  · intro x hx
    obtain ⟨b, _, rfl⟩ := List.mem_map.mp hx
    exact b.toNat_lt

theorem ofLE_toLE (w x : Nat) : ofLE (toLE w x) = x % 256 ^ w := by
  induction w generalizing x with
  | zero => rw [Nat.pow_zero, Nat.mod_one]; rfl
  | succ w ih =>
      have hb : (UInt8.ofNat x).toNat = x % 256 := UInt8.toNat_ofNat'
      rw [toLE, ofLE_cons, ih, hb, Nat.pow_succ', Nat.mod_mul]

theorem toLE_ofLE (bs : Bytes) : toLE bs.length (ofLE bs) = bs := by
  induction bs with
  | nil => rfl
  | cons b bs ih =>
      have hb : b.toNat < 256 := b.toNat_lt
      have hdiv : (b.toNat + 256 * ofLE bs) / 256 = ofLE bs := by omega
      have hlow : UInt8.ofNat (b.toNat + 256 * ofLE bs) = b := by
        apply UInt8.toNat_inj.mp
        rw [UInt8.toNat_ofNat']
        omega
      rw [List.length_cons, ofLE_cons, toLE, hdiv, hlow, ih]

end Bytes

namespace Block

/-- A 64-bit integer in memory. -/
def ofUInt64 (x : UInt64) : Block 8 := ⟨Bytes.toLE 8 x.toNat, Bytes.length_toLE 8 _⟩

/-- The 64-bit integer that 8 bytes of memory hold. -/
def toUInt64 (x : Block 8) : UInt64 := UInt64.ofNat (Bytes.ofLE x.1)

theorem toUInt64_ofUInt64 (x : UInt64) : (ofUInt64 x).toUInt64 = x := by
  unfold ofUInt64 toUInt64
  rw [Bytes.ofLE_toLE, Nat.mod_eq_of_lt (by have := x.toNat_lt; omega), UInt64.ofNat_toNat]

theorem ofUInt64_toUInt64 (x : Block 8) : ofUInt64 x.toUInt64 = x := by
  have hlt := Bytes.ofLE_lt x.1
  rw [x.2] at hlt
  apply Block.ext
  show Bytes.toLE 8 (UInt64.ofNat (Bytes.ofLE x.1)).toNat = x.1
  have hle := Bytes.toLE_ofLE x.1
  rw [x.2] at hle
  rw [UInt64.toNat_ofNat_of_lt' (by omega), hle]

end Block
