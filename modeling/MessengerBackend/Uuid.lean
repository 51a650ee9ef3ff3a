/-
  The `uuid` column type: PostgreSQL's input and output conversions.

  `uuidIn` is `string_to_uuid`: 32 hexadecimal digits of either case, an optional hyphen
  after every second byte, optional braces around the whole. `uuidOut` is the canonical
  lower-case form, the text every `RETURNING id` and every token carries. They are inverse
  in one direction only (`uuidIn_uuidOut`): many spellings denote one id.
-/
import Mathlib.Data.List.Basic

namespace MessengerBackend

/-- Sixteen bytes, as the thirty-two digits that spell them. -/
structure Uuid where
  digits : List (Fin 16)
  len : digits.length = 32
deriving DecidableEq

namespace Uuid

/-- One digit thirty-two times. -/
def repeated (d : Fin 16) : Uuid := ⟨List.replicate 32 d, List.length_replicate⟩

/-- The nil UUID. -/
def zero : Uuid := repeated ⟨0, by decide⟩

/-- `isxdigit` and `strtoul(_, 16)` on one character. -/
def hexDigit (c : Char) : Option (Fin 16) :=
  if '0' ≤ c ∧ c ≤ '9' then some (Fin.ofNat 16 (c.toNat - 48))
  else if 'a' ≤ c ∧ c ≤ 'f' then some (Fin.ofNat 16 (c.toNat - 87))
  else if 'A' ≤ c ∧ c ≤ 'F' then some (Fin.ofNat 16 (c.toNat - 55))
  else none

def hexChar (d : Fin 16) : Char :=
  if d.val < 10 then Char.ofNat (48 + d.val) else Char.ofNat (87 + d.val)

theorem hexDigit_hexChar : ∀ d, hexDigit (hexChar d) = some d := by decide

theorem hexChar_ne_hyphen : ∀ d, hexChar d ≠ '-' := by decide

theorem hexChar_ne_brace : ∀ d, hexChar d ≠ '{' := by decide

theorem hexChar_ne_nul : ∀ d, hexChar d ≠ '\x00' := by decide

/-! ## Input -/

/-- With `k` bytes left, a hyphen may be skipped after an even, positive number of them. -/
def skipHyphen (k : Nat) : List Char → List Char
  | '-' :: cs => if k % 2 = 0 ∧ 0 < k then cs else '-' :: cs
  | cs => cs

/-- The loop of `string_to_uuid` for the last `k` bytes: their digits and what follows. -/
def inBytes : Nat → List Char → Option (List (Fin 16) × List Char)
  | 0, cs => some ([], cs)
  | k + 1, a :: b :: cs =>
      match hexDigit a, hexDigit b, inBytes k (skipHyphen k cs) with
      | some x, some y, some (ds, rest) => some (x :: y :: ds, rest)
      | _, _, _ => none
  | _ + 1, _ => none

def ofDigits (ds : List (Fin 16)) : Option Uuid :=
  if h : ds.length = 32 then some ⟨ds, h⟩ else none

/-- `uuid_in`: `none` is "invalid input syntax for type uuid". -/
def uuidIn (s : String) : Option Uuid :=
  match s.toList with
  | '{' :: cs =>
      match inBytes 16 cs with
      | some (ds, ['}']) => ofDigits ds
      | _ => none
  | cs =>
      match inBytes 16 cs with
      | some (ds, []) => ofDigits ds
      | _ => none

/-! ## Output -/

/-- `uuid_out` writes a hyphen when 12, 10, 8 or 6 bytes are left. -/
def outHyphen (k : Nat) : Bool := k == 12 || k == 10 || k == 8 || k == 6

def outBytes : Nat → List (Fin 16) → List Char
  | k + 1, a :: b :: ds =>
      hexChar a :: hexChar b :: (if outHyphen k then '-' :: outBytes k ds else outBytes k ds)
  | _, _ => []

def uuidOut (u : Uuid) : String := String.ofList (outBytes 16 u.digits)

theorem outBytes_head (k : Nat) (ds : List (Fin 16)) (c : Char) (cs : List Char)
    (h : outBytes k ds = c :: cs) : ∃ d, c = hexChar d := by
  match k, ds with
  | 0, _ => simp [outBytes] at h
  | _ + 1, [] => simp [outBytes] at h
  | _ + 1, [_] => simp [outBytes] at h
  | k + 1, a :: b :: ds =>
      simp only [outBytes, List.cons.injEq] at h
      exact ⟨a, h.1.symm⟩

theorem skipHyphen_outBytes (k : Nat) (ds : List (Fin 16)) :
    skipHyphen k (outBytes k ds) = outBytes k ds := by
  cases h : outBytes k ds with
  | nil => rfl
  | cons c cs =>
      obtain ⟨d, rfl⟩ := outBytes_head k ds c cs h
      have := hexChar_ne_hyphen d
      unfold skipHyphen
      split
      · rename_i heq
        exact absurd (List.cons.inj heq).1 this
      · rfl

theorem inBytes_outBytes (k : Nat) (ds : List (Fin 16)) (h : ds.length = 2 * k) :
    inBytes k (outBytes k ds) = some (ds, []) := by
  induction k generalizing ds with
  | zero =>
      have : ds = [] := List.eq_nil_of_length_eq_zero h
      simp [this, outBytes, inBytes]
  | succ k ih =>
      match ds, h with
      | a :: b :: ds, h =>
          have hd : ds.length = 2 * k := by simp only [List.length_cons] at h; omega
          simp only [outBytes, inBytes, hexDigit_hexChar]
          have hskip : skipHyphen k (if outHyphen k then '-' :: outBytes k ds else outBytes k ds)
              = outBytes k ds := by
            by_cases hk : outHyphen k = true
            · have : k % 2 = 0 ∧ 0 < k := by
                simp only [outHyphen, Bool.or_eq_true, beq_iff_eq] at hk
                omega
              simp [hk, skipHyphen, this]
            · simp only [hk]
              exact skipHyphen_outBytes k ds
          rw [hskip, ih ds hd]
      | [], h => simp at h
      | [_], h => simp at h; omega

/-- Reading the canonical form gives the id back. -/
theorem uuidIn_uuidOut (u : Uuid) : uuidIn (uuidOut u) = some u := by
  have hin := inBytes_outBytes 16 u.digits u.len
  have hout : (uuidOut u).toList = outBytes 16 u.digits := String.toList_ofList
  unfold uuidIn
  rw [hout]
  split
  · rename_i cs heq
    obtain ⟨d, hd⟩ := outBytes_head 16 u.digits '{' cs heq
    exact absurd hd.symm (hexChar_ne_brace d)
  · rw [hin]
    simp [ofDigits, u.len]

theorem mem_outBytes {k : Nat} {ds : List (Fin 16)} {c : Char} (h : c ∈ outBytes k ds) :
    c = '-' ∨ ∃ d, c = hexChar d := by
  induction k generalizing ds with
  | zero => simp [outBytes] at h
  | succ k ih =>
      match ds with
      | [] => simp [outBytes] at h
      | [_] => simp [outBytes] at h
      | a :: b :: ds =>
          simp only [outBytes, List.mem_cons] at h
          rcases h with rfl | rfl | h
          · exact Or.inr ⟨a, rfl⟩
          · exact Or.inr ⟨b, rfl⟩
          · split at h
            · rcases List.mem_cons.mp h with rfl | h
              · exact Or.inl rfl
              · exact ih h
            · exact ih h

theorem outBytes_ne_nul (k : Nat) (ds : List (Fin 16)) : ∀ c ∈ outBytes k ds, c ≠ '\x00' := by
  intro c hc
  rcases mem_outBytes hc with rfl | ⟨d, rfl⟩
  · decide
  · exact hexChar_ne_nul d

theorem uuidOut_ne_empty (u : Uuid) : uuidOut u ≠ "" := by
  intro h
  have hin := uuidIn_uuidOut u
  rw [h] at hin
  cases hin

end Uuid

end MessengerBackend
