/-
  Library: `std::stoi` of a text and a base.

  White space and a sign are skipped, with base 16 also `0x`, and then the digits count that the
  text begins with; what stands behind them is not looked at. There is an exception (`none`) if
  there is no digit, or the number is no `int`.

  * `stoi_digits`: a text of digits only is its number.
  * `stoi_one`, `stoi_hex`, `stoi_two_isSome`: texts of one and of two bytes, in base 16.

  Names nothing of the server.
-/
import MessengerBackend.Lib.ByteString

namespace Stoi

/-- `isspace` -/
def isSpace (b : UInt8) : Bool := b = 32 || 9 ≤ b && b ≤ 13

/-- `'0'`..`'9'`, and the letters from 10 on. -/
def digitValue (b : UInt8) : Option Nat :=
  if 48 ≤ b ∧ b ≤ 57 then some (b.toNat - 48)
  else if 97 ≤ b ∧ b ≤ 122 then some (b.toNat - 87)
  else if 65 ≤ b ∧ b ≤ 90 then some (b.toNat - 55)
  else none

def digit (base : Nat) (b : UInt8) : Option Nat := (digitValue b).filter (· < base)

/-- The digits that a text begins with. -/
def digits (base : Nat) : Bytes → List Nat
  | [] => []
  | b :: s =>
      match digit base b with
      | some v => v :: digits base s
      | none => []

/-- The number that a text begins with. -/
def number (base : Nat) (s : Bytes) : Option Nat :=
  match digits base s with
  | [] => none
  | ds => some (Nat.ofDigits base ds.reverse)

/-- `0x` is skipped before a digit. -/
def skip0x (base : Nat) (s : Bytes) : Bytes :=
  match s with
  | 48 :: x :: rest => if base = 16 ∧ (x = 120 ∨ x = 88) ∧ digits 16 rest ≠ [] then rest else s
  | _ => s

def signed (base : Nat) : Bytes → Option Int
  | 45 :: rest => (number base (skip0x base rest)).map (fun n : Nat => -(n : Int))
  | 43 :: rest => (number base (skip0x base rest)).map Nat.cast
  | rest => (number base (skip0x base rest)).map Nat.cast

def stoi (base : Nat) (s : Bytes) : Option Int :=
  (signed base (s.dropWhile isSpace)).filter (fun n => -2 ^ 31 ≤ n && n < 2 ^ 31)

section Parts

variable {base : Nat} {b : UInt8} {s : Bytes} {z : Int}

theorem digit_lt {v : Nat} (h : digit base b = some v) : v < base := by
  unfold digit at h
  simpa using (Option.filter_eq_some_iff.mp h).2

theorem number_of_digits {ds : List Nat} (h : digits base s = ds) (hne : ds ≠ []) :
    number base s = some (Nat.ofDigits base ds.reverse) := by
  unfold number
  rw [h]
  cases ds with
  | nil => exact absurd rfl hne
  | cons d ds => rfl

theorem number_none (h : digit base b = none) : number base (b :: s) = none := by
  unfold number digits
  rw [h]

/-- The sign is looked for in front of the text. -/
theorem signed_plain (hplus : b ≠ 43) (hminus : b ≠ 45) :
    signed base (b :: s) = (number base (skip0x base (b :: s))).map Nat.cast := by
  unfold signed
  split
  · rename_i heq
    exact absurd (List.cons.inj heq).1 hminus
  · rename_i heq
    exact absurd (List.cons.inj heq).1 hplus
  · rfl

theorem stoi_of_signed (hsigned : signed base (s.dropWhile isSpace) = some z) (hlow : -2 ^ 31 ≤ z)
    (hhigh : z < 2 ^ 31) : stoi base s = some z := by
  unfold stoi
  rw [hsigned, Option.filter_some, if_pos]
  simp only [Bool.and_eq_true, decide_eq_true_eq]
  exact ⟨hlow, hhigh⟩

theorem stoi_of_none (hsigned : signed base (s.dropWhile isSpace) = none) :
    stoi base s = none := by
  unfold stoi
  rw [hsigned, Option.filter_none]

/-- A digit is neither white space nor a sign. -/
theorem plain_of_digit {v : Nat} (h : digit base b = some v) :
    isSpace b = false ∧ b ≠ 43 ∧ b ≠ 45 := by
  have hvalue := forall_byte (p := fun b => (digitValue b).isSome = true →
    isSpace b = false ∧ b ≠ 43 ∧ b ≠ 45) (by decide +kernel) b
  exact hvalue (Option.isSome_iff_exists.mpr ⟨v, (Option.filter_eq_some_iff.mp h).1⟩)

end Parts

/-! ## Digits only -/

theorem skip0x_ten (s : Bytes) : skip0x 10 s = s := by
  unfold skip0x
  split
  · exact if_neg (fun h => absurd h.1 (by decide))
  · rfl

theorem digit_decimal {b : UInt8} (h : 48 ≤ b ∧ b ≤ 57) : digit 10 b = some (b.toNat - 48) := by
  have hle : b.toNat ≤ 57 := h.2
  unfold digit digitValue
  rw [if_pos h, Option.filter_some, if_pos (by simp; omega)]

theorem digits_decimal {s : Bytes} (h : ∀ b ∈ s, 48 ≤ b ∧ b ≤ 57) :
    digits 10 s = s.map (fun b => b.toNat - 48) := by
  induction s with
  | nil => rfl
  | cons b s ih =>
      rw [digits, digit_decimal (h b List.mem_cons_self),
        ih (fun c hc => h c (List.mem_cons_of_mem b hc))]
      rfl

/-- The number that a text of decimal digits stands for. -/
def decimal (s : Bytes) : Nat := Nat.ofDigits 10 (s.map (fun b => b.toNat - 48)).reverse

theorem stoi_decimal {s : Bytes} (hne : s ≠ []) (h : ∀ b ∈ s, 48 ≤ b ∧ b ≤ 57) :
    stoi 10 s = if decimal s < 2 ^ 31 then some (decimal s : Int) else none := by
  cases s with
  | nil => exact absurd rfl hne
  | cons b s =>
      obtain ⟨hspace, hplus, hminus⟩ := plain_of_digit (digit_decimal (h b List.mem_cons_self))
      have hdrop : (b :: s).dropWhile isSpace = b :: s :=
        List.dropWhile_cons_of_neg (by simp [hspace])
      have hnumber : number 10 (b :: s) = some (decimal (b :: s)) :=
        number_of_digits (digits_decimal h) (by simp)
      have hsigned : signed 10 ((b :: s).dropWhile isSpace) = some (decimal (b :: s) : Int) := by
        rw [hdrop, signed_plain hplus hminus, skip0x_ten, hnumber]
        rfl
      by_cases hmax : decimal (b :: s) < 2 ^ 31
      · rw [if_pos hmax]
        exact stoi_of_signed hsigned (by omega) (by omega)
      · rw [if_neg hmax]
        unfold stoi
        rw [hsigned, Option.filter_some, if_neg (by simp; omega)]

theorem stoi_digits {s : Bytes} (hne : s ≠ []) (h : ∀ b ∈ s, 48 ≤ b ∧ b ≤ 57)
    (hmax : decimal s < 2 ^ 31) : stoi 10 s = some (decimal s : Int) := by
  rw [stoi_decimal hne h, if_pos hmax]

/-! ## One and two bytes -/

section Short

variable {a b : UInt8} {s : Bytes} {x y : Nat}

theorem skip0x_short (h : s.length ≤ 2) : skip0x 16 s = s := by
  unfold skip0x
  split
  · rename_i x rest
    have hrest : rest = [] := by
      simp only [List.length_cons] at h
      exact List.length_eq_zero_iff.mp (by omega)
    rw [hrest]
    exact if_neg (fun h => h.2.2 rfl)
  · rfl

theorem number_one : number 16 [b] = digit 16 b := by
  cases h : digit 16 b with
  | none => exact number_none h
  | some y =>
      have hdigits : digits 16 [b] = [y] := by
        unfold digits
        rw [h]
        rfl
      rw [number_of_digits hdigits (by simp)]
      simp

theorem number_two (hx : digit 16 a = some x) (hy : digit 16 b = some y) :
    number 16 [a, b] = some (16 * x + y) := by
  have hdigits : digits 16 [a, b] = [x, y] := by
    unfold digits digits
    rw [hx, hy]
    rfl
  rw [number_of_digits hdigits (by simp)]
  simp [Nat.ofDigits_cons]
  omega

/-- The text begins with a digit. -/
theorem stoi_number {n : Nat} (hx : digit 16 a = some x) (hlen : (a :: s).length ≤ 2)
    (hn : number 16 (a :: s) = some n) (hmax : n < 2 ^ 31) : stoi 16 (a :: s) = some (n : Int) := by
  obtain ⟨hspace, hplus, hminus⟩ := plain_of_digit hx
  have hdrop : (a :: s).dropWhile isSpace = a :: s := List.dropWhile_cons_of_neg (by simp [hspace])
  refine stoi_of_signed ?_ (by omega) (by omega)
  rw [hdrop, signed_plain hplus hminus, skip0x_short hlen, hn]
  rfl

theorem stoi_space (h : isSpace a = true) : stoi 16 (a :: s) = stoi 16 s := by
  unfold stoi
  rw [List.dropWhile_cons_of_pos h]

/-- Neither a digit nor what may stand in front of one. -/
theorem stoi_other (hx : digit 16 a = none) (hlen : (a :: s).length ≤ 2)
    (hplain : ¬ (isSpace a = true ∨ a = 43 ∨ a = 45)) : stoi 16 (a :: s) = none := by
  obtain ⟨hspace, hsign⟩ := not_or.mp hplain
  obtain ⟨hplus, hminus⟩ := not_or.mp hsign
  refine stoi_of_none ?_
  rw [List.dropWhile_cons_of_neg hspace, signed_plain hplus hminus, skip0x_short hlen,
    number_none hx]
  rfl

theorem stoi_one : stoi 16 [a] = (digit 16 a).map Nat.cast := by
  cases hx : digit 16 a with
  | some x =>
      have hlt := digit_lt hx
      exact stoi_number hx (by simp) (number_one.trans hx) (by omega)
  | none =>
      by_cases hfront : isSpace a = true ∨ a = 43 ∨ a = 45
      · rcases hfront with hspace | rfl | rfl
        · rw [stoi_space hspace]
          rfl
        · rfl
        · rfl
      · exact stoi_other hx (by simp) hfront

/-- Behind a sign stands the number, or its negative. -/
theorem signed_sign {base : Nat} (ha : a = 43 ∨ a = 45) : ∃ g : Nat → Int,
    (∀ n : Nat, g n = n ∨ g n = -n) ∧
      ∀ s, signed base (a :: s) = (number base (skip0x base s)).map g := by
  rcases ha with rfl | rfl
  · exact ⟨Nat.cast, fun n => Or.inl rfl, fun s => rfl⟩
  · exact ⟨fun n => -(n : Int), fun n => Or.inr rfl, fun s => rfl⟩

theorem stoi_sign (ha : a = 43 ∨ a = 45) :
    (stoi 16 [a, b]).isSome = (digit 16 b).isSome := by
  have hspace : ¬ isSpace a = true := by
    rcases ha with rfl | rfl <;> decide
  obtain ⟨g, hg, hsigned⟩ := signed_sign ha
  have hz : signed 16 ([a, b].dropWhile isSpace) = (digit 16 b).map g := by
    rw [List.dropWhile_cons_of_neg hspace, hsigned, skip0x_short (by simp), number_one]
  cases hy : digit 16 b with
  | none =>
      rw [hy] at hz
      rw [stoi_of_none hz]
      rfl
  | some y =>
      rw [hy] at hz
      have hlt := digit_lt hy
      have hrange : -2 ^ 31 ≤ g y ∧ g y < 2 ^ 31 := by
        rcases hg y with h | h <;> omega
      rw [stoi_of_signed hz hrange.1 hrange.2]
      rfl

theorem stoi_hex (hx : digit 16 a = some x) (hy : digit 16 b = some y) :
    stoi 16 [a, b] = some ((16 * x + y : Nat) : Int) := by
  have hxlt := digit_lt hx
  have hylt := digit_lt hy
  exact stoi_number hx (by simp) (number_two hx hy) (by omega)

/-- A digit in front is enough; behind white space or a sign the second byte has to be one. -/
theorem stoi_two_isSome : (stoi 16 [a, b]).isSome = true ↔ (digit 16 a).isSome = true ∨
    (isSpace a = true ∨ a = 43 ∨ a = 45) ∧ (digit 16 b).isSome = true := by
  cases hx : digit 16 a with
  | some x =>
      have hxlt := digit_lt hx
      refine iff_of_true ?_ (Or.inl rfl)
      cases hy : digit 16 b with
      | some y => rw [stoi_hex hx hy]; rfl
      | none =>
          have hdigits : digits 16 [a, b] = [x] := by
            unfold digits digits
            rw [hx, hy]
          have hn := number_of_digits hdigits (by simp)
          rw [stoi_number hx (by simp) hn (by simp; omega)]
          rfl
  | none =>
      simp only [Option.isSome_none, Bool.false_eq_true, false_or]
      by_cases hfront : isSpace a = true ∨ a = 43 ∨ a = 45
      · rw [and_iff_right hfront]
        rcases hfront with hspace | rfl | rfl
        · rw [stoi_space hspace, stoi_one, Option.isSome_map]
        · rw [stoi_sign (Or.inl rfl)]
        · rw [stoi_sign (Or.inr rfl)]
      · rw [stoi_other hx (by simp) hfront]
        simp [hfront]

end Short

end Stoi
