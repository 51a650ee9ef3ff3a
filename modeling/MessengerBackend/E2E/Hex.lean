/-
  The hex texts of `E2EEncryption`.

  `bytes_to_hex` writes two lower-case digits for each byte. `hex_to_bytes` takes two characters
  at a time, the last of an odd text alone, and leaves each piece to `std::stoi`, which skips
  white space and a sign and stops at what is no digit.

  * `hexToBytes_bytesToHex`: what was written is read back.
  * `bytesToHex_hexToBytes`: a text of pairs of digits is written again in lower case.
  * `hexToBytes_eq_none`: the texts that are refused.
-/
import MessengerBackend.Lib.Stoi
import MessengerBackend.Uuid

namespace MessengerBackend.E2E

open Stoi (digit isSpace)

/-- `std::hex << std::setw(2) << std::setfill('0')` -/
def hexByte (b : UInt8) : List Char :=
  [Uuid.hexChar ⟨b.toNat / 16, by have := b.toNat_lt; omega⟩,
    Uuid.hexChar ⟨b.toNat % 16, by omega⟩]

def bytesToHex (bs : List UInt8) : String := String.ofList (bs.flatMap hexByte)

/-- `static_cast<uint8_t>(std::stoi(byte_str, nullptr, 16))` -/
def hexPiece (byteStr : Bytes) : Option UInt8 := (Stoi.stoi 16 byteStr).map UInt8.ofInt

/-- The loop over `hex.substr(i, 2)`; `none` when `std::stoi` throws. -/
def hexToBytes : Bytes → Option Bytes
  | a :: b :: rest => do
      let byte ← hexPiece [a, b]
      let bytes ← hexToBytes rest
      return byte :: bytes
  | [a] => do
      let byte ← hexPiece [a]
      return [byte]
  | [] => some []

/-! ## What is written -/

/-- The byte of a digit in a text. -/
def hexLetter (d : Fin 16) : UInt8 := UInt8.ofNat (Uuid.hexChar d).toNat

/-- `'0'`..`'9'` and `'a'`..`'f'` -/
def LowerHex (c : Char) : Prop := '0' ≤ c ∧ c ≤ '9' ∨ 'a' ≤ c ∧ c ≤ 'f'

theorem hexChar_fin : ∀ d : Fin 16, String.utf8EncodeChar (Uuid.hexChar d) = [hexLetter d] ∧
    digit 16 (hexLetter d) = some d.val ∧ ('0' ≤ Uuid.hexChar d ∧ Uuid.hexChar d ≤ '9' ∨
      'a' ≤ Uuid.hexChar d ∧ Uuid.hexChar d ≤ 'f') := by
  decide

/-- The two halves of a byte. -/
def high (b : UInt8) : Fin 16 := ⟨b.toNat / 16, by have := b.toNat_lt; omega⟩

def low (b : UInt8) : Fin 16 := ⟨b.toNat % 16, by omega⟩

theorem utf8_bytesToHex (bs : Bytes) :
    utf8 (bytesToHex bs) = bs.flatMap (fun b => [hexLetter (high b), hexLetter (low b)]) := by
  rw [utf8_eq_flatMap, bytesToHex, String.toList_ofList, List.flatMap_assoc]
  congr 1
  funext b
  show String.utf8EncodeChar (Uuid.hexChar (high b)) ++
    (String.utf8EncodeChar (Uuid.hexChar (low b)) ++ []) = _
  rw [(hexChar_fin (high b)).1, (hexChar_fin (low b)).1]
  rfl

theorem length_bytesToHex (bs : Bytes) : (bytesToHex bs).length = 2 * bs.length := by
  rw [bytesToHex, String.length_ofList]
  induction bs with
  | nil => rfl
  | cons b bs ih =>
      rw [List.flatMap_cons, List.length_append, ih, List.length_cons]
      show 2 + _ = _
      omega

theorem lowerHex_bytesToHex {bs : Bytes} : ∀ c ∈ (bytesToHex bs).toList, LowerHex c := by
  intro c hc
  rw [bytesToHex, String.toList_ofList] at hc
  obtain ⟨b, _, hc⟩ := List.mem_flatMap.mp hc
  unfold hexByte at hc
  simp only [List.mem_cons, List.not_mem_nil, or_false] at hc
  rcases hc with rfl | rfl
  · exact (hexChar_fin (high b)).2.2
  · exact (hexChar_fin (low b)).2.2

/-! ## What is read -/

theorem hexPiece_digits {a b : UInt8} {x y : Nat} (hx : digit 16 a = some x)
    (hy : digit 16 b = some y) : hexPiece [a, b] = some (UInt8.ofNat (16 * x + y)) := by
  have hcast : UInt8.ofInt ((16 * x + y : Nat) : Int) = UInt8.ofNat (16 * x + y) := by
    have hx := Stoi.digit_lt hx
    have hy := Stoi.digit_lt hy
    unfold UInt8.ofInt
    congr 1
    omega
  unfold hexPiece
  rw [Stoi.stoi_hex hx hy, Option.map_some, hcast]

theorem hexToBytes_bytesToHex (bs : Bytes) : hexToBytes (utf8 (bytesToHex bs)) = some bs := by
  rw [utf8_bytesToHex]
  induction bs with
  | nil => rfl
  | cons b bs ih =>
      have hbyte : 16 * (high b).val + (low b).val = b.toNat := Nat.div_add_mod b.toNat 16
      have hpiece := hexPiece_digits (hexChar_fin (high b)).2.1 (hexChar_fin (low b)).2.1
      rw [hbyte, UInt8.ofNat_toNat] at hpiece
      rw [List.flatMap_cons, List.cons_append, List.cons_append, List.nil_append, hexToBytes,
        hpiece, ih]
      rfl

/-! ## What is refused -/

/-- No digit in front, and no white space or sign with a digit behind it. -/
def Refused : Bytes → Prop
  | [a] => digit 16 a = none
  | [a, b] => digit 16 a = none ∧ ¬ ((isSpace a = true ∨ a = 43 ∨ a = 45) ∧
      (digit 16 b).isSome = true)
  | _ => False

/-- The pieces of a text. -/
def pieces : Bytes → List Bytes
  | a :: b :: rest => [a, b] :: pieces rest
  | [a] => [[a]]
  | [] => []

theorem hexPiece_one (a : UInt8) : hexPiece [a] = none ↔ Refused [a] := by
  unfold hexPiece Refused
  rw [Stoi.stoi_one, Option.map_eq_none_iff, Option.map_eq_none_iff]

theorem hexPiece_two (a b : UInt8) : hexPiece [a, b] = none ↔ Refused [a, b] := by
  unfold hexPiece Refused
  rw [Option.map_eq_none_iff, ← Option.not_isSome_iff_eq_none, Stoi.stoi_two_isSome, not_or,
    Option.not_isSome_iff_eq_none]

/-- The text is refused with the first piece that is. -/
theorem hexToBytes_eq_none (hex : Bytes) :
    hexToBytes hex = none ↔ ∃ piece ∈ pieces hex, Refused piece := by
  fun_induction hexToBytes hex with
  | case1 a b rest ih =>
      rw [pieces, List.exists_mem_cons_iff, ← ih, ← hexPiece_two]
      cases hexPiece [a, b] <;> cases hexToBytes rest <;> simp
  | case2 a =>
      rw [pieces, List.exists_mem_cons_iff, ← hexPiece_one]
      cases hexPiece [a] <;> simp
  | case3 => simp [pieces]

/-! ## Writing again what was read -/

def lowerByte (b : UInt8) : UInt8 := if 65 ≤ b ∧ b ≤ 90 then b + 32 else b

/-- Pairs of digits. -/
def Proper (hex : Bytes) : Prop := hex.length % 2 = 0 ∧ ∀ b ∈ hex, (digit 16 b).isSome = true

theorem hexLetter_of_digit {b : UInt8} {x : Nat} (h : digit 16 b = some x) :
    ∃ hlt : x < 16, hexLetter ⟨x, hlt⟩ = lowerByte b := by
  have hall := forall_byte (p := fun b => ∀ x ∈ digit 16 b, ∀ hlt : x < 16,
    hexLetter ⟨x, hlt⟩ = lowerByte b) (by decide +kernel) b
  exact ⟨Stoi.digit_lt h, hall x h _⟩

theorem Proper.tail {a b : UInt8} {rest : Bytes} (h : Proper (a :: b :: rest)) : Proper rest := by
  obtain ⟨heven, hdigits⟩ := h
  simp only [List.length_cons] at heven
  exact ⟨by omega, fun c hc => hdigits c (List.mem_cons_of_mem a (List.mem_cons_of_mem b hc))⟩

/-- Two digits are one byte, and its two halves. -/
theorem hexPiece_proper {a b : UInt8} {rest : Bytes} (h : Proper (a :: b :: rest)) :
    ∃ byte, hexPiece [a, b] = some byte ∧ hexLetter (high byte) = lowerByte a ∧
      hexLetter (low byte) = lowerByte b := by
  obtain ⟨x, hx⟩ := Option.isSome_iff_exists.mp (h.2 a (by simp))
  obtain ⟨y, hy⟩ := Option.isSome_iff_exists.mp (h.2 b (by simp))
  obtain ⟨hxlt, hxletter⟩ := hexLetter_of_digit hx
  obtain ⟨hylt, hyletter⟩ := hexLetter_of_digit hy
  have hbyte : (UInt8.ofNat (16 * x + y)).toNat = 16 * x + y :=
    UInt8.toNat_ofNat_of_lt' (show _ < 256 by omega)
  have hhigh : high (UInt8.ofNat (16 * x + y)) = ⟨x, hxlt⟩ := by
    apply Fin.ext
    show (UInt8.ofNat (16 * x + y)).toNat / 16 = x
    omega
  have hlow : low (UInt8.ofNat (16 * x + y)) = ⟨y, hylt⟩ := by
    apply Fin.ext
    show (UInt8.ofNat (16 * x + y)).toNat % 16 = y
    omega
  exact ⟨_, hexPiece_digits hx hy, by rw [hhigh, hxletter], by rw [hlow, hyletter]⟩

theorem bytesToHex_hexToBytes {hex : Bytes} (h : Proper hex) :
    ∃ bs, hexToBytes hex = some bs ∧ 2 * bs.length = hex.length ∧
      utf8 (bytesToHex bs) = hex.map lowerByte := by
  fun_induction hexToBytes hex with
  | case1 a b rest ih =>
      obtain ⟨byte, hpiece, hhigh, hlow⟩ := hexPiece_proper h
      obtain ⟨bs, hbs, hlen, hwritten⟩ := ih h.tail
      refine ⟨byte :: bs, by rw [hpiece, hbs]; rfl, by simp only [List.length_cons]; omega, ?_⟩
      rw [utf8_bytesToHex] at hwritten ⊢
      rw [List.flatMap_cons, hwritten, hhigh, hlow]
      rfl
  | case2 a => exact absurd h.1 (by simp)
  | case3 => exact ⟨[], rfl, rfl, rfl⟩

end MessengerBackend.E2E
