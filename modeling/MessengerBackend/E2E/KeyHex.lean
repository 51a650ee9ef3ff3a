/-
  A key pair as two hex texts.

  `from_hex` reads both texts and copies what it got into two arrays of 32 bytes that nothing
  has initialised. The copy takes the smaller of the two sizes: bytes past the 32nd are dropped,
  and a short text leaves the rest of the array as it was.

  * `hex_round_trip`: what `bytes_to_hex` wrote is read back, for any bytes and for a key pair.
  * `hex_validated_iff`: the texts that are either thrown out or meant. Between the two stand a
    lone digit, a sign or white space before a digit, anything at all behind one, and keys that
    are too short or too long.
-/
import MessengerBackend.E2E.Ratchet
import MessengerBackend.E2E.Hex

namespace MessengerBackend.E2E

open Stoi (digit)

theorem length_copyInto {n : Nat} (dst : Block n) (src : Bytes) :
    (src.take n ++ dst.1.drop src.length).length = n := by
  rw [List.length_append, List.length_take, List.length_drop, dst.2]
  omega

/-- `std::memcpy(dst, src, std::min(src.size(), n))` -/
def copyInto {n : Nat} (dst : Block n) (src : Bytes) : Block n :=
  ⟨src.take n ++ dst.1.drop src.length, length_copyInto dst src⟩

namespace KeyPair

def publicKeyHex (kp : KeyPair) : String := bytesToHex kp.publicKey.1

/-- `kp` is the object before the copies, which holds what was on the stack. -/
def fromHex (kp : KeyPair) (publicHex privateHex : Bytes) : Option KeyPair := do
  let pubBytes ← hexToBytes publicHex
  let privBytes ← hexToBytes privateHex
  return ⟨copyInto kp.publicKey pubBytes, copyInto kp.privateKey privBytes⟩

variable {init : KeyPair} {p q : Bytes}

theorem fromHex_eq_none :
    fromHex init p q = none ↔ hexToBytes p = none ∨ hexToBytes q = none := by
  unfold fromHex
  cases hexToBytes p <;> cases hexToBytes q <;> simp

/-- Nothing is left of the object before. -/
theorem fromHex_blocks {pk sk : Block 32} (hp : hexToBytes p = some pk.1)
    (hq : hexToBytes q = some sk.1) : fromHex init p q = some ⟨pk, sk⟩ := by
  have hcopy (dst src : Block 32) : copyInto dst src.1 = src := by
    apply Block.ext
    show src.1.take 32 ++ dst.1.drop src.1.length = src.1
    rw [List.take_of_length_le (by simp), List.drop_of_length_le (by simp), List.append_nil]
  unfold fromHex
  rw [hp, hq]
  show some (KeyPair.mk (copyInto init.publicKey pk.1) (copyInto init.privateKey sk.1)) = _
  rw [hcopy, hcopy]

end KeyPair

/-- Bytes come back from their hex text, which has two lower-case digits for each, and so does a
    key pair, whatever the object held. -/
theorem hex_round_trip (bs : Bytes) (kp init : KeyPair) :
    (hexToBytes (utf8 (bytesToHex bs)) = some bs ∧
      (bytesToHex bs).length = 2 * bs.length ∧ ∀ c ∈ (bytesToHex bs).toList, LowerHex c) ∧
    KeyPair.fromHex init (utf8 kp.publicKeyHex) (utf8 (bytesToHex kp.privateKey.1)) =
      some kp := by
  refine ⟨⟨hexToBytes_bytesToHex bs, length_bytesToHex bs, lowerHex_bytesToHex⟩, ?_⟩
  exact KeyPair.fromHex_blocks (hexToBytes_bytesToHex kp.publicKey.1)
    (hexToBytes_bytesToHex kp.privateKey.1)

/-! ## Which texts are validated -/

/-- The text is thrown out, or it is pairs of digits and they are all in the bytes. -/
def HexValidated (hex : Bytes) : Prop :=
  hexToBytes hex = none ∨ Proper hex ∧
    ∃ bs, hexToBytes hex = some bs ∧ utf8 (bytesToHex bs) = hex.map lowerByte

/-- 64 digits. -/
def KeyText (hex : Bytes) : Prop := hex.length = 64 ∧ ∀ b ∈ hex, (digit 16 b).isSome = true

/-- The texts are thrown out, or they are 64 digits each and the key pair is theirs, whatever the
    object held. -/
def KeysValidated (p q : Bytes) : Prop :=
  (∀ init, KeyPair.fromHex init p q = none) ∨
    KeyText p ∧ KeyText q ∧ ∃ kp : KeyPair, (∀ init, KeyPair.fromHex init p q = some kp) ∧
      utf8 kp.publicKeyHex = p.map lowerByte ∧ utf8 (bytesToHex kp.privateKey.1) = q.map lowerByte

/-- There is a piece that is refused. -/
def HasRefused (hex : Bytes) : Prop := ∃ piece ∈ pieces hex, Refused piece

theorem hexValidated_iff (hex : Bytes) : HexValidated hex ↔ Proper hex ∨ HasRefused hex := by
  unfold HexValidated
  rw [hexToBytes_eq_none, or_comm]
  refine or_congr (and_iff_left_of_imp fun hproper => ?_) Iff.rfl
  obtain ⟨bs, hread, _, hwritten⟩ := bytesToHex_hexToBytes hproper
  exact ⟨bs, hread, hwritten⟩

/-- 64 digits are a block. -/
theorem KeyText.read {hex : Bytes} (h : KeyText hex) : ∃ key : Block 32,
    hexToBytes hex = some key.1 ∧ utf8 (bytesToHex key.1) = hex.map lowerByte := by
  obtain ⟨hlen, hdigits⟩ := h
  have hproper : Proper hex := ⟨by rw [hlen], hdigits⟩
  obtain ⟨bs, hread, hbs, hwritten⟩ := bytesToHex_hexToBytes hproper
  exact ⟨⟨bs, by omega⟩, hread, hwritten⟩

theorem keysValidated_iff (p q : Bytes) :
    KeysValidated p q ↔ (KeyText p ∧ KeyText q) ∨ HasRefused p ∨ HasRefused q := by
  have hnone : (∀ init, KeyPair.fromHex init p q = none) ↔ HasRefused p ∨ HasRefused q := by
    unfold HasRefused
    rw [← hexToBytes_eq_none, ← hexToBytes_eq_none]
    exact ⟨fun h => KeyPair.fromHex_eq_none.mp (h ⟨Block.zero 32, Block.zero 32⟩),
      fun h init => KeyPair.fromHex_eq_none.mpr h⟩
  unfold KeysValidated
  rw [hnone, or_comm, ← and_assoc]
  refine or_congr (and_iff_left_of_imp fun hkeys => ?_) Iff.rfl
  obtain ⟨pk, hpk, hpkWritten⟩ := hkeys.1.read
  obtain ⟨sk, hsk, hskWritten⟩ := hkeys.2.read
  exact ⟨⟨pk, sk⟩, fun init => KeyPair.fromHex_blocks hpk hsk, hpkWritten, hskWritten⟩

/-- A text is validated if it is pairs of digits or has a piece that is refused, and no other
    is; of two key texts, both have to be 64 digits or one has such a piece. -/
theorem hex_validated_iff (hex p q : Bytes) :
    (HexValidated hex ↔ Proper hex ∨ HasRefused hex) ∧
    (KeysValidated p q ↔ (KeyText p ∧ KeyText q) ∨ HasRefused p ∨ HasRefused q) :=
  ⟨hexValidated_iff hex, keysValidated_iff p q⟩

/-- One digit is a byte, and a key of one byte is a key with 31 bytes of the stack. -/
theorem lone_digit :
    ¬ HexValidated (utf8 "5") ∧ ¬ KeysValidated (utf8 "05") (utf8 "05") := by
  constructor
  · rintro (hnone | ⟨⟨heven, _⟩, _⟩)
    · exact absurd hnone (by decide)
    · exact absurd heven (by decide)
  · rintro (hnone | ⟨⟨hlen, _⟩, _⟩)
    · exact absurd (KeyPair.fromHex_eq_none.mp (hnone ⟨Block.zero 32, Block.zero 32⟩)) (by decide)
    · exact absurd hlen (by decide)

end MessengerBackend.E2E
