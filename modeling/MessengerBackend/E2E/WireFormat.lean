/-
  `EncryptedMessage::serialize` and `EncryptedMessage::deserialize`.

  [message_id(8)] [timestamp(8)] [nonce(12)] [ciphertext_len(4)] [ciphertext] [auth_tag(16)],
  integers as a little-endian host stores them.

  `deserialize` tests only that the fixed header is there. It then reads the ciphertext and
  the tag wherever the length field says, so a read may leave the buffer. In C++ that is
  undefined; here it is the outcome `outOfBounds`, and every read goes through `readAt`,
  which checks.

  * `deserialize_serialize`: the round trip, for every message whose ciphertext is shorter
    than 2^32 bytes (the length field has 32 bits).
  * `parsesSafely_iff`: the bytes on which `deserialize` refuses or inverts `serialize`
    without leaving the buffer are those shorter than the header and those whose length is
    the one the length field announces. `truncated_tag`: 32 zero bytes are not among them.
-/
import MessengerBackend.Lib.ByteString

namespace MessengerBackend.E2E

/-! ## The record and its encoding -/

structure EncryptedMessage where
  ciphertext : Bytes
  nonce : Block 12
  authTag : Block 16
  messageId : UInt64
  timestamp : UInt64
deriving DecidableEq

/-- `uint32_t cipher_len = ciphertext.size()`. -/
def cipherLen (ciphertext : Bytes) : Nat := ciphertext.length % 2 ^ 32

def EncryptedMessage.serialize (m : EncryptedMessage) : Bytes :=
  (Block.ofUInt64 m.messageId).1 ++ ((Block.ofUInt64 m.timestamp).1 ++ (m.nonce.1 ++
    (Bytes.toLE 4 (cipherLen m.ciphertext) ++ (m.ciphertext ++ m.authTag.1))))

/-! ## The decoder -/

/-- How `deserialize` fails: with an exception, or by reading outside the vector. -/
inductive Fault where
  | throws (msg : String)
  | outOfBounds
deriving DecidableEq

/-- Read `n` bytes of `data` from offset `off`. -/
def readAt (data : Bytes) (off n : Nat) : Except Fault (Block n) :=
  match data.slice off n with
  | some x => .ok x
  | none => .error .outOfBounds

def deserialize (data : Bytes) : Except Fault EncryptedMessage :=
  if data.length < 32 then .error (.throws "Invalid serialized message format")
  else do
    let messageId ← readAt data 0 8
    let timestamp ← readAt data 8 8
    let nonce ← readAt data 16 12
    let len ← readAt data 28 4
    let ciphertext ← readAt data 32 (Bytes.ofLE len.1)
    let authTag ← readAt data (32 + Bytes.ofLE len.1) 16
    return {
      ciphertext := ciphertext.1
      nonce := nonce
      authTag := authTag
      messageId := messageId.toUInt64
      timestamp := timestamp.toUInt64 }

/-! ## Round trip -/

theorem readAt_append (a c : Bytes) {n : Nat} (off : Nat) (x : Block n) (h : a.length = off) :
    readAt (a ++ (x.1 ++ c)) off n = .ok x := by
  unfold readAt
  rw [Bytes.slice_append x h]

theorem ofLE_cipherLen {ciphertext : Bytes} (h : ciphertext.length < 2 ^ 32) :
    Bytes.ofLE (Bytes.toLE 4 (cipherLen ciphertext)) = ciphertext.length := by
  rw [Bytes.ofLE_toLE, cipherLen]
  omega

theorem deserialize_of_reads {data : Bytes} {messageId timestamp : Block 8} {nonce : Block 12}
    {len : Block 4} {ciphertext : Block (Bytes.ofLE len.1)} {authTag : Block 16}
    (hlong : 32 ≤ data.length) (hid : readAt data 0 8 = .ok messageId)
    (htime : readAt data 8 8 = .ok timestamp) (hnonce : readAt data 16 12 = .ok nonce)
    (hlen : readAt data 28 4 = .ok len)
    (hcipher : readAt data 32 (Bytes.ofLE len.1) = .ok ciphertext)
    (htag : readAt data (32 + Bytes.ofLE len.1) 16 = .ok authTag) :
    deserialize data =
      .ok ⟨ciphertext.1, nonce, authTag, messageId.toUInt64, timestamp.toUInt64⟩ := by
  unfold deserialize
  rw [if_neg (by omega), hid, htime, hnonce, hlen]
  simp only [bind, Except.bind, hcipher, htag]
  rfl

/-- The layout of an encoding, read back field by field. -/
theorem deserialize_layout (messageId timestamp : UInt64) (nonce : Block 12) (ciphertext : Bytes)
    (authTag : Block 16) (h : ciphertext.length < 2 ^ 32) :
    deserialize ((Block.ofUInt64 messageId).1 ++ ((Block.ofUInt64 timestamp).1 ++ (nonce.1 ++
        (Bytes.toLE 4 (cipherLen ciphertext) ++ (ciphertext ++ authTag.1))))) =
      .ok ⟨ciphertext, nonce, authTag, messageId, timestamp⟩ := by
  let len : Block 4 := ⟨Bytes.toLE 4 (cipherLen ciphertext), Bytes.length_toLE 4 _⟩
  let cipher : Block (Bytes.ofLE len.1) := ⟨ciphertext, (ofLE_cipherLen h).symm⟩
  set data := (Block.ofUInt64 messageId).1 ++ ((Block.ofUInt64 timestamp).1 ++ (nonce.1 ++
    (Bytes.toLE 4 (cipherLen ciphertext) ++ (ciphertext ++ authTag.1)))) with hdata
  have hlong : 32 ≤ data.length := by
    simp only [hdata, List.length_append, Block.length_val, Bytes.length_toLE]
    omega
  have hid : readAt data 0 8 = .ok (Block.ofUInt64 messageId) :=
    readAt_append [] _ 0 (Block.ofUInt64 messageId) rfl
  have htime : readAt data 8 8 = .ok (Block.ofUInt64 timestamp) :=
    readAt_append _ _ 8 _ (Block.ofUInt64 messageId).2
  have hnonce : readAt data 16 12 = .ok nonce := by
    have := readAt_append ((Block.ofUInt64 messageId).1 ++ (Block.ofUInt64 timestamp).1)
      (len.1 ++ (ciphertext ++ authTag.1)) 16 nonce (by simp)
    simpa [hdata, len] using this
  have hlen : readAt data 28 4 = .ok len := by
    have := readAt_append
      ((Block.ofUInt64 messageId).1 ++ (Block.ofUInt64 timestamp).1 ++ nonce.1)
      (ciphertext ++ authTag.1) 28 len (by simp)
    simpa [hdata, len] using this
  have hcipher : readAt data 32 (Bytes.ofLE len.1) = .ok cipher := by
    have := readAt_append
      ((Block.ofUInt64 messageId).1 ++ (Block.ofUInt64 timestamp).1 ++ nonce.1 ++ len.1)
      authTag.1 32 cipher (by simp)
    simpa [hdata, len, cipher] using this
  have htag : readAt data (32 + Bytes.ofLE len.1) 16 = .ok authTag := by
    have := readAt_append
      ((Block.ofUInt64 messageId).1 ++ (Block.ofUInt64 timestamp).1 ++ nonce.1 ++
        len.1 ++ cipher.1)
      [] (32 + Bytes.ofLE len.1) authTag (by simp; omega)
    simpa [hdata, len, cipher] using this
  rw [deserialize_of_reads hlong hid htime hnonce hlen hcipher htag,
    Block.toUInt64_ofUInt64, Block.toUInt64_ofUInt64]

/-- Every message whose ciphertext length fits the length field comes back in all five
    fields, with every read inside the buffer. -/
theorem deserialize_serialize (m : EncryptedMessage) (h : m.ciphertext.length < 2 ^ 32) :
    deserialize m.serialize = .ok m :=
  deserialize_layout m.messageId m.timestamp m.nonce m.ciphertext m.authTag h

/-- Three bytes of ciphertext, and no two bytes of the nonce or the tag alike. -/
def hey : EncryptedMessage where
  ciphertext := [0x68, 0x65, 0x79]
  nonce := ⟨[1, 2, 3, 4, 5, 6, 7, 8, 9, 10, 11, 12], rfl⟩
  authTag := ⟨[31, 30, 29, 28, 27, 26, 25, 24, 23, 22, 21, 20, 19, 18, 17, 16], rfl⟩
  messageId := 7
  timestamp := 1700000000

theorem deserialize_serialize_hey : deserialize hey.serialize = .ok hey :=
  deserialize_serialize hey (by decide)

/-! ## What is accepted -/

/-- Every read is inside the buffer, and `deserialize` refuses or inverts `serialize`. -/
def ParsesSafely (data : Bytes) : Prop :=
  (∃ msg, deserialize data = .error (.throws msg)) ∨
    ∃ m, deserialize data = .ok m ∧ m.serialize = data

/-- The length field of a buffer. -/
def lenField (data : Bytes) : Nat := Bytes.ofLE ((data.drop 28).take 4)

theorem lenField_lt (data : Bytes) : lenField data < 2 ^ 32 := by
  have hlt := Bytes.ofLE_lt ((data.drop 28).take 4)
  have hlen : ((data.drop 28).take 4).length ≤ 4 := by
    rw [List.length_take]
    omega
  exact lt_of_lt_of_le hlt (Nat.pow_le_pow_right (by omega) hlen)

theorem readAt_ok (data : Bytes) (off n : Nat) (h : off + n ≤ data.length) :
    ∃ x, readAt data off n = .ok x ∧ x.1 = (data.drop off).take n := by
  cases hs : data.slice off n with
  | none =>
      have := Bytes.slice_eq_none.mp hs
      omega
  | some x => exact ⟨x, by rw [readAt, hs], Bytes.slice_val hs⟩

theorem readAt_outOfBounds {data : Bytes} {off n : Nat} (h : data.length < off + n) :
    readAt data off n = .error .outOfBounds := by
  rw [readAt, Bytes.slice_eq_none.mpr h]

/-- A buffer that holds what its length field announces: the message read is the one whose
    encoding is its prefix. -/
theorem deserialize_prefix {data : Bytes} (h : 48 + lenField data ≤ data.length) :
    ∃ m, deserialize data = .ok m ∧ m.serialize = data.take (48 + lenField data) := by
  obtain ⟨messageId, hid, hidv⟩ := readAt_ok data 0 8 (by omega)
  obtain ⟨timestamp, htime, htimev⟩ := readAt_ok data 8 8 (by omega)
  obtain ⟨nonce, hnonce, hnoncev⟩ := readAt_ok data 16 12 (by omega)
  obtain ⟨len, hlen, hlenv⟩ := readAt_ok data 28 4 (by omega)
  have hfield : Bytes.ofLE len.1 = lenField data := by rw [hlenv, lenField]
  obtain ⟨cipher, hcipher, hcipherv⟩ :=
    readAt_ok data 32 (Bytes.ofLE len.1) (by omega)
  obtain ⟨tag, htag, htagv⟩ :=
    readAt_ok data (32 + Bytes.ofLE len.1) 16 (by omega)
  refine ⟨_, deserialize_of_reads (by omega) hid htime hnonce hlen hcipher htag, ?_⟩
  have hback : Bytes.toLE 4 (cipherLen cipher.1) = len.1 := by
    have hlt := lenField_lt data
    have hle := Bytes.toLE_ofLE len.1
    rw [len.2] at hle
    rw [cipherLen, cipher.2, Nat.mod_eq_of_lt (by omega), hle]
  have hsplit : 48 + lenField data = 8 + (8 + (12 + (4 + (lenField data + 16)))) := by omega
  simp only [EncryptedMessage.serialize, Block.ofUInt64_toUInt64, hback]
  rw [hidv, htimev, hnoncev, hcipherv, htagv, hfield, hlenv, hsplit]
  simp only [List.take_add, List.drop_drop, List.drop_zero]

/-- A buffer that does not: a read leaves it. -/
theorem deserialize_outOfBounds {data : Bytes} (hlong : 32 ≤ data.length)
    (h : data.length < 48 + lenField data) : deserialize data = .error .outOfBounds := by
  obtain ⟨messageId, hid, _⟩ := readAt_ok data 0 8 (by omega)
  obtain ⟨timestamp, htime, _⟩ := readAt_ok data 8 8 (by omega)
  obtain ⟨nonce, hnonce, _⟩ := readAt_ok data 16 12 (by omega)
  obtain ⟨len, hlen, hlenv⟩ := readAt_ok data 28 4 (by omega)
  have hfield : Bytes.ofLE len.1 = lenField data := by rw [hlenv, lenField]
  unfold deserialize
  rw [if_neg (by omega), hid, htime, hnonce, hlen]
  simp only [bind, Except.bind]
  rcases Nat.lt_or_ge data.length (32 + Bytes.ofLE len.1) with hshort | hroom
  · rw [readAt_outOfBounds hshort]
  · obtain ⟨cipher, hcipher, _⟩ := readAt_ok data _ _ hroom
    rw [hcipher]
    simp only
    rw [readAt_outOfBounds (by omega)]

/-- `deserialize` parses safely exactly what is shorter than the header and what is as long as
    its length field announces. -/
theorem parsesSafely_iff (data : Bytes) :
    ParsesSafely data ↔ data.length < 32 ∨ data.length = 48 + lenField data := by
  rcases Nat.lt_or_ge data.length 32 with hshort | hlong
  · have hd : deserialize data = .error (.throws "Invalid serialized message format") := by
      rw [deserialize, if_pos hshort]
    exact ⟨fun _ => Or.inl hshort, fun _ => Or.inl ⟨_, hd⟩⟩
  rcases Nat.lt_or_ge data.length (48 + lenField data) with hout | hroom
  · have hd := deserialize_outOfBounds hlong hout
    constructor
    · rintro (⟨msg, hm⟩ | ⟨m, hm, _⟩)
      · rw [hd] at hm
        cases hm
      · rw [hd] at hm
        cases hm
    · omega
  · obtain ⟨m, hd, hm⟩ := deserialize_prefix hroom
    constructor
    · rintro (⟨msg, hm'⟩ | ⟨m', hm', heq⟩)
      · rw [hd] at hm'
        cases hm'
      · rw [hd] at hm'
        cases hm'
        have := congrArg List.length (hm.symm.trans heq)
        rw [List.length_take] at this
        omega
    · rintro (h | h)
      · omega
      · refine Or.inr ⟨m, hd, ?_⟩
        rw [hm, ← h, List.take_length]

/-- A header that announces an empty ciphertext, with no tag behind it. -/
theorem truncated_tag :
    deserialize (List.replicate 32 0) = .error .outOfBounds ∧
      ¬ ParsesSafely (List.replicate 32 0) := by
  have hd : deserialize (List.replicate 32 0) = .error .outOfBounds :=
    deserialize_outOfBounds (by decide) (by decide)
  refine ⟨hd, ?_⟩
  rintro (⟨msg, hm⟩ | ⟨m, hm, _⟩)
  · rw [hd] at hm
    cases hm
  · rw [hd] at hm
    cases hm

end MessengerBackend.E2E
