/-
  A message from `encrypt` to `decrypt`, over the wire.

  `encrypt` cuts the tag off the sealed string and keeps it in a field, `serialize` writes the
  ciphertext with its length and the tag behind it, `deserialize` reads both back and
  `decrypt` joins them before it opens (`decryptWire_serialize`). The length field has 32
  bits, so the plaintext has to be shorter than 2^32 bytes.
-/
import MessengerBackend.E2E.Agreement

namespace MessengerBackend.E2E

/-- `decrypt` of what `deserialize` reads. -/
def decryptWire (S : Sodium) (data : Bytes) (key : Block 32) (expectedCounter : UInt64) :
    Except Fault Bytes := do
  let m ← deserialize data
  match decrypt S m key expectedCounter with
  | .ok plaintext => .ok plaintext
  | .error msg => .error (.throws msg)

/-- What is cut off the sealed string is the tag, so the rest is as long as the plaintext. -/
theorem length_ciphertext (S : Sodium) (key : Block 32) (e : EncryptCall) :
    (encrypt S key e).ciphertext.length = e.plaintext.length := by
  have hsealed := congrArg List.length (encrypt_sealed S key e)
  rw [List.length_append, (encrypt S key e).authTag.2, S.length_enc] at hsealed
  omega

/-- Under the key that sealed it a message opens, whatever counter is expected. -/
theorem decrypt_encrypt {S : Sodium} (hS : S.aead.Inverts) (key : Block 32) (e : EncryptCall)
    (c : UInt64) : decrypt S (encrypt S key e) key c = .ok e.plaintext := by
  have hdec : S.aead.dec key (nonceHead (encrypt S key e).nonce) []
      ((encrypt S key e).ciphertext ++ (encrypt S key e).authTag.1) = some e.plaintext := by
    rw [encrypt_sealed]
    exact hS key (nonceHead e.nonce) [] e.plaintext
  unfold decrypt
  rw [hdec]

theorem decryptWire_ok {S : Sodium} {data plaintext : Bytes} {m : EncryptedMessage}
    {key : Block 32} {c : UInt64} (hread : deserialize data = .ok m)
    (hopen : decrypt S m key c = .ok plaintext) : decryptWire S data key c = .ok plaintext := by
  unfold decryptWire
  rw [hread]
  simp only [bind, Except.bind, hopen]

/-- Every plaintext shorter than 2^32 bytes comes back from the wire, and its ciphertext has
    its length. -/
theorem decryptWire_serialize (S : Sodium) (hS : S.aead.Inverts) (key : Block 32)
    (e : EncryptCall) (h : e.plaintext.length < 2 ^ 32) :
    decryptWire S (encrypt S key e).serialize key e.messageCounter = .ok e.plaintext ∧
      (encrypt S key e).ciphertext.length = e.plaintext.length := by
  have hlen := length_ciphertext S key e
  have hread : deserialize (encrypt S key e).serialize = .ok (encrypt S key e) :=
    deserialize_layout _ _ _ _ _ (by rw [hlen]; exact h)
  exact ⟨decryptWire_ok hread (decrypt_encrypt hS key e e.messageCounter), hlen⟩

theorem paperSodium_inverts : paperSodium.aead.Inverts := by
  intro k n a m
  have htag : (paperTag k).length = 16 := by
    unfold paperTag
    rw [List.length_zipWith, List.length_take, List.length_drop, k.2]
    rfl
  have hlen : (m ++ paperTag k).length - 16 = m.length := by
    rw [List.length_append, htag]
    omega
  show (if (m ++ paperTag k).drop ((m ++ paperTag k).length - 16) = paperTag k then
    some ((m ++ paperTag k).take ((m ++ paperTag k).length - 16)) else none) = some m
  rw [hlen, List.drop_left, if_pos rfl, List.take_left]

/-- The greeting, sent and received. -/
theorem decryptWire_serialize_hello :
    decryptWire paperSodium (encrypt paperSodium ones hello).serialize ones 0 =
        .ok hello.plaintext ∧
      (encrypt paperSodium ones hello).ciphertext.length = hello.plaintext.length :=
  decryptWire_serialize paperSodium paperSodium_inverts ones hello (by decide)

end MessengerBackend.E2E
