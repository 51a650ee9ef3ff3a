/-
  What the tag of an `EncryptedMessage` protects.

  `encrypt` passes no additional data, so `message_id` and `timestamp` are outside the tag:
  `decrypt` answers the same whatever they are (`decrypt_metadata`, `altered_timestamp`). What is
  bound is the ciphertext, the tag itself and the part of the nonce the cipher reads: a message
  that agrees in these with no message produced under the key is refused (`decrypt_rejects`).
-/
import MessengerBackend.E2E.Agreement

namespace MessengerBackend.E2E

/-- The sealings of a set of `encrypt` calls under one key. -/
def sealings (key : Block 32) (calls : Set EncryptCall) :
    Set (Aead.Sealing (Block 32) (Block 8) Bytes Bytes) :=
  { x | ∃ e ∈ calls, x = ⟨key, nonceHead e.nonce, [], e.plaintext⟩ }

/-- The cipher is ideal on the one opening that `decrypt` attempts. -/
def IdealOn (S : Sodium) (key : Block 32) (calls : Set EncryptCall) (m : EncryptedMessage) :
    Prop :=
  S.aead.Authentic (sealings key calls) key (nonceHead m.nonce) [] (m.ciphertext ++ m.authTag.1)

/-- The fields under the tag are equal. -/
def SameSealed (m m' : EncryptedMessage) : Prop :=
  m.ciphertext = m'.ciphertext ∧ m.authTag = m'.authTag ∧ nonceHead m.nonce = nonceHead m'.nonce

instance (m m' : EncryptedMessage) : Decidable (SameSealed m m') :=
  inferInstanceAs (Decidable (_ ∧ _ ∧ _))

/-- Every message that equals none of those produced under the key is refused. -/
def RejectsAltered (S : Sodium) (key : Block 32) (calls : Set EncryptCall)
    (m : EncryptedMessage) : Prop :=
  (∀ e ∈ calls, encrypt S key e ≠ m) → ∀ c, ∃ msg, decrypt S m key c = .error msg

/-- Equal sealed strings split into equal ciphertexts and equal tags. -/
theorem sealed_split {c c' : Bytes} {t t' : Block 16} (h : c ++ t.1 = c' ++ t'.1) :
    c = c' ∧ t = t' := by
  have hlen : t.1.length = t'.1.length := by rw [t.2, t'.2]
  obtain ⟨hc, ht⟩ := List.append_inj' h hlen
  exact ⟨hc, Block.ext ht⟩

/-- A message that agrees under the tag with none of those produced is refused. -/
theorem decrypt_rejects {S : Sodium} {key : Block 32} {calls : Set EncryptCall}
    {m : EncryptedMessage} (hi : IdealOn S key calls m)
    (hne : ∀ e ∈ calls, ¬ SameSealed (encrypt S key e) m) (c : UInt64) :
    ∃ msg, decrypt S m key c = .error msg := by
  refine decrypt_error S c (hi.none_of_fresh ?_)
  rintro x ⟨e, he, rfl⟩ _ hnonce _ henc
  rw [← hnonce, ← encrypt_sealed] at henc
  obtain ⟨hc, ht⟩ := sealed_split henc
  exact hne e he ⟨hc, ht, hnonce⟩

/-- The fields outside the tag change nothing. -/
theorem decrypt_metadata (S : Sodium) (m : EncryptedMessage) (key : Block 32)
    (messageId timestamp c : UInt64) :
    decrypt S { m with messageId := messageId, timestamp := timestamp } key c =
      decrypt S m key c := rfl

/-- `decrypt` refuses every message whose ciphertext, tag and cipher nonce are not those of a
    message produced under the key, and does not look at the other fields. -/
theorem sealed_fields_bound (S : Sodium) (key : Block 32) (calls : Set EncryptCall)
    (m : EncryptedMessage) (hi : IdealOn S key calls m) :
    ((∀ e ∈ calls, ¬ SameSealed (encrypt S key e) m) →
        ∀ c, ∃ msg, decrypt S m key c = .error msg) ∧
      ∀ messageId timestamp c,
        decrypt S { m with messageId := messageId, timestamp := timestamp } key c =
          decrypt S m key c :=
  ⟨fun hne c => decrypt_rejects hi hne c, decrypt_metadata S m key⟩

def greeting : EncryptedMessage := encrypt paperSodium ones hello

def forged : EncryptedMessage :=
  { greeting with authTag := ⟨List.replicate 16 7, List.length_replicate⟩ }

/-- A greeting with another tag is refused. -/
theorem sealed_fields_bound_forged : ∃ msg, decrypt paperSodium forged ones 0 = .error msg := by
  have hclosed : paperSodium.aead.dec ones (nonceHead forged.nonce) []
      (forged.ciphertext ++ forged.authTag.1) = none := by decide
  have hideal : IdealOn paperSodium ones { e | e = hello } forged := by
    intro p hp
    cases hclosed.symm.trans hp
  exact (sealed_fields_bound paperSodium ones { e | e = hello } forged hideal).1
    (by rintro e rfl; decide) 0

/-- A greeting with another timestamp is decrypted. -/
theorem altered_timestamp :
    IdealOn paperSodium ones { e | e = hello } { greeting with timestamp := 1 } ∧
      ¬ RejectsAltered paperSodium ones { e | e = hello } { greeting with timestamp := 1 } := by
  have hopen : paperSodium.aead.dec ones (nonceHead greeting.nonce) []
      (greeting.ciphertext ++ greeting.authTag.1) = some hello.plaintext := by decide
  refine ⟨fun p hp => ?_, fun hrejects => ?_⟩
  · cases hopen.symm.trans hp
    exact ⟨⟨hello, rfl, rfl⟩, by decide⟩
  · obtain ⟨msg, hm⟩ := hrejects (by rintro e rfl; decide) 0
    have hok : decrypt paperSodium { greeting with timestamp := 1 } ones 0 = .ok hello.plaintext :=
      rfl
    rw [hok] at hm
    cases hm

end MessengerBackend.E2E
