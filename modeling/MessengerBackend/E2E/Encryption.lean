/-
  `E2EEncryption`: the shared secret, the session keys, `encrypt` and `decrypt`.

  libsodium is the parameter `Sodium`. Its fields have the sizes the library documents; of
  `crypto_kx_client_session_keys` and `crypto_pwhash` the failure result is `none`. The
  library is taken as initialised, `std::time` and `randombytes_buf` are arguments of
  `encrypt`, and the host is little-endian.

  Both parties of a conversation call `computeSharedSecret`, which runs the client side of
  the key exchange and keeps `rx`; both then call `deriveSessionKeys`, which derives
  `send_key` from the secret and `recv_key` from the secret with one salt byte flipped.
-/
import MessengerBackend.Lib.Aead
import MessengerBackend.E2E.WireFormat

namespace MessengerBackend.E2E

/-! ## libsodium -/

/-- `crypto_pwhash_OPSLIMIT_*` and `crypto_pwhash_MEMLIMIT_*`. -/
inductive PwLimits where
  | interactive
  | sensitive
deriving DecidableEq

structure Sodium where
  /-- `crypto_scalarmult_base`. -/
  scalarmultBase : Block 32 → Block 32
  /-- `crypto_scalarmult` of a secret and a public key. -/
  scalarmult : Block 32 → Block 32 → Block 32
  /-- BLAKE2b with 64 bytes of output. -/
  blake2b : Bytes → Block 64
  /-- `crypto_kx_client_session_keys` of client_pk, client_sk and server_pk: rx and tx. -/
  kxClientSessionKeys : Block 32 → Block 32 → Block 32 → Option (Block 32 × Block 32)
  /-- `crypto_pwhash` of a password and a salt. -/
  pwhash : PwLimits → (len : Nat) → Bytes → Block 16 → Option (Block len)
  /-- `crypto_aead_chacha20poly1305_*`, over the 8 bytes at the nonce pointer. -/
  aead : Aead.Scheme (Block 32) (Block 8) Bytes Bytes Bytes
  length_enc : ∀ k n a m, (aead.enc k n a m).length = m.length + 16

/-- What libsodium documents of the key exchange: scalar multiplication commutes, and rx, tx
    are the halves of BLAKE2b(q ‖ client_pk ‖ server_pk). -/
structure Sodium.KxDocumented (S : Sodium) : Prop where
  comm : ∀ a b, S.scalarmult a (S.scalarmultBase b) = S.scalarmult b (S.scalarmultBase a)
  halves : ∀ pk sk peer rx tx, S.kxClientSessionKeys pk sk peer = some (rx, tx) →
    rx.1 ++ tx.1 = (S.blake2b ((S.scalarmult sk peer).1 ++ (pk.1 ++ peer.1))).1

/-- A hash without collisions among the inputs `xs`. -/
def NoCollision {α β : Type} (hash : α → Option β) (xs : List α) : Prop :=
  ∀ x ∈ xs, ∀ y ∈ xs, (hash x).isSome → hash x = hash y → x = y

instance {α β : Type} [DecidableEq α] [DecidableEq β] (hash : α → Option β) (xs : List α) :
    Decidable (NoCollision hash xs) :=
  inferInstanceAs (Decidable (∀ x ∈ xs, ∀ y ∈ xs, (hash x).isSome → hash x = hash y → x = y))

/-! ## Keys -/

structure SessionKeys where
  sendKey : Block 32
  recvKey : Block 32
  headerKey : Block 32 := Block.zero 32
  sendCounter : UInt64 := 0
  recvCounter : UInt64 := 0

def computeSharedSecret (S : Sodium) (privateKey peerPublicKey : Block 32) :
    Except String (Block 32) :=
  match S.kxClientSessionKeys (S.scalarmultBase privateKey) privateKey peerPublicKey with
  | some (rx, _) => .ok rx
  | none => .error "Shared secret computation failed"

/-- The first 16 bytes of the salt string, zero-padded. -/
def saltBytes (salt : Bytes) : Block 16 := Block.pad 16 salt

/-- `modified_salt[0] ^= 0xFF`. -/
def modifiedSalt (salt : Block 16) : Block 16 :=
  ⟨salt.1.modify 0 (· ^^^ 0xFF), by rw [List.length_modify, salt.2]⟩

def deriveSessionKeys (S : Sodium) (sharedSecret : Block 32) (salt : Bytes) :
    Except String SessionKeys :=
  match S.pwhash .sensitive 32 sharedSecret.1 (saltBytes salt) with
  | none => .error "Key derivation failed"
  | some sendKey =>
      match S.pwhash .sensitive 32 sharedSecret.1 (modifiedSalt (saltBytes salt)) with
      | none => .error "Key derivation failed"
      | some recvKey => .ok { sendKey := sendKey, recvKey := recvKey }

/-! ## Messages -/

/-- The bytes of a nonce that the cipher reads. -/
def nonceHead (nonce : Block 12) : Block 8 :=
  Block.ofTake 8 nonce.1 (by rw [nonce.2]; omega)

/-- The arguments of one call of `encrypt`, and what it draws from outside. -/
structure EncryptCall where
  plaintext : Bytes
  messageCounter : UInt64
  now : UInt64
  random : Block 4

def EncryptCall.nonce (e : EncryptCall) : Block 12 :=
  (Block.ofUInt64 e.messageCounter).append e.random

def encrypt (S : Sodium) (key : Block 32) (e : EncryptCall) : EncryptedMessage :=
  let sealed := S.aead.enc key (nonceHead e.nonce) [] e.plaintext
  { ciphertext := sealed.take (sealed.length - 16)
    nonce := e.nonce
    authTag := Block.ofEnd 16 sealed (by rw [S.length_enc]; omega)
    messageId := e.messageCounter
    timestamp := e.now }

/-- `expected_counter` is not used. -/
def decrypt (S : Sodium) (m : EncryptedMessage) (key : Block 32) (_expectedCounter : UInt64) :
    Except String Bytes :=
  match S.aead.dec key (nonceHead m.nonce) [] (m.ciphertext ++ m.authTag.1) with
  | some plaintext => .ok plaintext
  | none => .error "Decryption failed - authentication tag verification failed"

/-! ## Their specifications -/

variable (S : Sodium)

/-- `crypto_pwhash` as `deriveSessionKeys` calls it. -/
def Sodium.sessionHash (x : Block 32 × Block 16) : Option (Block 32) :=
  S.pwhash .sensitive 32 x.1.1 x.2

theorem deriveSessionKeys_ok {secret : Block 32} {salt : Bytes} {keys : SessionKeys}
    (h : deriveSessionKeys S secret salt = .ok keys) :
    S.sessionHash (secret, saltBytes salt) = some keys.sendKey ∧
      S.sessionHash (secret, modifiedSalt (saltBytes salt)) = some keys.recvKey := by
  unfold deriveSessionKeys at h
  split at h
  · cases h
  · rename_i sendKey hsend
    split at h
    · cases h
    · rename_i recvKey hrecv
      cases h
      exact ⟨hsend, hrecv⟩

/-- The two salts differ in their first byte. -/
theorem modifiedSalt_ne (salt : Block 16) : modifiedSalt salt ≠ salt := by
  intro heq
  have hval : salt.1.modify 0 (· ^^^ 0xFF) = salt.1 := congrArg Subtype.val heq
  cases hs : salt.1 with
  | nil =>
      have := salt.2
      rw [hs] at this
      cases this
  | cons b bs =>
      rw [hs, List.modify_zero_cons] at hval
      have hb : b ^^^ 0xFF = b ^^^ 0 := (List.head_eq_of_cons_eq hval).trans UInt8.xor_zero.symm
      exact absurd ((UInt8.xor_right_inj b).mp hb) (by decide)

/-- The tag goes back where it was cut off. -/
theorem encrypt_sealed (key : Block 32) (e : EncryptCall) :
    (encrypt S key e).ciphertext ++ (encrypt S key e).authTag.1 =
      S.aead.enc key (nonceHead e.nonce) [] e.plaintext :=
  List.take_append_drop _ _

theorem decrypt_ok {m : EncryptedMessage} {key : Block 32} {c : UInt64} {p : Bytes}
    (h : decrypt S m key c = .ok p) :
    S.aead.dec key (nonceHead m.nonce) [] (m.ciphertext ++ m.authTag.1) = some p := by
  unfold decrypt at h
  split at h
  · cases h
    assumption
  · cases h

theorem decrypt_error {m : EncryptedMessage} {key : Block 32} (c : UInt64)
    (h : S.aead.dec key (nonceHead m.nonce) [] (m.ciphertext ++ m.authTag.1) = none) :
    ∃ msg, decrypt S m key c = .error msg := by
  unfold decrypt
  rw [h]
  exact ⟨_, rfl⟩

end MessengerBackend.E2E
