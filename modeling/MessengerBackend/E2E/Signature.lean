/-
  Signatures of the key pairs that the class generates.

  `crypto_sign_detached` reads 64 bytes at its key pointer: the seed of an Ed25519 key and the
  public key after it. `sign_message` passes the pointer of an array of 32 bytes, the size of an
  X25519 key, so every signature reads 32 bytes of something else (`signs_never`). With the
  right bytes behind the array the signature is one of the seed's Ed25519 key, and
  `generate_keypair` returns the X25519 key of it: `verifySignature_iff`.

  Ed25519 is the parameter `Ed25519`, with `Ed25519.Documented` of proper secret keys.
-/
import MessengerBackend.E2E.Ratchet

namespace MessengerBackend.E2E

structure Ed25519 where
  /-- `crypto_sign_detached` of a message and the 64 bytes of a secret key. -/
  signDetached : Bytes → Block 64 → Block 64
  /-- `crypto_sign_verify_detached` returns 0. -/
  signVerifyDetached : Block 64 → Bytes → Block 32 → Bool
  /-- The public key of a seed. -/
  publicKey : Block 32 → Block 32

/-- `crypto_sign_SECRETKEYBYTES`: the seed, and its public key. -/
def Ed25519.secretKey (L : Ed25519) (seed : Block 32) : Block 64 := seed.append (L.publicKey seed)

/-- A signature of a secret key verifies under its public key, and under no other. -/
def Ed25519.Documented (L : Ed25519) : Prop := ∀ (message : Bytes) (seed pk : Block 32),
  L.signVerifyDetached (L.signDetached message (L.secretKey seed)) message pk = true ↔
    pk = L.publicKey seed

/-- `crypto_sign_detached` with a pointer to `memory`. -/
def Ed25519.signAt (L : Ed25519) (message memory : Bytes) : Except Fault (Block 64) := do
  let key ← readAt memory 0 64
  return L.signDetached message key

def signMessage (L : Ed25519) (message : Bytes) (signingKey : Block 32) :
    Except Fault (Block 64) := L.signAt message signingKey.1

def verifySignature (L : Ed25519) (message : Bytes) (signature : Block 64)
    (verifyingKey : Block 32) : Bool := L.signVerifyDetached signature message verifyingKey

/-- A message is signed with the bytes of the private key, and the signature verifies under the
    public key. -/
def Signs (L : Ed25519) (message : Bytes) (kp : KeyPair) : Prop :=
  ∃ signature, signMessage L message kp.privateKey = .ok signature ∧
    verifySignature L message signature kp.publicKey = true

variable {L : Ed25519} {message : Bytes}

/-- The library leaves the array, whatever the key is. -/
theorem signMessage_outOfBounds (L : Ed25519) (message : Bytes) (signingKey : Block 32) :
    signMessage L message signingKey = .error .outOfBounds := by
  have hslice : signingKey.1.slice 0 64 = none :=
    Bytes.slice_eq_none.mpr (by rw [signingKey.2]; omega)
  unfold signMessage Ed25519.signAt readAt
  rw [hslice]
  rfl

/-- No message is signed with a generated key pair. -/
theorem signs_never (L : Ed25519) (S : Sodium) (message : Bytes) (sk : Block 32) :
    ¬ Signs L message (generateKeypair S sk) := by
  rintro ⟨signature, hsigned, _⟩
  rw [signMessage_outOfBounds] at hsigned
  cases hsigned

/-- Were the public key of the seed behind the array, the signature would still verify only if
    the X25519 key of a seed was its Ed25519 key. -/
theorem verifySignature_iff (hdoc : L.Documented) (S : Sodium) {sk : Block 32} {rest : Bytes}
    {signature : Block 64}
    (h : L.signAt message (sk.1 ++ ((L.publicKey sk).1 ++ rest)) = .ok signature) :
    verifySignature L message signature (generateKeypair S sk).publicKey = true ↔
      S.scalarmultBase sk = L.publicKey sk := by
  have hread : readAt (sk.1 ++ ((L.publicKey sk).1 ++ rest)) 0 64 = .ok (L.secretKey sk) := by
    rw [← List.append_assoc]
    exact readAt_append [] rest 0 (L.secretKey sk) rfl
  unfold Ed25519.signAt at h
  rw [hread] at h
  obtain rfl : L.signDetached message (L.secretKey sk) = signature := Except.ok.inj h
  exact hdoc message sk _

/-! ## Ed25519 on paper -/

/-- Public keys are seeds with the bits flipped, and a signature is the public key twice. -/
def paperEd25519 : Ed25519 where
  signDetached _ key := ⟨key.1.drop 32 ++ key.1.drop 32, by simp⟩
  signVerifyDetached signature _ pk := signature.1.take 32 = pk.1
  publicKey seed := ⟨seed.1.map (· ^^^ 0xFF), by simp⟩

theorem paperEd25519_documented : paperEd25519.Documented := by
  intro message seed pk
  have hdrop : (paperEd25519.secretKey seed).1.drop 32 = (paperEd25519.publicKey seed).1 :=
    List.drop_left' seed.2
  have hsigned : (paperEd25519.signDetached message (paperEd25519.secretKey seed)).1.take 32 =
      (paperEd25519.publicKey seed).1 := by
    show ((paperEd25519.secretKey seed).1.drop 32 ++ _).take 32 = _
    rw [hdrop, List.take_left' (paperEd25519.publicKey seed).2]
  show decide (_ = pk.1) = true ↔ _
  rw [decide_eq_true_eq, hsigned]
  exact ⟨fun h => Block.ext h.symm, fun h => by rw [h]⟩

/-- The key of ones cannot sign. -/
theorem key_too_short : paperEd25519.Documented ∧ paperSodium.KxDocumented ∧
    signMessage paperEd25519 (utf8 "hi") (generateKeypair paperSodium ones).privateKey =
      .error .outOfBounds ∧
    ¬ Signs paperEd25519 (utf8 "hi") (generateKeypair paperSodium ones) := by
  refine ⟨paperEd25519_documented, paperSodium_documented, signMessage_outOfBounds _ _ _, ?_⟩
  rintro ⟨signature, hsigned, _⟩
  cases hsigned

end MessengerBackend.E2E
