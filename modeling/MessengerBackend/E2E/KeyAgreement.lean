/-
  Whether two key pairs agree on a secret.

  Scalar multiplication commutes, so both parties compute the same point; but
  `computeSharedSecret` runs the client side of the key exchange for each of them and keeps
  `rx`, the first half of the hash of the point and both public keys in role order. A hashes
  q ‖ A ‖ B and B hashes q ‖ B ‖ A, so the two secrets are equal only between equal public
  keys (`agreed_iff`).
-/
import MessengerBackend.E2E.Ratchet

namespace MessengerBackend.E2E

/-- The half of a BLAKE2b value that is returned as `rx`. -/
def kxRx (S : Sodium) (x : Bytes) : Block 32 :=
  Block.ofTake 32 (S.blake2b x).1 (by rw [(S.blake2b x).2]; omega)

/-- The key exchange of a key pair with a peer returns its two halves. -/
def KxReturns (S : Sodium) (kp : KeyPair) (peer : Block 32) : Prop :=
  (S.kxClientSessionKeys (S.scalarmultBase kp.privateKey) kp.privateKey peer).isSome = true

instance (S : Sodium) (kp : KeyPair) (peer : Block 32) : Decidable (KxReturns S kp peer) :=
  inferInstanceAs (Decidable (_ = true))

/-- The two secrets are there and equal. -/
def Agreed (S : Sodium) (x y : KeyPair) : Prop :=
  ∃ secret, computeSharedSecret S x.privateKey y.publicKey = .ok secret ∧
    computeSharedSecret S y.privateKey x.publicKey = .ok secret

variable {S : Sodium} {a b : Block 32}

/-- The secret is the kept half of the hash of the caller's own view of the exchange. -/
theorem computeSharedSecret_eq (hkx : S.KxDocumented)
    (h : KxReturns S (generateKeypair S a) (S.scalarmultBase b)) :
    computeSharedSecret S a (S.scalarmultBase b) = .ok (kxRx S (kxInput S a b)) := by
  obtain ⟨⟨rx, tx⟩, hx⟩ := Option.isSome_iff_exists.mp h
  have hx : S.kxClientSessionKeys (S.scalarmultBase a) a (S.scalarmultBase b) = some (rx, tx) := hx
  have hrx : rx = kxRx S (kxInput S a b) := by
    apply Block.ext
    show rx.1 = (S.blake2b (kxInput S a b)).1.take 32
    rw [kxInput, ← hkx.halves _ _ _ _ _ hx, List.take_left' rx.2]
  unfold computeSharedSecret
  rw [hx, hrx]

/-- Two generated key pairs agree on a secret if and only if their public keys are the same. -/
theorem agreed_iff (S : Sodium) (hkx : S.KxDocumented) (a b : Block 32)
    (hA : KxReturns S (generateKeypair S a) (generateKeypair S b).publicKey)
    (hB : KxReturns S (generateKeypair S b) (generateKeypair S a).publicKey)
    (hash : NoCollision (fun x => some (kxRx S x)) [kxInput S a b, kxInput S b a]) :
    Agreed S (generateKeypair S a) (generateKeypair S b) ↔
      (generateKeypair S a).publicKey = (generateKeypair S b).publicKey := by
  have hsecretA := computeSharedSecret_eq hkx hA
  have hsecretB := computeSharedSecret_eq hkx hB
  show Agreed S _ _ ↔ S.scalarmultBase a = S.scalarmultBase b
  rw [← kxInput_comm hkx]
  constructor
  · rintro ⟨secret, hx, hy⟩
    have hrx := Except.ok.inj (hsecretA.symm.trans hx)
    have hrx' := Except.ok.inj (hsecretB.symm.trans hy)
    exact hash _ (by simp) _ (by simp) rfl (congrArg some (hrx.trans hrx'.symm))
  · intro hinput
    exact ⟨_, hsecretA, hinput ▸ hsecretB⟩

/-- Zeros and ones do not agree. -/
theorem agreed_iff_paper : ¬ Agreed paperSodium (generateKeypair paperSodium (Block.zero 32))
    (generateKeypair paperSodium ones) := by
  rw [agreed_iff paperSodium paperSodium_documented (Block.zero 32) ones rfl rfl (by decide)]
  decide

/-- Each of them has its own secret. -/
theorem secrets_differ : paperSodium.KxDocumented ∧
    NoCollision (fun x => some (kxRx paperSodium x))
      [kxInput paperSodium (Block.zero 32) ones, kxInput paperSodium ones (Block.zero 32)] ∧
    computeSharedSecret paperSodium (Block.zero 32) ones = .ok (Block.zero 32) ∧
    computeSharedSecret paperSodium ones (Block.zero 32) = .ok ones ∧
    ¬ Agreed paperSodium (generateKeypair paperSodium (Block.zero 32))
      (generateKeypair paperSodium ones) := by
  refine ⟨paperSodium_documented, by decide, rfl, rfl, ?_⟩
  rintro ⟨secret, hx, hy⟩
  have hx : Block.zero 32 = secret := Except.ok.inj hx
  have hy : ones = secret := Except.ok.inj hy
  exact absurd (hx.trans hy.symm) (by decide)

end MessengerBackend.E2E
