/-
  `DoubleRatchet`: what two parties have in common after rounds of ratchet steps.

  A round is the same number of `ratchetForward` on both sides, then one `updateWithPeerKey`
  on each with the other's public key. The update replaces the root by a hash of the first
  16 bytes of `computeSharedSecret`, and that function runs the client side of the key
  exchange whoever calls it: A hashes q ‖ A ‖ B and B hashes q ‖ B ‖ A.

  So the parties agree after a round only if their public keys are the same
  (`converge_iff`). `RatchetIdeal` is what is assumed of the hashes, on the inputs of one
  pair of parties. `deriveKey` copies 16 bytes of its salt; both callers give it 32.
-/
import MessengerBackend.Lib.Runs
import MessengerBackend.E2E.Agreement

namespace MessengerBackend.E2E

/-! ## The class -/

structure KeyPair where
  publicKey : Block 32
  privateKey : Block 32
deriving DecidableEq

/-- `crypto_kx_keypair` with the secret key `sk` that it draws. -/
def generateKeypair (S : Sodium) (sk : Block 32) : KeyPair := ⟨S.scalarmultBase sk, sk⟩

structure DoubleRatchet where
  rootKey : Block 32
  dhSendPrivate : Block 32
  dhSendPublic : Block 32
  dhRecvPublic : Block 32 := Block.zero 32
  chainCounter : UInt32 := 0
deriving DecidableEq

/-- A salt shorter than 16 bytes would leave stack bytes in `salt_bytes`; there is no such
    caller. -/
def deriveKey (S : Sodium) (password salt : Bytes) (h : 16 ≤ salt.length) (keyLength : Nat) :
    Except String (Block keyLength) :=
  match S.pwhash .interactive keyLength password (Block.ofTake 16 salt h) with
  | none => .error "Key derivation failed"
  | some key => .ok key

namespace DoubleRatchet

/-- The constructor, with the key pair it generates. -/
def ofSecret (initialSecret : Block 32) (kp : KeyPair) : DoubleRatchet where
  rootKey := initialSecret
  dhSendPrivate := kp.privateKey
  dhSendPublic := kp.publicKey

/-- The first 16 bytes of a key are there. -/
theorem saltLength (key : Block 32) : 16 ≤ key.1.length := by rw [key.2]; omega

def rootRatchet (S : Sodium) (rootKey : Block 32) : Except String (Block 32) :=
  deriveKey S (utf8 "root_ratchet") rootKey.1 (saltLength rootKey) 32

/-- An exception leaves what was assigned before it. -/
def ratchetForward (S : Sodium) (r : DoubleRatchet) : DoubleRatchet × Except String SessionKeys :=
  let r₁ := { r with chainCounter := r.chainCounter + 1 }
  match rootRatchet S r₁.rootKey with
  | .error e => (r₁, .error e)
  | .ok root => ({ r₁ with rootKey := root }, deriveSessionKeys S root [])

def getCurrentKeys (S : Sodium) (r : DoubleRatchet) : Except String SessionKeys :=
  deriveSessionKeys S r.rootKey []

def dhRatchet (S : Sodium) (newSecret : Block 32) : Except String (Block 32) :=
  deriveKey S (utf8 "dh_ratchet") newSecret.1 (saltLength newSecret) 32

def updateWithPeerKey (S : Sodium) (r : DoubleRatchet) (peerKey : Block 32) :
    DoubleRatchet × Except String Unit :=
  match computeSharedSecret S r.dhSendPrivate peerKey with
  | .error e => (r, .error e)
  | .ok newSecret =>
      match dhRatchet S newSecret with
      | .error e => (r, .error e)
      | .ok root =>
          ({ r with rootKey := root, dhRecvPublic := peerKey, chainCounter := 0 }, .ok ())

/-! ## Rounds -/

/-- The object after a call that did not throw. -/
def settled {α : Type} (x : DoubleRatchet × Except String α) : Except String DoubleRatchet :=
  x.2.map (fun _ => x.1)

/-- `n` calls of `ratchet_forward`. -/
def forwards (S : Sodium) : Nat → DoubleRatchet → Except String DoubleRatchet
  | 0, r => .ok r
  | n + 1, r => do
      let r₁ ← settled (r.ratchetForward S)
      forwards S n r₁

/-- `n` forward steps on both sides, then each takes the other's public key. -/
def round (S : Sodium) (n : Nat) (x : DoubleRatchet × DoubleRatchet) :
    Except String (DoubleRatchet × DoubleRatchet) := do
  let a ← forwards S n x.1
  let b ← forwards S n x.2
  let a₁ ← settled (a.updateWithPeerKey S b.dhSendPublic)
  let b₁ ← settled (b.updateWithPeerKey S a.dhSendPublic)
  return (a₁, b₁)

/-- The two objects after every round, if no call throws. -/
def rounds (S : Sodium) : List Nat → DoubleRatchet × DoubleRatchet →
    Except String (List (DoubleRatchet × DoubleRatchet))
  | [], _ => .ok []
  | n :: ns, x => do
      let x₁ ← round S n x
      let xs ← rounds S ns x₁
      return x₁ :: xs

/-- The same root, and the same answer of `get_current_keys`. -/
def Agree (S : Sodium) (x : DoubleRatchet × DoubleRatchet) : Prop :=
  x.1.rootKey = x.2.rootKey ∧ x.1.getCurrentKeys S = x.2.getCurrentKeys S

variable {S : Sodium} {r r' : DoubleRatchet}

theorem Agree.of_root {x : DoubleRatchet × DoubleRatchet} (h : x.1.rootKey = x.2.rootKey) :
    Agree S x := ⟨h, by unfold getCurrentKeys; rw [h]⟩

/-! ## What a step keeps and what it writes -/

theorem settled_ok {α : Type} {x : DoubleRatchet × Except String α} (h : settled x = .ok r) :
    x.1 = r ∧ ∃ a, x.2 = .ok a := by
  obtain ⟨a, ha, hr⟩ := Except.map_eq_ok.mp h
  exact ⟨hr, a, ha⟩

/-- A forward step leaves the DH keys alone. -/
theorem ratchetForward_keys (S : Sodium) (r : DoubleRatchet) :
    (r.ratchetForward S).1.dhSendPrivate = r.dhSendPrivate ∧
      (r.ratchetForward S).1.dhSendPublic = r.dhSendPublic := by
  unfold ratchetForward
  dsimp only
  split <;> exact ⟨rfl, rfl⟩

theorem forwards_keys {n : Nat} (h : forwards S n r = .ok r') :
    r'.dhSendPrivate = r.dhSendPrivate ∧ r'.dhSendPublic = r.dhSendPublic := by
  induction n generalizing r with
  | zero =>
    obtain rfl := Except.ok.inj h
    exact ⟨rfl, rfl⟩
  | succ n ih =>
    obtain ⟨r₁, hr₁, h⟩ := Except.bind_ok.mp h
    have hkeys := ratchetForward_keys S r
    rw [(settled_ok hr₁).1] at hkeys
    have hrest := ih h
    exact ⟨hrest.1.trans hkeys.1, hrest.2.trans hkeys.2⟩

/-- The new root is a hash of the shared secret; the old one leaves no trace in it. -/
theorem updateWithPeerKey_ok {peerKey : Block 32}
    (h : settled (r.updateWithPeerKey S peerKey) = .ok r') :
    r'.dhSendPrivate = r.dhSendPrivate ∧ r'.dhSendPublic = r.dhSendPublic ∧
      ∃ newSecret, computeSharedSecret S r.dhSendPrivate peerKey = .ok newSecret ∧
        dhRatchet S newSecret = .ok r'.rootKey := by
  obtain ⟨hr, _, hres⟩ := settled_ok h
  unfold updateWithPeerKey at hr hres
  split at hr
  · rename_i hsecret
    rw [hsecret] at hres
    cases hres
  · rename_i newSecret hsecret
    rw [hsecret] at hres
    dsimp only at hres
    split at hr
    · rename_i hroot
      rw [hroot] at hres
      cases hres
    · rename_i root hroot
      rw [← hr]
      exact ⟨rfl, rfl, newSecret, hsecret, hroot⟩

end DoubleRatchet

/-! ## The two secrets of a pair of parties -/

/-- What the key exchange hashes for the party with private key `a`. -/
def kxInput (S : Sodium) (a b : Block 32) : Bytes :=
  (S.scalarmult a (S.scalarmultBase b)).1 ++ ((S.scalarmultBase a).1 ++ (S.scalarmultBase b).1)

/-- The part of a BLAKE2b value that `deriveKey` takes as its salt. -/
def kxSalt (S : Sodium) (x : Bytes) : Block 16 :=
  Block.ofTake 16 (S.blake2b x).1 (by rw [(S.blake2b x).2]; omega)

/-- `crypto_pwhash` as the DH step calls it. -/
def Sodium.dhHash (S : Sodium) (salt : Block 16) : Option (Block 32) :=
  S.pwhash .interactive 32 (utf8 "dh_ratchet") salt

/-- The hashes are ideal on what the DH steps of one pair of parties give them. -/
structure RatchetIdeal (S : Sodium) (a b : Block 32) : Prop where
  blake2b : NoCollision (fun x => some (kxSalt S x)) [kxInput S a b, kxInput S b a]
  pwhash : NoCollision S.dhHash [kxSalt S (kxInput S a b), kxSalt S (kxInput S b a)]

section Secrets

variable {S : Sodium} {a b : Block 32}

/-- The shared secret begins with the hash of the caller's own view of the exchange. -/
theorem take_sharedSecret (hkx : S.KxDocumented) {newSecret : Block 32}
    (h : computeSharedSecret S a (S.scalarmultBase b) = .ok newSecret) :
    Block.ofTake 16 newSecret.1 (DoubleRatchet.saltLength newSecret) = kxSalt S (kxInput S a b) := by
  unfold computeSharedSecret at h
  split at h
  · rename_i rx tx hx
    obtain rfl := Except.ok.inj h
    have hhalves := hkx.halves _ _ _ _ _ hx
    apply Block.ext
    show rx.1.take 16 = (S.blake2b (kxInput S a b)).1.take 16
    rw [kxInput, ← hhalves, List.take_append_of_le_length (by rw [rx.2]; omega)]
  · cases h

/-- The root after a DH step, as a hash of the exchange. -/
theorem dhHash_root (hkx : S.KxDocumented) {newSecret root : Block 32}
    (h : computeSharedSecret S a (S.scalarmultBase b) = .ok newSecret)
    (hroot : DoubleRatchet.dhRatchet S newSecret = .ok root) :
    S.dhHash (kxSalt S (kxInput S a b)) = some root := by
  unfold DoubleRatchet.dhRatchet deriveKey at hroot
  rw [take_sharedSecret hkx h] at hroot
  unfold Sodium.dhHash
  split at hroot
  · cases hroot
  · rename_i key hkey
    rw [hkey, Except.ok.inj hroot]

/-- Both parties hash the same text only if their public keys are the same. -/
theorem kxInput_comm (hkx : S.KxDocumented) :
    kxInput S a b = kxInput S b a ↔ S.scalarmultBase a = S.scalarmultBase b := by
  unfold kxInput
  rw [hkx.comm a b]
  constructor
  · intro h
    have hpk := List.append_cancel_left h
    have hlen : (S.scalarmultBase a).1.length = (S.scalarmultBase b).1.length := by
      rw [(S.scalarmultBase a).2, (S.scalarmultBase b).2]
    exact Block.ext (List.append_inj_left hpk hlen)
  · intro h
    rw [h]

end Secrets

namespace DoubleRatchet

/-! ## One round -/

/-- The two objects hold the keys of the parties `a` and `b`. -/
structure Paired (S : Sodium) (a b : Block 32) (x : DoubleRatchet × DoubleRatchet) : Prop where
  privateA : x.1.dhSendPrivate = a
  publicA : x.1.dhSendPublic = S.scalarmultBase a
  privateB : x.2.dhSendPrivate = b
  publicB : x.2.dhSendPublic = S.scalarmultBase b

theorem paired_ofSecret (S : Sodium) (initialSecret a b : Block 32) :
    Paired S a b (ofSecret initialSecret (generateKeypair S a),
      ofSecret initialSecret (generateKeypair S b)) := ⟨rfl, rfl, rfl, rfl⟩

variable {S : Sodium} {a b : Block 32} {x x' : DoubleRatchet × DoubleRatchet}

/-- The step lemma: a round keeps the DH keys and leaves the two hashes as roots. -/
theorem round_ok (hkx : S.KxDocumented) (hp : Paired S a b x) {n : Nat}
    (h : round S n x = .ok x') :
    Paired S a b x' ∧ S.dhHash (kxSalt S (kxInput S a b)) = some x'.1.rootKey ∧
      S.dhHash (kxSalt S (kxInput S b a)) = some x'.2.rootKey := by
  obtain ⟨rA, hA, h⟩ := Except.bind_ok.mp h
  obtain ⟨rB, hB, h⟩ := Except.bind_ok.mp h
  obtain ⟨rA₁, hA₁, h⟩ := Except.bind_ok.mp h
  obtain ⟨rB₁, hB₁, h⟩ := Except.bind_ok.mp h
  obtain rfl := Except.ok.inj h
  have hkeysA := forwards_keys hA
  have hkeysB := forwards_keys hB
  obtain ⟨hprivA, hpubA, secretA, hsecretA, hrootA⟩ := updateWithPeerKey_ok hA₁
  obtain ⟨hprivB, hpubB, secretB, hsecretB, hrootB⟩ := updateWithPeerKey_ok hB₁
  rw [hkeysA.1, hp.privateA, hkeysB.2, hp.publicB] at hsecretA
  rw [hkeysB.1, hp.privateB, hkeysA.2, hp.publicA] at hsecretB
  refine ⟨⟨?_, ?_, ?_, ?_⟩, dhHash_root hkx hsecretA hrootA, dhHash_root hkx hsecretB hrootB⟩
  · exact hprivA.trans (hkeysA.1.trans hp.privateA)
  · exact hpubA.trans (hkeysA.2.trans hp.publicA)
  · exact hprivB.trans (hkeysB.1.trans hp.privateB)
  · exact hpubB.trans (hkeysB.2.trans hp.publicB)

/-- After a round the roots are equal only between equal public keys. -/
theorem round_agree_iff (hkx : S.KxDocumented) (hi : RatchetIdeal S a b) (hp : Paired S a b x)
    {n : Nat} (h : round S n x = .ok x') :
    Agree S x' ↔ S.scalarmultBase a = S.scalarmultBase b := by
  obtain ⟨_, hrootA, hrootB⟩ := round_ok hkx hp h
  rw [← kxInput_comm hkx]
  constructor
  · rintro ⟨hroot, _⟩
    have hsalt : kxSalt S (kxInput S a b) = kxSalt S (kxInput S b a) := by
      refine hi.pwhash _ (by simp) _ (by simp) (by rw [hrootA]; rfl) ?_
      rw [hrootA, hrootB, hroot]
    exact hi.blake2b _ (by simp) _ (by simp) rfl (congrArg some hsalt)
  · intro hinput
    rw [hinput, hrootB] at hrootA
    exact Agree.of_root (Option.some.inj hrootA).symm

/-! ## All rounds -/

/-- The run lemma: every state of a run agrees, or none does. -/
theorem rounds_agree (hkx : S.KxDocumented) (hi : RatchetIdeal S a b) (hp : Paired S a b x)
    {ns : List Nat} {states : List (DoubleRatchet × DoubleRatchet)}
    (h : rounds S ns x = .ok states) :
    states.length = ns.length ∧
      ∀ y ∈ states, (Agree S y ↔ S.scalarmultBase a = S.scalarmultBase b) := by
  induction ns generalizing x states with
  | nil =>
    obtain rfl := Except.ok.inj h
    exact ⟨rfl, fun y hy => nomatch hy⟩
  | cons n ns ih =>
    obtain ⟨x₁, hx₁, h⟩ := Except.bind_ok.mp h
    obtain ⟨rest, hrest, h⟩ := Except.bind_ok.mp h
    obtain rfl := Except.ok.inj h
    obtain ⟨hlen, hall⟩ := ih (round_ok hkx hp hx₁).1 hrest
    refine ⟨by simp [hlen], ?_⟩
    intro y hy
    rcases List.mem_cons.mp hy with rfl | hy
    · exact round_agree_iff hkx hi hp hx₁
    · exact hall y hy

/-- Two ratchets from one secret agree after every round if and only if there is no round, or
    the two parties have the same public key. -/
theorem converge_iff (S : Sodium) (hkx : S.KxDocumented) (initialSecret a b : Block 32)
    (hi : RatchetIdeal S a b) (ns : List Nat) (states : List (DoubleRatchet × DoubleRatchet))
    (hrun : rounds S ns (ofSecret initialSecret (generateKeypair S a),
      ofSecret initialSecret (generateKeypair S b)) = .ok states) :
    (∀ x ∈ states, Agree S x) ↔
      ns = [] ∨ (generateKeypair S a).publicKey = (generateKeypair S b).publicKey := by
  obtain ⟨hlen, hall⟩ := rounds_agree hkx hi (paired_ofSecret S initialSecret a b) hrun
  constructor
  · intro h
    match states, hlen with
    | [], hlen => exact Or.inl (List.eq_nil_of_length_eq_zero hlen.symm)
    | x :: _, _ => exact Or.inr ((hall x (by simp)).mp (h x (by simp)))
  · rintro (rfl | hpk) x hx
    · rw [List.eq_nil_of_length_eq_zero hlen] at hx
      cases hx
    · exact (hall x hx).mpr hpk

/-! ## One round on paper -/

theorem paperSodium_ratchetIdeal : RatchetIdeal paperSodium (Block.zero 32) ones :=
  ⟨by decide, by decide⟩

/-- Zeros and ones, with one forward step and an exchange of public keys. -/
def paperRound : List (DoubleRatchet × DoubleRatchet) :=
  match rounds paperSodium [1] (ofSecret ones (generateKeypair paperSodium (Block.zero 32)),
    ofSecret ones (generateKeypair paperSodium ones)) with
  | .ok states => states
  | .error _ => []

theorem converge_iff_paper : (∀ x ∈ paperRound, Agree paperSodium x) ↔
    [1] = [] ∨ (generateKeypair paperSodium (Block.zero 32)).publicKey =
      (generateKeypair paperSodium ones).publicKey :=
  converge_iff paperSodium paperSodium_documented ones (Block.zero 32) ones
    paperSodium_ratchetIdeal [1] paperRound rfl

/-- After it the roots are different. -/
theorem diverged : paperSodium.KxDocumented ∧ RatchetIdeal paperSodium (Block.zero 32) ones ∧
    rounds paperSodium [1] (ofSecret ones (generateKeypair paperSodium (Block.zero 32)),
      ofSecret ones (generateKeypair paperSodium ones)) = .ok paperRound ∧
    ∃ x ∈ paperRound, x.1.rootKey ≠ x.2.rootKey ∧ ¬ Agree paperSodium x := by
  have hroots : ∃ x ∈ paperRound, x.1.rootKey ≠ x.2.rootKey := by decide
  obtain ⟨x, hx, hne⟩ := hroots
  exact ⟨paperSodium_documented, paperSodium_ratchetIdeal, rfl, x, hx, hne,
    fun hagree => hne hagree.1⟩

end DoubleRatchet

end MessengerBackend.E2E
