/-
  Whether two endpoints can talk.

  They cannot. A message of A is sealed under the `send_key` of A and opened with the
  `recv_key` of B. The first is the hash of a secret with the salt, the second the hash of a
  secret with the modified salt, so they differ whatever the two secrets are
  (`recvKey_ne_sendKey`). Nothing swaps the keys of one side, and both sides compute the
  secret as the client of the key exchange.

  `Ideal` is what is assumed of the hashes and of the cipher, on the inputs of one exchange.
-/
import MessengerBackend.E2E.Encryption

namespace MessengerBackend.E2E

/-! ## One exchange -/

/-- The two runs of the key derivation, for private keys `a` and `b`. -/
structure Session (S : Sodium) (a b : Block 32) (salt : Bytes) where
  secretA : Block 32
  secretB : Block 32
  keysA : SessionKeys
  keysB : SessionKeys
  secretA_eq : computeSharedSecret S a (S.scalarmultBase b) = .ok secretA
  secretB_eq : computeSharedSecret S b (S.scalarmultBase a) = .ok secretB
  keysA_eq : deriveSessionKeys S secretA salt = .ok keysA
  keysB_eq : deriveSessionKeys S secretB salt = .ok keysB

/-- The derivation is deterministic. -/
instance (S : Sodium) (a b : Block 32) (salt : Bytes) : Subsingleton (Session S a b salt) where
  allEq s t := by
    obtain ⟨sA, sB, kA, kB, hsA, hsB, hkA, hkB⟩ := s
    obtain ⟨sA', sB', kA', kB', hsA', hsB', hkA', hkB'⟩ := t
    obtain rfl := Except.ok.inj (hsA.symm.trans hsA')
    obtain rfl := Except.ok.inj (hsB.symm.trans hsB')
    obtain rfl := Except.ok.inj (hkA.symm.trans hkA')
    obtain rfl := Except.ok.inj (hkB.symm.trans hkB')
    rfl

/-- What is sealed under `key` is opened with `key'`, to the same plaintext. -/
def Opens (S : Sodium) (e : EncryptCall) (key key' : Block 32) : Prop :=
  decrypt S (encrypt S key e) key' e.messageCounter = .ok e.plaintext

/-- A message each way. -/
def TwoEndpointsTalk (S : Sodium) (a b : Block 32) (salt : Bytes) (eA eB : EncryptCall) : Prop :=
  ∃ s : Session S a b salt,
    Opens S eA s.keysA.sendKey s.keysB.recvKey ∧ Opens S eB s.keysB.sendKey s.keysA.recvKey

variable {S : Sodium} {a b : Block 32} {salt : Bytes}

/-- The inputs of `crypto_pwhash` in an exchange. -/
def Session.hashed (s : Session S a b salt) : List (Block 32 × Block 16) :=
  [(s.secretA, saltBytes salt), (s.secretA, modifiedSalt (saltBytes salt)),
    (s.secretB, saltBytes salt), (s.secretB, modifiedSalt (saltBytes salt))]

/-- The sealings of an exchange. -/
def Session.sealed (s : Session S a b salt) (eA eB : EncryptCall) :
    Set (Aead.Sealing (Block 32) (Block 8) Bytes Bytes) :=
  { x | x = ⟨s.keysA.sendKey, nonceHead eA.nonce, [], eA.plaintext⟩ ∨
    x = ⟨s.keysB.sendKey, nonceHead eB.nonce, [], eB.plaintext⟩ }

/-- The primitives are ideal on what one exchange gives them. -/
structure Ideal (s : Session S a b salt) (eA eB : EncryptCall) : Prop where
  blake2b : NoCollision (fun x => some (S.blake2b x))
    [(S.scalarmult a (S.scalarmultBase b)).1 ++ ((S.scalarmultBase a).1 ++ (S.scalarmultBase b).1),
      (S.scalarmult b (S.scalarmultBase a)).1 ++ ((S.scalarmultBase b).1 ++ (S.scalarmultBase a).1)]
  pwhash : NoCollision S.sessionHash s.hashed
  aeadA : S.aead.Authentic (s.sealed eA eB) s.keysB.recvKey (nonceHead eA.nonce) []
    (S.aead.enc s.keysA.sendKey (nonceHead eA.nonce) [] eA.plaintext)
  aeadB : S.aead.Authentic (s.sealed eA eB) s.keysA.recvKey (nonceHead eB.nonce) []
    (S.aead.enc s.keysB.sendKey (nonceHead eB.nonce) [] eB.plaintext)

/-! ## The keys do not meet -/

/-- A key derived with the salt is not one derived with the modified salt. -/
theorem recvKey_ne_sendKey {secret secret' : Block 32} {keys keys' : SessionKeys}
    {xs : List (Block 32 × Block 16)} (hash : NoCollision S.sessionHash xs)
    (hk : deriveSessionKeys S secret salt = .ok keys)
    (hk' : deriveSessionKeys S secret' salt = .ok keys')
    (hmem : (secret, saltBytes salt) ∈ xs)
    (hmem' : (secret', modifiedSalt (saltBytes salt)) ∈ xs) : keys.sendKey ≠ keys'.recvKey := by
  intro heq
  have hsend := (deriveSessionKeys_ok S hk).1
  have hrecv := (deriveSessionKeys_ok S hk').2
  have hsame := hash _ hmem _ hmem' (by rw [hsend]; rfl) (by rw [hsend, hrecv, heq])
  exact modifiedSalt_ne (saltBytes salt) (congrArg Prod.snd hsame).symm

/-- No sealing of the exchange is under a receiving key. -/
theorem sealed_key_ne {s : Session S a b salt} (hash : NoCollision S.sessionHash s.hashed)
    (eA eB : EncryptCall) :
    ∀ x ∈ s.sealed eA eB, x.key ≠ s.keysB.recvKey ∧ x.key ≠ s.keysA.recvKey := by
  have hA := s.keysA_eq
  have hB := s.keysB_eq
  rintro x (rfl | rfl)
  · exact ⟨recvKey_ne_sendKey hash hA hB (by simp [Session.hashed]) (by simp [Session.hashed]),
      recvKey_ne_sendKey hash hA hA (by simp [Session.hashed]) (by simp [Session.hashed])⟩
  · exact ⟨recvKey_ne_sendKey hash hB hB (by simp [Session.hashed]) (by simp [Session.hashed]),
      recvKey_ne_sendKey hash hB hA (by simp [Session.hashed]) (by simp [Session.hashed])⟩

/-- Neither side opens what the other sends. -/
theorem not_opens {s : Session S a b salt} {eA eB : EncryptCall} (hi : Ideal s eA eB) :
    ¬ Opens S eA s.keysA.sendKey s.keysB.recvKey ∧
      ¬ Opens S eB s.keysB.sendKey s.keysA.recvKey := by
  have hkeys := sealed_key_ne hi.pwhash eA eB
  have hA := hi.aeadA.none_of_key (fun x hx => (hkeys x hx).1)
  have hB := hi.aeadB.none_of_key (fun x hx => (hkeys x hx).2)
  constructor
  · intro hopen
    have hdec := decrypt_ok S hopen
    rw [encrypt_sealed] at hdec
    exact absurd (hdec.symm.trans hA) (by simp)
  · intro hopen
    have hdec := decrypt_ok S hopen
    rw [encrypt_sealed] at hdec
    exact absurd (hdec.symm.trans hB) (by simp)

/-- With ideal hashes and an ideal cipher no two endpoints exchange a message. -/
theorem endpoints_never_talk (S : Sodium) (a b : Block 32) (salt : Bytes) (eA eB : EncryptCall)
    (hi : ∀ s : Session S a b salt, Ideal s eA eB) : ¬ TwoEndpointsTalk S a b salt eA eB := by
  rintro ⟨s, hopen, _⟩
  exact (not_opens (hi s)).1 hopen

/-! ## A small instance of libsodium -/

/-- The tag of `paperSodium`: the two halves of the key. -/
def paperTag (k : Block 32) : Bytes := List.zipWith (· ^^^ ·) (k.1.take 16) (k.1.drop 16)

/-- Public keys are private keys, hashes keep what tells the inputs of an exchange apart, and
    a ciphertext is the plaintext with a tag made of the key. -/
def paperSodium : Sodium where
  scalarmultBase a := a
  scalarmult a b := ⟨List.zipWith (· ^^^ ·) a.1 b.1, by simp⟩
  blake2b x := Block.pad 64 (x.drop 32)
  kxClientSessionKeys pk _ peer := some (pk, peer)
  pwhash _ len password salt := some (Block.pad len (password.take 16 ++ salt.1))
  aead := {
    enc := fun k _ _ m => m ++ paperTag k
    dec := fun k _ _ c =>
      if c.drop (c.length - 16) = paperTag k then some (c.take (c.length - 16)) else none }
  length_enc k _ _ m := by simp [paperTag]

theorem paperSodium_documented : paperSodium.KxDocumented where
  comm a b := Block.ext (List.zipWith_comm_of_comm UInt8.xor_comm)
  halves pk sk peer rx tx h := by
    cases h
    have hlen : (pk.1 ++ peer.1).length ≤ 64 := by simp
    show pk.1 ++ peer.1 = _
    simp [paperSodium, Block.pad, List.take_of_length_le hlen]

def ones : Block 32 := ⟨List.replicate 32 1, List.length_replicate⟩

def hello : EncryptCall := ⟨[104, 105], 0, 0, Block.zero 4⟩

def paperSession : Session paperSodium (Block.zero 32) ones [] where
  secretA := Block.zero 32
  secretB := ones
  keysA := { sendKey := Block.zero 32, recvKey := Block.pad 32 (List.replicate 16 0 ++ [255]) }
  keysB := {
    sendKey := Block.pad 32 (List.replicate 16 1)
    recvKey := Block.pad 32 (List.replicate 16 1 ++ [255]) }
  secretA_eq := rfl
  secretB_eq := rfl
  keysA_eq := rfl
  keysB_eq := rfl

theorem paperSodium_ideal (s : Session paperSodium (Block.zero 32) ones []) :
    Ideal s hello hello := by
  rw [Subsingleton.elim s paperSession]
  have hA : paperSodium.aead.dec paperSession.keysB.recvKey (nonceHead hello.nonce) []
      (paperSodium.aead.enc paperSession.keysA.sendKey (nonceHead hello.nonce) []
        hello.plaintext) = none := by decide
  have hB : paperSodium.aead.dec paperSession.keysA.recvKey (nonceHead hello.nonce) []
      (paperSodium.aead.enc paperSession.keysB.sendKey (nonceHead hello.nonce) []
        hello.plaintext) = none := by decide
  refine ⟨by decide, by decide, ?_, ?_⟩
  · intro m hm
    rw [hA] at hm
    cases hm
  · intro m hm
    rw [hB] at hm
    cases hm

/-- Zeros and ones greet each other in vain. -/
theorem endpoints_never_talk_paper :
    ¬ TwoEndpointsTalk paperSodium (Block.zero 32) ones [] hello hello :=
  endpoints_never_talk paperSodium (Block.zero 32) ones [] hello hello paperSodium_ideal

/-- What zeros send to ones fails its authentication there. -/
theorem greeting_not_opened :
    paperSodium.KxDocumented ∧
      (∀ s : Session paperSodium (Block.zero 32) ones [], Ideal s hello hello) ∧
      decrypt paperSodium (encrypt paperSodium paperSession.keysA.sendKey hello)
          paperSession.keysB.recvKey hello.messageCounter =
        .error "Decryption failed - authentication tag verification failed" ∧
      ¬ TwoEndpointsTalk paperSodium (Block.zero 32) ones [] hello hello := by
  refine ⟨paperSodium_documented, paperSodium_ideal, by decide, ?_⟩
  rintro ⟨s, hopen, _⟩
  exact (not_opens (paperSodium_ideal s)).1 hopen

end MessengerBackend.E2E
