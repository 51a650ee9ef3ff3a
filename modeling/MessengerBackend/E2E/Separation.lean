/-
  What tells derived keys apart.

  `crypto_pwhash` reads a salt of 16 bytes. `deriveKey` is given 32 bytes of secret as its salt
  and copies the first 16 of them; the old root is no input of `updateWithPeerKey` at all. So the
  second half of a secret leaves no trace in the next root (`ratchet_separates_iff`).

  `deriveSessionKeys` hashes the whole secret, and tells its keys apart by the salt string: cut or
  padded to 16 bytes for `send_key`, and with the first byte flipped for `recv_key`. Two salt
  strings that are the same after that give the same keys, and two that differ by that flip give
  the same keys the other way round (`session_keys_separated_iff`).
-/
import MessengerBackend.E2E.Ratchet

namespace MessengerBackend.E2E

/-! ## The inputs of a derivation -/

/-- What a call hands to `crypto_pwhash`. -/
structure PwInput where
  limits : PwLimits
  keyLength : Nat
  password : Bytes
  salt : Block 16
deriving DecidableEq

def Sodium.run (S : Sodium) (x : PwInput) : Option (Block x.keyLength) :=
  S.pwhash x.limits x.keyLength x.password x.salt

/-- The input of `deriveKey` for a secret in the place of the salt. -/
def deriveInput (password : Bytes) (secret : Block 32) : PwInput where
  limits := .interactive
  keyLength := 32
  password := password
  salt := Block.ofTake 16 secret.1 (DoubleRatchet.saltLength secret)

theorem run_deriveInput {S : Sodium} {password : Bytes} {secret key : Block 32}
    (h : deriveKey S password secret.1 (DoubleRatchet.saltLength secret) 32 = .ok key) :
    S.run (deriveInput password secret) = some key := by
  unfold deriveKey at h
  split at h
  · cases h
  · rename_i root hroot
    rw [← Except.ok.inj h, ← hroot]
    rfl

/-- The salt is the first half of the secret. -/
theorem deriveInput_salt {x y : Block 32} (h : x.1.take 16 = y.1.take 16) :
    Block.ofTake 16 x.1 (DoubleRatchet.saltLength x) =
      Block.ofTake 16 y.1 (DoubleRatchet.saltLength y) := Block.ext h

theorem deriveInput_eq_iff {password : Bytes} {x y : Block 32} :
    deriveInput password x = deriveInput password y ↔ x.1.take 16 = y.1.take 16 := by
  constructor
  · intro h
    exact congrArg (fun input => input.salt.1) h
  · intro h
    unfold deriveInput
    rw [deriveInput_salt h]

theorem run_deriveInput_congr (S : Sodium) (password : Bytes) {x y : Block 32}
    (h : x.1.take 16 = y.1.take 16) :
    S.run (deriveInput password x) = S.run (deriveInput password y) :=
  congrArg (S.pwhash .interactive 32 password) (deriveInput_salt h)

namespace DoubleRatchet

def forwardInput (r : DoubleRatchet) : PwInput := deriveInput (utf8 "root_ratchet") r.rootKey

def updateInput (S : Sodium) (r : DoubleRatchet) (peerKey : Block 32) : Except String PwInput :=
  (computeSharedSecret S r.dhSendPrivate peerKey).map (deriveInput (utf8 "dh_ratchet"))

variable {S : Sodium} {r r' r₁ r₁' : DoubleRatchet} {peerKey peerKey' secret secret' : Block 32}

theorem ratchetForward_run (h : settled (r.ratchetForward S) = .ok r₁) :
    S.run r.forwardInput = some r₁.rootKey := by
  obtain ⟨hr, _, hres⟩ := settled_ok h
  unfold ratchetForward at hr hres
  dsimp only at hr hres
  split at hr
  · rename_i hroot
    rw [hroot] at hres
    cases hres
  · rename_i root hroot
    rw [← hr]
    exact run_deriveInput hroot

theorem updateWithPeerKey_run (h : settled (r.updateWithPeerKey S peerKey) = .ok r₁) :
    ∃ secret, computeSharedSecret S r.dhSendPrivate peerKey = .ok secret ∧
      S.run (deriveInput (utf8 "dh_ratchet") secret) = some r₁.rootKey := by
  obtain ⟨_, _, secret, hsecret, hroot⟩ := updateWithPeerKey_ok h
  exact ⟨secret, hsecret, run_deriveInput hroot⟩

/-! ## The two ratchet steps -/

/-- Two roots with the same first half go on to the same root. -/
theorem forward_merges (hr : settled (r.ratchetForward S) = .ok r₁)
    (hr' : settled (r'.ratchetForward S) = .ok r₁')
    (h : r.rootKey.1.take 16 = r'.rootKey.1.take 16) : r₁.rootKey = r₁'.rootKey := by
  have hrun := ratchetForward_run hr
  have hrun' := ratchetForward_run hr'
  unfold forwardInput at hrun
  rw [run_deriveInput_congr S _ h] at hrun
  exact Option.some.inj (hrun.symm.trans hrun')

/-- So do two secrets with the same first half, whatever the roots were. -/
theorem update_merges (hr : settled (r.updateWithPeerKey S peerKey) = .ok r₁)
    (hr' : settled (r'.updateWithPeerKey S peerKey') = .ok r₁')
    (hsecret : computeSharedSecret S r.dhSendPrivate peerKey = .ok secret)
    (hsecret' : computeSharedSecret S r'.dhSendPrivate peerKey' = .ok secret')
    (h : secret.1.take 16 = secret'.1.take 16) : r₁.rootKey = r₁'.rootKey := by
  obtain ⟨x, hx, hrun⟩ := updateWithPeerKey_run hr
  obtain ⟨y, hy, hrun'⟩ := updateWithPeerKey_run hr'
  obtain rfl := Except.ok.inj (hx.symm.trans hsecret)
  obtain rfl := Except.ok.inj (hy.symm.trans hsecret')
  rw [run_deriveInput_congr S _ h] at hrun
  exact Option.some.inj (hrun.symm.trans hrun')

/-- Different roots go on to different inputs. -/
def ForwardSeparates (r r' : DoubleRatchet) : Prop :=
  r.rootKey ≠ r'.rootKey → r.forwardInput ≠ r'.forwardInput

/-- Different roots go on to different inputs, and so do different secrets. -/
def UpdateSeparates (S : Sodium) (r r' : DoubleRatchet) (peerKey peerKey' : Block 32) : Prop :=
  r.rootKey ≠ r'.rootKey ∨ computeSharedSecret S r.dhSendPrivate peerKey ≠
      computeSharedSecret S r'.dhSendPrivate peerKey' →
    updateInput S r peerKey ≠ updateInput S r' peerKey'

theorem forwardSeparates_iff : ForwardSeparates r r' ↔
    r.rootKey = r'.rootKey ∨ r.rootKey.1.take 16 ≠ r'.rootKey.1.take 16 := by
  unfold ForwardSeparates forwardInput
  rw [Ne, Ne, deriveInput_eq_iff, or_iff_not_imp_left]

theorem updateSeparates_iff (hsecret : computeSharedSecret S r.dhSendPrivate peerKey = .ok secret)
    (hsecret' : computeSharedSecret S r'.dhSendPrivate peerKey' = .ok secret') :
    UpdateSeparates S r r' peerKey peerKey' ↔
      (r.rootKey = r'.rootKey ∧ secret = secret') ∨ secret.1.take 16 ≠ secret'.1.take 16 := by
  unfold UpdateSeparates updateInput
  rw [hsecret, hsecret', Except.map, Except.map, Ne, Ne, Ne, Except.ok.injEq, Except.ok.injEq,
    deriveInput_eq_iff, ← not_and_or, or_iff_not_imp_left]

/-- A forward step separates two roots if and only if they are equal or differ in the first half,
    and an update if and only if the roots and the secrets are equal or the secrets differ in the
    first half. -/
theorem ratchet_separates_iff (S : Sodium) (r r' : DoubleRatchet)
    (peerKey peerKey' secret secret' : Block 32)
    (hsecret : computeSharedSecret S r.dhSendPrivate peerKey = .ok secret)
    (hsecret' : computeSharedSecret S r'.dhSendPrivate peerKey' = .ok secret') :
    (ForwardSeparates r r' ↔
      r.rootKey = r'.rootKey ∨ r.rootKey.1.take 16 ≠ r'.rootKey.1.take 16) ∧
    (UpdateSeparates S r r' peerKey peerKey' ↔
      (r.rootKey = r'.rootKey ∧ secret = secret') ∨ secret.1.take 16 ≠ secret'.1.take 16) :=
  ⟨forwardSeparates_iff, updateSeparates_iff hsecret hsecret'⟩

/-- 16 zeros and 16 ones. -/
def halfOnes : Block 32 := ⟨List.replicate 16 0 ++ List.replicate 16 1, by decide⟩

/-- A ratchet from the zero secret and one from `halfOnes`, between the same two parties. -/
def zeroRatchet : DoubleRatchet :=
  ofSecret (Block.zero 32) (generateKeypair paperSodium (Block.zero 32))

def halfRatchet : DoubleRatchet := ofSecret halfOnes (generateKeypair paperSodium (Block.zero 32))

theorem ratchet_separates_iff_paper :
    ¬ ForwardSeparates zeroRatchet halfRatchet ∧
      ¬ UpdateSeparates paperSodium zeroRatchet halfRatchet ones ones := by
  have hiff := ratchet_separates_iff paperSodium zeroRatchet halfRatchet ones ones
    (Block.zero 32) (Block.zero 32) rfl rfl
  rw [hiff.1, hiff.2]
  decide

/-- The two roots go on to one input, and after a key of ones too. -/
theorem second_half_lost :
    zeroRatchet.rootKey ≠ halfRatchet.rootKey ∧
      zeroRatchet.forwardInput = halfRatchet.forwardInput ∧
      updateInput paperSodium zeroRatchet ones = updateInput paperSodium halfRatchet ones ∧
      ¬ ForwardSeparates zeroRatchet halfRatchet ∧
      ¬ UpdateSeparates paperSodium zeroRatchet halfRatchet ones ones := by
  have hroot : zeroRatchet.rootKey ≠ halfRatchet.rootKey := by decide
  have hforward : zeroRatchet.forwardInput = halfRatchet.forwardInput :=
    deriveInput_eq_iff.mpr (by decide)
  have hupdate : updateInput paperSodium zeroRatchet ones = updateInput paperSodium halfRatchet ones :=
    rfl
  exact ⟨hroot, hforward, hupdate, fun hsep => hsep hroot hforward,
    fun hsep => hsep (Or.inl hroot) hupdate⟩

end DoubleRatchet

/-! ## The session keys -/

/-- The hash of `deriveSessionKeys` tells the salts of a secret apart. -/
def SaltInjective (S : Sodium) (secret : Block 32) : Prop :=
  ∀ x y : Block 16, (S.sessionHash (secret, x)).isSome = true →
    S.sessionHash (secret, x) = S.sessionHash (secret, y) → x = y

/-- The 2nd to the 16th byte are the same, where a byte that is missing counts as 0. -/
def SameTail (s s' : Bytes) : Prop := ∀ i, 1 ≤ i → i < 16 → s.getD i 0 = s'.getD i 0

/-- A byte after the first is different, or the first bytes are neither equal nor each other's
    complement. -/
def Separated (s s' : Bytes) : Prop :=
  ¬ SameTail s s' ∨ (s.getD 0 0 ≠ s'.getD 0 0 ∧ s.getD 0 0 ≠ s'.getD 0 0 ^^^ 0xFF)

section Salts

variable {s s' : Bytes} {x y : Block 16}

theorem salt_eq_iff : x = y ↔ SameTail x.1 y.1 ∧ x.1.getD 0 0 = y.1.getD 0 0 := by
  constructor
  · rintro rfl
    exact ⟨fun i _ _ => rfl, rfl⟩
  · rintro ⟨htail, hfirst⟩
    refine Block.ext_getD fun i hi => ?_
    rcases Nat.eq_zero_or_pos i with rfl | hpos
    · exact hfirst
    · exact htail i hpos hi

theorem getD_saltBytes {i : Nat} (h : i < 16) : (saltBytes s).1.getD i 0 = s.getD i 0 :=
  Block.getD_pad h s

theorem getD_modifiedSalt_zero : (modifiedSalt x).1.getD 0 0 = x.1.getD 0 0 ^^^ 0xFF := by
  have hlen : 0 < x.1.length := by simp
  show (x.1.modify 0 (· ^^^ 0xFF)).getD 0 0 = _
  rw [List.getD_eq_getElem _ _ (by simp), List.getD_eq_getElem _ _ hlen]
  simp

theorem getD_modifiedSalt {i : Nat} (h : 1 ≤ i) :
    (modifiedSalt x).1.getD i 0 = x.1.getD i 0 := by
  show (x.1.modify 0 (· ^^^ 0xFF)).getD i 0 = _
  rw [List.getD_eq_getElem?_getD, List.getElem?_modify_ne _ _ (by omega),
    List.getD_eq_getElem?_getD]

theorem modifiedSalt_modifiedSalt : modifiedSalt (modifiedSalt x) = x := by
  rw [salt_eq_iff, getD_modifiedSalt_zero, getD_modifiedSalt_zero, UInt8.xor_assoc, UInt8.xor_self,
    UInt8.xor_zero]
  exact ⟨fun i hpos _ => by rw [getD_modifiedSalt hpos, getD_modifiedSalt hpos], rfl⟩

theorem modifiedSalt_eq_iff : modifiedSalt x = y ↔ x = modifiedSalt y := by
  constructor
  · rintro rfl
    rw [modifiedSalt_modifiedSalt]
  · rintro rfl
    rw [modifiedSalt_modifiedSalt]

theorem saltBytes_eq_iff :
    saltBytes s = saltBytes s' ↔ SameTail s s' ∧ s.getD 0 0 = s'.getD 0 0 := by
  rw [salt_eq_iff, getD_saltBytes (by omega), getD_saltBytes (by omega)]
  refine and_congr_left' (forall₃_congr fun i _ hi => ?_)
  rw [getD_saltBytes hi, getD_saltBytes hi]

theorem saltBytes_eq_modifiedSalt_iff : saltBytes s = modifiedSalt (saltBytes s') ↔
    SameTail s s' ∧ s.getD 0 0 = s'.getD 0 0 ^^^ 0xFF := by
  rw [salt_eq_iff, getD_modifiedSalt_zero, getD_saltBytes (by omega), getD_saltBytes (by omega)]
  refine and_congr_left' (forall₃_congr fun i hpos hi => ?_)
  rw [getD_modifiedSalt hpos, getD_saltBytes hi, getD_saltBytes hi]

/-- The two salts of one string and the two of another are four. -/
theorem separated_iff : Separated s s' ↔
    saltBytes s ≠ saltBytes s' ∧ saltBytes s ≠ modifiedSalt (saltBytes s') := by
  unfold Separated
  rw [Ne, Ne, Ne, Ne, saltBytes_eq_iff, saltBytes_eq_modifiedSalt_iff, not_and_or, not_and_or,
    or_and_left]

end Salts

/-- Keys are as different as the salts that they were derived with. -/
theorem key_eq_iff {S : Sodium} {secret key key' : Block 32} {x y : Block 16}
    (hash : SaltInjective S secret) (hx : S.sessionHash (secret, x) = some key)
    (hy : S.sessionHash (secret, y) = some key') : key = key' ↔ x = y := by
  constructor
  · rintro rfl
    exact hash x y (by rw [hx]; rfl) (hx.trans hy.symm)
  · rintro rfl
    exact Option.some.inj (hx.symm.trans hy)

/-- The flipped byte separates the two directions of one salt. -/
theorem sendKey_ne_recvKey {S : Sodium} {secret : Block 32} {s : Bytes} {keys : SessionKeys}
    (hash : SaltInjective S secret) (hk : deriveSessionKeys S secret s = .ok keys) :
    keys.sendKey ≠ keys.recvKey := by
  obtain ⟨hsend, hrecv⟩ := deriveSessionKeys_ok S hk
  rw [Ne, key_eq_iff hash hsend hrecv]
  exact (modifiedSalt_ne (saltBytes s)).symm

/-- The four keys of two salt strings are pairwise different if and only if the salt strings are
    separated. -/
theorem session_keys_separated_iff (S : Sodium) (secret : Block 32) (s s' : Bytes)
    (keys keys' : SessionKeys) (hash : SaltInjective S secret)
    (hk : deriveSessionKeys S secret s = .ok keys)
    (hk' : deriveSessionKeys S secret s' = .ok keys') :
    [keys.sendKey, keys.recvKey, keys'.sendKey, keys'.recvKey].Nodup ↔ Separated s s' := by
  obtain ⟨hsend, hrecv⟩ := deriveSessionKeys_ok S hk
  obtain ⟨hsend', hrecv'⟩ := deriveSessionKeys_ok S hk'
  have hown := sendKey_ne_recvKey hash hk
  have hown' := sendKey_ne_recvKey hash hk'
  have hsendSend := key_eq_iff hash hsend hsend'
  have hsendRecv := key_eq_iff hash hsend hrecv'
  have hrecvSend := (key_eq_iff hash hrecv hsend').trans modifiedSalt_eq_iff
  have hrecvRecv := (key_eq_iff hash hrecv hrecv').trans modifiedSalt_eq_iff
  rw [modifiedSalt_modifiedSalt] at hrecvRecv
  rw [separated_iff, Ne, Ne, ← hsendSend, ← hsendRecv]
  simp only [List.nodup_cons, List.mem_cons, List.not_mem_nil, or_false, not_or, not_false_eq_true,
    List.nodup_nil, and_true]
  constructor
  · rintro ⟨⟨_, hss, hsr⟩, _, _⟩
    exact ⟨hss, hsr⟩
  · rintro ⟨hss, hsr⟩
    refine ⟨⟨hown, hss, hsr⟩, ⟨?_, ?_⟩, hown'⟩
    · rwa [hrecvSend, ← hsendRecv]
    · rwa [hrecvRecv, ← hsendSend]

/-! ## Salts on paper -/

theorem paperSodium_saltInjective (secret : Block 32) : SaltInjective paperSodium secret := by
  intro x y _ heq
  have hval (z : Block 16) :
      (Block.pad 32 (secret.1.take 16 ++ z.1)).1 = secret.1.take 16 ++ z.1 := by
    show (secret.1.take 16 ++ z.1).take 32 ++ _ = _
    rw [List.take_of_length_le (by simp)]
    simp
  have hpad := congrArg Subtype.val (Option.some.inj heq)
  rw [hval, hval] at hpad
  exact Block.ext (List.append_cancel_left hpad)

def paperKeys (secret : Block 32) (s : Bytes) : SessionKeys where
  sendKey := Block.pad 32 (secret.1.take 16 ++ (saltBytes s).1)
  recvKey := Block.pad 32 (secret.1.take 16 ++ (modifiedSalt (saltBytes s)).1)

theorem deriveSessionKeys_paper (secret : Block 32) (s : Bytes) :
    deriveSessionKeys paperSodium secret s = .ok (paperKeys secret s) := rfl

/-- Two one-letter salts are separated. -/
theorem session_keys_separated_iff_paper :
    [(paperKeys ones [97]).sendKey, (paperKeys ones [97]).recvKey,
      (paperKeys ones [98]).sendKey, (paperKeys ones [98]).recvKey].Nodup :=
  (session_keys_separated_iff paperSodium ones [97] [98] (paperKeys ones [97])
    (paperKeys ones [98]) (paperSodium_saltInjective ones) (deriveSessionKeys_paper ones [97])
    (deriveSessionKeys_paper ones [98])).mpr (Or.inr (by decide))

/-- Two salts of 17 bytes that differ in the last one give the same two keys. -/
theorem salts_cut : SaltInjective paperSodium ones ∧
    utf8 "conversation-2024" ≠ utf8 "conversation-2025" ∧
    ∃ keys, deriveSessionKeys paperSodium ones (utf8 "conversation-2024") = .ok keys ∧
      deriveSessionKeys paperSodium ones (utf8 "conversation-2025") = .ok keys ∧
      ¬ [keys.sendKey, keys.recvKey, keys.sendKey, keys.recvKey].Nodup := by
  have hcut : saltBytes (utf8 "conversation-2024") = saltBytes (utf8 "conversation-2025") := by decide
  refine ⟨paperSodium_saltInjective ones, by decide, paperKeys ones (utf8 "conversation-2024"),
    deriveSessionKeys_paper ones _, ?_, by decide⟩
  rw [deriveSessionKeys_paper, paperKeys, paperKeys, hcut]

end MessengerBackend.E2E
