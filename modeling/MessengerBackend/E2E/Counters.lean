/-
  What the message counter does for a conversation.

  `encrypt` puts the counter into the first 8 bytes of the nonce and into `message_id`. The
  cipher reads those 8 bytes and no more, so the 4 random bytes behind them do not separate
  two calls with one counter (`nonceSeparated_iff`). `decrypt` is given the counter that the
  receiver expects and does not look at it: it accepts every message sealed under the key, in
  any order and as often as it arrives (`accepted_eq`), so a receiver that counts is protected
  from replays only while the messages happen to come in order (`replayProtected_iff`).
-/
import MessengerBackend.E2E.RoundTrip

namespace MessengerBackend.E2E

/-! ## Deliveries -/

/-- The next `k` counters from `n`. -/
def counters : UInt64 → Nat → List UInt64
  | _, 0 => []
  | n, k + 1 => n :: counters (n + 1) k

/-- What a receiver accepts that expects `n` first and adds one after each success, next to
    the counter it called `decrypt` with. -/
def accepted (S : Sodium) (key : Block 32) : UInt64 → List EncryptCall →
    List (UInt64 × EncryptCall)
  | _, [] => []
  | n, e :: es =>
      match decrypt S (encrypt S key e) key n with
      | .ok _ => (n, e) :: accepted S key (n + 1) es
      | .error _ => accepted S key n es

/-- Every accepted message was encrypted with the counter that was expected. -/
def ReplayProtected (S : Sodium) (key : Block 32) (n : UInt64) (deliveries : List EncryptCall) :
    Prop :=
  ∀ x ∈ accepted S key n deliveries, x.2.messageCounter = x.1

/-- The deliveries carry the counters from `n` on, one after the other. -/
def Consecutive : UInt64 → List EncryptCall → Prop
  | _, [] => True
  | n, e :: es => e.messageCounter = n ∧ Consecutive (n + 1) es

theorem mem_counters {n c : UInt64} {k : Nat} :
    c ∈ counters n k ↔ ∃ i < k, c = n + UInt64.ofNat i := by
  induction k generalizing n with
  | zero => simp [counters]
  | succ k ih =>
      rw [counters, List.mem_cons, ih]
      constructor
      · rintro (rfl | ⟨i, hi, rfl⟩)
        · exact ⟨0, by omega, by simp⟩
        · exact ⟨i + 1, by omega, by rw [UInt64.ofNat_add, UInt64.add_assoc]; grind⟩
      · rintro ⟨i, hi, rfl⟩
        cases i with
        | zero => exact Or.inl (by simp)
        | succ i =>
            refine Or.inr ⟨i, by omega, ?_⟩
            rw [UInt64.ofNat_add, UInt64.add_assoc]
            grind

/-- The counter has 64 bits. -/
theorem nodup_counters {n : UInt64} {k : Nat} (h : k ≤ 2 ^ 64) : (counters n k).Nodup := by
  induction k generalizing n with
  | zero => exact List.nodup_nil
  | succ k ih =>
      rw [counters, List.nodup_cons]
      refine ⟨fun hmem => ?_, ih (by omega)⟩
      obtain ⟨i, hi, heq⟩ := mem_counters.mp hmem
      have hnat := congrArg UInt64.toNat heq
      rw [UInt64.toNat_add, UInt64.toNat_add, UInt64.toNat_ofNat'] at hnat
      have hlt := n.toNat_lt
      have hone : (1 : UInt64).toNat = 1 := rfl
      omega

section Receiver

variable {S : Sodium} {key : Block 32}

/-- The receiver's counter goes up by one with each message it accepts. -/
theorem expected_accepted (n : UInt64) (es : List EncryptCall) :
    (accepted S key n es).map Prod.fst = counters n (accepted S key n es).length := by
  induction es generalizing n with
  | nil => rfl
  | cons e es ih =>
      unfold accepted
      split
      · rw [List.map_cons, ih, List.length_cons, counters]
      · exact ih n

theorem length_accepted_le (n : UInt64) (es : List EncryptCall) :
    (accepted S key n es).length ≤ es.length := by
  induction es generalizing n with
  | nil => exact Nat.le_refl 0
  | cons e es ih =>
      unfold accepted
      split
      · exact Nat.succ_le_succ (ih (n + 1))
      · exact Nat.le_succ_of_le (ih n)

/-- Nothing is refused. -/
theorem accepted_cons (hS : S.aead.Inverts) (n : UInt64) (e : EncryptCall)
    (es : List EncryptCall) :
    accepted S key n (e :: es) = (n, e) :: accepted S key (n + 1) es := by
  rw [accepted, decrypt_encrypt hS]

/-- A protected receiver has accepted the counters from `n` on, in order and each once. -/
theorem ReplayProtected.in_order {n : UInt64} {es : List EncryptCall}
    (h : ReplayProtected S key n es) :
    (accepted S key n es).map (fun x => x.2.messageCounter) =
      counters n (accepted S key n es).length := by
  rw [← expected_accepted]
  exact List.map_congr_left h

end Receiver

/-- A receiver is protected from replays if and only if the messages are delivered in the
    order of their counters, from the one it expects and without a gap or a repetition; then
    no counter is accepted twice among 2^64 deliveries. -/
theorem replayProtected_iff (S : Sodium) (hS : S.aead.Inverts) (key : Block 32) (n : UInt64)
    (deliveries : List EncryptCall) :
    (ReplayProtected S key n deliveries ↔ Consecutive n deliveries) ∧
      (ReplayProtected S key n deliveries →
        (accepted S key n deliveries).map (fun x => x.2.messageCounter) =
            counters n (accepted S key n deliveries).length ∧
          (deliveries.length ≤ 2 ^ 64 →
            ((accepted S key n deliveries).map (fun x => x.2.messageCounter)).Nodup)) := by
  constructor
  · induction deliveries generalizing n with
    | nil => exact ⟨fun _ => trivial, fun _ x hx => nomatch hx⟩
    | cons e es ih =>
        have hcons : ReplayProtected S key n (e :: es) ↔
            e.messageCounter = n ∧ ReplayProtected S key (n + 1) es := by
          unfold ReplayProtected
          rw [accepted_cons hS, List.forall_mem_cons]
        rw [hcons, ih, Consecutive]
  · intro h
    have horder := h.in_order
    refine ⟨horder, fun hlen => ?_⟩
    rw [horder]
    exact nodup_counters ((length_accepted_le n deliveries).trans hlen)

/-- The second message. -/
def reply : EncryptCall := ⟨[121, 111], 1, 5, ⟨[9, 8, 7, 6], rfl⟩⟩

/-- Two messages are protected in the order of their counters, and the other way round are not. -/
theorem replayProtected_iff_hello : ReplayProtected paperSodium ones 0 [hello, reply] ∧
    ¬ ReplayProtected paperSodium ones 0 [reply, hello] := by
  have hiff := fun es => (replayProtected_iff paperSodium paperSodium_inverts ones 0 es).1
  rw [hiff, hiff]
  exact ⟨⟨rfl, rfl, trivial⟩, fun h => absurd h.1 (by decide)⟩

/-- The greeting delivered twice is accepted twice. -/
theorem replayed : paperSodium.aead.Inverts ∧
    accepted paperSodium ones 0 [hello, hello] = [(0, hello), (1, hello)] ∧
    ¬ ReplayProtected paperSodium ones 0 [hello, hello] := by
  have htwice : accepted paperSodium ones 0 [hello, hello] = [(0, hello), (1, hello)] := by
    rw [accepted_cons paperSodium_inverts, accepted_cons paperSodium_inverts]
    rfl
  refine ⟨paperSodium_inverts, htwice, fun hprotected => ?_⟩
  unfold ReplayProtected at hprotected
  rw [htwice] at hprotected
  exact absurd (hprotected (1, hello) (by simp)) (by decide)

/-! ## Nonces -/

/-- The nonce that the cipher uses in a call of `encrypt`. -/
def aeadNonce (S : Sodium) (key : Block 32) (e : EncryptCall) : Block 8 :=
  nonceHead (encrypt S key e).nonce

/-- Two calls use one nonce only if their nonce fields are equal. -/
def NonceSeparated (S : Sodium) (key : Block 32) (calls : List EncryptCall) : Prop :=
  ∀ e ∈ calls, ∀ e' ∈ calls, aeadNonce S key e = aeadNonce S key e' →
    (encrypt S key e).nonce = (encrypt S key e').nonce

/-- The cipher's part of the nonce is the counter. -/
theorem aeadNonce_eq (S : Sodium) (key : Block 32) (e : EncryptCall) :
    aeadNonce S key e = Block.ofUInt64 e.messageCounter := by
  apply Block.ext
  show ((Block.ofUInt64 e.messageCounter).1 ++ e.random.1).take 8 = _
  rw [List.take_left' (Block.ofUInt64 e.messageCounter).2]

theorem aeadNonce_inj {S : Sodium} {key : Block 32} {e e' : EncryptCall} :
    aeadNonce S key e = aeadNonce S key e' ↔ e.messageCounter = e'.messageCounter := by
  rw [aeadNonce_eq, aeadNonce_eq]
  constructor
  · intro h
    have := congrArg Block.toUInt64 h
    rwa [Block.toUInt64_ofUInt64, Block.toUInt64_ofUInt64] at this
  · intro h
    rw [h]

/-- The field is the counter and the random bytes. -/
theorem nonce_inj {S : Sodium} {key : Block 32} {e e' : EncryptCall} :
    (encrypt S key e).nonce = (encrypt S key e').nonce ↔
      e.messageCounter = e'.messageCounter ∧ e.random = e'.random := by
  constructor
  · intro h
    have hval : (Block.ofUInt64 e.messageCounter).1 ++ e.random.1 =
        (Block.ofUInt64 e'.messageCounter).1 ++ e'.random.1 := congrArg Subtype.val h
    obtain ⟨hcounter, hrandom⟩ := List.append_inj hval (by simp)
    have hc := congrArg Block.toUInt64 (Block.ext hcounter)
    rw [Block.toUInt64_ofUInt64, Block.toUInt64_ofUInt64] at hc
    exact ⟨hc, Block.ext hrandom⟩
  · rintro ⟨hc, hr⟩
    show e.nonce = e'.nonce
    rw [EncryptCall.nonce, EncryptCall.nonce, hc, hr]

/-- The nonces of a history are separated if and only if calls with one counter drew the same
    random bytes. -/
theorem nonceSeparated_iff (S : Sodium) (key : Block 32) (calls : List EncryptCall) :
    NonceSeparated S key calls ↔ ∀ e ∈ calls, ∀ e' ∈ calls,
      e.messageCounter = e'.messageCounter → e.random = e'.random := by
  unfold NonceSeparated
  constructor
  · intro h e he e' he' hc
    exact (nonce_inj.mp (h e he e' he' (aeadNonce_inj.mpr hc))).2
  · intro h e he e' he' hn
    have hc := aeadNonce_inj.mp hn
    exact nonce_inj.mpr ⟨hc, h e he e' he' hc⟩

/-- The greeting after a restart: the counter begins again, the random bytes are new. -/
def helloAgain : EncryptCall := { hello with random := ⟨[1, 2, 3, 4], rfl⟩ }

/-- The two greetings have different nonce fields and share the nonce of the cipher. -/
theorem nonce_repeated :
    (encrypt paperSodium ones hello).nonce ≠ (encrypt paperSodium ones helloAgain).nonce ∧
      aeadNonce paperSodium ones hello = aeadNonce paperSodium ones helloAgain ∧
      ¬ NonceSeparated paperSodium ones [hello, helloAgain] := by
  have hfields : (encrypt paperSodium ones hello).nonce ≠
      (encrypt paperSodium ones helloAgain).nonce :=
    fun h => absurd (nonce_inj.mp h).2 (by decide)
  have hshared : aeadNonce paperSodium ones hello = aeadNonce paperSodium ones helloAgain :=
    aeadNonce_inj.mpr rfl
  exact ⟨hfields, hshared, fun hsep => hfields (hsep hello (by simp) helloAgain (by simp) hshared)⟩

end MessengerBackend.E2E
