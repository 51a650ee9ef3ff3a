/-
  Library: authenticated encryption against a log of sealings.

  A `Scheme` seals a message under a key, a nonce and associated data, and opens what it
  sealed (`Inverts`). No deterministic function opens only what was sealed: for every key
  there are ciphertexts nobody has made. So ideality is relative to a run: `Authentic log …`
  says that one attempt at opening succeeds only if the log of the run has a sealing with
  that key, nonce, data and ciphertext.

  Names nothing of the server.
-/
import Mathlib.Data.Set.Basic

namespace Aead

structure Scheme (K N A M C : Type) where
  enc : K → N → A → M → C
  dec : K → N → A → C → Option M

/-- One call of `enc`. -/
structure Sealing (K N A M : Type) where
  key : K
  nonce : N
  ad : A
  msg : M

variable {K N A M C : Type}

/-- Opening inverts sealing. -/
def Scheme.Inverts (S : Scheme K N A M C) : Prop :=
  ∀ k n a m, S.dec k n a (S.enc k n a m) = some m

/-- Opening `c` succeeds only for a sealing of the log. -/
def Scheme.Authentic (S : Scheme K N A M C) (log : Set (Sealing K N A M)) (k : K) (n : N) (a : A)
    (c : C) : Prop :=
  ∀ m, S.dec k n a c = some m → ⟨k, n, a, m⟩ ∈ log ∧ S.enc k n a m = c

variable {S : Scheme K N A M C} {log : Set (Sealing K N A M)} {k : K} {n : N} {a : A} {c : C}

/-- A key that sealed nothing opens nothing. -/
theorem Scheme.Authentic.none_of_key (h : S.Authentic log k n a c)
    (hk : ∀ s ∈ log, s.key ≠ k) : S.dec k n a c = none := by
  cases hd : S.dec k n a c with
  | none => rfl
  | some m => exact absurd rfl (hk _ (h m hd).1)

/-- What no sealing of the log under this key and nonce produced is not opened. -/
theorem Scheme.Authentic.none_of_fresh (h : S.Authentic log k n a c)
    (hc : ∀ s ∈ log, s.key = k → s.nonce = n → s.ad = a → S.enc k n a s.msg ≠ c) :
    S.dec k n a c = none := by
  cases hd : S.dec k n a c with
  | none => rfl
  | some m =>
      obtain ⟨hm, he⟩ := h m hd
      exact absurd he (hc _ hm rfl rfl rfl)

end Aead
