/-
  How many texts one token has.

  `verify` compares decoded bytes, and the decoder is lenient: it takes both alphabets, skips
  what is in neither, stops without an error, and drops the two spare bits of the last letter.

  * `spelledOut_iff_canonical`: an accepted token has the one spelling that `create` gives it
    exactly if its signature is 43 letters of the URL alphabet without spare bits.
  * `verify_padded`: every token that `create` makes has another one (`padded_accepted`).
-/
import MessengerBackend.Auth.Session
import MessengerBackend.Auth.Token

namespace MessengerBackend.Jwt

/-! ## Sextets -/

/-- The last letter has two spare bits if two bytes are left. -/
theorem last_sextets {bs : Bytes} (h : bs.length % 3 = 2) :
    ∃ v, (sextets bs).getLast? = some v ∧ v % 4 = 0 := by
  induction bs using sextets.induct with
  | case1 b0 b1 b2 rest ih =>
      obtain ⟨v, hv, hspare⟩ := ih (by simp only [List.length_cons] at h; omega)
      refine ⟨v, ?_, hspare⟩
      simp only [sextets, List.getLast?_cons, hv, Option.getD_some]
  | case2 b0 b1 => exact ⟨b1.toNat % 16 * 4, rfl, by omega⟩
  | case3 b0 => exact absurd h (by simp)
  | case4 => exact absurd h (by simp)

/-! ## Writing again what was read -/

theorem toNat_ofNat_of_lt {n : Nat} (h : n < 256) : (UInt8.ofNat n).toNat = n := by
  rw [UInt8.toNat_ofNat', Nat.mod_eq_of_lt h]

theorem exists_four {α : Type} {l : List α} (h : 4 ≤ l.length) :
    ∃ a b c d rest, l = a :: b :: c :: d :: rest := by
  have hsplit := List.take_append_drop 4 l
  have hfour : (l.take 4).length = 4 := List.length_take_of_le h
  rw [List.length_eq_four] at hfour
  obtain ⟨a, b, c, d, heq⟩ := hfour
  exact ⟨a, b, c, d, l.drop 4, by rw [← hsplit, heq]; simp⟩

/-- Without spare bits no letter says more than the bytes do. The induction is on the whole
    groups before the last three letters. -/
theorem sextets_decodeGroups (k : Nat) : ∀ vs : List Nat, vs.length = 4 * k + 3 →
    (∀ v ∈ vs, v < 64) → (∀ v, vs.getLast? = some v → v % 4 = 0) →
    sextets (decodeGroups (padded (vs.map letter))) = vs := by
  have hpad : sextet 61 = none := by decide
  induction k with
  | zero =>
      intro vs hlen hlt hlast
      obtain ⟨a, b, c, rfl⟩ := List.length_eq_three.mp hlen
      have ha : a < 64 := hlt a (by simp)
      have hb : b < 64 := hlt b (by simp)
      have hc : c < 64 := hlt c (by simp)
      have hspare : c % 4 = 0 := hlast c rfl
      have hpadded : padded ([a, b, c].map letter) = [letter a, letter b, letter c, 61] := rfl
      rw [hpadded]
      simp only [decodeGroups, sextet_letter ha, sextet_letter hb, sextet_letter hc, hpad,
        Option.map_some, Option.map_none, Option.toList_some, Option.toList_none,
        List.append_nil, sextets]
      rw [toNat_ofNat_of_lt (by omega), toNat_ofNat_of_lt (by omega)]
      congr 1
      · omega
      · congr 1
        · omega
        · congr 1
          omega
  | succ k ih =>
      intro vs hlen hlt hlast
      obtain ⟨a, b, c, d, rest, rfl⟩ := exists_four (by omega : 4 ≤ vs.length)
      have ha : a < 64 := hlt a (by simp)
      have hb : b < 64 := hlt b (by simp)
      have hc : c < 64 := hlt c (by simp)
      have hd : d < 64 := hlt d (by simp)
      have hrest : rest.length = 4 * k + 3 := by
        simp only [List.length_cons] at hlen
        omega
      have hmore := ih rest hrest (fun v hv => hlt v (by simp [hv])) (fun v hv => hlast v (by
        simp only [List.getLast?_cons, hv, Option.getD_some]))
      simp only [List.map_cons]
      rw [padded_group]
      simp only [decodeGroups, sextet_letter ha, sextet_letter hb, sextet_letter hc,
        sextet_letter hd, low2, Option.map_some, Option.getD_some, Option.toList_some,
        List.singleton_append, sextets, hmore]
      rw [toNat_ofNat_of_lt (by omega), toNat_ofNat_of_lt (by omega),
        toNat_ofNat_of_lt (by omega)]
      congr 1
      · omega
      · congr 1
        · omega
        · congr 1
          · omega
          · congr 1
            omega

/-! ## Signatures -/

/-- 43 letters of the URL alphabet, the last one without spare bits. -/
def Canonical (sig : Bytes) : Prop :=
  sig.length = 43 ∧ (∀ c ∈ sig, c ≠ 43 ∧ c ≠ 47 ∧ (sextet (plainAlphabet c)).isSome = true) ∧
    ∀ c, sig.getLast? = some c → ((sextet (plainAlphabet c)).getD 0) % 4 = 0

/-- A byte of the URL alphabet is the letter of its value. -/
theorem urlLetter_sextet (c : UInt8) : c ≠ 43 → c ≠ 47 → ∀ v, sextet (plainAlphabet c) = some v →
    v < 64 ∧ urlLetter v = c :=
  forall_byte (p := fun c => c ≠ 43 → c ≠ 47 → ∀ v ∈ sextet (plainAlphabet c),
    v < 64 ∧ urlLetter v = c) (by decide +kernel) c

theorem encode_decode {sig : Bytes} (h : Canonical sig) :
    base64urlEncode (base64urlDecodeStr sig) = sig := by
  obtain ⟨hlen, hurl, hlast⟩ := h
  let value : UInt8 → Nat := fun c => (sextet (plainAlphabet c)).getD 0
  have hvalue : ∀ c ∈ sig, value c < 64 ∧ urlLetter (value c) = c := by
    intro c hc
    obtain ⟨hplus, hslash, hsome⟩ := hurl c hc
    obtain ⟨v, hv⟩ := Option.isSome_iff_exists.mp hsome
    have hval : value c = v := by simp only [value, hv, Option.getD_some]
    rw [hval]
    exact urlLetter_sextet c hplus hslash v hv
  have hlt : ∀ v ∈ sig.map value, v < 64 := by
    intro v hv
    obtain ⟨c, hc, rfl⟩ := List.mem_map.mp hv
    exact (hvalue c hc).1
  have hsig : (sig.map value).map urlLetter = sig := by
    rw [List.map_map]
    exact (List.map_congr_left (fun c hc => (hvalue c hc).2)).trans (List.map_id' sig)
  have hspare : ∀ v, (sig.map value).getLast? = some v → v % 4 = 0 := by
    intro v hv
    rw [List.getLast?_map] at hv
    obtain ⟨c, hc, rfl⟩ := Option.map_eq_some_iff.mp hv
    exact hlast c hc
  have hback := sextets_decodeGroups 10 (sig.map value) (by rw [List.length_map, hlen]) hlt hspare
  rw [base64urlEncode_eq]
  unfold base64urlDecodeStr
  have hplain : sig.map plainAlphabet = (sig.map value).map letter := by
    rw [← map_plainAlphabet hlt, hsig]
  rw [hplain, hback, hsig]

theorem canonical_encode {bs : Bytes} (h : bs.length = 32) : Canonical (base64urlEncode bs) := by
  have hvalue : ∀ v, v < 64 → sextet (plainAlphabet (urlLetter v)) = some v := by
    intro v hv
    unfold urlLetter
    rw [plain_url_letter hv, sextet_letter hv]
  have hurl : ∀ v : Fin 64, urlLetter v ≠ 43 ∧ urlLetter v ≠ 47 := by decide +kernel
  rw [base64urlEncode_eq]
  refine ⟨?_, fun c hc => ?_, fun c hc => ?_⟩
  · rw [List.length_map, length_sextets, h]
  · obtain ⟨v, hv, rfl⟩ := List.mem_map.mp hc
    have hlt := sextets_lt hv
    rw [hvalue v hlt]
    exact ⟨(hurl ⟨v, hlt⟩).1, (hurl ⟨v, hlt⟩).2, rfl⟩
  · obtain ⟨v, hv, hspare⟩ := last_sextets (show bs.length % 3 = 2 by rw [h])
    rw [List.getLast?_map, hv] at hc
    cases hc
    rw [hvalue v (sextets_lt (List.mem_of_getLast? hv)), Option.getD_some]
    exact hspare

/-! ## Tokens -/

/-- `hp` and `sig_b64`: the text before the second dot, and the text after it. -/
def splitSignature (token : Bytes) : Option (Bytes × Bytes) :=
  (splitDot token).bind (fun x => (splitDot x.2).map (fun y => (x.1 ++ 46 :: y.1, y.2)))

def signed (token : Bytes) : Bytes := ((splitSignature token).map Prod.fst).getD []

def signature (token : Bytes) : Bytes := ((splitSignature token).map Prod.snd).getD []

/-- Exactly two dots, and after them the signature as `create` writes it. -/
def SpelledOut (lib : Library) (secret token : Bytes) : Prop :=
  token.count 46 = 2 ∧ signature token = base64urlEncode (lib.hmac secret (signed token)).1

theorem splitDot_some {s a b : Bytes} (h : splitDot s = some (a, b)) :
    s = a ++ 46 :: b ∧ a.count 46 = 0 := by
  unfold splitDot at h
  split at h
  · cases h
  · rename_i c rest hdrop
    cases h
    have hdot : c = 46 := by
      have hhead := List.head?_dropWhile_not (fun b : UInt8 => decide (b ≠ 46)) s
      rw [hdrop] at hhead
      simpa using hhead
    subst hdot
    refine ⟨?_, ?_⟩
    · have happ := List.takeWhile_append_dropWhile (p := fun b : UInt8 => decide (b ≠ 46)) (l := s)
      rw [hdrop] at happ
      exact happ.symm
    · refine List.count_eq_zero.mpr (fun hmem => ?_)
      exact absurd (List.mem_takeWhile_imp hmem) (by decide)

/-- What an accepted token is made of. -/
theorem parts_of_verify {lib : Library} {secret token : Bytes} {now : Time}
    (h : verify lib secret token now ≠ "") :
    token = signed token ++ 46 :: signature token ∧ (signed token).count 46 = 1 ∧
      base64urlDecodeStr (signature token) = (lib.hmac secret (signed token)).1 := by
  unfold verify at h
  split at h
  · exact absurd rfl h
  · rename_i header rest hfirst
    split at h
    · exact absurd rfl h
    · rename_i payload sig hsecond
      have hparts : splitSignature token = some (header ++ 46 :: payload, sig) := by
        simp only [splitSignature, hfirst, hsecond, Option.bind_some, Option.map_some]
      have hsigned : signed token = header ++ 46 :: payload := by
        simp only [signed, hparts, Option.map_some, Option.getD_some]
      have hsig : signature token = sig := by
        simp only [signature, hparts, Option.map_some, Option.getD_some]
      obtain ⟨htoken, hheader⟩ := splitDot_some hfirst
      obtain ⟨hrest, hpayload⟩ := splitDot_some hsecond
      rw [hsigned, hsig]
      refine ⟨?_, ?_, ?_⟩
      · rw [htoken, hrest, List.append_assoc]
        rfl
      · rw [List.count_append, List.count_cons_self, hheader, hpayload]
      · dsimp only at h
        split at h
        · exact absurd rfl h
        · split at h
          · exact absurd rfl h
          · rename_i hmac
            exact not_not.mp hmac

/-- An accepted token is spelled as `create` does exactly if its signature is canonical; and
    two accepted tokens with canonical signatures of one text are the same. -/
theorem spelledOut_iff_canonical (lib : Library) (secret token : Bytes) (now : Time)
    (h : verify lib secret token now ≠ "") :
    (SpelledOut lib secret token ↔ Canonical (signature token)) ∧
      ∀ token' now', verify lib secret token' now' ≠ "" → signed token' = signed token →
        Canonical (signature token) → Canonical (signature token') → token' = token := by
  obtain ⟨htoken, hcount, hmac⟩ := parts_of_verify h
  refine ⟨⟨?_, ?_⟩, ?_⟩
  · rintro ⟨_, hsig⟩
    rw [hsig]
    exact canonical_encode (lib.hmac secret (signed token)).2
  · intro hcanonical
    have hsig : signature token = base64urlEncode (lib.hmac secret (signed token)).1 := by
      rw [← hmac, encode_decode hcanonical]
    refine ⟨?_, hsig⟩
    have hnone : (signature token).count 46 = 0 := by
      refine List.count_eq_zero.mpr (fun hmem => ?_)
      rw [hsig] at hmem
      exact no_dot _ _ hmem rfl
    rw [htoken, List.count_append, List.count_cons_self, hcount, hnone]
  · intro token' now' h' hsame hcanonical hcanonical'
    obtain ⟨htoken', _, hmac'⟩ := parts_of_verify h'
    have hsig : signature token' = signature token := by
      rw [← encode_decode hcanonical', ← encode_decode hcanonical, hmac', hmac, hsame]
    rw [htoken', hsame, hsig, ← htoken]

/-- As `create` makes it. -/
theorem spelledOut_iff_canonical_alice :
    (SpelledOut (reader "alice" 0) [] (create (reader "alice" 0) [] "alice" 0) ↔
      Canonical (signature (create (reader "alice" 0) [] "alice" 0))) ∧
    ∀ token' now', verify (reader "alice" 0) [] token' now' ≠ "" →
      signed token' = signed (create (reader "alice" 0) [] "alice" 0) →
      Canonical (signature (create (reader "alice" 0) [] "alice" 0)) →
      Canonical (signature token') → token' = create (reader "alice" 0) [] "alice" 0 := by
  refine spelledOut_iff_canonical (reader "alice" 0) [] _ 0 ?_
  rw [verify_create (readsBack_reader "alice" (by decide))]
  decide

/-! ## Another spelling of every token -/

/-- The decoder pads up to a whole group, and '=' is what it pads with. -/
theorem decode_padded {s : Bytes} (h : s.length % 4 = 3) :
    base64urlDecodeStr (s ++ [61]) = base64urlDecodeStr s := by
  have hsame : padded ((s ++ [61]).map plainAlphabet) = padded (s.map plainAlphabet) := by
    have hpad : plainAlphabet 61 = 61 := by decide
    have hnone : (4 - (s.length + 1) % 4) % 4 = 0 := by omega
    have hone : (4 - s.length % 4) % 4 = 1 := by omega
    simp only [padded, List.map_append, List.map_cons, List.map_nil, List.length_append,
      List.length_map, List.length_cons, List.length_nil, Nat.zero_add, hpad, hnone, hone,
      List.replicate_zero, List.append_nil, List.replicate_one]
  unfold base64urlDecodeStr
  rw [hsame]

section Padded

variable (lib : Library) (secret : Bytes) (userId : String) (created : Time)

theorem create_append (t : Bytes) : create lib secret userId created ++ t =
    base64urlEncode headerJson ++ 46 :: (base64urlEncode (utf8 (claims userId created).dump) ++
      46 :: (base64urlEncode (lib.hmac secret (signedPart userId created)).1 ++ t)) := by
  simp only [create, signedPart, List.append_assoc, List.cons_append]

/-- A token with '=' at its end is as good as without. -/
theorem verify_padded (now : Time) : verify lib secret (create lib secret userId created ++ [61]) now =
    verify lib secret (create lib secret userId created) now := by
  have hlen : (base64urlEncode (lib.hmac secret (signedPart userId created)).1).length % 4 = 3 := by
    rw [base64urlEncode_eq, List.length_map, length_sextets, (lib.hmac _ _).2]
  rw [verify_signed]
  unfold verify
  rw [create_append, splitDot_append (no_dot _)]
  simp only [splitDot_append (no_dot _), decode_padded hlen, base64urlDecodeStr_encode]
  rw [if_neg (by simp), if_neg (by simp [signedPart])]

theorem not_spelledOut_padded :
    ¬ SpelledOut lib secret (create lib secret userId created ++ [61]) := by
  have hparts : splitSignature (create lib secret userId created ++ [61]) =
      some (signedPart userId created,
        base64urlEncode (lib.hmac secret (signedPart userId created)).1 ++ [61]) := by
    unfold splitSignature
    rw [create_append, splitDot_append (no_dot _), Option.bind_some, splitDot_append (no_dot _)]
    rfl
  rintro ⟨_, hsig⟩
  have hmem : 61 ∈ signature (create lib secret userId created ++ [61]) := by
    simp only [signature, hparts, Option.map_some, Option.getD_some, List.mem_append,
      List.mem_singleton, or_true]
  rw [hsig] at hmem
  exact (urlByte_of_mem hmem).2.1 rfl

end Padded

/-- Alice's token with '=' at its end. -/
theorem padded_accepted :
    verify (reader "alice" 0) [] (create (reader "alice" 0) [] "alice" 0 ++ [61]) 0 = "alice" ∧
      ¬ SpelledOut (reader "alice" 0) [] (create (reader "alice" 0) [] "alice" 0 ++ [61]) := by
  refine ⟨?_, not_spelledOut_padded (reader "alice" 0) [] "alice" 0⟩
  rw [verify_padded, verify_create (readsBack_reader "alice" (by decide))]
  decide

end MessengerBackend.Jwt
