/-
  base64url as a codec: `base64url_encode` and the loop of `base64url_decode_str`.

  The loop goes over the padded copy in steps of four and reads `s[i]` to `s[i + 3]`.
  `decodeFrom` is that loop with every read checked. The copy is whole groups, so no read leaves
  it, whatever was passed in (`decodeFrom_append`), and the bytes are those of `decodeGroups`.

  `base64url_round_trip`: what was written is read back, with its alphabet and its length.
-/
import MessengerBackend.Auth.Token

namespace MessengerBackend.Jwt

/-! ## The loop -/

/-- `val(c)`, and -1 for the padding. -/
def value (c : UInt8) : Option Nat := if c ≠ 61 then sextet c else none

/-- The loop from index `i` on; `none` when it reads outside `s`. -/
def decodeFrom (s : Bytes) (i : Nat) : Option Bytes :=
  if i < s.length then do
    let c0 ← s[i]?
    let c1 ← s[i + 1]?
    let c2 ← s[i + 2]?
    let c3 ← s[i + 3]?
    match sextet c0, sextet c1 with
    | some v0, some v1 =>
        let out := UInt8.ofNat (v0 * 4 + v1 / 16) ::
          (((value c2).map (fun v => UInt8.ofNat (v1 % 16 * 16 + v / 4))).toList ++
            ((value c3).map (fun v => UInt8.ofNat (low2 (value c2) * 64 + v))).toList)
        let rest ← decodeFrom s (i + 4)
        return out ++ rest
    | _, _ => return []
  else return []
termination_by s.length - i

/-- The decoder with its reads checked. -/
def decodeIndexed (s : Bytes) : Option Bytes := decodeFrom (padded (s.map plainAlphabet)) 0

theorem value_eq (c : UInt8) : value c = sextet c := by
  unfold value
  split
  · rfl
  · rename_i h
    rw [not_not.mp h]
    decide

theorem length_padded (s : Bytes) : (padded s).length % 4 = 0 := by
  unfold padded
  rw [List.length_append, List.length_replicate]
  omega

/-- The reads of one step. -/
theorem reads_group (p s : Bytes) (c0 c1 c2 c3 : UInt8) :
    (p ++ c0 :: c1 :: c2 :: c3 :: s)[p.length]? = some c0 ∧
    (p ++ c0 :: c1 :: c2 :: c3 :: s)[p.length + 1]? = some c1 ∧
    (p ++ c0 :: c1 :: c2 :: c3 :: s)[p.length + 2]? = some c2 ∧
    (p ++ c0 :: c1 :: c2 :: c3 :: s)[p.length + 3]? = some c3 := by
  refine ⟨?_, ?_, ?_, ?_⟩ <;> rw [List.getElem?_append_right (by omega)] <;> simp

/-- From a multiple of four on the loop stays inside, and writes what `decodeGroups` does. -/
theorem decodeFrom_append (p s : Bytes) (h : s.length % 4 = 0) :
    decodeFrom (p ++ s) p.length = some (decodeGroups s) := by
  fun_induction decodeGroups s generalizing p with
  | case1 c0 c1 c2 c3 rest v0 v1 h0 h1 v2 v3 ih =>
      obtain ⟨r0, r1, r2, r3⟩ := reads_group p rest c0 c1 c2 c3
      have hnext := ih (p ++ [c0, c1, c2, c3]) (by simp only [List.length_cons] at h; omega)
      rw [List.append_assoc, List.length_append] at hnext
      have hnext : decodeFrom (p ++ c0 :: c1 :: c2 :: c3 :: rest) (p.length + 4) =
        some (decodeGroups rest) := hnext
      rw [decodeFrom, if_pos (by simp), r0, r1, r2, r3]
      simp only [Option.bind_eq_bind, Option.bind_some, h0, h1, hnext, value_eq]
      simp [v2, v3]
  | case2 c0 c1 c2 c3 rest hnone =>
      obtain ⟨r0, r1, r2, r3⟩ := reads_group p rest c0 c1 c2 c3
      rw [decodeFrom, if_pos (by simp), r0, r1, r2, r3]
      simp only [Option.bind_eq_bind, Option.bind_some]
      rfl
  | case3 s hshort =>
      -- fewer than four bytes, and a multiple of four
      have hnil : s = [] := by
        rcases s with _ | ⟨a, _ | ⟨b, _ | ⟨c, _ | ⟨d, rest⟩⟩⟩⟩
        · rfl
        · exact absurd h (by simp)
        · exact absurd h (by simp)
        · exact absurd h (by simp)
        · exact (hshort a b c d rest rfl).elim
      rw [hnil, List.append_nil, decodeFrom, if_neg (by omega)]
      rfl

theorem decodeIndexed_eq (s : Bytes) : decodeIndexed s = some (base64urlDecodeStr s) :=
  decodeFrom_append [] _ (length_padded _)

/-! ## The codec -/

/-- `A-Z`, `a-z`, `0-9`, `'-'` and `'_'`. -/
def UrlLetter (c : UInt8) : Prop :=
  65 ≤ c ∧ c ≤ 90 ∨ 97 ≤ c ∧ c ≤ 122 ∨ 48 ≤ c ∧ c ≤ 57 ∨ c = 45 ∨ c = 95

instance (c : UInt8) : Decidable (UrlLetter c) :=
  inferInstanceAs (Decidable (65 ≤ c ∧ c ≤ 90 ∨ 97 ≤ c ∧ c ≤ 122 ∨ 48 ≤ c ∧ c ≤ 57 ∨ c = 45 ∨
    c = 95))

theorem urlLetter_of_mem {bs : Bytes} {c : UInt8} (h : c ∈ base64urlEncode bs) : UrlLetter c := by
  have hletter : ∀ v : Fin 64, UrlLetter (urlLetter v) := by decide +kernel
  rw [base64urlEncode_eq] at h
  obtain ⟨v, hv, rfl⟩ := List.mem_map.mp h
  exact hletter ⟨v, sextets_lt hv⟩

/-- Bytes come back from their text, which has the letters of the URL alphabet, none of them a dot
    or padding, and four for three bytes, rounded up; and no text makes the decoder read outside
    its copy. -/
theorem base64url_round_trip (bs s : Bytes) :
    decodeIndexed (base64urlEncode bs) = some bs ∧
    (∀ c ∈ base64urlEncode bs, UrlLetter c ∧ c ≠ 46 ∧ c ≠ 61) ∧
    (base64urlEncode bs).length = (4 * bs.length + 2) / 3 ∧
    decodeIndexed s = some (base64urlDecodeStr s) := by
  refine ⟨?_, fun c hc => ?_, ?_, decodeIndexed_eq s⟩
  · rw [decodeIndexed_eq, base64urlDecodeStr_encode]
  · have hbyte := urlByte_of_mem hc
    exact ⟨urlLetter_of_mem hc, hbyte.2.2.1, hbyte.2.1⟩
  · rw [base64urlEncode_eq, List.length_map, length_sextets]

end MessengerBackend.Jwt
