/-
  `JwtHelper::create` and `base64url_encode`.

  `base64urlDecodeStr` reads back what `base64urlEncode` wrote, so that `verify` accepts what
  `create` made, until 30 days are over (`verify_create`). That `json::parse` reads back a
  dumped payload is the library's part, `ReadsBack`.
-/
import MessengerBackend.Auth.Jwt
import MessengerBackend.Dump

namespace MessengerBackend.Jwt

/-! ## base64url -/

/-- `tbl` -/
def alphabet : Bytes := utf8 "ABCDEFGHIJKLMNOPQRSTUVWXYZabcdefghijklmnopqrstuvwxyz0123456789+/"

def letter (v : Nat) : UInt8 := alphabet.getD v 0

/-- The loop over groups of three, with '=' for a letter that is not there. -/
def encodeGroups : Bytes → Bytes
  | b0 :: b1 :: b2 :: rest =>
      letter (b0.toNat / 4) :: letter (b0.toNat % 4 * 16 + b1.toNat / 16) ::
        letter (b1.toNat % 16 * 4 + b2.toNat / 64) :: letter (b2.toNat % 64) :: encodeGroups rest
  | [b0, b1] =>
      [letter (b0.toNat / 4), letter (b0.toNat % 4 * 16 + b1.toNat / 16),
        letter (b1.toNat % 16 * 4), 61]
  | [b0] => [letter (b0.toNat / 4), letter (b0.toNat % 4 * 16), 61, 61]
  | [] => []

/-- `'+'` to `'-'` and `'/'` to `'_'`. -/
def urlAlphabet (c : UInt8) : UInt8 := if c = 43 then 45 else if c = 47 then 95 else c

def base64urlEncode (bs : Bytes) : Bytes := ((encodeGroups bs).map urlAlphabet).filter (· ≠ 61)

/-! ## Reading back -/

/-- A byte of an encoded text: a letter, a digit, '-' or '_'. -/
def UrlByte (b : UInt8) : Prop := b < 128 ∧ b ≠ 61 ∧ b ≠ 46 ∧ b ≠ 37 ∧ b ≠ 32 ∧ b ≠ 0

instance (b : UInt8) : Decidable (UrlByte b) :=
  inferInstanceAs (Decidable (b < 128 ∧ b ≠ 61 ∧ b ≠ 46 ∧ b ≠ 37 ∧ b ≠ 32 ∧ b ≠ 0))

theorem letter_fin : ∀ v : Fin 64, sextet (letter v) = some v.val ∧
    plainAlphabet (urlAlphabet (letter v)) = letter v ∧ UrlByte (urlAlphabet (letter v)) := by
  decide +kernel

section Letter

variable {v : Nat}

theorem sextet_letter (h : v < 64) : sextet (letter v) = some v := (letter_fin ⟨v, h⟩).1

theorem plain_url_letter (h : v < 64) : plainAlphabet (urlAlphabet (letter v)) = letter v :=
  (letter_fin ⟨v, h⟩).2.1

theorem urlByte_letter (h : v < 64) : UrlByte (urlAlphabet (letter v)) := (letter_fin ⟨v, h⟩).2.2

end Letter

/-- What the letters of `base64urlEncode` stand for. -/
def sextets : Bytes → List Nat
  | b0 :: b1 :: b2 :: rest =>
      b0.toNat / 4 :: (b0.toNat % 4 * 16 + b1.toNat / 16) ::
        (b1.toNat % 16 * 4 + b2.toNat / 64) :: b2.toNat % 64 :: sextets rest
  | [b0, b1] => [b0.toNat / 4, b0.toNat % 4 * 16 + b1.toNat / 16, b1.toNat % 16 * 4]
  | [b0] => [b0.toNat / 4, b0.toNat % 4 * 16]
  | [] => []

/-- The letter of the URL alphabet. -/
def urlLetter (v : Nat) : UInt8 := urlAlphabet (letter v)

theorem sextets_lt {bs : Bytes} {v : Nat} (h : v ∈ sextets bs) : v < 64 := by
  induction bs using sextets.induct with
  | case1 b0 b1 b2 rest ih =>
      have := b0.toNat_lt
      have := b1.toNat_lt
      have := b2.toNat_lt
      simp only [sextets, List.mem_cons] at h
      rcases h with rfl | rfl | rfl | rfl | h
      · omega
      · omega
      · omega
      · omega
      · exact ih h
  | case2 b0 b1 =>
      have := b0.toNat_lt
      have := b1.toNat_lt
      simp only [sextets, List.mem_cons, List.not_mem_nil, or_false] at h
      omega
  | case3 b0 =>
      have := b0.toNat_lt
      simp only [sextets, List.mem_cons, List.not_mem_nil, or_false] at h
      omega
  | case4 => cases h

theorem length_sextets (bs : Bytes) : (sextets bs).length = (4 * bs.length + 2) / 3 := by
  induction bs using sextets.induct with
  | case1 b0 b1 b2 rest ih =>
      simp only [sextets, List.length_cons, ih]
      omega
  | case2 b0 b1 => simp only [sextets, List.length_cons, List.length_nil, Nat.reduceAdd,
      Nat.reduceMul, Nat.reduceDiv]
  | case3 b0 => simp only [sextets, List.length_cons, List.length_nil, Nat.reduceAdd,
      Nat.reduceMul, Nat.reduceDiv]
  | case4 => rfl

theorem base64urlEncode_eq (bs : Bytes) : base64urlEncode bs = (sextets bs).map urlLetter := by
  have keep : ∀ {v : Nat} (s : Bytes), v < 64 →
      (urlAlphabet (letter v) :: s).filter (· ≠ 61) = urlLetter v :: s.filter (· ≠ 61) := by
    intro v s hv
    exact List.filter_cons_of_pos (decide_eq_true (urlByte_letter hv).2.1)
  have hpad : urlAlphabet 61 = 61 := by decide
  unfold base64urlEncode
  induction bs using sextets.induct with
  | case1 b0 b1 b2 rest ih =>
      have := b0.toNat_lt
      have := b1.toNat_lt
      have := b2.toNat_lt
      simp only [encodeGroups, sextets, List.map_cons]
      rw [keep _ (by omega), keep _ (by omega), keep _ (by omega), keep _ (by omega), ih]
  | case2 b0 b1 =>
      have := b0.toNat_lt
      have := b1.toNat_lt
      simp only [encodeGroups, sextets, List.map_cons, List.map_nil]
      rw [keep _ (by omega), keep _ (by omega), keep _ (by omega), hpad]
      rfl
  | case3 b0 =>
      have := b0.toNat_lt
      simp only [encodeGroups, sextets, List.map_cons, List.map_nil]
      rw [keep _ (by omega), keep _ (by omega), hpad]
      rfl
  | case4 => rfl

theorem urlByte_of_mem {bs : Bytes} {c : UInt8} (h : c ∈ base64urlEncode bs) : UrlByte c := by
  rw [base64urlEncode_eq] at h
  obtain ⟨v, hv, rfl⟩ := List.mem_map.mp h
  exact urlByte_letter (sextets_lt hv)

theorem map_plainAlphabet {vs : List Nat} (h : ∀ v ∈ vs, v < 64) :
    (vs.map urlLetter).map plainAlphabet = vs.map letter := by
  rw [List.map_map]
  exact List.map_congr_left (fun v hv => plain_url_letter (h v hv))

theorem ofNat_of_eq {n : Nat} {b : UInt8} (h : n = b.toNat) : UInt8.ofNat n = b := by
  rw [h, UInt8.ofNat_toNat]

theorem decodeGroups_encodeGroups (bs : Bytes) : decodeGroups (encodeGroups bs) = bs := by
  have hpad : sextet 61 = none := by decide
  induction bs using encodeGroups.induct with
  | case1 b0 b1 b2 rest ih =>
      have := b0.toNat_lt
      have := b1.toNat_lt
      have := b2.toNat_lt
      simp only [encodeGroups, decodeGroups]
      rw [sextet_letter (by omega), sextet_letter (by omega), sextet_letter (by omega),
        sextet_letter (by omega), ih]
      simp only [low2, Option.map_some, Option.getD_some, Option.toList_some, List.singleton_append]
      rw [ofNat_of_eq (b := b0) (by omega), ofNat_of_eq (b := b1) (by omega),
        ofNat_of_eq (b := b2) (by omega)]
  | case2 b0 b1 =>
      have := b0.toNat_lt
      have := b1.toNat_lt
      simp only [encodeGroups, decodeGroups]
      rw [sextet_letter (by omega), sextet_letter (by omega), sextet_letter (by omega), hpad]
      simp only [Option.map_some, Option.map_none, Option.toList_some, Option.toList_none,
        List.append_nil]
      rw [ofNat_of_eq (b := b0) (by omega), ofNat_of_eq (b := b1) (by omega)]
  | case3 b0 =>
      have := b0.toNat_lt
      simp only [encodeGroups, decodeGroups]
      rw [sextet_letter (by omega), sextet_letter (by omega), hpad]
      simp only [Option.map_none, Option.toList_none, List.append_nil]
      rw [ofNat_of_eq (b := b0) (by omega)]
  | case4 => rfl

/-- A whole group does not change the padding. -/
theorem padded_group (a b c d : UInt8) (s : Bytes) :
    padded (a :: b :: c :: d :: s) = a :: b :: c :: d :: padded s := by
  have hlen : (a :: b :: c :: d :: s).length % 4 = s.length % 4 := by
    simp only [List.length_cons]
    omega
  unfold padded
  rw [hlen]
  rfl

/-- The decoder finds the padding again that the encoder has removed. -/
theorem padded_base64urlEncode (bs : Bytes) :
    padded ((base64urlEncode bs).map plainAlphabet) = encodeGroups bs := by
  rw [base64urlEncode_eq, map_plainAlphabet (fun v hv => sextets_lt hv)]
  induction bs using sextets.induct with
  | case1 b0 b1 b2 rest ih =>
      simp only [sextets, List.map_cons, encodeGroups]
      rw [padded_group, ih]
  | case2 b0 b1 => rfl
  | case3 b0 => rfl
  | case4 => rfl

theorem base64urlDecodeStr_encode (bs : Bytes) : base64urlDecodeStr (base64urlEncode bs) = bs := by
  unfold base64urlDecodeStr
  rw [padded_base64urlEncode, decodeGroups_encodeGroups]

/-! ## The token -/

def headerJson : Bytes := utf8 "\x7b\"alg\":\"HS256\",\"typ\":\"JWT\"\x7d"

def claims (userId : String) (now : Time) : Json :=
  .obj [("sub", .str userId), ("iat", .num (unixSeconds now)),
    ("exp", .num (unixSeconds now + 30 * 24 * 3600))]

/-- The text under the signature. -/
def signedPart (userId : String) (now : Time) : Bytes :=
  base64urlEncode headerJson ++ 46 :: base64urlEncode (utf8 (claims userId now).dump)

def create (lib : Library) (secret : Bytes) (userId : String) (now : Time) : Bytes :=
  signedPart userId now ++ 46 :: base64urlEncode (lib.hmac secret (signedPart userId now)).1

/-- The times are `long long`, and `json::parse` of the payload gives its claims. -/
def ReadsBack (lib : Library) (userId : String) (now : Time) : Prop :=
  unixSeconds now + 30 * 24 * 3600 < 2 ^ 63 ∧ ∃ j, lib.parse (utf8 (claims userId now).dump) = some j ∧ j.isObject = true ∧
    ∀ key, j.find key = (claims userId now).find key

theorem splitDot_append {s : Bytes} (h : ∀ b ∈ s, b ≠ 46) (rest : Bytes) :
    splitDot (s ++ 46 :: rest) = some (s, rest) := by
  have hall : ∀ b ∈ s, decide (b ≠ 46) = true := fun b hb => decide_eq_true (h b hb)
  unfold splitDot
  rw [List.dropWhile_append_of_pos hall, List.takeWhile_append_of_pos hall]
  simp

theorem no_dot (bs : Bytes) : ∀ b ∈ base64urlEncode bs, b ≠ 46 :=
  fun _ hb => (urlByte_of_mem hb).2.2.1

/-- The signature is in order, so that the payload decides. -/
theorem verify_signed (lib : Library) (secret : Bytes) (userId : String) (created now : Time) :
    verify lib secret (create lib secret userId created) now =
      subject (lib.parse (utf8 (claims userId created).dump)) now := by
  have hsplit : create lib secret userId created = base64urlEncode headerJson ++
      46 :: (base64urlEncode (utf8 (claims userId created).dump) ++
        46 :: base64urlEncode (lib.hmac secret (signedPart userId created)).1) := by
    simp only [create, signedPart, List.append_assoc, List.cons_append]
  unfold verify
  rw [hsplit, splitDot_append (no_dot _)]
  simp only [splitDot_append (no_dot _), base64urlDecodeStr_encode]
  rw [if_neg (by simp), if_neg (by simp [signedPart])]

theorem verify_create {lib : Library} {userId : String} {created : Time}
    (h : ReadsBack lib userId created) (secret : Bytes) (now : Time) :
    verify lib secret (create lib secret userId created) now =
      if unixSeconds created + 30 * 24 * 3600 < unixSeconds now then "" else userId := by
  obtain ⟨hfit, j, hparse, hobj, hfind⟩ := h
  have hexp : j.valueInt "exp" 0 = .ok (unixSeconds created + 30 * 24 * 3600) := by
    simp only [Json.valueInt, Json.valueWith, hobj, hfind, if_true]
    exact congrArg Except.ok (if_pos hfit)
  have hsub : j.valueString "sub" "" = .ok userId := by
    simp only [Json.valueString, Json.valueWith, hobj, hfind, if_true]
    rfl
  rw [verify_signed, hparse]
  simp only [subject, hexp, hsub]

/-- A token is worth its user until 30 days after its second of issue, and nothing later. -/
theorem roundTrip (lib : Library) (secret : Bytes) (userId : String) (created now : Time)
    (h : ReadsBack lib userId created) :
    (unixSeconds now ≤ unixSeconds created + 2592000 →
      verify lib secret (create lib secret userId created) now = userId) ∧
    (unixSeconds created + 2592000 < unixSeconds now →
      verify lib secret (create lib secret userId created) now = "") := by
  rw [verify_create h]
  exact ⟨fun hle => if_neg (by omega), fun hlt => if_pos (by omega)⟩

/-- The library on one payload, its fields in the order of their keys. -/
def reader (userId : String) (created : Time) : Library where
  hmac := fun _ _ => Block.zero 32
  parse := fun text =>
    if text = utf8 (claims userId created).dump then
      some (.obj [("exp", .num (unixSeconds created + 30 * 24 * 3600)),
        ("iat", .num (unixSeconds created)), ("sub", .str userId)])
    else none

theorem readsBack_reader (userId : String) {created : Time}
    (h : unixSeconds created + 30 * 24 * 3600 < 2 ^ 63) :
    ReadsBack (reader userId created) userId created := by
  refine ⟨h, _, if_pos rfl, rfl, fun key => ?_⟩
  by_cases hexp : key = "exp"
  · rw [hexp]
    rfl
  · by_cases hiat : key = "iat"
    · rw [hiat]
      rfl
    · by_cases hsub : key = "sub"
      · rw [hsub]
        rfl
      · simp [claims, Json.find, Ne.symm hexp, Ne.symm hiat, Ne.symm hsub]

/-- Alice's token in the last second of its 30 days, and in the one after. -/
theorem roundTrip_alice :
    verify (reader "alice" 0) [] (create (reader "alice" 0) [] "alice" 0) 2592000999999 = "alice" ∧
      verify (reader "alice" 0) [] (create (reader "alice" 0) [] "alice" 0) 2592001000000 = "" :=
  ⟨(roundTrip _ [] "alice" 0 _ (readsBack_reader "alice" (by decide))).1 (by decide),
    (roundTrip _ [] "alice" 0 _ (readsBack_reader "alice" (by decide))).2 (by decide)⟩

end MessengerBackend.Jwt
