/-
  `JwtHelper::verify` and `base64url_decode_str`.

  HMAC-SHA256 and `json::parse` are the two functions of `Library`; everything between them
  is the server's. The decoder is lenient: it maps the URL alphabet to the plain one, pads,
  stops at a group whose first two characters are not in the alphabet, and skips a third or
  fourth character that is not.
-/
import MessengerBackend.Database
import MessengerBackend.Json

namespace MessengerBackend.Jwt

structure Library where
  /-- `crypto_auth_hmacsha256` of a key and a text. -/
  hmac : Bytes → Bytes → Block 32
  parse : Bytes → Option Json

/-! ## base64url -/

/-- `'-'` to `'+'` and `'_'` to `'/'`. -/
def plainAlphabet (c : UInt8) : UInt8 := if c = 45 then 43 else if c = 95 then 47 else c

/-- The value of a character of the alphabet; `none` is -1. -/
def sextet (c : UInt8) : Option Nat :=
  if 65 ≤ c ∧ c ≤ 90 then some (c.toNat - 65)
  else if 97 ≤ c ∧ c ≤ 122 then some (c.toNat - 97 + 26)
  else if 48 ≤ c ∧ c ≤ 57 then some (c.toNat - 48 + 52)
  else if c = 43 then some 62
  else if c = 47 then some 63
  else none

/-- `v2 & 3`, where -1 has all bits set. -/
def low2 (v : Option Nat) : Nat := (v.map (· % 4)).getD 3

/-- The loop over groups of four. -/
def decodeGroups : Bytes → Bytes
  | c0 :: c1 :: c2 :: c3 :: rest =>
      match sextet c0, sextet c1 with
      | some v0, some v1 =>
          let v2 := sextet c2
          let v3 := sextet c3
          UInt8.ofNat (v0 * 4 + v1 / 16) ::
            ((v2.map (fun v => UInt8.ofNat (v1 % 16 * 16 + v / 4))).toList ++
              ((v3.map (fun v => UInt8.ofNat (low2 v2 * 64 + v))).toList ++ decodeGroups rest))
      | _, _ => []
  | _ => []

/-- `while (s.size() % 4) s += '='`. -/
def padded (s : Bytes) : Bytes := s ++ List.replicate ((4 - s.length % 4) % 4) 61

def base64urlDecodeStr (s : Bytes) : Bytes := decodeGroups (padded (s.map plainAlphabet))

/-! ## The token -/

/-- The text before and after the first dot. -/
def splitDot (s : Bytes) : Option (Bytes × Bytes) :=
  match s.dropWhile (· ≠ 46) with
  | [] => none
  | _ :: rest => some (s.takeWhile (· ≠ 46), rest)

/-- The `sub` claim of a payload that has not expired, or the empty string. -/
def subject (payload : Option Json) (now : Time) : String :=
  match payload with
  | none => ""
  | some pl =>
      match pl.valueInt "exp" 0 with
      | .error _ => ""
      | .ok exp =>
          if exp < unixSeconds now then ""
          else
            match pl.valueString "sub" "" with
            | .error _ => ""
            | .ok sub => sub

def verify (lib : Library) (secret token : Bytes) (now : Time) : String :=
  match splitDot token with
  | none => ""
  | some (header, rest) =>
      match splitDot rest with
      | none => ""
      | some (payload, sig) =>
          let sigRaw := base64urlDecodeStr sig
          if sigRaw.length ≠ 32 then ""
          else if sigRaw ≠ (lib.hmac secret (header ++ 46 :: payload)).1 then ""
          else subject (lib.parse (base64urlDecodeStr payload)) now

end MessengerBackend.Jwt
