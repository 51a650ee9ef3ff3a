/-
  JSON values as nlohmann::json holds them after `json::parse`, `value(key, default)`, and what
  a route handler gives back to Crow: a JSON response, or no return.

  `json::parse` itself is the library's: a request body is an `Option Json`, `none` when the
  text does not parse. A string is valid UTF-8 there (the parser checks it), so it is a
  `String`; it may contain NUL. An object is its list of fields, keys distinct.

  `value` throws type_error on a receiver that is not an object and on a stored value that
  does not convert to the type of the default; `get<std::string>` throws it on anything but a
  string.
-/
import Mathlib.Data.List.Basic

namespace MessengerBackend

inductive Json where
  | null
  | bool (b : Bool)
  | num (n : Int)
  /-- A number with a fraction or an exponent; only its truncation is ever read. -/
  | real (trunc : Int)
  | str (s : String)
  | arr (l : List Json)
  | obj (fields : List (String × Json))

/-- `nlohmann::detail::type_error`. -/
inductive JsonError where
  | typeError
deriving DecidableEq

namespace Json

/-- The stored value of `key`, if the receiver is an object that has it. -/
def find (key : String) : Json → Option Json
  | .obj fields => (fields.find? (fun f => f.1 == key)).map Prod.snd
  | _ => none

def isObject : Json → Bool
  | .obj _ => true
  | _ => false

/-- `get<std::string>()`. -/
def getString : Json → Except JsonError String
  | .str s => .ok s
  | _ => .error .typeError

/-- `get<bool>()`. -/
def getBool : Json → Except JsonError Bool
  | .bool b => .ok b
  | _ => .error .typeError

/-- `get<long long>()`: every arithmetic kind converts, a boolean included; an unsigned number
    that does not fit wraps. -/
def getInt : Json → Except JsonError Int
  | .num n => .ok (if n < 0x8000000000000000 then n else n - 0x10000000000000000)
  | .real n => .ok n
  | .bool b => .ok (if b then 1 else 0)
  | _ => .error .typeError

/-- `value(key, default)` with the conversion of the default's type. -/
def valueWith {α : Type} (conv : Json → Except JsonError α) (j : Json) (key : String)
    (dflt : α) : Except JsonError α :=
  if j.isObject then
    match j.find key with
    | none => .ok dflt
    | some v => conv v
  else .error .typeError

def valueString (j : Json) (key dflt : String) : Except JsonError String :=
  valueWith getString j key dflt

def valueBool (j : Json) (key : String) (dflt : Bool) : Except JsonError Bool :=
  valueWith getBool j key dflt

def valueInt (j : Json) (key : String) (dflt : Int) : Except JsonError Int :=
  valueWith getInt j key dflt

/-- A nullable text column in a row of `PgDb::query`. -/
def ofText : Option String → Json
  | none => .null
  | some s => .str s

end Json

structure Response where
  status : Nat
  body : Json

/-- `json_resp`. -/
def jsonResp (status : Nat) (body : Json) : Response := ⟨status, body⟩

/-- `json_resp(status, {{"error", msg}})`. -/
def errorResp (status : Nat) (msg : String) : Response :=
  jsonResp status (.obj [("error", .str msg)])

/-- How a handler ends. -/
inductive Exit where
  | response (r : Response)
  /-- An exception leaves the handler; Crow answers 500 for it. -/
  | exception
  /-- It does not return: the process is gone, or the thread waits for ever. -/
  | lost

/-- The status is 2xx. -/
def Exit.success : Exit → Bool
  | .response r => 200 ≤ r.status && r.status < 300
  | .exception => false
  | .lost => false

end MessengerBackend
