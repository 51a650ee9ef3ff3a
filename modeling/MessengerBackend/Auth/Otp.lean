/-
  `route_send_otp`, `route_verify_otp` and `route_register`, one SQL statement at a time.

  The server is multithreaded and `PgDb` locks per statement, so a request is a thread whose
  atomic actions are its statements. A `Thread` is the point between two statements together
  with the locals that are still live there; `step` executes the next statement with an
  `Input` from outside (what becomes of the statement, the clock, the id the database
  generates) and runs on to the statement after it. What happens before the first statement
  (parsing, validation) is `start`.

  `OtpHelper::hash` (BLAKE2b in hex), `JwtHelper::create` and what becomes of `std::regex_match`
  are the functions of `Helpers`; `OtpHelper::generate`, `std::time` at the start of `send-otp`
  and the generated key pair come with the request.

  The trace records what the security statements speak about: upserts, comparisons of a
  submitted code with a stored hash, rows leaving `otp_codes`, rows entering `users`, and
  calls of `store_redis_session`. A comparison is recorded with the `issue` number of the row
  whose hash it used.
-/
import MessengerBackend.Lib.Interleave
import MessengerBackend.Database
import MessengerBackend.Json

namespace MessengerBackend.Otp

open PgDb (Outcome Stmt exec reading cstr varchar)

/-! ## Requests, threads, inputs -/

structure Helpers where
  /-- `OtpHelper::hash`. -/
  hash : String → String
  /-- `JwtHelper::create` of a user id, at a time. -/
  create : String → Time → String
  /-- `regex_match` comes back for this email. It recurses once a character, so that a long
      text may overflow the stack. -/
  regexReturns : String → Bool

inductive Request where
  | sendOtp (body : Option Json) (code : String) (now : Time)
  | verifyOtp (body : Option Json)
  | register (body : Option Json) (publicKey : String)

/-- The fields of a registration that passed validation. -/
structure Registration where
  email : String
  username : String
  displayName : String
  phone : String
  publicKey : String
deriving DecidableEq

inductive Thread where
  | upsert (email codeHash : String) (expiresAt : Time)
  | fetch (email code : String)
  | increment (email code : String) (row : OtpCode)
  | expiry (email code : String) (row : OtpCode)
  | delete (email code : String) (row : OtpCode)
  | lookup (email : String)
  | dupUser (f : Registration)
  | dupEmail (f : Registration)
  | dupPhone (f : Registration)
  | insert (f : Registration)
  | exited (e : Exit)

structure Input where
  outcome : Outcome
  now : Time
  freshId : Uuid

inductive Obs where
  | upserted (email : String) (issue : Nat)
  | compared (issue : Nat)
  | removed (row : OtpCode) (now : Time)
  | inserted (user : User)
  | session (token userId : String)
deriving DecidableEq

/-- The database, and the number of `send-otp` upserts executed so far. -/
structure State where
  db : Db
  issued : Nat

/-- Any database with nothing in `otp_codes`. -/
def State.initial (db : Db) : State := ⟨{ db with otpCodes := .empty }, 0⟩

/-- A statement on `otp_codes`. -/
def State.withOtp (s : State) (t : Table OtpCode) : State :=
  { s with db := { s.db with otpCodes := t } }

/-- A statement on `users`. -/
def State.withUsers (s : State) (t : Table User) : State :=
  { s with db := { s.db with users := t } }

def respond (status : Nat) (body : Json) : Thread := .exited (.response (jsonResp status body))

def refuse (status : Nat) (msg : String) : Thread := .exited (.response (errorResp status msg))

/-! ## Before the first statement -/

/-- `\s` of `std::regex` on a byte. -/
def isSpace (c : Char) : Bool :=
  c == ' ' || c == '\t' || c == '\n' || c == '\r' || c == '\x0b' || c == '\x0c'

/-- `regex_match` with `[^@\s]+@[^@\s]+\.[^@\s]+`. Every byte of a non-ASCII character is in
    the class, so matching characters is matching bytes. -/
def emailFormat (email : String) : Bool :=
  let cs := email.toList
  match cs.dropWhile (· != '@') with
  | [] => false
  | _ :: host =>
      !(cs.takeWhile (· != '@')).isEmpty && !(cs.any isSpace) && !host.contains '@' &&
        (host.drop 1).dropLast.contains '.'

/-- `regex_match` with `^[a-z0-9_]{3,32}$`. -/
def usernameFormat (username : String) : Bool :=
  3 ≤ username.length && username.length ≤ 32 &&
    username.toList.all (fun c => ('a' ≤ c && c ≤ 'z') || ('0' ≤ c && c ≤ '9') || c == '_')

/-- The body of `send-otp`: its email, or the early exit. -/
def sendFields (h : Helpers) (body : Option Json) : Except Exit String :=
  match body with
  | none => .error (.response (errorResp 400 "Invalid JSON"))
  | some j =>
      match j.valueString "email" "" with
      | .error _ => .error .exception
      | .ok email =>
          if email = "" then .error (.response (errorResp 400 "email required"))
          else if !h.regexReturns email then .error .lost
          else if emailFormat email then .ok email
          else .error (.response (errorResp 400 "Invalid email format"))

/-- The body of `verify-otp`: email and code, or the early exit. -/
def verifyFields (body : Option Json) : Except Exit (String × String) :=
  match body with
  | none => .error (.response (errorResp 400 "Invalid JSON"))
  | some j =>
      match j.valueString "email" "", j.valueString "code" "" with
      | .ok email, .ok code =>
          if email = "" ∨ code = "" then
            .error (.response (errorResp 400 "email and code required"))
          else .ok (email, code)
      | _, _ => .error .exception

/-- The body of `register`, or the early exit. -/
def registerFields (body : Option Json) (publicKey : String) : Except Exit Registration :=
  match body with
  | none => .error (.response (errorResp 400 "Invalid JSON"))
  | some j =>
      match j.valueString "email" "", j.valueString "username" "" with
      | .ok email, .ok username =>
          match j.valueString "displayName" username, j.valueString "phone" "" with
          | .ok displayName, .ok phone =>
              if email = "" ∨ username = "" then
                .error (.response (errorResp 400 "email and username required"))
              else if usernameFormat username then
                .ok ⟨email, username, displayName, phone, publicKey⟩
              else .error (.response
                (errorResp 400 "Username must be 3-32 chars: a-z, 0-9, _"))
          | _, _ => .error .exception
      | _, _ => .error .exception

/-- 600 seconds from the second the request is handled in. -/
def expiresAt (now : Time) : Time := (unixSeconds now + 600) * 1000000

def routeSendOtp (h : Helpers) (body : Option Json) (code : String) (now : Time) : Thread :=
  match sendFields h body with
  | .error e => .exited e
  | .ok email => .upsert email (h.hash code) (expiresAt now)

def routeVerifyOtp (body : Option Json) : Thread :=
  match verifyFields body with
  | .error e => .exited e
  | .ok (email, code) => .fetch email code

def routeRegister (body : Option Json) (publicKey : String) : Thread :=
  match registerFields body publicKey with
  | .error e => .exited e
  | .ok f => .dupUser f

def start (h : Helpers) : Request → Thread
  | .sendOtp body code now => routeSendOtp h body code now
  | .verifyOtp body => routeVerifyOtp body
  | .register body publicKey => routeRegister body publicKey

/-! ## The statements -/

/-- The `otp_codes` row a WHERE email = $1 finds. -/
def otpRow (s : State) (email : String) : Option OtpCode :=
  s.db.otpCodes.rows.find? (fun r => r.email == cstr email)

/-- `attempts = 0` with a new hash and expiry, and the number of the upsert that wrote them. -/
def reissue (codeHash : String) (expiresAt : Time) (issue : Nat) (r : OtpCode) : OtpCode :=
  { r with codeHash := codeHash, expiresAt := expiresAt, attempts := 0, issue := issue }

/-- INSERT INTO otp_codes … ON CONFLICT (email) DO UPDATE. The email matched the regex, so it
    has no blanks and a `VARCHAR(255)` overflow is an error. -/
def upsertOtp (email codeHash : String) (expiresAt : Time) : Stmt State Unit := fun s =>
  if (cstr email).length ≤ 255 then
    let codes := s.db.otpCodes.upsert ⟨cstr email, codeHash, 0, expiresAt, s.issued⟩
      (reissue codeHash expiresAt s.issued) (fun _ _ => rfl)
    .ok ({ s.withOtp codes with issued := s.issued + 1 }, ())
  else .error .tooLong

/-- SELECT code_hash, expires_at, attempts FROM otp_codes WHERE email = $1. -/
def selectOtp (email : String) : Stmt State (Option OtpCode) :=
  reading (fun s => .ok (otpRow s email))

def bump (r : OtpCode) : OtpCode := { r with attempts := r.attempts + 1 }

theorem clash_bump (a b : OtpCode) : Keyed.clash (bump a) b = Keyed.clash a b := rfl

/-- UPDATE otp_codes SET attempts = attempts + 1 WHERE email = $1; `attempts` is an INT. -/
def incAttempts (email : String) : Stmt State Unit := fun s =>
  if (otpRow s email).any (fun r => 2 ^ 31 ≤ r.attempts + 1) then .error .outOfRange
  else .ok (s.withOtp
    (s.db.otpCodes.modify (fun r => r.email == cstr email) bump clash_bump), ())

/-- SELECT (expires_at > NOW()) AS valid FROM otp_codes WHERE email = $1. -/
def otpValid (email : String) (now : Time) : Stmt State (Option Bool) :=
  reading (fun s => .ok ((otpRow s email).map (fun r => decide (now < r.expiresAt))))

/-- DELETE FROM otp_codes WHERE email = $1. -/
def deleteOtp (email : String) : Stmt State Unit := fun s =>
  .ok (s.withOtp (s.db.otpCodes.erase (fun r => r.email == cstr email)), ())

/-- A SELECT of the `users` row that meets the clause. -/
def selectUser (p : User → Bool) : Stmt State (Option User) :=
  reading (fun s => .ok (s.db.users.rows.find? p))

def hasEmail (email : String) (u : User) : Bool := u.email == cstr email
def hasUsername (username : String) (u : User) : Bool := u.username == cstr username
def hasPhone (phone : String) (u : User) : Bool := u.phoneNumber == some (cstr phone)

/-- The row of INSERT INTO users … VALUES ($1, $2, NULLIF($3, ''), $4, '', '', $5, true). -/
def userRow (f : Registration) (id : Uuid) (now : Time) : Except SqlError User := do
  let username ← varchar 255 (cstr f.username)
  let email ← varchar 255 (cstr f.email)
  let phone ← varchar 20 (cstr f.phone)
  let displayName ← varchar 100 (cstr f.displayName)
  return {
    id := id
    username := username
    email := email
    phoneNumber := if cstr f.phone = "" then none else some phone
    displayName := some displayName
    publicKey := cstr f.publicKey
    isVerified := some true
    createdAt := some now }

/-- INSERT INTO users … RETURNING id. -/
def insertUser (f : Registration) (id : Uuid) (now : Time) : Stmt State User := fun s =>
  match userRow f id now with
  | .error e => .error e
  | .ok u =>
      match s.db.users.insert u with
      | none => .error .unique
      | some users => .ok (s.withUsers users, u)

/-! ## One step -/

/-- The 200 answer for a user that exists. -/
def loginBody (token : String) (u : User) : Json :=
  .obj [("token", .str token), ("needsRegistration", .bool false),
    ("user", .obj [("id", .str (Uuid.uuidOut u.id)), ("username", .str u.username),
      ("displayName", Json.ofText u.displayName)])]

/-- A duplicate check of `register`: a row found is a 409. -/
def dupCheck (res : Except SqlError (Option User)) (msg : String) (next : Thread) : Thread :=
  match res with
  | .error _ => refuse 500 "Server error"
  | .ok (some _) => refuse 409 msg
  | .ok none => next

/-- The next statement of a thread, and the handler's code up to the one after it. -/
def step (h : Helpers) : Thread → Input → State → State × Thread × List Obs
  | .upsert email codeHash expires, inp, s =>
      let x := exec inp.outcome (upsertOtp email codeHash expires) s
      let obs := if x.1.issued = s.issued then [] else [.upserted (cstr email) s.issued]
      match x.2 with
      | .error _ => (x.1, refuse 500 "Server error", obs)
      | .ok _ => (x.1, respond 200 (.obj [("ok", .bool true), ("message", .str "OTP sent")]), obs)
  | .fetch email code, inp, s =>
      match (exec inp.outcome (selectOtp email) s).2 with
      | .error _ => (s, refuse 500 "Server error", [])
      | .ok none => (s, refuse 400 "No OTP found for this email. Request a new one.", [])
      | .ok (some row) =>
          if 5 ≤ row.attempts then
            (s, refuse 429 "Too many attempts. Request a new OTP.", [])
          else (s, .increment email code row, [])
  | .increment email code row, inp, s =>
      -- the failure of the UPDATE is swallowed
      ((exec inp.outcome (incAttempts email) s).1, .expiry email code row, [])
  | .expiry email code row, inp, s =>
      match (exec inp.outcome (otpValid email inp.now) s).2 with
      | .error _ => (s, refuse 500 "Server error", [])
      | .ok (some true) =>
          if row.codeHash = h.hash code then
            (s, .delete email code row, [.compared row.issue])
          else (s, refuse 400 "Invalid OTP code", [.compared row.issue])
      | .ok _ => (s, refuse 400 "OTP expired. Request a new one.", [])
  | .delete email _ _, inp, s =>
      -- so is that of the DELETE
      let x := exec inp.outcome (deleteOtp email) s
      let obs := match otpRow s email, otpRow x.1 email with
        | some r, none => [Obs.removed r inp.now]
        | _, _ => []
      (x.1, .lookup email, obs)
  | .lookup email, inp, s =>
      match (exec inp.outcome (selectUser (hasEmail email)) s).2 with
      | .error _ => (s, refuse 500 "Server error", [])
      | .ok none =>
          (s, respond 200 (.obj [("needsRegistration", .bool true), ("email", .str email)]), [])
      | .ok (some u) =>
          let token := h.create (Uuid.uuidOut u.id) inp.now
          (s, respond 200 (loginBody token u), [.session token (Uuid.uuidOut u.id)])
  | .dupUser f, inp, s =>
      (s, dupCheck (exec inp.outcome (selectUser (hasUsername f.username)) s).2
        "Username already taken" (.dupEmail f), [])
  | .dupEmail f, inp, s =>
      (s, dupCheck (exec inp.outcome (selectUser (hasEmail f.email)) s).2
        "Email already registered" (if f.phone = "" then .insert f else .dupPhone f), [])
  | .dupPhone f, inp, s =>
      (s, dupCheck (exec inp.outcome (selectUser (hasPhone f.phone)) s).2
        "Phone number already registered" (.insert f), [])
  | .insert f, inp, s =>
      let x := exec inp.outcome (insertUser f inp.freshId inp.now) s
      -- what the database did, whether or not the server hears of it
      let made := match insertUser f inp.freshId inp.now s with
        | .ok (_, u) => if inp.outcome.executes then [Obs.inserted u] else []
        | .error _ => []
      match x.2 with
      | .error e => (x.1, refuse 500 ("Server error: " ++ e.message), made)
      | .ok u =>
          let token := h.create (Uuid.uuidOut u.id) inp.now
          (x.1, respond 201 (.obj [("token", .str token), ("userId", .str (Uuid.uuidOut u.id))]),
            made ++ [.session token (Uuid.uuidOut u.id)])
  | .exited e, _, s => (s, .exited e, [])

/-- The authentication endpoints as a system of concurrent requests. -/
def system (h : Helpers) : Interleave.System Request Thread State Input Obs where
  start := start h
  step := step h

abbrev Config := Interleave.Config Request Thread State Obs
abbrev Action := Interleave.Action Request Input

end MessengerBackend.Otp
