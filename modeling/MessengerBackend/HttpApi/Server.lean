/-
  `HttpApi` as a whole: all routes, from the Authorization header to the answer, with their
  threads interleaved on the database, on Redis and on the clock.

  * A protected route is `authenticate_request` (Auth/Session) and then its handler
    (Api/Server), for the user that came out. Without one it answers 401 or 503.
  * The three authentication routes are those of Auth/Otp; a token that they make is put
    into Redis (`storeRedisSession`) before the answer leaves.
  * The health check asks for nothing.
  * `background` is a thread like the others, and does everything that is no request: the
    background `connect`, other clients of Redis, time.
  * A thread is `stuck` when a call of the `RedisClient` does not come back: it waits for
    `pool_mutex_`, or it has it and waits for itself (Redis/Pool).

  The trace says which user a token was verified as and when, and which caller a statement
  changed the database for.

  Crow takes the routes apart, so a request arrives with its parameters. The websocket route
  is in Ws/.
-/
import MessengerBackend.Api.Server
import MessengerBackend.Auth.Lifetime

namespace MessengerBackend.HttpApi

open Session (Phase StoreInput storeRedisSession extractToken)

/-! ## Requests, threads, inputs -/

structure Env where
  /-- The libraries under the token and under Redis, and the configured secret. -/
  session : Session.Env
  pg : Pg
  /-- `OtpHelper::hash`. -/
  hash : String → String
  regexReturns : String → Bool

abbrev Env.helpers (env : Env) : Otp.Helpers :=
  Session.helpers env.session env.hash env.regexReturns

structure State where
  otp : Otp.State
  /-- `running_` of the `RedisClient`. -/
  running : Bool
  /-- A thread has `pool_mutex_` for good. -/
  locked : Bool := false
  redis : Redis.State
  now : Time

def State.db (s : State) : Db := s.otp.db

/-- What `authenticate_request` sees of it. -/
def State.world (s : State) : Session.World :=
  ⟨s.running, s.locked, s.redis.store s.now, s.now⟩

inductive Request where
  | auth (r : Otp.Request)
  | api (authHeader : Bytes) (call : Api.Call)
  | background

inductive Thread where
  | auth (t : Otp.Thread)
  /-- Before `store_redis_session`; the answer is ready. -/
  | storing (token userId : String) (t : Otp.Thread)
  | authenticating (p : Phase) (call : Api.Call)
  | serving (t : Api.Thread)
  | refused (r : Response)
  | background
  /-- No answer, for ever. -/
  | stuck

structure Input where
  api : Api.Input
  session : Session.Input
  store : StoreInput
  /-- What a step of the background leaves behind. -/
  running : Bool
  locked : Bool := false
  redis : Redis.State
  now : Time

inductive Obs where
  | otp (o : Otp.Obs)
  /-- `JwtHelper::verify` gave the user. -/
  | verified (userId : String) (now : Time)
  /-- A statement changed the database for the user. -/
  | wrote (userId : String)
deriving DecidableEq

/-! ## Before the first step -/

/-- `json_resp(auth_status, …)` -/
def unauthorized (status : Nat) : Response :=
  errorResp status (if status = 503 then "Service unavailable" else "Unauthorized")

/-- `if (uid.empty()) return …;` once `authenticate_request` is through. -/
def passOn (call : Api.Call) : Phase → Thread
  | .done userId status =>
      if userId = "" then .refused (unauthorized status) else .serving (Api.start ⟨userId, call⟩)
  | .stuck => .stuck
  | p => .authenticating p call

/-- The health check. -/
def isPublic : Api.Call → Bool
  | .query .health => true
  | _ => false

def start (env : Env) : Request → Thread
  | .auth r => .auth (Otp.start env.helpers r)
  | .api authHeader call =>
      if isPublic call then .serving (Api.start ⟨"", call⟩)
      else passOn call (Session.start authHeader)
  | .background => .background

/-! ## One step -/

/-- The clock is the server's. -/
def Input.otpInput (inp : Input) (now : Time) : Otp.Input := ⟨inp.api.first, now, inp.api.freshId⟩

def Input.apiInput (inp : Input) (now : Time) : Api.Input := { inp.api with now := now }

/-- The token that the step made, with its user. -/
def sessionOf : List Otp.Obs → Option (String × String)
  | [] => none
  | .session token userId :: _ => some (token, userId)
  | _ :: obs => sessionOf obs

def afterAuth (t : Otp.Thread) (obs : List Otp.Obs) : Thread :=
  match sessionOf obs with
  | some (token, userId) => .storing token userId t
  | none => .auth t

/-- From the verification of the token to the user. -/
def verifiedAs : Phase → Phase → Option String
  | .verifying _, .second _ userId => some userId
  | _, _ => none

def stepAuth (env : Env) (t : Otp.Thread) (inp : Input) (s : State) : State × Thread × List Obs :=
  let x := Otp.step env.helpers t (inp.otpInput s.now) s.otp
  ({ s with otp := x.1 }, afterAuth x.2.1 x.2.2, x.2.2.map .otp)

/-- A command that is lost is sent again after a reconnect, which may not return and then has
    the mutex. -/
def stepStoring (env : Env) (token userId : String) (t : Otp.Thread) (inp : Input) (s : State) :
    State × Thread × List Obs :=
  if s.running && s.locked then (s, .stuck, [])
  else
    let store := { inp.store with available := s.running }
    ({ s with
        redis := storeRedisSession env.session.hiredis store s.now token userId s.redis
        running := s.running && store.comesBack
        locked := s.locked || !store.comesBack },
      if store.comesBack then .auth t else .stuck, [])

def stepAuthenticating (env : Env) (p : Phase) (call : Api.Call) (inp : Input) (s : State) :
    State × Thread × List Obs :=
  let x := Session.step env.session p inp.session s.world
  ({ s with running := x.1.running, locked := x.1.locked }, passOn call x.2,
    ((verifiedAs p x.2).map (fun userId => Obs.verified userId s.now)).toList)

def stepServing (env : Env) (t : Api.Thread) (inp : Input) (s : State) :
    State × Thread × List Obs :=
  let x := Api.step env.pg t (inp.apiInput s.now) s.db
  ({ s with otp := { s.otp with db := x.1 } }, .serving x.2.1,
    if x.1 = s.db then [] else [.wrote t.uid])

def step (env : Env) : Thread → Input → State → State × Thread × List Obs
  | .auth t, inp, s => stepAuth env t inp s
  | .storing token userId t, inp, s => stepStoring env token userId t inp s
  | .authenticating p call, inp, s => stepAuthenticating env p call inp s
  | .serving t, inp, s => stepServing env t inp s
  | .refused r, _, s => (s, .refused r, [])
  | .background, inp, s =>
      ({ s with
          running := inp.running
          locked := inp.locked
          redis := inp.redis
          now := inp.now }, .background, [])
  | .stuck, _, s => (s, .stuck, [])

def system (env : Env) : Interleave.System Request Thread State Input Obs where
  start := start env
  step := step env

abbrev Config := Interleave.Config Request Thread State Obs
abbrev Action := Interleave.Action Request Input

/-- Any requests from `s` on, one action after another. -/
def run (env : Env) (s : State) (as : List Action) : Config :=
  as.foldl (system env).next (Interleave.Config.init s)

theorem reach_run (env : Env) (s : State) (as : List Action) :
    (system env).Reach (fun _ _ => True) (Interleave.Config.init s) (run env s as) :=
  (system env).reach_foldl _ as

/-! ## The database -/

theorem otp_stepStoring (env : Env) (token userId : String) (t : Otp.Thread) (inp : Input)
    (s : State) : (stepStoring env token userId t inp s).1.otp = s.otp := by
  unfold stepStoring
  split <;> rfl

theorem obs_stepStoring (env : Env) (token userId : String) (t : Otp.Thread) (inp : Input)
    (s : State) : (stepStoring env token userId t inp s).2.2 = [] := by
  unfold stepStoring
  split <;> rfl

theorem db_stepStoring (env : Env) (token userId : String) (t : Otp.Thread) (inp : Input)
    (s : State) : (stepStoring env token userId t inp s).1.db = s.db :=
  congrArg Otp.State.db (otp_stepStoring env token userId t inp s)

/-- The answer leaves, or never does. -/
theorem stepStoring_cases (env : Env) (token userId : String) (t : Otp.Thread) (inp : Input)
    (s : State) : (stepStoring env token userId t inp s).2.1 = .auth t ∨
      (stepStoring env token userId t inp s).2.1 = .stuck := by
  unfold stepStoring
  split
  · exact Or.inr rfl
  · simp only
    split
    · exact Or.inl rfl
    · exact Or.inr rfl

/-- What a step does to the database, whatever the thread: nothing, or it is a statement of an
    authentication route or of a handler. -/
theorem db_step {env : Env} {l : Thread} {inp : Input} {s : State} {P : Db → Prop}
    (hsame : P s.db)
    (hauth : ∀ t, l = .auth t →
      P (Otp.step env.helpers t (inp.otpInput s.now) s.otp).1.db)
    (hserving : ∀ t, l = .serving t → P (Api.step env.pg t (inp.apiInput s.now) s.db).1) :
    P (step env l inp s).1.db := by
  cases l with
  | auth t => exact hauth t rfl
  | storing token userId t =>
      show P (stepStoring env token userId t inp s).1.db
      rw [db_stepStoring]
      exact hsame
  | authenticating p call => exact hsame
  | serving t => exact hserving t rfl
  | refused r => exact hsame
  | background => exact hsame
  | stuck => exact hsame

end MessengerBackend.HttpApi
