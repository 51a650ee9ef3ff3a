/-
  How long a token can be used: `store_redis_session` and `authenticate_request` over runs.

  A token carries its own expiry, 30 days ahead. Its session is a key of Redis that is set
  when the token is handed out, for 86400 seconds, and only if Redis is at hand then. A run
  mixes the steps of the login requests, the storing of a session right before its answer,
  whatever else becomes of the `RedisClient`, other clients of Redis, and time.

  A token is accepted if and only if its session was stored within the last 86400 seconds and
  the client can be used at all (`accepted_iff_stored`); two days after a login it is not, though
  it has not expired (`rejected_after_two_days`).
-/
import MessengerBackend.Auth.Registration
import MessengerBackend.Auth.Session
import MessengerBackend.Auth.Token
import MessengerBackend.Lib.Runs
import MessengerBackend.Redis.Plain
import MessengerBackend.Redis.Pool

namespace MessengerBackend.Session

open Redis (Hiredis replyString execGet)

/-! ## Storing a session -/

structure StoreInput where
  /-- `redis_available()` -/
  available : Bool
  acquired : Bool
  /-- The command is executed, at once or after a reconnect. -/
  executed : Bool
  /-- And it is over: the reconnect, if it came to one, has returned. -/
  returned : Bool

namespace StoreInput

def stores (inp : StoreInput) : Bool := inp.available && inp.acquired && inp.executed

/-- `store_redis_session` comes back. -/
def comesBack (inp : StoreInput) : Bool := !inp.available || !inp.acquired || inp.returned

end StoreInput

def storeRedisSession (hiredis : Hiredis) (inp : StoreInput) (now : Time)
    (sessionToken userId : String) (redis : Redis.State) : Redis.State :=
  if inp.available then
    if inp.acquired && inp.executed then
      Redis.send hiredis now redis (.set ("session:" ++ sessionToken) userId 86400)
    else redis
  else redis

/-! ## Runs -/

/-- A token that `create` has made and whose session is not stored yet. -/
structure Made where
  token : String
  userId : String
  created : Time

/-- The `exp` claim. -/
def Made.exp (m : Made) : Int := unixSeconds m.created + 30 * 24 * 3600

/-- A call of `store_redis_session`. -/
structure Issued where
  made : Made
  answered : Time
  stored : Bool
  /-- It came back, and the token was handed out. -/
  handed : Bool

structure Logins where
  otp : Otp.Config
  client : Redis.Client
  redis : Redis.State := {}
  now : Time
  made : List Made := []
  issued : List Issued := []

inductive LoginEvent where
  | request (a : Otp.Action)
  /-- The `k`-th of the tokens that are made is to be stored and handed out. -/
  | answer (k : Nat) (inp : StoreInput)
  /-- What the other calls make of the `RedisClient`. -/
  | client (c : Redis.Client)
  /-- Another client of Redis. -/
  | other (redis : Redis.State)
  | tick (t : Time)

def helpers (env : Env) (hash : String → String) (regexReturns : String → Bool) : Otp.Helpers where
  hash := hash
  create := fun userId now => asText (Jwt.create env.jwt env.secret userId now)
  regexReturns := regexReturns

def madeBy (now : Time) (trace : List (Nat × Otp.Obs)) : List Made :=
  trace.filterMap (fun o => match o.2 with
    | .session token userId => some ⟨token, userId, now⟩
    | _ => none)

/-- A step of a request reads the one clock. -/
def onTime (now : Time) : Otp.Action → Bool
  | .spawn _ => true
  | .run _ inp => inp.now == now

namespace Logins

/-- What the client allows: on one that is not usable the SET goes nowhere and does not come
    back. -/
def storing (d : Logins) (inp : StoreInput) : StoreInput :=
  if d.client.usable then
    { inp with available := d.client.running, acquired := d.client.firstFree.isSome }
  else ⟨d.client.running, true, false, false⟩

def step (env : Env) (hash : String → String) (regexReturns : String → Bool) (d : Logins) :
    LoginEvent → Option Logins
  | .request a =>
      let otp := (Otp.system (helpers env hash regexReturns)).next d.otp a
      if onTime d.now a then
        some { d with
          otp := otp
          made := d.made ++ madeBy d.now (otp.trace.drop d.otp.trace.length) }
      else none
  | .answer k inp => (d.made[k]?).map (fun m =>
      let store := d.storing inp
      { d with
        -- a reconnect that does not return has the mutex
        client :=
          if store.comesBack || !d.client.usable then d.client
          else { d.client.stop with locked := true }
        redis := storeRedisSession env.hiredis store d.now m.token m.userId d.redis
        made := d.made.eraseIdx k
        issued := d.issued ++ [⟨m, d.now, store.stores, store.comesBack⟩] })
  | .client c => some { d with client := c }
  | .other redis => some { d with redis := redis }
  | .tick t => if d.now ≤ t then some { d with now := t } else none

/-- With the client of `HttpApi`, before it has connected. -/
def start (db : Db) (now : Time) : Logins where
  otp := Interleave.Config.init (Otp.State.initial db)
  client := .create { poolSize := 4 }
  now := now

/-- Nobody else touches a session. -/
def Apart (d : Logins) : LoginEvent → Prop
  | .other redis => ∀ token, redis.keys (sessionKey token) = d.redis.keys (sessionKey token)
  | _ => True

end Logins

/-! ## One call -/

/-- `n` steps in a row. -/
def proceed (env : Env) (inp : Input) : Nat → World → Phase → Phase
  | 0, _, p => p
  | n + 1, w, p => proceed env inp n (step env p inp w).1 (step env p inp w).2

end Session

namespace Redis.Client

/-- The client once `connect` has been called, with all connections to be had. -/
def connected (c : Client) : Client :=
  if c.running then c else ((c.connect (goodFrom 0)).map Connected.client).getD c

/-- A GET gets through if Redis answers it: nobody has the mutex for good, a connection is free,
    and it has a context, or `connect` gives it one. -/
def reaches (c : Client) : Bool :=
  !c.locked && c.firstFree.isSome &&
    if c.running then c.usable else 0 < c.config.maxRetries && !c.subscriber

end Redis.Client

namespace Session

open Redis (Hiredis replyString execGet)

/-- What the client makes of a call while Redis can be reached and answers. -/
def answering (c : Redis.Client) : Input where
  connects := (c.connect (Redis.Client.goodFrom 0)).map Redis.Client.Connected.ok
  acquired := c.connected.firstFree.isSome
  sent := if c.connected.usable then .answered else .crashed

/-- The call from its first step to its last, while Redis can be reached and answers. -/
def authenticateRequest (env : Env) (authHeader : Bytes) (c : Redis.Client) (store : Redis.Store)
    (now : Time) : Phase :=
  proceed env (answering c) 6 ⟨c.running, c.locked, store, now⟩ (start authHeader)

section Call

variable {env : Env} {token : Bytes} {u : String}

theorem judge_nil (userId : String) : judge userId [] = .done "" 401 := if_pos (Or.inl rfl)

theorem proceed_done (inp : Input) (n : Nat) (userId : String) (status : Nat) (w : World) :
    proceed env inp n w (.done userId status) = .done userId status := by
  induction n with
  | zero => rfl
  | succ n ih => exact ih

theorem proceed_stuck (inp : Input) (n : Nat) (w : World) :
    proceed env inp n w .stuck = .stuck := by
  induction n with
  | zero => rfl
  | succ n ih => exact ih

theorem proceed_judge (inp : Input) (n : Nat) (userId : String) (stored : Bytes) (w : World) :
    proceed env inp n w (judge userId stored) = judge userId stored := by
  unfold judge
  split <;> exact proceed_done inp n _ _ w

/-- The lookup, with a free connection that answers or crashes. -/
theorem proceed_second (ht : PlainToken token) {w : World} (hw : w.running = true) {inp : Input}
    (hsent : inp.sent = .answered ∨ inp.sent = .crashed) (n : Nat) (userId : String) :
    proceed env inp (n + 3) w (.second token userId) =
      if w.locked then .stuck
      else if inp.acquired then
        if inp.sent = .answered then
          judge userId (replyString (execGet w.store [utf8 "GET", sessionKey token]))
        else .stuck
      else .done "" 401 := by
  have hissue : issue env token .answered w =
      some (replyString (execGet w.store [utf8 "GET", sessionKey token])) := by
    simp only [issue, args_getCommand env ht]
  have hsecond : proceed env inp (n + 3) w (.second token userId) =
      proceed env inp (n + 2) w (.acquiring token userId) := by
    rw [proceed]
    simp only [step, hw, if_true]
  rw [hsecond, proceed]
  simp only [step]
  cases w.locked with
  | true => exact proceed_stuck inp _ w
  | false =>
      cases inp.acquired with
      | false =>
          simp only [Bool.false_eq_true, if_false, judge_nil]
          exact proceed_done inp _ _ _ w
      | true =>
          simp only [Bool.false_eq_true, if_false, if_true]
          rw [proceed]
          rcases hsent with hsent | hsent
          · simp only [step, hsent, hissue, reduceCtorEq, if_false, if_true]
            exact proceed_judge inp n _ _ w
          · simp only [step, hsent, reduceCtorEq, if_false, if_true]
            exact proceed_stuck inp n w

/-- A session that is not there is no user, whatever the token. -/
theorem proceed_missing (ht : PlainToken token) {w : World} (hw : w.running = true)
    (hlocked : w.locked = false) {inp : Input} (hsent : inp.sent = .answered)
    (hnone : w.store (sessionKey token) = none) (n : Nat) :
    proceed env inp (n + 4) w (.verifying token) = .done "" 401 := by
  have hempty : replyString (execGet w.store [utf8 "GET", sessionKey token]) = [] := by
    simp only [execGet, hnone, replyString]
  rw [proceed]
  simp only [step]
  split
  · exact proceed_done inp _ _ _ w
  · rw [proceed_second ht hw (Or.inl hsent), hlocked, hempty, judge_nil, if_pos hsent]
    simp

theorem proceed_verifying (ht : PlainToken token) {w : World} (hw : w.running = true) {inp : Input}
    (hsent : inp.sent = .answered ∨ inp.sent = .crashed) (n : Nat) :
    proceed env inp (n + 4) w (.verifying token) = .done u 200 ↔
      Jwt.verify env.jwt env.secret token w.now ≠ "" ∧
        (w.locked = false ∧ inp.acquired = true ∧ inp.sent = .answered) ∧
        judge (Jwt.verify env.jwt env.secret token w.now)
          (replyString (execGet w.store [utf8 "GET", sessionKey token])) = .done u 200 := by
  rw [proceed]
  simp only [step]
  by_cases hverify : Jwt.verify env.jwt env.secret token w.now = ""
  · rw [if_pos hverify, proceed_done]
    simp [hverify]
  · rw [if_neg hverify, proceed_second ht hw hsent]
    cases w.locked with
    | true => simp
    | false =>
        cases inp.acquired with
        | false => simp
        | true =>
            rcases hsent with hsent | hsent
            · simp [hsent, hverify]
            · simp [hsent]

end Call

/-! ## What the client has to do with it -/

section Client

variable {c : Redis.Client}

theorem connect_reachable (hl : c.locked = false) (hr : c.running = false) :
    (c.connect (Redis.Client.goodFrom 0)).map Redis.Client.Connected.ok =
      if c.config.maxRetries ≤ 0 then some false
      else if c.subscriber = false then some true else none := by
  have hok : (c.attempt (Redis.Client.goodFrom 0 1)).2 = true :=
    (Redis.Client.attempt_ok _ _).mpr (fun _ _ => ⟨rfl, fun _ => rfl, rfl⟩)
  rw [Redis.Client.connect_eq hl hr, hok]
  simp only [true_and]
  split
  · rfl
  · split <;> rfl

/-- After a `connect` that has made its connections everything that is free can be used. -/
theorem connected_usable (hl : c.locked = false) (hr : c.running = false)
    (hmax : 0 < c.config.maxRetries) (hs : c.subscriber = false) :
    c.connected.usable = true ∧ c.connected.firstFree = c.firstFree := by
  have hok : (c.attempt (Redis.Client.goodFrom 0 1)).2 = true :=
    (Redis.Client.attempt_ok _ _).mpr (fun _ _ => ⟨rfl, fun _ => rfl, rfl⟩)
  have hconnected : c.connected =
      { (c.attempt (Redis.Client.goodFrom 0 1)).1 with running := true, subscriber := true } := by
    have hconnect := Redis.Client.connect_eq hl hr (Redis.Client.goodFrom 0)
    rw [if_neg (by omega), if_pos ⟨hok, hs⟩] at hconnect
    unfold Redis.Client.connected
    rw [hconnect, if_neg (by simp [hr])]
    rfl
  have hfree : c.connected.firstFree = c.firstFree := by
    rw [hconnected]
    exact Redis.Client.firstFree_attempt _ c
  refine ⟨?_, hfree⟩
  have hlive : c.connected.Live := by
    rw [hconnected]
    exact Redis.Client.establishAll_live _ _ _ _ 0 hok
  refine Redis.Client.usable_iff.mpr ⟨by rw [hconnected]; exact hl, fun i hi => ?_⟩
  exact Redis.Client.contextOf_live hlive (Redis.Client.lt_of_firstFree hi)

end Client

/-- A call is answered with the user exactly if the client reaches Redis, the token verifies, and
    its key holds the user. -/
theorem authenticateRequest_bearer {env : Env} {token : Bytes} {u : String} (ht : PlainToken token)
    (hne : token ≠ []) (c : Redis.Client) (store : Redis.Store) (now : Time) :
    authenticateRequest env (bearer ++ token) c store now = .done u 200 ↔
      Jwt.verify env.jwt env.secret token now ≠ "" ∧ c.reaches = true ∧
        judge (Jwt.verify env.jwt env.secret token now)
          (replyString (execGet store [utf8 "GET", sessionKey token])) = .done u 200 := by
  have hextract : extractToken (bearer ++ token) = token := rfl
  have hstart : start (bearer ++ token) = .gate token := by
    unfold start
    rw [hextract, if_neg hne]
  have hsent : (answering c).sent = .answered ∨ (answering c).sent = .crashed := by
    unfold answering
    split
    · exact Or.inl rfl
    · exact Or.inr rfl
  unfold authenticateRequest
  rw [hstart]
  cases hrun : c.running with
  | true =>
      have hsame : c.connected = c := if_pos hrun
      have hgate : proceed env (answering c) 6 ⟨true, c.locked, store, now⟩ (.gate token) =
          proceed env (answering c) 5 ⟨true, c.locked, store, now⟩ (.verifying token) := rfl
      rw [hgate, proceed_verifying (w := ⟨true, c.locked, store, now⟩) ht rfl hsent 1]
      refine and_congr_right (fun _ => and_congr_left' ?_)
      unfold Redis.Client.reaches answering
      rw [hsame, hrun]
      cases c.usable <;> simp
  | false =>
      rw [show proceed env (answering c) 6 ⟨false, c.locked, store, now⟩ (.gate token) =
        proceed env (answering c) 5 ⟨false, c.locked, store, now⟩ (.connecting token) from rfl,
        proceed]
      have hno : c.reaches = (!c.locked && c.firstFree.isSome &&
          (decide (0 < c.config.maxRetries) && !c.subscriber)) := by
        unfold Redis.Client.reaches
        rw [hrun]
        rfl
      rw [hno]
      simp only [step]
      cases hl : c.locked with
      | true =>
          simp only [if_true, proceed_stuck]
          simp
      | false =>
          have hconnects : (answering c).connects = _ := connect_reachable hl hrun
          by_cases hmax : c.config.maxRetries ≤ 0
          · rw [if_pos hmax] at hconnects
            simp only [Bool.false_eq_true, if_false, hconnects, proceed_done]
            have hzero : ¬ 0 < c.config.maxRetries := by omega
            simp [hzero]
          · rw [if_neg hmax] at hconnects
            cases hs : c.subscriber with
            | true =>
                rw [hs] at hconnects
                simp only [Bool.false_eq_true, if_false, hconnects, proceed_stuck,
                  Bool.true_eq_false]
                simp
            | false =>
                rw [hs, if_pos rfl] at hconnects
                obtain ⟨husable, hfree⟩ := connected_usable hl hrun (by omega) hs
                simp only [Bool.false_eq_true, if_false, hconnects]
                rw [proceed_verifying (w := ⟨true, false, store, now⟩) ht rfl hsent 0]
                refine and_congr_right (fun _ => and_congr_left' ?_)
                have hpos : 0 < c.config.maxRetries := by omega
                simp [answering, husable, hfree, hpos]

theorem rejected_of_missing {env : Env} {token : Bytes} (ht : PlainToken token) (hne : token ≠ [])
    {c : Redis.Client} (hrun : c.running = true) (hreaches : c.reaches = true)
    {store : Redis.Store} (hnone : store (sessionKey token) = none) (now : Time) :
    authenticateRequest env (bearer ++ token) c store now = .done "" 401 := by
  have hstart : start (bearer ++ token) = .gate token := by
    unfold start
    rw [show extractToken (bearer ++ token) = token from rfl, if_neg hne]
  unfold Redis.Client.reaches at hreaches
  rw [hrun, if_pos rfl, Bool.and_eq_true, Bool.and_eq_true] at hreaches
  obtain ⟨⟨hlocked, _⟩, husable⟩ := hreaches
  have hsent : (answering c).sent = .answered := by
    unfold answering Redis.Client.connected
    rw [if_pos hrun, husable]
    rfl
  unfold authenticateRequest
  rw [hstart, hrun]
  exact proceed_missing (w := ⟨true, c.locked, store, now⟩) ht rfl (by simpa using hlocked) hsent
    hnone 1

/-! ## The tokens of a run -/

/-- A token as the login routes make it. -/
structure Genuine (env : Env) (m : Made) : Prop where
  user : ∃ id, m.userId = Uuid.uuidOut id
  token : m.token = asText (Jwt.create env.jwt env.secret m.userId m.created)

section Tokens

variable {env : Env} {m m' : Made}

theorem mem_create {lib : Jwt.Library} {secret : Bytes} {userId : String} {now : Time} {b : UInt8}
    (h : b ∈ Jwt.create lib secret userId now) : b < 128 ∧ b ≠ 32 ∧ b ≠ 37 ∧ b ≠ 0 := by
  have hurl : ∀ bs : Bytes, b ∈ Jwt.base64urlEncode bs → b < 128 ∧ b ≠ 32 ∧ b ≠ 37 ∧ b ≠ 0 := by
    intro bs hb
    obtain ⟨hlt, _, _, h37, h32, h0⟩ := Jwt.urlByte_of_mem hb
    exact ⟨hlt, h32, h37, h0⟩
  have hdot : b = 46 → b < 128 ∧ b ≠ 32 ∧ b ≠ 37 ∧ b ≠ 0 := by
    rintro rfl
    decide
  unfold Jwt.create Jwt.signedPart at h
  simp only [List.mem_append, List.mem_cons] at h
  rcases h with (h | h | h) | h | h
  · exact hurl _ h
  · exact hdot h
  · exact hurl _ h
  · exact hdot h
  · exact hurl _ h

theorem Genuine.utf8_token (h : Genuine env m) :
    utf8 m.token = Jwt.create env.jwt env.secret m.userId m.created := by
  rw [h.token, utf8_asText (fun b hb => (mem_create hb).1)]

theorem Genuine.plainToken (h : Genuine env m) : PlainToken (utf8 m.token) := by
  rw [h.utf8_token]
  exact fun b hb => (mem_create hb).2

theorem Genuine.token_ne_nil (h : Genuine env m) : utf8 m.token ≠ [] := by
  rw [h.utf8_token]
  simp [Jwt.create]

theorem Genuine.plain (h : Genuine env m) : Plain m.token := plain_of_utf8 h.plainToken

theorem Genuine.userId_plain (h : Genuine env m) : Plain m.userId ∧ m.userId ≠ "" := by
  obtain ⟨id, hid⟩ := h.user
  rw [hid]
  exact ⟨plain_uuidOut id, Uuid.uuidOut_ne_empty id⟩

/-- A token names one user. -/
theorem Genuine.userId_eq (h : Genuine env m) (h' : Genuine env m')
    (hm : Jwt.ReadsBack env.jwt m.userId m.created)
    (hm' : Jwt.ReadsBack env.jwt m'.userId m'.created) (heq : m.token = m'.token) :
    m.userId = m'.userId := by
  have hfirst := Jwt.verify_create hm env.secret (min m.created m'.created)
  have hsecond := Jwt.verify_create hm' env.secret (min m.created m'.created)
  rw [if_neg (by unfold unixSeconds; omega)] at hfirst hsecond
  rw [← hfirst, ← hsecond, ← h.utf8_token, ← h'.utf8_token, heq]

end Tokens

/-! ## The store -/

/-- What a stored session is until its time is over. -/
def sessionEntry (i : Issued) : Redis.Entry where
  value := .string (utf8 i.made.userId)
  expiresAt := some (i.answered + 86400 * 1000000)

/-- It is there for 86400 seconds. -/
theorem store_sessionEntry {redis : Redis.State} {key : Bytes} {i : Issued}
    (h : redis.keys key = some (sessionEntry i)) (now : Time) :
    redis.store now key =
      if now ≤ i.answered + 86400 * 1000000 then some (.string (utf8 i.made.userId)) else none := by
  unfold Redis.State.store Redis.State.live
  rw [h]
  by_cases hnow : now ≤ i.answered + 86400 * 1000000
  · have hexp : (sessionEntry i).expired now = false := decide_eq_false (Int.not_lt.mpr hnow)
    rw [if_pos hnow, Option.filter_some, hexp]
    rfl
  · have hexp : (sessionEntry i).expired now = true := decide_eq_true (Int.not_le.mp hnow)
    rw [if_neg hnow, Option.filter_some, hexp]
    rfl

theorem storeRedisSession_of_genuine {env : Env} {m : Made} (h : Genuine env m) (inp : StoreInput)
    (now : Time) (redis : Redis.State) :
    storeRedisSession env.hiredis inp now m.token m.userId redis =
      if inp.stores then
        redis.put (sessionKey (utf8 m.token))
          (some (sessionEntry ⟨m, now, inp.stores, inp.comesBack⟩))
      else redis := by
  have hkey : utf8 ("session:" ++ m.token) = sessionKey (utf8 m.token) := utf8_append _ _
  have hplain : Plain ("session:" ++ m.token) ∧ "session:" ++ m.token ≠ "" :=
    ⟨plain_append (by decide) h.plain, by simp⟩
  have hset : Redis.send env.hiredis now redis (.set ("session:" ++ m.token) m.userId 86400) =
      redis.put (sessionKey (utf8 m.token))
        (some (sessionEntry ⟨m, now, inp.stores, inp.comesBack⟩)) := by
    have hnum : Redis.number (utf8 (toString (86400 : Int))) = some 86400 := by decide
    rw [Redis.send_set env.hiredis now redis hplain h.userId_plain (by decide), hkey]
    simp only [Redis.execSet, hnum, if_true]
    rfl
  unfold storeRedisSession StoreInput.stores
  cases inp.available
  · rfl
  · simp only [Bool.true_and, if_true]
    split
    · exact hset
    · rfl

/-! ## The invariant -/

namespace Logins

/-- The key of a token holds its last stored session. -/
def Kept (d : Logins) (token : Bytes) : Prop :=
  (∃ i ∈ d.issued, i.stored = true ∧ utf8 i.made.token = token ∧
    d.redis.keys (sessionKey token) = some (sessionEntry i) ∧
    ∀ j ∈ d.issued, j.stored = true → utf8 j.made.token = token → j.answered ≤ i.answered) ∨
  (d.redis.keys (sessionKey token) = none ∧
    ∀ j ∈ d.issued, j.stored = true → utf8 j.made.token ≠ token)

structure Sound (env : Env) (d : Logins) : Prop where
  made : ∀ m ∈ d.made, Genuine env m
  issued : ∀ i ∈ d.issued, Genuine env i.made ∧ i.answered ≤ d.now
  kept : ∀ token, d.Kept token

variable {env : Env} {hash : String → String} {regexReturns : String → Bool} {d d' : Logins}

/-- A request makes tokens as `create` does, for ids of the database. -/
theorem genuine_of_moves {inp : Otp.Input} {s s' : Otp.State} {l l' : Otp.Thread}
    {obs : List Otp.Obs} (hm : Otp.Moves (helpers env hash regexReturns) inp s l s' l' obs)
    {token userId : String} (h : .session token userId ∈ obs) :
    Genuine env ⟨token, userId, inp.now⟩ := by
  cases hm with
  | loggedIn _ _ _ =>
      obtain ⟨rfl, rfl⟩ : token = _ ∧ userId = _ := by simpa using h
      exact ⟨⟨_, rfl⟩, rfl⟩
  | enrolled _ _ _ hobs =>
      rcases hobs with rfl | rfl
      · simp at h
      · obtain ⟨rfl, rfl⟩ : token = _ ∧ userId = _ := by simpa using h
        exact ⟨⟨_, rfl⟩, rfl⟩
  | _ => simp at h

theorem genuine_of_request {a : Otp.Action} (ha : onTime d.now a = true) {m : Made}
    (hm : m ∈ madeBy d.now
      (((Otp.system (helpers env hash regexReturns)).next d.otp a).trace.drop d.otp.trace.length)) :
    Genuine env m := by
  obtain ⟨o, ho, hmade⟩ := List.mem_filterMap.mp hm
  cases a with
  | spawn r =>
      rw [Interleave.System.next, List.drop_length] at ho
      cases ho
  | run i inp =>
      cases ht : d.otp.threads[i]? with
      | none =>
          rw [Interleave.System.next_run_none _ ht, List.drop_length] at ho
          cases ho
      | some t =>
          rw [Interleave.System.next_run _ ht] at ho
          obtain ⟨obs, hobs, rfl⟩ : ∃ obs ∈ (Otp.step (helpers env hash regexReturns) t.2 inp d.otp.shared).2.2,
              (i, obs) = o := by
            simpa [Interleave.System.advance, Otp.system] using ho
          have hnow : inp.now = d.now := by simpa [onTime] using ha
          cases obs with
          | session token userId =>
              cases hmade
              rw [← hnow]
              exact genuine_of_moves (Otp.moves_step (helpers env hash regexReturns) inp d.otp.shared t.2) hobs
          | _ => cases hmade

theorem sessionKey_injective {t t' : Bytes} (h : sessionKey t = sessionKey t') : t = t' :=
  List.append_cancel_left h

/-- Handing a token out keeps the invariant, whether or not its session is stored. -/
theorem kept_answer {m : Made} (h : Sound env d) (hm : Genuine env m) (inp : StoreInput)
    (client : Redis.Client) (made : List Made) (token : Bytes) :
    Kept { d with
      client := client
      redis := storeRedisSession env.hiredis inp d.now m.token m.userId d.redis
      made := made
      issued := d.issued ++ [⟨m, d.now, inp.stores, inp.comesBack⟩] } token := by
  unfold Kept
  rw [storeRedisSession_of_genuine hm]
  by_cases hnew : inp.stores = true ∧ utf8 m.token = token
  · obtain ⟨hstores, rfl⟩ := hnew
    refine Or.inl ⟨⟨m, d.now, inp.stores, inp.comesBack⟩, by simp, hstores, rfl, ?_,
      fun j hj _ _ => ?_⟩
    · simp only [if_pos hstores]
      exact Function.update_self _ _ _
    · rcases List.mem_append.mp hj with hj | hj
      · exact (h.issued j hj).2
      · cases List.mem_singleton.mp hj
        exact le_refl _
  · have hkeys : (if inp.stores = true then
        d.redis.put (sessionKey (utf8 m.token)) 
          (some (sessionEntry ⟨m, d.now, inp.stores, inp.comesBack⟩))
        else d.redis).keys (sessionKey token) = d.redis.keys (sessionKey token) := by
      split
      · rename_i hstores
        refine Function.update_of_ne (fun heq => hnew ⟨hstores, ?_⟩) _ _
        exact (sessionKey_injective heq).symm
      · rfl
    have hold : ∀ j ∈ d.issued ++ [⟨m, d.now, inp.stores, inp.comesBack⟩], j.stored = true →
        utf8 j.made.token = token → j ∈ d.issued := by
      intro j hj hstored htoken
      rcases List.mem_append.mp hj with hj | hj
      · exact hj
      · cases List.mem_singleton.mp hj
        exact absurd ⟨hstored, htoken⟩ hnew
    rw [hkeys]
    rcases h.kept token with ⟨i, hi, hstored, htoken, hkey, hlast⟩ | ⟨hkey, hnone⟩
    · exact Or.inl ⟨i, List.mem_append_left _ hi, hstored, htoken, hkey,
        fun j hj hs ht => hlast j (hold j hj hs ht) hs ht⟩
    · exact Or.inr ⟨hkey, fun j hj hs ht => hnone j (hold j hj hs ht) hs ht⟩

/-- The step lemma. -/
theorem sound_step {e : LoginEvent} (h : Sound env d) (hp : d.Apart e)
    (hs : d.step env hash regexReturns e = some d') : Sound env d' := by
  cases e with
  | request a =>
      simp only [step] at hs
      split at hs
      · rename_i ha
        cases hs
        refine ⟨fun m hm => ?_, h.issued, h.kept⟩
        rcases List.mem_append.mp hm with hm | hm
        · exact h.made m hm
        · exact genuine_of_request ha hm
      · cases hs
  | answer k inp =>
      obtain ⟨m, hm, rfl⟩ := Option.map_eq_some_iff.mp hs
      have hgen := h.made m (List.mem_of_getElem? hm)
      refine ⟨fun m' hm' => h.made m' (List.mem_of_mem_eraseIdx hm'), fun i hi => ?_, ?_⟩
      · rcases List.mem_append.mp hi with hi | hi
        · exact h.issued i hi
        · cases List.mem_singleton.mp hi
          exact ⟨hgen, le_refl _⟩
      · exact kept_answer h hgen (d.storing inp) _ _
  | client c =>
      cases hs
      exact ⟨h.made, h.issued, h.kept⟩
  | other redis =>
      cases hs
      refine ⟨h.made, h.issued, fun token => ?_⟩
      unfold Kept
      rw [hp token]
      exact h.kept token
  | tick t =>
      simp only [step] at hs
      split at hs
      · rename_i hle
        cases hs
        exact ⟨h.made, fun i hi => ⟨(h.issued i hi).1, le_trans (h.issued i hi).2 hle⟩, h.kept⟩
      · cases hs

theorem sound_of_reach {db : Db} {now : Time}
    (hr : Runs.Reach (step env hash regexReturns) Apart (start db now) d) : Sound env d := by
  refine hr.invariant (Sound env) ?_ (fun d e d' h hp hs => sound_step h hp hs)
  exact ⟨fun m hm => (nomatch hm), fun i hi => (nomatch hi),
    fun token => Or.inr ⟨rfl, fun j hj => (nomatch hj)⟩⟩

end Logins

/-! ## Using a token -/

section Use

variable {env : Env} {hash : String → String} {regexReturns : String → Bool} {d : Logins}

theorem judge_eq_done {userId : String} {stored : Bytes} (hne : userId ≠ "") :
    judge userId stored = .done userId 200 ↔ stored = utf8 userId := by
  have hbytes : utf8 userId ≠ [] := fun h => hne (utf8_injective h)
  unfold judge
  split
  · rename_i h
    refine ⟨fun hd => ?_, fun hd => ?_⟩
    · cases hd
    · rcases h with h | h
      · exact absurd (hd.symm.trans h) hbytes
      · exact absurd hd h
  · rename_i h
    rw [not_or, not_not] at h
    exact ⟨fun _ => h.2, fun _ => rfl⟩

/-- A token within its time is accepted as what its key holds. -/
theorem accepted_iff_lookup {m : Made} (hm : Genuine env m)
    (hread : Jwt.ReadsBack env.jwt m.userId m.created) (c : Redis.Client) (store : Redis.Store)
    {now : Time} (hexp : unixSeconds now ≤ m.exp) :
    authenticateRequest env (bearer ++ utf8 m.token) c store now = .done m.userId 200 ↔
      c.reaches = true ∧
        replyString (execGet store [utf8 "GET", sessionKey (utf8 m.token)]) = utf8 m.userId := by
  have hne := hm.userId_plain.2
  have hverify : Jwt.verify env.jwt env.secret (utf8 m.token) now = m.userId := by
    rw [hm.utf8_token, Jwt.verify_create hread]
    exact if_neg (Int.not_lt.mpr hexp)
  rw [authenticateRequest_bearer hm.plainToken hm.token_ne_nil, hverify, judge_eq_done hne]
  exact ⟨fun h => h.2, fun h => ⟨hne, h⟩⟩

/-- In every run in which nobody else touches the sessions, a token within its time is
    accepted if and only if the client reaches Redis and a session was stored for the token at
    most 86400 seconds ago. -/
theorem accepted_iff_stored (env : Env) (hash : String → String) (regexReturns : String → Bool)
    (db : Db) (now : Time) (d : Logins)
    (hr : Runs.Reach (Logins.step env hash regexReturns) Logins.Apart (Logins.start db now) d)
    (hread : ∀ i ∈ d.issued, Jwt.ReadsBack env.jwt i.made.userId i.made.created)
    (i : Issued) (hi : i ∈ d.issued) (hexp : unixSeconds d.now ≤ i.made.exp) :
    authenticateRequest env (bearer ++ utf8 i.made.token) d.client (d.redis.store d.now) d.now =
        .done i.made.userId 200 ↔
      d.client.reaches = true ∧
        ∃ j ∈ d.issued, j.made.token = i.made.token ∧ j.stored = true ∧
          d.now ≤ j.answered + 86400 * 1000000 := by
  have h := Logins.sound_of_reach hr
  have hgen := (h.issued i hi).1
  have hne := hgen.userId_plain.2
  have hnul : (0 : UInt8) ∉ utf8 i.made.userId :=
    fun h0 => ((plainWord_utf8 hgen.userId_plain.1 hne).2 0 h0).2.2 rfl
  have hmissing : d.redis.store d.now (sessionKey (utf8 i.made.token)) = none →
      replyString (execGet (d.redis.store d.now)
        [utf8 "GET", sessionKey (utf8 i.made.token)]) ≠ utf8 i.made.userId := by
    intro hnone heq
    simp only [execGet, hnone, replyString] at heq
    exact hne (utf8_injective heq.symm)
  rw [accepted_iff_lookup hgen (hread i hi) d.client _ hexp]
  refine and_congr_right (fun _ => ?_)
  rcases h.kept (utf8 i.made.token) with ⟨j, hj, hstored, htoken, hkey, hlast⟩ | ⟨hkey, hnone⟩
  · have huser : j.made.userId = i.made.userId :=
      (h.issued j hj).1.userId_eq hgen (hread j hj) (hread i hi) (utf8_injective htoken)
    have hstore := store_sessionEntry hkey d.now
    by_cases hnow : d.now ≤ j.answered + 86400 * 1000000
    · rw [if_pos hnow] at hstore
      refine ⟨fun _ => ⟨j, hj, utf8_injective htoken, hstored, hnow⟩, fun _ => ?_⟩
      simp only [execGet, hstore, replyString, huser, Redis.cut_of_forall hnul]
    · rw [if_neg hnow] at hstore
      refine ⟨fun heq => absurd heq (hmissing hstore), ?_⟩
      rintro ⟨k, hk, ht, hs, hle⟩
      have hlater : k.answered ≤ j.answered := hlast k hk hs (by rw [ht])
      exact absurd (le_trans hle (Int.add_le_add_right hlater _)) hnow
  · refine ⟨fun heq => absurd heq (hmissing ?_), ?_⟩
    · simp only [Redis.State.store, Redis.State.live, hkey]
      rfl
    · rintro ⟨k, hk, ht, hs, _⟩
      exact absurd (by rw [ht]) (hnone k hk hs)

end Use

/-! ## Two runs -/

/-- Every text has the same HMAC, and every payload is the claims of the nil id at time 0. -/
def nilEnv : Env where
  jwt := {
    hmac := fun _ _ => Block.zero 32
    parse := fun _ => some (Jwt.claims (Uuid.uuidOut .zero) 0) }
  hiredis := .splitting
  secret := []

/-- Redis is up; the nil id registers and gets its token, with its session stored. -/
def registration : List LoginEvent :=
  [.client (Redis.Client.create { poolSize := 4 }).connected, .request (.spawn Otp.registerRequest),
    .request (Otp.go 0), .request (Otp.go 0), .request (Otp.go 0), .answer 0 ⟨true, true, true, true⟩]

def nilToken : Issued where
  made := ⟨(helpers nilEnv id (fun _ => true)).create (Uuid.uuidOut .zero) 0, Uuid.uuidOut .zero, 0⟩
  answered := 0
  stored := true
  handed := true

/-- The same, and then time passes. -/
def atTime (t : Time) : Logins :=
  (Runs.run (Logins.step nilEnv id (fun _ => true)) (Logins.start {} 0) (registration ++ [.tick t])).getD
    (Logins.start {} 0)

theorem meets_registration (t : Time) : Runs.Meets (Logins.step nilEnv id (fun _ => true)) Logins.Apart
    (Logins.start {} 0) (registration ++ [.tick t]) :=
  ⟨trivial, fun _ _ => ⟨trivial, fun _ _ => ⟨trivial, fun _ _ => ⟨trivial, fun _ _ =>
    ⟨trivial, fun _ _ => ⟨trivial, fun _ _ => ⟨trivial, fun _ _ => trivial⟩⟩⟩⟩⟩⟩⟩

/-- An hour later the token is accepted. -/
theorem accepted_iff_stored_hour :
    authenticateRequest nilEnv (bearer ++ utf8 nilToken.made.token) (atTime 3600000000).client
      ((atTime 3600000000).redis.store (atTime 3600000000).now) (atTime 3600000000).now =
        .done nilToken.made.userId 200 := by
  refine (accepted_iff_stored nilEnv id (fun _ => true) {} 0 (atTime 3600000000)
    (Runs.Reach.refl.run _ (meets_registration 3600000000) rfl) (fun i hi => ?_) nilToken ?_
    (by decide)).mpr ⟨by decide, nilToken, ?_, rfl, rfl, by decide⟩
  · have heq : i = nilToken := List.mem_singleton.mp hi
    rw [heq]
    exact ⟨by decide, _, rfl, rfl, fun _ => rfl⟩
  · exact List.mem_singleton.mpr rfl
  · exact List.mem_singleton.mpr rfl

/-- Two days later it is rejected, by a client that reaches Redis and with 28 days to go. -/
theorem rejected_after_two_days : ∃ d,
    Runs.run (Logins.step nilEnv id (fun _ => true)) (Logins.start {} 0)
        (registration ++ [.tick 172800000000]) = some d ∧
      nilToken ∈ d.issued ∧ unixSeconds d.now ≤ nilToken.made.exp ∧ d.client.reaches = true ∧
      authenticateRequest nilEnv (bearer ++ utf8 nilToken.made.token) d.client
        (d.redis.store d.now) d.now = .done "" 401 := by
  have hgen : Genuine nilEnv nilToken.made := ⟨⟨_, rfl⟩, rfl⟩
  have hsound : Logins.Sound nilEnv (atTime 172800000000) :=
    Logins.sound_of_reach (Runs.Reach.refl.run _ (meets_registration 172800000000) rfl)
  have hnone : (atTime 172800000000).redis.store (atTime 172800000000).now
      (sessionKey (utf8 nilToken.made.token)) = none := by
    rcases hsound.kept (utf8 nilToken.made.token) with ⟨i, hi, _, _, hkey, _⟩ | ⟨_, hnone⟩
    · have heq : i = nilToken := List.mem_singleton.mp hi
      rw [heq] at hkey
      rw [store_sessionEntry hkey]
      exact if_neg (by decide)
    · exact absurd rfl (hnone nilToken (List.mem_singleton.mpr rfl) rfl)
  refine ⟨atTime 172800000000, rfl, List.mem_singleton.mpr rfl, by decide, by decide, ?_⟩
  exact rejected_of_missing hgen.plainToken hgen.token_ne_nil rfl (by decide) hnone _

end MessengerBackend.Session
