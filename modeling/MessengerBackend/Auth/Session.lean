/-
  `authenticate_request`, one read of shared state at a time.

  `RedisClient` is shared with the other requests and with the background connect, so between
  two reads `running_` may flip, keys may change and time passes: an `Event` is either a step
  of the call or any change of the `World` by somebody else. `connect` and `reconnect` are
  single steps, and what becomes of a command is an `Input`.

  A failed attempt of `connect` waits for the mutex that it holds itself (Redis/Pool), so the
  call never returns (`stuck`), and neither does any later one that takes the mutex. Since
  `HttpApi` leaves `max_retries` at 3, `connect` never gets as far as false, and 503 is never
  answered (`Redis.Client.connect_ok`); the branch is here as the code has it.

  The store is consulted only if the second read of `is_connected()` sees true. So a
  `disconnect` between the two reads lets every signed token through
  (`signed_but_unstored`). Nothing goes wrong in a run whose steps are `Unraced`, for a token
  that hiredis takes as one word (`sessionChecked_of_unraced`).
-/
import MessengerBackend.Redis.Hiredis
import MessengerBackend.Auth.Jwt

namespace MessengerBackend.Session

open Redis (Store Value Hiredis cut replyString execGet)

/-! ## The call -/

/-- What the call uses from outside the repository, and the configured secret. -/
structure Env where
  jwt : Jwt.Library
  hiredis : Hiredis
  secret : Bytes

/-- `running_`, `pool_mutex_`, the keys of Redis and the clock. -/
structure World where
  running : Bool
  /-- A thread has the mutex for good. -/
  locked : Bool := false
  store : Store
  now : Time

inductive Phase where
  | gate (token : Bytes)
  | connecting (token : Bytes)
  | verifying (token : Bytes)
  | second (token : Bytes) (userId : String)
  | acquiring (token : Bytes) (userId : String)
  | command (token : Bytes) (userId : String)
  | reconnecting (token : Bytes) (userId : String)
  | retry (token : Bytes) (userId : String)
  | done (userId : String) (status : Nat)
  /-- Waiting for ever, or gone with the process. -/
  | stuck
deriving DecidableEq

/-- What becomes of `redisCommand`: a reply, a null reply with the context in error, a null reply
    without, or a crash, as on a context that is null. -/
inductive Sent where
  | answered
  | lost
  | silent
  | crashed
deriving DecidableEq

structure Input where
  /-- What `connect()` returns, if it does, with the mutex in hand. -/
  connects : Option Bool
  /-- A pooled connection is free. -/
  acquired : Bool
  sent : Sent

/-- `"Bearer "`. -/
def bearer : Bytes := [66, 101, 97, 114, 101, 114, 32]

def extractToken (authHeader : Bytes) : Bytes :=
  if authHeader.take 7 = bearer then authHeader.drop 7 else []

def sessionKey (token : Bytes) : Bytes := utf8 "session:" ++ token

/-- The text of `get`. -/
def getCommand (token : Bytes) : Bytes := utf8 "GET " ++ sessionKey token

def start (authHeader : Bytes) : Phase :=
  if extractToken authHeader = [] then .done "" 401 else .gate (extractToken authHeader)

/-- The comparison with the stored user. -/
def judge (userId : String) (stored : Bytes) : Phase :=
  if stored = [] ∨ stored ≠ utf8 userId then .done "" 401 else .done userId 200

/-- `redisCommand` on the GET; `none` is a null reply with the context in error. -/
def issue (env : Env) (token : Bytes) (sent : Sent) (w : World) : Option Bytes :=
  match sent, env.hiredis.args (getCommand token) with
  | .answered, some args => some (replyString (execGet w.store args))
  | .silent, _ => some []
  | _, _ => none

def step (env : Env) : Phase → Input → World → World × Phase
  | .gate token, _, w => (w, if w.running then .verifying token else .connecting token)
  | .connecting token, inp, w =>
      if w.locked then (w, .stuck)
      else if w.running then (w, .verifying token)
      else
        match inp.connects with
        | some true => ({ w with running := true }, .verifying token)
        | some false => (w, .done "" 503)
        | none => ({ w with locked := true }, .stuck)
  | .verifying token, _, w =>
      let userId := Jwt.verify env.jwt env.secret token w.now
      (w, if userId = "" then .done "" 401 else .second token userId)
  | .second token userId, _, w =>
      (w, if w.running then .acquiring token userId else .done userId 200)
  | .acquiring token userId, inp, w =>
      (w, if w.locked then .stuck
        else if inp.acquired then .command token userId
        else judge userId [])
  | .command token userId, inp, w =>
      if inp.sent = .crashed then (w, .stuck)
      else
        match issue env token inp.sent w with
        | some stored => (w, judge userId stored)
        | none => (w, .reconnecting token userId)
  | .reconnecting token userId, inp, w =>
      -- `disconnect` clears `running_` before it takes the mutex
      if w.locked then ({ w with running := false }, .stuck)
      else
        match inp.connects with
        | some true => ({ w with running := true }, .retry token userId)
        | some false => ({ w with running := false }, judge userId [])
        | none => ({ w with running := false, locked := true }, .stuck)
  | .retry token userId, inp, w =>
      if inp.sent = .crashed then (w, .stuck)
      else
        match issue env token inp.sent w with
        | some stored => (w, judge userId stored)
        | none => (w, judge userId [])
  | .done userId status, _, w => (w, .done userId status)
  | .stuck, _, w => (w, .stuck)

/-! ## Runs -/

inductive Event where
  /-- Other threads, other clients of Redis, the clock. -/
  | world (w : World)
  | step (inp : Input)

/-- The world, the call, and every moment of the call so far. -/
structure Config where
  world : World
  phase : Phase
  moments : List World

def init (authHeader : Bytes) (w : World) : Config := ⟨w, start authHeader, [w]⟩

def next (env : Env) (c : Config) : Event → Config
  | .world w => ⟨w, c.phase, c.moments ++ [w]⟩
  | .step inp =>
      ⟨(step env c.phase inp c.world).1, (step env c.phase inp c.world).2,
        c.moments ++ [(step env c.phase inp c.world).1]⟩

/-- A run of one call, each event under the condition `P` where it happens. -/
inductive Run (env : Env) (authHeader : Bytes) (P : Config → Event → Prop) : Config → Prop where
  | init (w : World) : Run env authHeader P (init authHeader w)
  | next {c : Config} (e : Event) : Run env authHeader P c → P c e →
      Run env authHeader P (next env c e)

/-- A user is let through only with a token that verifies and whose key holds the user, each
    at some moment of the call. -/
def SessionChecked (env : Env) (authHeader : Bytes) (c : Config) : Prop :=
  ∀ userId, c.phase = .done userId 200 → userId ≠ "" →
    (∃ w ∈ c.moments, Jwt.verify env.jwt env.secret (extractToken authHeader) w.now = userId) ∧
      ∃ w ∈ c.moments,
        w.store (sessionKey (extractToken authHeader)) = some (.string (utf8 userId))

/-- One word to hiredis: no space, no '%', no NUL. -/
def PlainToken (token : Bytes) : Prop := ∀ b ∈ token, b ≠ 32 ∧ b ≠ 37 ∧ b ≠ 0

instance (token : Bytes) : Decidable (PlainToken token) :=
  List.decidableBAll (fun b => b ≠ 32 ∧ b ≠ 37 ∧ b ≠ 0) token

/-- The condition on an event: the second read of `running_` sees true, and a command reads
    no value with a NUL in it. -/
def Unraced (token : Bytes) (c : Config) : Event → Prop
  | .world _ => True
  | .step _ =>
      match c.phase with
      | .second _ _ => c.world.running = true
      | .command _ _ | .retry _ _ =>
          ∀ bs, c.world.store (sessionKey token) = some (.string bs) → (0 : UInt8) ∉ bs
      | _ => True

/-! ## The lookup -/

theorem mem_sessionKey {token : Bytes} (ht : PlainToken token) :
    ∀ b ∈ sessionKey token, b ≠ 32 ∧ b ≠ 37 ∧ b ≠ 0 := by
  intro b hb
  have hprefix : PlainToken (utf8 "session:") := by decide
  rcases List.mem_append.mp hb with hp | hb
  · exact hprefix b hp
  · exact ht b hb

/-- A plain token is looked up under its own key. -/
theorem args_getCommand (env : Env) {token : Bytes} (ht : PlainToken token) :
    env.hiredis.args (getCommand token) = some [utf8 "GET", sessionKey token] := by
  have hplain : ∀ w ∈ [utf8 "GET", sessionKey token], Redis.PlainWord w := by
    intro w hw
    rcases List.mem_pair.mp hw with rfl | rfl
    · decide
    · refine ⟨fun h => ?_, mem_sessionKey ht⟩
      exact absurd (List.append_eq_nil_iff.mp h).1 (by decide)
  have hsplit : getCommand token = [32].intercalate [utf8 "GET", sessionKey token] := by
    rw [List.intercalate_cons_cons, List.intercalate_singleton]
    rfl
  rw [hsplit]
  exact env.hiredis.args_intercalate hplain (List.cons_ne_nil _ _)

/-- A nonempty answer is what the key holds. -/
theorem issue_stored {env : Env} {token stored : Bytes} {sent : Sent} {w : World}
    (ht : PlainToken token)
    (hnul : ∀ bs, w.store (sessionKey token) = some (.string bs) → (0 : UInt8) ∉ bs)
    (hi : issue env token sent w = some stored) (hne : stored ≠ []) :
    w.store (sessionKey token) = some (.string stored) := by
  unfold issue at hi
  rw [args_getCommand env ht] at hi
  cases sent with
  | lost => cases hi
  | crashed => cases hi
  | silent => exact absurd (Option.some.inj hi).symm hne
  | answered =>
      have hs : replyString (execGet w.store [utf8 "GET", sessionKey token]) = stored :=
        Option.some.inj hi
      simp only [execGet] at hs
      split at hs
      · exact absurd hs.symm hne
      · rename_i bs hbs
        simp only [replyString] at hs
        rw [Redis.cut_of_forall (hnul bs hbs)] at hs
        rw [hbs, hs]
      · exact absurd hs.symm hne

/-! ## The invariant -/

section Invariant

variable (env : Env) (token : Bytes)

def Verified (moments : List World) (userId : String) : Prop :=
  ∃ w ∈ moments, Jwt.verify env.jwt env.secret token w.now = userId

def Held (moments : List World) (userId : String) : Prop :=
  ∃ w ∈ moments, w.store (sessionKey token) = some (.string (utf8 userId))

/-- What each point of the call has established. -/
def Established (moments : List World) : Phase → Prop
  | .gate t | .connecting t | .verifying t => t = token
  | .second t u | .acquiring t u | .command t u | .reconnecting t u | .retry t u =>
      t = token ∧ Verified env token moments u
  | .done u status => status = 200 → u ≠ "" →
      Verified env token moments u ∧ Held token moments u
  | .stuck => True

variable {env token}

theorem Verified.mono {ms : List World} {u : String} (h : Verified env token ms u) (w : World) :
    Verified env token (ms ++ [w]) u := by
  obtain ⟨w', hw', hv⟩ := h
  exact ⟨w', List.mem_append_left _ hw', hv⟩

theorem Held.mono {ms : List World} {u : String} (h : Held token ms u) (w : World) :
    Held token (ms ++ [w]) u := by
  obtain ⟨w', hw', hv⟩ := h
  exact ⟨w', List.mem_append_left _ hw', hv⟩

/-- Time passing keeps what is established. -/
theorem Established.mono {ms : List World} {p : Phase} (h : Established env token ms p)
    (w : World) : Established env token (ms ++ [w]) p := by
  cases p with
  | gate t => exact h
  | connecting t => exact h
  | verifying t => exact h
  | stuck => trivial
  | done u status =>
      intro hs hu
      exact ⟨(h hs hu).1.mono w, (h hs hu).2.mono w⟩
  | second t u | acquiring t u | command t u | reconnecting t u | retry t u =>
      exact ⟨h.1, h.2.mono w⟩

/-- The comparison lets through only a user the key holds. -/
theorem established_judge {ms : List World} {u : String} {stored : Bytes}
    (hv : Verified env token ms u)
    (hs : stored ≠ [] → stored = utf8 u → Held token ms u) :
    Established env token ms (judge u stored) := by
  unfold judge
  split
  · intro h
    cases h
  · rename_i hno
    rw [not_or, not_not] at hno
    exact fun _ _ => ⟨hv, hs hno.1 hno.2⟩

theorem established_start (authHeader : Bytes) (ms : List World) :
    Established env (extractToken authHeader) ms (start authHeader) := by
  unfold start
  split
  · intro h
    cases h
  · rfl

/-- The step lemma: an unraced step of the call, taken in a world of the list. -/
theorem established_step {c : Config} {inp : Input} (ht : PlainToken token)
    (hg : Unraced token c (.step inp)) (hw : c.world ∈ c.moments)
    (h : Established env token c.moments c.phase) :
    Established env token c.moments (step env c.phase inp c.world).2 := by
  obtain ⟨w, p, ms⟩ := c
  have hissue : ∀ {u : String} {stored : Bytes}, Verified env token ms u →
      (∀ bs, w.store (sessionKey token) = some (.string bs) → (0 : UInt8) ∉ bs) →
      issue env token inp.sent w = some stored →
      Established env token ms (judge u stored) := by
    intro u stored hv hnul hi
    refine established_judge hv (fun hne heq => ⟨w, hw, ?_⟩)
    rw [issue_stored ht hnul hi hne, heq]
  cases p with
  | gate t =>
      simp only [step]
      split <;> exact h
  | connecting t =>
      simp only [step]
      split
      · trivial
      · split
        · exact h
        · split
          · exact h
          · intro h503
            cases h503
          · trivial
  | verifying t =>
      obtain rfl : t = token := h
      simp only [step]
      split
      · intro h401
        cases h401
      · exact ⟨rfl, w, hw, rfl⟩
  | second t u =>
      simp only [Unraced] at hg
      simp only [step, hg, if_true]
      exact h
  | acquiring t u =>
      simp only [step]
      split
      · trivial
      · split
        · exact h
        · exact established_judge h.2 (fun hne => absurd rfl hne)
  | command t u =>
      obtain ⟨rfl, hv⟩ := h
      simp only [step]
      split
      · trivial
      · split
        · rename_i stored hi
          exact hissue hv hg hi
        · exact ⟨rfl, hv⟩
  | reconnecting t u =>
      simp only [step]
      split
      · trivial
      · split
        · exact h
        · exact established_judge h.2 (fun hne => absurd rfl hne)
        · trivial
  | retry t u =>
      obtain ⟨rfl, hv⟩ := h
      simp only [step]
      split
      · trivial
      · split
        · rename_i stored hi
          exact hissue hv hg hi
        · exact established_judge hv (fun hne => absurd rfl hne)
  | done u status => exact h
  | stuck => trivial

end Invariant

/-- The run lemma. -/
theorem established_of_run {env : Env} {authHeader : Bytes} {c : Config}
    (ht : PlainToken (extractToken authHeader))
    (hr : Run env authHeader (Unraced (extractToken authHeader)) c) :
    c.world ∈ c.moments ∧ Established env (extractToken authHeader) c.moments c.phase := by
  induction hr with
  | init w => exact ⟨List.mem_singleton.mpr rfl, established_start authHeader [w]⟩
  | next e hr hp ih =>
      cases e with
      | world w => exact ⟨List.mem_append_right _ (List.mem_singleton.mpr rfl), ih.2.mono w⟩
      | step inp =>
          refine ⟨List.mem_append_right _ (List.mem_singleton.mpr rfl), ?_⟩
          exact (established_step ht hp ih.1 ih.2).mono _

/-- In every unraced run, with a token that hiredis takes as one word, whoever is let through
    has a valid token whose key held the user. -/
theorem sessionChecked_of_unraced (env : Env) (authHeader : Bytes) (c : Config)
    (ht : PlainToken (extractToken authHeader))
    (hr : Run env authHeader (Unraced (extractToken authHeader)) c) :
    SessionChecked env authHeader c := by
  intro u hphase hu
  have h := (established_of_run ht hr).2
  rw [hphase] at h
  exact h rfl hu

/-! ## Two calls -/

/-- Every text has the same HMAC, every payload is u's, and hiredis splits at spaces. -/
def plainEnv : Env where
  jwt := {
    hmac := fun _ _ => Block.zero 32
    parse := fun _ => some (.obj [("exp", .num 10), ("sub", .str "u")]) }
  hiredis := .splitting
  secret := []

/-- `Bearer e30.e30.` and the signature. -/
def signedHeader : Bytes := utf8 "Bearer e30.e30." ++ List.replicate 43 65

/-- The key holds u, or nothing does. -/
def worldOf (running stored : Bool) : World where
  running := running
  store := fun key =>
    if stored && key == sessionKey (extractToken signedHeader) then some (.string (utf8 "u"))
    else none
  now := 0

def smooth : Event := .step ⟨some true, true, .answered⟩

/-- The session is looked up and found. -/
theorem sessionChecked_of_unraced_found :
    SessionChecked plainEnv signedHeader ([smooth, smooth, smooth, smooth, smooth].foldl
      (next plainEnv) (init signedHeader (worldOf true true))) := by
  refine sessionChecked_of_unraced plainEnv signedHeader _ (by decide) ?_
  refine .next smooth (.next smooth (.next smooth (.next smooth (.next smooth
    (.init (worldOf true true)) ?_) ?_) ?_) ?_) ?_
  · trivial
  · trivial
  · rfl
  · trivial
  · intro bs hbs
    have hkey : (worldOf true true).store (sessionKey (extractToken signedHeader)) =
        some (.string (utf8 "u")) := rfl
    cases hkey.symm.trans hbs
    decide

/-- Between the two reads another request disconnects. -/
def raced : Config :=
  [smooth, smooth, .world (worldOf false false), smooth].foldl (next plainEnv)
    (init signedHeader (worldOf true false))

/-- A signed token whose session was never stored is let through. -/
theorem signed_but_unstored : Run plainEnv signedHeader (fun _ _ => True) raced ∧
    ¬ SessionChecked plainEnv signedHeader raced := by
  refine ⟨.next smooth (.next (.world (worldOf false false)) (.next smooth (.next smooth (.init _)
    trivial) trivial) trivial) trivial, fun hchecked => ?_⟩
  obtain ⟨w, hw, hkey⟩ := (hchecked "u" (by decide) (by decide)).2
  change w ∈ [worldOf true false, worldOf true false, worldOf true false, worldOf false false,
    worldOf false false] at hw
  simp only [List.mem_cons, List.not_mem_nil, or_false] at hw
  have hnone : ∀ running key, (worldOf running false).store key = none := fun _ _ => rfl
  rcases hw with rfl | rfl | rfl | rfl | rfl <;> rw [hnone] at hkey <;> cases hkey

end MessengerBackend.Session
