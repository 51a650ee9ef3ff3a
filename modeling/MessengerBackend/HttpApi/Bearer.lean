/-
  From the code in the mail to the handler: whom a request is served as.

  Under `Attended` Redis is there whenever `authenticate_request` looks at `is_connected()` for
  the second time (without that the lookup is passed by, Auth/Session), and nobody but the
  server writes a session. `Backed` is the invariant: what Redis holds under the key of a
  token is the user the token was made for, and a request is served as that user.

  * `bearer_of_run`: a request served as a user carries, byte for byte, a token of a session
    of that user, and the session has an `Origin` (HttpApi/Origin).

  Nothing is assumed of HMAC: a token that verifies and was not made by the server finds no
  session. Tokens with a space, a '%' or a NUL are left out; hiredis does not take them as one
  word.
-/
import MessengerBackend.HttpApi.Origin

namespace MessengerBackend.HttpApi

open Session (Phase PlainToken Genuine extractToken sessionKey helpers)

/-! ## The condition on a run -/

/-- Redis is there at the second look, and others leave no new session behind. -/
def Attended (c : Config) : Action → Prop
  | .spawn _ => True
  | .run i inp =>
      match c.threads[i]? with
      | some (_, .authenticating (.second _ _) _) => c.shared.running = true
      | some (_, .background) => ∀ token e, inp.redis.keys (sessionKey token) = some e →
          c.shared.redis.keys (sessionKey token) = some e
      | _ => True

/-! ## The invariant -/

/-- A session of the user was made with this token. -/
def Presented (c : Config) (token : Bytes) (userId : String) : Prop :=
  ∃ i text, utf8 text = token ∧ (i, .otp (.session text userId)) ∈ c.trace

/-- A call is about the token. -/
def Carries (token : Bytes) : Phase → Prop
  | .gate t | .connecting t | .verifying t => t = token
  | .second t _ | .acquiring t _ | .command t _ | .reconnecting t _ | .retry t _ => t = token
  | .done _ _ => False
  | .stuck => True

/-- A call is about the token, or at its end, where it lets through only whom the session is
    for. -/
def Admits (c : Config) (token : Bytes) : Phase → Prop
  | .done u _ => u = "" ∨ (PlainToken token → Presented c token u)
  | p => Carries token p

def Bearing (c : Config) : Request → Thread → Prop
  | .api authHeader call, .authenticating p call' =>
      call' = call ∧ Carries (extractToken authHeader) p
  | .api authHeader call, .serving t => isPublic call = true ∨
      (PlainToken (extractToken authHeader) → Presented c (extractToken authHeader) t.uid)
  | _, .authenticating _ _ => False
  | _, .serving _ => False
  | _, _ => True

structure Backed (env : Env) (c : Config) : Prop where
  genuine : ∀ i token userId, (i, .otp (.session token userId)) ∈ c.trace →
    ∃ created, Genuine env.session ⟨token, userId, created⟩
  stored : ∀ token e, c.shared.redis.keys (sessionKey token) = some e →
    ∃ userId, e.value = .string (utf8 userId) ∧ Presented c token userId
  bearing : ∀ (i : Nat) r l, c.threads[i]? = some (r, l) → Bearing c r l

theorem Presented.later {c c' : Config} (hc : ∀ o ∈ c.trace, o ∈ c'.trace) {token : Bytes}
    {userId : String} (h : Presented c token userId) : Presented c' token userId := by
  obtain ⟨i, text, htext, hmem⟩ := h
  exact ⟨i, text, htext, hc _ hmem⟩

theorem Bearing.later {c c' : Config} (hc : ∀ o ∈ c.trace, o ∈ c'.trace) {r : Request}
    {l : Thread} (h : Bearing c r l) : Bearing c' r l := by
  cases r with
  | api authHeader call =>
      cases l with
      | serving t => exact h.imp_right (fun h hp => (h hp).later hc)
      | _ => exact h
  | auth q => cases l <;> exact h
  | background => cases l <;> exact h

/-! ## One call of `authenticate_request` -/

section Call

variable {env : Env} {c : Config} {token : Bytes} {u : String}

theorem admits_judge {stored : Bytes}
    (h : stored ≠ [] → stored = utf8 u → PlainToken token → Presented c token u) :
    Admits c token (Session.judge u stored) := by
  unfold Session.judge
  split
  · exact Or.inl rfl
  · rename_i hno
    rw [not_or, not_not] at hno
    exact Or.inr (h hno.1 hno.2)

/-- Without an answer nobody is let through. -/
theorem admits_nothing (u : String) : Admits c token (Session.judge u []) :=
  admits_judge (fun hne => absurd rfl hne)

theorem userId_ne_nul {token userId : String} {created : Time}
    (h : Genuine env.session ⟨token, userId, created⟩) : (0 : UInt8) ∉ utf8 userId :=
  fun h0 => ((plainWord_utf8 h.userId_plain.1 h.userId_plain.2).2 0 h0).2.2 rfl

/-- What Redis answers for the key of a token. -/
theorem Backed.held (hb : Backed env c) {v : Redis.Value}
    (h : c.shared.world.store (sessionKey token) = some v) :
    ∃ userId, v = .string (utf8 userId) ∧ Presented c token userId := by
  obtain ⟨e, he, rfl⟩ := Option.map_eq_some_iff.mp h
  exact hb.stored token e (Option.filter_eq_some_iff.mp he).1

/-- The lookup lets through whom the session is for. -/
theorem presented_of_issue (hb : Backed env c) {sent : Session.Sent} {stored : Bytes}
    (hi : Session.issue env.session token sent c.shared.world = some stored) (hne : stored ≠ [])
    (hu : stored = utf8 u) (ht : PlainToken token) : Presented c token u := by
  have hnul : ∀ bs, c.shared.world.store (sessionKey token) = some (.string bs) →
      (0 : UInt8) ∉ bs := by
    intro bs hbs
    obtain ⟨userId, hv, i, text, _, hmem⟩ := hb.held hbs
    obtain ⟨created, hgen⟩ := hb.genuine i text userId hmem
    cases hv
    exact userId_ne_nul hgen
  obtain ⟨userId, hv, hp⟩ := hb.held (Session.issue_stored ht hnul hi hne)
  have huser : utf8 u = utf8 userId := hu.symm.trans (by injection hv)
  rw [utf8_injective huser]
  exact hp

/-- The step lemma. -/
theorem admits_step (hb : Backed env c) {p : Phase} (hp : Carries token p)
    (hsecond : ∀ t v, p = .second t v → c.shared.running = true) (inp : Session.Input) :
    Admits c token (Session.step env.session p inp c.shared.world).2 := by
  cases p with
  | gate t =>
      simp only [Session.step]
      split <;> exact hp
  | connecting t =>
      simp only [Session.step]
      split
      · trivial
      · split
        · exact hp
        · cases inp.connects with
          | none => trivial
          | some ok =>
              cases ok
              · exact Or.inl rfl
              · exact hp
  | verifying t =>
      simp only [Session.step]
      split
      · exact Or.inl rfl
      · exact hp
  | second t v =>
      have hrunning : c.shared.world.running = true := hsecond t v rfl
      simp only [Session.step, hrunning, if_true]
      exact hp
  | acquiring t v =>
      simp only [Session.step]
      split
      · trivial
      · split
        · exact hp
        · exact admits_nothing v
  | command t v =>
      obtain rfl : t = token := hp
      simp only [Session.step]
      split
      · trivial
      · split
        · rename_i stored hi
          exact admits_judge (presented_of_issue hb hi)
        · rfl
  | reconnecting t v =>
      simp only [Session.step]
      split
      · trivial
      · cases inp.connects with
        | none => trivial
        | some ok =>
            cases ok
            · exact admits_nothing v
            · exact hp
  | retry t v =>
      obtain rfl : t = token := hp
      simp only [Session.step]
      split
      · trivial
      · split
        · rename_i stored hi
          exact admits_judge (presented_of_issue hb hi)
        · exact admits_nothing v
  | done v status => exact hp.elim
  | stuck => trivial

theorem bearing_passOn {authHeader : Bytes} {call : Api.Call} {p : Phase}
    (h : Admits c (extractToken authHeader) p) :
    Bearing c (.api authHeader call) (passOn call p) := by
  cases p with
  | done v status =>
      simp only [passOn]
      split
      · trivial
      · rename_i hne
        exact Or.inr (h.resolve_left hne)
  | stuck => trivial
  | _ => exact ⟨rfl, h⟩

theorem bearing_start (r : Request) : Bearing c r (start env r) := by
  cases r with
  | auth q => trivial
  | background => trivial
  | api authHeader call =>
      show Bearing c _ (if isPublic call then _ else _)
      split
      · rename_i hpub
        exact Or.inl hpub
      · refine bearing_passOn ?_
        unfold Session.start
        split
        · exact Or.inl rfl
        · rfl

end Call

/-! ## One step -/

section Step

variable {env : Env} {c : Config} {i : Nat} {r : Request} {l : Thread} {inp : Input}

/-- Sessions are made by login requests, for the ids of the database. -/
theorem genuine_step {token userId : String}
    (h : .otp (.session token userId) ∈ (step env l inp c.shared).2.2) :
    ∃ created, Genuine env.session ⟨token, userId, created⟩ := by
  cases l with
  | auth t =>
      obtain ⟨o, ho, heq⟩ := List.mem_map.mp h
      cases heq
      exact ⟨_, Session.Logins.genuine_of_moves (Otp.moves_step env.helpers
        (inp.otpInput c.shared.now) c.shared.otp t) ho⟩
  | authenticating p call =>
      obtain ⟨_, _, ho⟩ := Option.map_eq_some_iff.mp (Option.mem_toList.mp h)
      cases ho
  | serving t =>
      have hmem : Obs.otp (.session token userId) ∈ (if _ = c.shared.db then [] else _) := h
      split at hmem
      · cases hmem
      · cases List.mem_singleton.mp hmem
  | storing text user t =>
      have hmem : Obs.otp (.session token userId) ∈
          (stepStoring env text user t inp c.shared).2.2 := h
      rw [obs_stepStoring] at hmem
      cases hmem
  | refused resp => cases h
  | background => cases h
  | stuck => cases h

/-- A session key after a step is an old one, or the token that was stored. -/
theorem keys_step (hb : Backed env c) (hin : InOrder env c i r l)
    (hatt : ∀ (token : Bytes) e, l = .background →
      inp.redis.keys (sessionKey token) = some e → c.shared.redis.keys (sessionKey token) = some e)
    {token : Bytes} {e : Redis.Entry}
    (h : (step env l inp c.shared).1.redis.keys (sessionKey token) = some e) :
    ∃ userId, e.value = .string (utf8 userId) ∧ Presented c token userId := by
  cases l with
  | storing text userId t =>
      cases r with
      | auth q =>
          obtain ⟨created, hgen⟩ := hb.genuine i text userId hin.2
          have hkeys : (stepStoring env text userId t inp c.shared).1.redis.keys (sessionKey token) =
              some e := h
          unfold stepStoring at hkeys
          split at hkeys
          · exact hb.stored token e hkeys
          · simp only [Session.storeRedisSession_of_genuine hgen] at hkeys
            split at hkeys
            · by_cases hkey : sessionKey token = sessionKey (utf8 text)
              · rw [hkey] at hkeys
                obtain rfl := Option.some.inj ((Function.update_self (sessionKey (utf8 text)) _
                  c.shared.redis.keys).symm.trans hkeys)
                exact ⟨userId, rfl, i, text, (Session.Logins.sessionKey_injective hkey).symm, hin.2⟩
              · exact hb.stored token e
                  ((Function.update_of_ne hkey _ c.shared.redis.keys).symm.trans hkeys)
            · exact hb.stored token e hkeys
      | api authHeader call => exact hin.elim
      | background => exact hin.elim
  | background => exact hb.stored token e (hatt token e rfl h)
  | auth t => exact hb.stored token e h
  | authenticating p call => exact hb.stored token e h
  | serving t => exact hb.stored token e h
  | refused resp => exact hb.stored token e h
  | stuck => exact hb.stored token e h

theorem bearing_afterAuth (r : Request) (t : Otp.Thread) (obs : List Otp.Obs) :
    Bearing c r (afterAuth t obs) := by
  unfold afterAuth
  split <;> cases r <;> trivial

theorem bearing_storing (r : Request) (token userId : String) (t : Otp.Thread) (s : State) :
    Bearing c r (stepStoring env token userId t inp s).2.1 := by
  rcases stepStoring_cases env token userId t inp s with h | h
  · rw [h]
    cases r <;> trivial
  · rw [h]
    cases r <;> trivial

theorem bearing_step (hb : Backed env c) (h : Bearing c r l)
    (hsecond : ∀ t v call, l = .authenticating (.second t v) call → c.shared.running = true) :
    Bearing c r (step env l inp c.shared).2.1 := by
  cases r with
  | api authHeader call =>
      cases l with
      | authenticating p call' =>
          obtain ⟨rfl, hp⟩ := h
          exact bearing_passOn (admits_step hb hp (fun t v hv => hsecond t v _ (by rw [hv]))
            inp.session)
      | serving t =>
          refine h.imp_right (fun h hp => ?_)
          rw [Api.uid_step]
          exact h hp
      | auth t => exact bearing_afterAuth _ _ _
      | storing token userId t => exact bearing_storing _ token userId t _
      | _ => trivial
  | auth q =>
      cases l <;>
        first | exact bearing_afterAuth _ _ _ | exact bearing_storing _ _ _ _ _ | trivial
  | background =>
      cases l <;>
        first | exact bearing_afterAuth _ _ _ | exact bearing_storing _ _ _ _ _ | trivial

theorem backed_advance (hb : Backed env c) (hin : InOrder env c i r l)
    (hi : c.threads[i]? = some (r, l)) (hatt : Attended c (.run i inp)) :
    Backed env ((system env).advance c i r l inp) := by
  have hlater : ∀ o ∈ c.trace, o ∈ ((system env).advance c i r l inp).trace :=
    fun o ho => List.mem_append_left _ ho
  simp only [Attended, hi] at hatt
  refine ⟨fun j token userId h => ?_, fun token e h => ?_, fun j r' l' h => ?_⟩
  · rcases Interleave.mem_trace_moved h with hold | ⟨rfl, hnew⟩
    · exact hb.genuine j token userId hold
    · exact genuine_step hnew
  · obtain ⟨userId, hv, hp⟩ := keys_step hb hin (by rintro token e rfl; exact hatt token e) h
    exact ⟨userId, hv, hp.later hlater⟩
  · rcases Interleave.getElem?_moved h with ⟨rfl, heq⟩ | ⟨_, hold⟩
    · cases heq
      refine Bearing.later hlater (bearing_step hb (hb.bearing _ _ _ hi) ?_)
      rintro t v call rfl
      exact hatt
    · exact (hb.bearing j r' l' hold).later hlater

end Step

/-! ## Runs -/

theorem backed_of_reach {env : Env} {s : State} (hcodes : ∀ k, s.otp.code k = none)
    (hsessions : ∀ token, s.redis.keys (sessionKey token) = none) {c : Config}
    (hr : (system env).Reach Attended (Interleave.Config.init s) c) : Backed env c := by
  refine Interleave.System.Reach.induct (Backed env) ⟨?_, ?_, ?_⟩ ?_ ?_ hr
  · intro i token userId h
    simp [Interleave.Config.init] at h
  · intro token e h
    rw [show (Interleave.Config.init s : Config).shared.redis = s.redis from rfl, hsessions] at h
    cases h
  · intro i r l h
    simp [Interleave.Config.init] at h
  · intro c r _ hb _
    refine ⟨hb.genuine, hb.stored, fun i r' l h => ?_⟩
    rcases Interleave.getElem?_spawn h with heq | hold
    · cases heq
      exact bearing_start r
    · exact hb.bearing i r' l hold
  · intro c i r l inp hr hb hatt hi
    exact backed_advance hb ((accounted_of_reach hcodes hr).inOrder i r l hi) hi hatt

/-- A request that is served as a user carries the token of a session that was made for that
    user: by the registration of the user, or by a `verify-otp` with a code of the hash of one
    that was sent to the user's address. -/
theorem bearer_of_run (env : Env) (s : State) (hcodes : ∀ k, s.otp.code k = none)
    (hsessions : ∀ token, s.redis.keys (sessionKey token) = none) (as : List Action)
    (hatt : (system env).Meets Attended (Interleave.Config.init s) as) (i : Nat)
    (authHeader : Bytes) (call : Api.Call) (t : Api.Thread)
    (hi : (run env s as).threads[i]? = some (.api authHeader call, .serving t))
    (hpub : isPublic call = false) (htoken : PlainToken (extractToken authHeader)) :
    ∃ j token, utf8 token = extractToken authHeader ∧
      (j, .otp (.session token t.uid)) ∈ (run env s as).trace ∧
      Origin env (run env s as) j t.uid := by
  have hr : (system env).Reach Attended (Interleave.Config.init s) (run env s as) :=
    Interleave.System.Reach.foldl (system env) as .refl hatt
  rcases (backed_of_reach hcodes hsessions hr).bearing i _ _ hi with hpublic | hserved
  · rw [hpub] at hpublic
    cases hpublic
  · obtain ⟨j, token, htok, hmem⟩ := hserved htoken
    exact ⟨j, token, htok, hmem, (accounted_of_reach hcodes hr).sessions j token t.uid hmem⟩

/-! ## A registration and a request -/

/-- Redis is there, and the thread is no other client of it. -/
def quiet (c : Config) : Action → Bool
  | .spawn _ => true
  | .run i _ => c.shared.running && !(c.threads[i]?).any (fun x => x.2 matches .background)

theorem attended_of_quiet (c : Config) (a : Action) (h : quiet c a = true) : Attended c a := by
  cases a with
  | spawn r => trivial
  | run i inp =>
      simp only [quiet, Bool.and_eq_true] at h
      cases ht : c.threads[i]? with
      | none => simp only [Attended, ht]
      | some x =>
          obtain ⟨r, l⟩ := x
          simp only [Attended, ht]
          cases l with
          | authenticating p call =>
              cases p with
              | second token u => exact h.1
              | _ => trivial
          | background => simp [ht] at h
          | _ => trivial

/-- The nil id registers and asks for its profile. -/
def profileRun : List Action :=
  registerRun ++ [byNil (.query .me), go 1, go 1, go 1, go 1, go 1]

/-- Whom a thread serves. -/
def caller (c : Config) (i : Nat) : Option (Bytes × Bool × String) :=
  match c.threads[i]? with
  | some (.api authHeader call, .serving t) => some (authHeader, isPublic call, t.uid)
  | _ => none

theorem caller_eq {c : Config} {i : Nat} {authHeader : Bytes} {pub : Bool} {u : String}
    (h : caller c i = some (authHeader, pub, u)) : ∃ call t,
      c.threads[i]? = some (.api authHeader call, .serving t) ∧ isPublic call = pub ∧ t.uid = u := by
  unfold caller at h
  split at h
  · rename_i hi
    cases h
    exact ⟨_, _, hi, rfl, rfl⟩
  · cases h

theorem bearer_of_run_profile : ∃ j token, utf8 token = extractToken nilHeader ∧
    (j, .otp (.session token (Uuid.uuidOut .zero))) ∈
      (run plainServer (serverOf {}) profileRun).trace ∧
    Origin plainServer (run plainServer (serverOf {}) profileRun) j (Uuid.uuidOut .zero) := by
  have hcaller : caller (run plainServer (serverOf {}) profileRun) 1 =
      some (nilHeader, false, Uuid.uuidOut .zero) := by decide +kernel
  have hquiet : (system plainServer).Meets (fun c a => quiet c a = true)
      (Interleave.Config.init (serverOf {})) profileRun := by decide +kernel
  have hgenuine : Genuine Session.nilEnv Session.nilToken.made := ⟨⟨_, rfl⟩, rfl⟩
  obtain ⟨call, t, hi, hpub, hu⟩ := caller_eq hcaller
  have h := bearer_of_run plainServer (serverOf {}) (fun _ => rfl) (fun _ => rfl) profileRun
    (hquiet.mono attended_of_quiet profileRun) 1 nilHeader call t hi hpub hgenuine.plainToken
  rwa [hu] at h

end MessengerBackend.HttpApi
