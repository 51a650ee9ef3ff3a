/-
  No way around `authenticate_request`: what changes the database, in every run of the whole
  server.

  `Fits` is the invariant of a thread next to its request. While it authenticates it carries
  the token of its own header; from the verification on, the trace has the user that
  `JwtHelper::verify` gave for that token, and when. Its handler is the one of its own call,
  for that user.

  * `mediated`: whatever changes the database is a statement of an authentication route, on
    `users` or `otp_codes` only, or a statement of a handler for the user its request was
    verified as. A request that was refused has changed nothing, and its answer is 401 or 503.

  Whether the session was in Redis is not part of it: the lookup can be passed by (Auth/Session).
-/
import MessengerBackend.HttpApi.Effects

namespace MessengerBackend

namespace HttpApi

open Session (Phase extractToken)

/-! ## The invariant of a thread -/

section Invariant

variable (env : Env) (tr : List (Nat × Obs)) (i : Nat)

/-- The trace of thread `i` has a verification of the token in the header, as `u`. -/
def Verified (authHeader : Bytes) (u : String) : Prop :=
  u ≠ "" ∧ ∃ now, (i, .verified u now) ∈ tr ∧
    Jwt.verify env.session.jwt env.session.secret (extractToken authHeader) now = u

def PhaseFits (authHeader : Bytes) : Phase → Prop
  | .gate t | .connecting t | .verifying t => t = extractToken authHeader
  | .second _ u | .acquiring _ u | .command _ u | .reconnecting _ u | .retry _ u =>
      Verified env tr i authHeader u
  | .done u _ => u ≠ "" → Verified env tr i authHeader u
  | .stuck => True

/-- Without a user the status is one of these. -/
def Refusal : Phase → Prop
  | .done u status => u = "" → status = 401 ∨ status = 503
  | _ => True

/-- A handler of the call for the caller, some steps on its way. -/
def Handles (pg : Pg) (call : Api.Call) (t : Api.Thread) : Prop :=
  ∃ xs, ((Api.system pg).course (Api.start ⟨t.uid, call⟩) xs).2 = t

def Fits : Request → Thread → Prop
  | .auth _, .auth _ => True
  | .auth _, .storing _ _ _ => True
  | .api authHeader call, .authenticating p call' =>
      call' = call ∧ PhaseFits env tr i authHeader p ∧ Refusal p
  | .api authHeader call, .serving t =>
      t.Own ∧ Handles env.pg call t ∧ (isPublic call = true ∨ Verified env tr i authHeader t.uid)
  | .api _ _, .refused r => r = unauthorized 401 ∨ r = unauthorized 503
  | .auth _, .stuck => True
  | .api _ _, .stuck => True
  | .background, .background => True
  | _, _ => False

variable {env tr i}

theorem Verified.mono {authHeader : Bytes} {u : String} (h : Verified env tr i authHeader u)
    (obs : List (Nat × Obs)) : Verified env (tr ++ obs) i authHeader u := by
  obtain ⟨hne, now, hmem, hv⟩ := h
  exact ⟨hne, now, List.mem_append_left _ hmem, hv⟩

theorem PhaseFits.mono {authHeader : Bytes} {p : Phase} (h : PhaseFits env tr i authHeader p)
    (obs : List (Nat × Obs)) : PhaseFits env (tr ++ obs) i authHeader p := by
  cases p with
  | gate t => exact h
  | connecting t => exact h
  | verifying t => exact h
  | done u status => exact fun hne => (h hne).mono obs
  | stuck => exact h
  | second t u | acquiring t u | command t u | reconnecting t u | retry t u =>
      exact Verified.mono h obs

/-- What others do leaves a thread where it fits. -/
theorem Fits.mono {r : Request} {l : Thread} (h : Fits env tr i r l) (obs : List (Nat × Obs)) :
    Fits env (tr ++ obs) i r l := by
  cases r with
  | auth r => cases l <;> exact h
  | api authHeader call =>
      cases l with
      | authenticating p call' => exact ⟨h.1, h.2.1.mono obs, h.2.2⟩
      | serving t => exact ⟨h.1, h.2.1, h.2.2.imp_right (fun hv => hv.mono obs)⟩
      | refused r => exact h
      | auth t => exact h
      | storing token userId t => exact h
      | background => exact h
      | stuck => exact h
  | background => cases l <;> exact h

end Invariant

/-! ## Authentication -/

section PassOn

variable {env : Env} {tr : List (Nat × Obs)} {i : Nat} {authHeader : Bytes} {call : Api.Call}

theorem fits_passOn {p : Phase} (hp : PhaseFits env tr i authHeader p) (hr : Refusal p) :
    Fits env tr i (.api authHeader call) (passOn call p) := by
  cases p with
  | done u status =>
      simp only [passOn]
      by_cases hu : u = ""
      · rw [if_pos hu]
        rcases hr hu with rfl | rfl
        · exact Or.inl rfl
        · exact Or.inr rfl
      · rw [if_neg hu]
        exact ⟨Api.own_start _, ⟨[], rfl⟩, Or.inr (hp hu)⟩
  | stuck => trivial
  | gate t => exact ⟨rfl, hp, trivial⟩
  | connecting t => exact ⟨rfl, hp, trivial⟩
  | verifying t => exact ⟨rfl, hp, trivial⟩
  | second t u | acquiring t u | command t u | reconnecting t u | retry t u =>
      exact ⟨rfl, hp, trivial⟩

theorem refusal_judge (u : String) (stored : Bytes) (hu : u ≠ "") :
    Refusal (Session.judge u stored) := by
  unfold Session.judge
  split
  · exact fun _ => Or.inl rfl
  · exact fun h => absurd h hu

theorem phaseFits_judge {u : String} (h : Verified env tr i authHeader u) (stored : Bytes) :
    PhaseFits env tr i authHeader (Session.judge u stored) := by
  unfold Session.judge
  split
  · exact fun hne => absurd rfl hne
  · exact fun _ => h

/-- The step lemma of `authenticate_request`, with what it adds to the trace. -/
theorem fits_session {p : Phase} (hp : PhaseFits env tr i authHeader p) (hr : Refusal p)
    (inp : Session.Input) (w : Session.World) :
    PhaseFits env (tr ++ (((verifiedAs p (Session.step env.session p inp w).2).map
        (fun u => Obs.verified u w.now)).toList).map (Prod.mk i)) i authHeader
      (Session.step env.session p inp w).2 ∧ Refusal (Session.step env.session p inp w).2 := by
  have judged : ∀ {u : String} (obs : List (Nat × Obs)) (stored : Bytes),
      Verified env tr i authHeader u →
      PhaseFits env (tr ++ obs) i authHeader (Session.judge u stored) ∧
        Refusal (Session.judge u stored) :=
    fun obs stored hv => ⟨phaseFits_judge (hv.mono obs) stored, refusal_judge _ stored hv.1⟩
  cases p with
  | gate t =>
      simp only [Session.step]
      split <;> exact ⟨hp, trivial⟩
  | connecting t =>
      simp only [Session.step]
      split
      · exact ⟨trivial, trivial⟩
      · split
        · exact ⟨hp, trivial⟩
        · cases inp.connects with
          | none => exact ⟨trivial, trivial⟩
          | some ok =>
              cases ok
              · exact ⟨fun hne => absurd rfl hne, fun _ => Or.inr rfl⟩
              · exact ⟨hp, trivial⟩
  | verifying t =>
      simp only [Session.step]
      split
      · exact ⟨fun hne => absurd rfl hne, fun _ => Or.inl rfl⟩
      · rename_i hne
        refine ⟨⟨hne, w.now, List.mem_append_right _ ?_, ?_⟩, trivial⟩
        · exact List.mem_singleton.mpr rfl
        · rw [show t = extractToken authHeader from hp]
  | second t u =>
      simp only [Session.step]
      split
      · exact ⟨Verified.mono hp _, trivial⟩
      · exact ⟨fun _ => Verified.mono hp _, fun h => absurd h hp.1⟩
  | acquiring t u =>
      simp only [Session.step]
      split
      · exact ⟨trivial, trivial⟩
      · split
        · exact ⟨Verified.mono hp _, trivial⟩
        · exact judged _ _ hp
  | command t u =>
      simp only [Session.step]
      split
      · exact ⟨trivial, trivial⟩
      · split
        · exact judged _ _ hp
        · exact ⟨Verified.mono hp _, trivial⟩
  | reconnecting t u =>
      simp only [Session.step]
      split
      · exact ⟨trivial, trivial⟩
      · cases inp.connects with
        | none => exact ⟨trivial, trivial⟩
        | some ok =>
            cases ok
            · exact judged _ [] hp
            · exact ⟨Verified.mono hp _, trivial⟩
  | retry t u =>
      simp only [Session.step]
      split
      · exact ⟨trivial, trivial⟩
      · split
        · exact judged _ _ hp
        · exact judged _ [] hp
  | done u status => exact ⟨PhaseFits.mono hp _, hr⟩
  | stuck => exact ⟨trivial, trivial⟩

end PassOn

/-! ## The handlers -/

section Handlers

variable {env : Env} {call : Api.Call} {t : Api.Thread}

theorem Handles.step (h : Handles env.pg call t) (inp : Api.Input) (db : Db) :
    Handles env.pg call (Api.step env.pg t inp db).2.1 := by
  obtain ⟨xs, hxs⟩ := h
  refine ⟨xs ++ [(db, inp)], ?_⟩
  rw [Api.uid_step, (Api.system env.pg).course_concat xs (db, inp), hxs]
  rfl

/-- Nothing but a GET. -/
def Reads (t : Api.Thread) : Prop :=
  (∃ r, t.point = .query r) ∨ ∃ r, t.point = .answered r

theorem reads_step {t : Api.Thread} (h : Reads t) (inp : Api.Input) (db : Db) :
    (Api.step env.pg t inp db).1 = db ∧ Reads (Api.step env.pg t inp db).2.1 := by
  obtain ⟨uid, point⟩ := t
  rcases h with ⟨r, rfl⟩ | ⟨r, rfl⟩
  · exact ⟨rfl, Or.inr ⟨_, rfl⟩⟩
  · exact ⟨rfl, Or.inr ⟨_, rfl⟩⟩

/-- The health check writes nothing. -/
theorem reads_of_isPublic (h : Handles env.pg call t) (hpub : isPublic call = true) : Reads t := by
  have hcall : call = .query .health := by
    unfold isPublic at hpub
    split at hpub
    · rfl
    · cases hpub
  obtain ⟨xs, hxs⟩ := h
  rw [← hxs, hcall]
  exact ((Api.system env.pg).course_rule Reads (fun _ _ => True)
    (fun l inp db hl => ⟨trivial, (reads_step hl inp db).2⟩) xs _ (Or.inl ⟨.health, rfl⟩)).2

end Handlers

/-! ## The run -/

section Run

variable {env : Env} {tr : List (Nat × Obs)} {i : Nat}

theorem fits_start (r : Request) : Fits env tr i r (start env r) := by
  cases r with
  | auth r => trivial
  | background => trivial
  | api authHeader call =>
      show Fits env tr i (.api authHeader call) (if isPublic call then _ else _)
      by_cases hpub : isPublic call = true
      · rw [if_pos hpub]
        exact ⟨Api.own_start _, ⟨[], rfl⟩, Or.inl hpub⟩
      · rw [if_neg hpub]
        unfold Session.start
        split
        · exact fits_passOn (fun hne => absurd rfl hne) (fun _ => Or.inl rfl)
        · exact fits_passOn rfl trivial

theorem fits_step {r : Request} {l : Thread} (h : Fits env tr i r l) (inp : Input) (s : State) :
    Fits env (tr ++ (step env l inp s).2.2.map (Prod.mk i)) i r (step env l inp s).2.1 := by
  cases r with
  | background => cases l <;> first | exact h | exact h.elim
  | auth r =>
      cases l with
      | auth t =>
          show Fits env _ i (.auth r) (afterAuth _ _)
          unfold afterAuth
          split <;> trivial
      | storing token userId t =>
          show Fits env _ i (.auth r) (stepStoring env token userId t inp s).2.1
          rcases stepStoring_cases env token userId t inp s with heq | heq
          · rw [heq]
            trivial
          · rw [heq]
            trivial
      | refused resp => exact h
      | background => exact h
      | stuck => exact h
      | authenticating p call => exact h.elim
      | serving t => exact h.elim
  | api authHeader call =>
      cases l with
      | authenticating p call' =>
          obtain ⟨rfl, hp, hr⟩ := h
          obtain ⟨hp', hr'⟩ := fits_session hp hr inp.session s.world
          exact fits_passOn hp' hr'
      | serving t =>
          obtain ⟨_, hhandles, hv⟩ := h
          refine ⟨Api.own_step env.pg t _ _, hhandles.step _ _, hv.imp_right (fun hv => ?_)⟩
          rw [Api.uid_step]
          exact hv.mono _
      | refused resp => exact h
      | background => exact h
      | stuck => exact h
      | auth t => exact h.elim
      | storing token userId t => exact h.elim

/-- The invariant of a run. -/
structure Sound (env : Env) (c : Config) : Prop where
  fits : ∀ i r l, c.threads[i]? = some (r, l) → Fits env c.trace i r l
  wrote : ∀ i u, (i, .wrote u) ∈ c.trace →
    ∃ authHeader call t, c.threads[i]? = some (.api authHeader call, .serving t)

/-- Only a handler writes for a user. -/
theorem wrote_mem {l : Thread} {inp : Input} {s : State} {u : String}
    (h : Obs.wrote u ∈ (step env l inp s).2.2) : ∃ t, l = .serving t ∧ t.uid = u := by
  cases l with
  | auth t =>
      obtain ⟨o, _, ho⟩ := List.mem_map.mp h
      cases ho
  | authenticating p call =>
      obtain ⟨u', _, hu'⟩ := Option.map_eq_some_iff.mp (Option.mem_toList.mp h)
      cases hu'
  | serving t =>
      refine ⟨t, rfl, ?_⟩
      have hmem : Obs.wrote u ∈ (if _ = s.db then [] else [Obs.wrote t.uid]) := h
      split at hmem
      · cases hmem
      · cases List.mem_singleton.mp hmem
        rfl
  | storing token userId t =>
      have hmem : Obs.wrote u ∈ (stepStoring env token userId t inp s).2.2 := h
      rw [obs_stepStoring] at hmem
      cases hmem
  | refused r => cases h
  | background => cases h
  | stuck => cases h

theorem sound_run (env : Env) (s : State) (as : List Action) : Sound env (run env s as) := by
  refine Interleave.System.Reach.induct (Sound env) ⟨?_, ?_⟩ ?_ ?_ (reach_run env s as)
  · intro i r l h
    simp [Interleave.Config.init] at h
  · intro i u h
    simp [Interleave.Config.init] at h
  · intro c r _ hc _
    refine ⟨fun i r' l h => ?_, fun i u h => ?_⟩
    · rcases Interleave.getElem?_spawn h with heq | hold
      · cases heq
        exact fits_start r
      · exact hc.fits i r' l hold
    · obtain ⟨authHeader, call, t, ht⟩ := hc.wrote i u h
      exact ⟨authHeader, call, t, Interleave.getElem?_spawned _ ht⟩
  · intro c i r l inp _ hc _ hi
    refine ⟨fun j r' l' h => ?_, fun j u h => ?_⟩
    · rcases Interleave.getElem?_moved h with ⟨rfl, heq⟩ | ⟨_, hold⟩
      · cases heq
        exact fits_step (hc.fits _ _ _ hi) inp c.shared
      · exact (hc.fits j r' l' hold).mono _
    · have hserving : ∃ authHeader call t, c.threads[j]? = some (.api authHeader call, .serving t) := by
        rcases Interleave.mem_trace_moved h with hold | ⟨rfl, hnew⟩
        · exact hc.wrote j u hold
        · obtain ⟨t, rfl, _⟩ := wrote_mem hnew
          have hfit := hc.fits _ _ _ hi
          cases r with
          | api authHeader call => exact ⟨authHeader, call, t, hi⟩
          | auth r => exact hfit.elim
          | background => exact hfit.elim
      obtain ⟨authHeader, call, t, ht⟩ := hserving
      by_cases hij : j = i
      · subst hij
        rw [hi] at ht
        cases ht
        exact ⟨authHeader, call, _,
          List.getElem?_set_self (List.getElem?_eq_some_iff.mp hi).1⟩
      · exact ⟨authHeader, call, t, (List.getElem?_set_ne (Ne.symm hij)).trans ht⟩

/-- A thread that changes the database for somebody has verified the user. -/
theorem Fits.caller {r : Request} {l : Thread} (h : Fits env tr i r l) :
    (∀ inp s, (step env l inp s).1.db = s.db) ∨
      Owning r l ∧ ∀ t, l = .serving t → ∃ authHeader, Verified env tr i authHeader t.uid := by
  cases l with
  | auth t => exact Or.inr ⟨trivial, fun _ ht => nomatch ht⟩
  | serving t =>
      cases r with
      | api authHeader call =>
          obtain ⟨hown, hhandles, hpub | hv⟩ := h
          · exact Or.inl (fun inp s => (reads_step (reads_of_isPublic hhandles hpub) _ _).1)
          · refine Or.inr ⟨hown, fun t' ht => ⟨authHeader, ?_⟩⟩
            cases ht
            exact hv
      | auth r => exact h.elim
      | background => exact h.elim
  | storing token userId t => exact Or.inl (fun inp s => db_stepStoring env token userId t inp s)
  | authenticating p call => exact Or.inl (fun _ _ => rfl)
  | refused resp => exact Or.inl (fun _ _ => rfl)
  | background => exact Or.inl (fun _ _ => rfl)
  | stuck => exact Or.inl (fun _ _ => rfl)

/-- What may change the database in a configuration, and what a refusal says about the past. -/
structure Mediated (env : Env) (c : Config) : Prop where
  change : ∀ i inp c', c' = (system env).next c (.run i inp) → c'.shared.db ≠ c.shared.db →
    (∃ r t, c.threads[i]? = some (.auth r, .auth t) ∧
      ∃ users codes, c'.shared.db = { c.shared.db with users := users, otpCodes := codes }) ∨
    ∃ authHeader call t, c.threads[i]? = some (.api authHeader call, .serving t) ∧
      Handles env.pg call t ∧ Verified env c.trace i authHeader t.uid ∧
      Api.Effects env.pg t.uid c.shared.now c.shared.db c'.shared.db ∧
      (i, .wrote t.uid) ∈ c'.trace
  refused : ∀ i r resp, c.threads[i]? = some (r, .refused resp) →
    (resp = unauthorized 401 ∨ resp = unauthorized 503) ∧ ∀ u, (i, .wrote u) ∉ c.trace

/-- Complete mediation, in every run of the server from any state. -/
theorem mediated (env : Env) (s : State) (as : List Action) : Mediated env (run env s as) := by
  have hs := sound_run env s as
  generalize run env s as = c at hs
  refine ⟨fun i inp c' hc' hne => ?_, fun i r resp hi => ⟨?_, fun u hu => ?_⟩⟩
  · subst hc'
    cases hi : c.threads[i]? with
    | none => exact absurd (by rw [(system env).next_run_none hi]) hne
    | some x =>
        obtain ⟨r, l⟩ := x
        have hfit := hs.fits i r l hi
        rw [(system env).next_run hi] at hne ⊢
        cases l with
        | auth t =>
            cases r with
            | auth r =>
                obtain ⟨users, codes, hdb, _⟩ := (Otp.moves_step _ _ _ _).db_eq
                exact Or.inl ⟨r, t, rfl, users, codes, hdb⟩
            | api authHeader call => exact hfit.elim
            | background => exact hfit.elim
        | serving t =>
            cases r with
            | api authHeader call =>
                obtain ⟨hown, hhandles, hv⟩ := hfit
                have hpublic : isPublic call ≠ true := by
                  intro hpub
                  exact hne (reads_step (reads_of_isPublic hhandles hpub) _ _).1
                refine Or.inr ⟨authHeader, call, t, rfl, hhandles, hv.resolve_left hpublic,
                  Api.step_effects env.pg hown (inp.apiInput c.shared.now) c.shared.db, ?_⟩
                refine List.mem_append_right _ (List.mem_map.mpr ⟨_, ?_, rfl⟩)
                have hwrites : (Api.step env.pg t (inp.apiInput c.shared.now) c.shared.db).1 ≠
                    c.shared.db := hne
                show Obs.wrote t.uid ∈ (if _ then [] else _)
                rw [if_neg hwrites]
                exact List.mem_singleton.mpr rfl
            | auth r => exact hfit.elim
            | background => exact hfit.elim
        | storing token userId t => exact absurd (db_stepStoring env token userId t inp c.shared) hne
        | authenticating p call => exact absurd rfl hne
        | refused resp => exact absurd rfl hne
        | background => exact absurd rfl hne
        | stuck => exact absurd rfl hne
  · have hfit := hs.fits i r _ hi
    cases r with
    | api authHeader call => exact hfit
    | auth r => exact hfit.elim
    | background => exact hfit.elim
  · obtain ⟨authHeader, call, t, ht⟩ := hs.wrote i u hu
    rw [hi] at ht
    cases ht

end Run

end HttpApi

end MessengerBackend
