/-
  Where a session comes from, in every run of the whole server.

  `Sent` says that a `send-otp` request for an address wrote a code with this hash.
  `Origin` says whose a session is: the request registered the user, or it is a `verify-otp`
  with a code of the hash of one that was sent to the user's own address. `accounted_run` is
  the invariant: what is stored in `otp_codes` was sent, a request past its comparison has
  submitted a code that was sent, and each session that was ever made has an origin.

  The addresses and ids of `users` are never changed, so an origin stays one (`Later`).

  That the code submitted is the very code sent is up to the hash; that nobody guesses it is
  not here.
-/
import MessengerBackend.HttpApi.Permanence

namespace MessengerBackend.HttpApi

open Session (helpers)
open Otp (Belongs Moves RowOf sendFields verifyFields registerFields)
open PgDb (cstr)
open Table (Kept)

/-! ## A moment and a later one -/

structure Later (c c' : Config) : Prop where
  requests : ∀ (i : Nat) (r : Request) (l : Thread), c.threads[i]? = some (r, l) →
    ∃ l', c'.threads[i]? = some (r, l')
  trace : ∀ o ∈ c.trace, o ∈ c'.trace
  users : Kept (fun u u' => u'.id = u.id ∧ u'.email = u.email) c.shared.db.users
    c'.shared.db.users

theorem later_spawn (env : Env) (c : Config) (r : Request) :
    Later c { c with threads := c.threads ++ [(r, start env r)] } where
  requests _ _ l h := ⟨l, Interleave.getElem?_spawned _ h⟩
  trace _ h := h
  users u hu := ⟨u, hu, rfl, rfl⟩

theorem later_advance (env : Env) {c : Config} {i : Nat} {r : Request} {l : Thread}
    (hi : c.threads[i]? = some (r, l)) (hl : Owning r l) (inp : Input) :
    Later c ((system env).advance c i r l inp) where
  requests _ _ _ h := Interleave.request_moved _ hi h
  trace _ h := List.mem_append_left _ h
  users := by
    refine database_step (fun db db' => Kept (fun u u' => u'.id = u.id ∧ u'.email = u.email)
      db.users db'.users) (fun _ u hu => ⟨u, hu, rfl, rfl⟩) (fun _ _ _ hab hbd => ?_)
      (fun _ _ _ hins => Kept.insert (fun _ => ⟨rfl, rfl⟩) hins)
      (fun _ _ u hu => ⟨u, hu, rfl, rfl⟩) hl inp c.shared (fun _ _ _ _ he => ?_)
    · exact hab.trans (fun _ _ _ h h' => ⟨h'.1.trans h.1, h'.2.trans h.2⟩) hbd
    · intro u hu
      obtain ⟨u', hu', h⟩ := he.continues.users u hu
      exact ⟨u', hu', (congrArg User.id h :), (congrArg User.email h :)⟩

/-! ## Codes and sessions -/

section Record

variable (env : Env) (c : Config)

/-- A code of this hash was sent to the address. -/
def Sent (email codeHash : String) : Prop :=
  ∃ i body code now l sendTo n, c.threads[i]? = some (.auth (.sendOtp body code now), l) ∧
    sendFields env.helpers body = .ok sendTo ∧ cstr sendTo = email ∧ env.hash code = codeHash ∧
    (i, .otp (.upserted email n)) ∈ c.trace

/-- How request `i` came to a session of the user. -/
inductive Origin (i : Nat) (userId : String) : Prop
  | registered {body : Option Json} {publicKey : String} {f : Otp.Registration} {u : User}
      {l : Thread} : c.threads[i]? = some (.auth (.register body publicKey), l) →
      registerFields body publicKey = .ok f → RowOf f u → (i, .otp (.inserted u)) ∈ c.trace →
      Uuid.uuidOut u.id = userId → Origin i userId
  | proved {body : Option Json} {email code : String} {u : User} {l : Thread} :
      c.threads[i]? = some (.auth (.verifyOtp body), l) → verifyFields body = .ok (email, code) →
      u ∈ c.shared.db.users → u.email = cstr email → Uuid.uuidOut u.id = userId →
      Sent env c u.email (env.hash code) → Origin i userId

/-- What a login request has established at a point. -/
def Proven (q : Otp.Request) : Otp.Thread → Prop
  | .increment email _ row | .expiry email _ row => Sent env c (cstr email) row.codeHash
  | .delete email code _ => Sent env c (cstr email) (env.hash code)
  | .lookup email => ∃ body code, q = .verifyOtp body ∧ verifyFields body = .ok (email, code) ∧
      Sent env c (cstr email) (env.hash code)
  | _ => True

/-- A login request in order; a session that is about to be stored was made by it. -/
def InOrder (i : Nat) : Request → Thread → Prop
  | .auth q, .auth t => Belongs env.helpers q t ∧ Proven env c q t
  | .auth q, .storing token userId t =>
      (Belongs env.helpers q t ∧ Proven env c q t) ∧
        (i, .otp (.session token userId)) ∈ c.trace
  | _, .auth _ => False
  | _, .storing _ _ _ => False
  | _, _ => True

structure Accounted : Prop where
  codes : ∀ k r, c.shared.otp.code k = some r → Sent env c k r.codeHash
  inOrder : ∀ i r l, c.threads[i]? = some (r, l) → InOrder env c i r l
  sessions : ∀ i token userId, (i, .otp (.session token userId)) ∈ c.trace →
    Origin env c i userId

variable {env c} {c' : Config} (hc : Later c c')
include hc

theorem Sent.later {email codeHash : String} (h : Sent env c email codeHash) :
    Sent env c' email codeHash := by
  obtain ⟨i, body, code, now, l, sendTo, n, hi, hfields, hto, hhash, hmem⟩ := h
  obtain ⟨l', hi'⟩ := hc.requests _ _ _ hi
  exact ⟨i, body, code, now, l', sendTo, n, hi', hfields, hto, hhash, hc.trace _ hmem⟩

theorem Origin.later {i : Nat} {userId : String} (h : Origin env c i userId) :
    Origin env c' i userId := by
  cases h with
  | registered hi hf hrow hmem hid =>
      obtain ⟨l', hi'⟩ := hc.requests _ _ _ hi
      exact .registered hi' hf hrow (hc.trace _ hmem) hid
  | proved hi hf hu hmail hid hsent =>
      obtain ⟨l', hi'⟩ := hc.requests _ _ _ hi
      obtain ⟨u', hu', hid', hmail'⟩ := hc.users _ hu
      refine .proved hi' hf hu' (hmail'.trans hmail) ((congrArg _ hid').trans hid) ?_
      rw [hmail']
      exact hsent.later hc

theorem Proven.later {q : Otp.Request} {t : Otp.Thread} (h : Proven env c q t) :
    Proven env c' q t := by
  cases t with
  | increment email code row | expiry email code row | delete email code row =>
      exact Sent.later hc h
  | lookup email =>
      obtain ⟨body, code, hq, hf, hsent⟩ := h
      exact ⟨body, code, hq, hf, hsent.later hc⟩
  | _ => trivial

theorem InOrder.later {i : Nat} {r : Request} {l : Thread} (h : InOrder env c i r l) :
    InOrder env c' i r l := by
  cases r with
  | auth q =>
      cases l with
      | auth t => exact ⟨h.1, h.2.later hc⟩
      | storing token userId t => exact ⟨⟨h.1.1, h.1.2.later hc⟩, hc.trace _ h.2⟩
      | _ => trivial
  | api authHeader call => cases l <;> trivial
  | background => cases l <;> trivial

end Record

/-! ## A step of a login request -/

section Login

variable {env : Env} {c c' : Config} {i : Nat} {q : Otp.Request} {l' : Thread}
  {t t' : Otp.Thread} {o' : Otp.State} {obs : List Otp.Obs} {inp : Otp.Input}

theorem proven_of_registering {f : Otp.Registration} (h : t.registering = some f) :
    Proven env c q t := by
  cases t <;> trivial

theorem accounted_moves (hacc : Accounted env c) (hlater : Later c c')
    (hm : Moves env.helpers inp c.shared.otp t o' t' obs)
    (hb : Belongs env.helpers q t) (hp : Proven env c q t)
    (hi : c'.threads[i]? = some (.auth q, l')) (ho : c'.shared.otp = o')
    (hobs : ∀ o ∈ obs, (i, .otp o) ∈ c'.trace) :
    (∀ k r, o'.code k = some r → Sent env c' k r.codeHash) ∧ Proven env c' q t' ∧
      ∀ token userId, .session token userId ∈ obs → Origin env c' i userId := by
  have hkept : ∀ k r, c.shared.otp.code k = some r → Sent env c' k r.codeHash :=
    fun k r hr => (hacc.codes k r hr).later hlater
  cases hm with
  | refused _ => exact ⟨hkept, trivial, fun _ _ h => nomatch h⟩
  | stayed => exact ⟨hkept, trivial, fun _ _ h => nomatch h⟩
  | issued _ =>
      obtain ⟨body, code, now, rfl, hf, rfl, _⟩ := hb
      refine ⟨fun k r hr => ?_, trivial, fun _ _ h => by simp at h⟩
      rcases Otp.code_issue_cases _ hr with ⟨rfl, rfl⟩ | ⟨_, hold⟩
      · exact ⟨i, body, code, now, l', _, _, hi, hf, rfl, rfl, hobs _ (List.mem_singleton.mpr rfl)⟩
      · exact hkept k r hold
  | fetched hrow _ => exact ⟨hkept, (hacc.codes _ _ hrow).later hlater, fun _ _ h => nomatch h⟩
  | counted _ =>
      refine ⟨fun k r hr => ?_, Sent.later hlater hp, fun _ _ h => nomatch h⟩
      obtain ⟨r₀, hr₀, rfl⟩ := Otp.code_count_cases _ hr
      have hold := hkept k r₀ hr₀
      split <;> exact hold
  | uncounted _ => exact ⟨hkept, Sent.later hlater hp, fun _ _ h => nomatch h⟩
  | mismatched _ _ => exact ⟨hkept, trivial, fun _ _ h => by simp at h⟩
  | matched hhash _ _ =>
      refine ⟨hkept, ?_, fun _ _ h => by simp at h⟩
      have hsent := Sent.later hlater hp
      rw [hhash] at hsent
      exact hsent
  | removed _ _ =>
      obtain ⟨body, rfl, hf⟩ := hb
      refine ⟨fun k r hr => hkept k r (Otp.code_remove_cases _ hr).2,
        ⟨body, _, rfl, hf, Sent.later hlater hp⟩, fun _ _ h => by simp at h⟩
  | kept _ =>
      obtain ⟨body, rfl, hf⟩ := hb
      exact ⟨hkept, ⟨body, _, rfl, hf, Sent.later hlater hp⟩, fun _ _ h => nomatch h⟩
  | welcomed _ => exact ⟨hkept, trivial, fun _ _ h => nomatch h⟩
  | loggedIn _ hu hmail =>
      refine ⟨hkept, trivial, fun token userId h => ?_⟩
      obtain ⟨_, rfl⟩ : token = _ ∧ userId = _ := by simpa using h
      obtain ⟨body, code, rfl, hf, hsent⟩ := hp
      have hu' : _ ∈ c'.shared.otp.db.users := ho ▸ hu
      refine .proved hi hf hu' hmail rfl ?_
      rw [hmail]
      exact hsent.later hlater
  | checked _ hl' => exact ⟨hkept, proven_of_registering hl', fun _ _ h => nomatch h⟩
  | enrolled _ hrow _ hsession =>
      refine ⟨hkept, trivial, fun token userId h => ?_⟩
      obtain ⟨body, publicKey, rfl, hf⟩ := hb
      refine .registered hi hf (Otp.rowOf_userRow hrow) (hobs _ List.mem_cons_self) ?_
      rcases hsession with rfl | rfl
      · simp at h
      · obtain ⟨_, hid⟩ : token = _ ∧ userId = _ := by simpa using h
        exact hid.symm

end Login

/-! ## Runs -/

theorem owning_of_reach {env : Env} {P : Config → Action → Prop} {s : State} {c : Config}
    (hr : (system env).Reach P (Interleave.Config.init s) c) : Interleave.Each Owning c.threads :=
  Interleave.System.Reach.each Owning (owning_start env)
    (fun r l inp s _ => owning_step env r l inp s) hr

theorem proven_start (env : Env) (c : Config) (q : Otp.Request) :
    Proven env c q (Otp.start env.helpers q) := by
  rcases Otp.start_cases env.helpers q with
    ⟨_, hs⟩ | ⟨_, _, _, hs⟩ | ⟨_, _, hs⟩ | ⟨_, hs⟩ <;> rw [hs] <;> trivial

theorem inOrder_passOn (env : Env) (c : Config) (i : Nat) (r : Request) (call : Api.Call)
    (p : Session.Phase) : InOrder env c i r (passOn call p) := by
  cases p with
  | done u status =>
      simp only [passOn]
      split <;> cases r <;> trivial
  | _ => cases r <;> trivial

theorem inOrder_start (env : Env) (c : Config) (i : Nat) (r : Request) :
    InOrder env c i r (start env r) := by
  cases r with
  | auth q => exact ⟨Otp.belongs_start _ q, proven_start env c q⟩
  | background => trivial
  | api authHeader call =>
      show InOrder env c i _ (if isPublic call then _ else _)
      split
      · trivial
      · exact inOrder_passOn env c i _ call _

theorem mem_of_sessionOf {obs : List Otp.Obs} {token userId : String}
    (h : sessionOf obs = some (token, userId)) : .session token userId ∈ obs := by
  induction obs with
  | nil => cases h
  | cons o obs ih =>
      cases o with
      | session token' userId' =>
          cases h
          exact List.mem_cons_self
      | _ => exact List.mem_cons_of_mem _ (ih h)

/-- No handler touches `otp_codes`. -/
theorem otpCodes_effects {pg : Pg} {uid : String} {now : Time} {db db' : Db}
    (he : Api.Effects pg uid now db db') : db'.otpCodes = db.otpCodes := by
  induction he with
  | refl => rfl
  | tail _ he ih =>
      refine Eq.trans ?_ ih
      cases he <;> rfl

theorem code_step {env : Env} {r : Request} {l : Thread} (hl : Owning r l) (inp : Input)
    (s : State) (hauth : ∀ t, l ≠ .auth t) (k : String) :
    (step env l inp s).1.otp.code k = s.otp.code k := by
  cases l with
  | auth t => exact absurd rfl (hauth t)
  | serving t =>
      have hcodes := otpCodes_effects (Api.step_effects env.pg hl (inp.apiInput s.now) s.db)
      exact congrArg (fun t : Table OtpCode => t.lookup OtpCode.email k) hcodes
  | storing token userId t =>
      exact congrArg (fun o => Otp.State.code o k) (otp_stepStoring env token userId t inp s)
  | authenticating p call => rfl
  | refused resp => rfl
  | background => rfl
  | stuck => rfl

section Run

variable {env : Env} {c : Config} {i : Nat} {r : Request} {l : Thread} {inp : Input}

/-- The thread after its own step. -/
theorem getElem?_advance (hi : c.threads[i]? = some (r, l)) :
    ((system env).advance c i r l inp).threads[i]? =
      some (r, (step env l inp c.shared).2.1) :=
  List.getElem?_set_self (List.getElem?_eq_some_iff.mp hi).1

theorem accounted_spawn (hacc : Accounted env c) (r : Request) :
    Accounted env { c with threads := c.threads ++ [(r, start env r)] } := by
  have hlater := later_spawn env c r
  refine ⟨fun k r hr => (hacc.codes k r hr).later hlater, fun i r' l h => ?_,
    fun i token userId h => (hacc.sessions i token userId h).later hlater⟩
  rcases Interleave.getElem?_spawn h with heq | hold
  · cases heq
    exact inOrder_start env _ i r
  · exact (hacc.inOrder i r' l hold).later hlater

/-- A step of anything but a login request at a statement. -/
theorem accounted_quiet (hacc : Accounted env c) (hi : c.threads[i]? = some (r, l))
    (hl : Owning r l) (hauth : ∀ t, l ≠ .auth t)
    (hown : InOrder env ((system env).advance c i r l inp) i r (step env l inp c.shared).2.1)
    (hobs : ∀ token userId, .otp (.session token userId) ∉ (step env l inp c.shared).2.2) :
    Accounted env ((system env).advance c i r l inp) := by
  have hlater := later_advance env hi hl inp
  refine ⟨fun k r hr => ?_, fun j r' l' h => ?_, fun j token userId h => ?_⟩
  · rw [show ((system env).advance c i _ l inp).shared.otp.code k = c.shared.otp.code k from
      code_step hl inp c.shared hauth k] at hr
    exact (hacc.codes k r hr).later hlater
  · rcases Interleave.getElem?_moved h with ⟨rfl, heq⟩ | ⟨_, hold⟩
    · cases heq
      exact hown
    · exact (hacc.inOrder j r' l' hold).later hlater
  · rcases Interleave.mem_trace_moved h with hold | ⟨rfl, hnew⟩
    · exact (hacc.sessions j token userId hold).later hlater
    · exact absurd hnew (hobs token userId)

theorem accounted_auth {q : Otp.Request} {t : Otp.Thread} (hacc : Accounted env c)
    (hi : c.threads[i]? = some (.auth q, .auth t)) :
    Accounted env ((system env).advance c i (.auth q) (.auth t) inp) := by
  have hlater := later_advance env hi trivial inp
  obtain ⟨hb, hp⟩ := hacc.inOrder i _ _ hi
  have hmoves := Otp.moves_step env.helpers (inp.otpInput c.shared.now)
    c.shared.otp t
  have hobs : ∀ o ∈ (Otp.step env.helpers t (inp.otpInput c.shared.now)
      c.shared.otp).2.2, (i, .otp o) ∈ ((system env).advance c i (.auth q) (.auth t) inp).trace :=
    fun o ho => List.mem_append_right _
      (List.mem_map_of_mem (List.mem_map_of_mem ho))
  obtain ⟨hcodes, hproven, hsessions⟩ := accounted_moves hacc hlater hmoves hb hp
    (getElem?_advance hi) rfl hobs
  have hb' := Otp.belongs_moves hmoves hb
  refine ⟨hcodes, fun j r' l' h => ?_, fun j token userId h => ?_⟩
  · rcases Interleave.getElem?_moved h with ⟨rfl, heq⟩ | ⟨_, hold⟩
    · cases heq
      show InOrder env _ j (.auth q) (afterAuth _ _)
      unfold afterAuth
      split
      · rename_i token userId hs
        exact ⟨⟨hb', hproven⟩, hobs _ (mem_of_sessionOf hs)⟩
      · exact ⟨hb', hproven⟩
    · exact (hacc.inOrder j r' l' hold).later hlater
  · rcases Interleave.mem_trace_moved h with hold | ⟨rfl, hnew⟩
    · exact (hacc.sessions j token userId hold).later hlater
    · obtain ⟨o, ho, heq⟩ := List.mem_map.mp hnew
      cases heq
      exact hsessions token userId ho

theorem accounted_advance (hacc : Accounted env c) (hi : c.threads[i]? = some (r, l))
    (hl : Owning r l) : Accounted env ((system env).advance c i r l inp) := by
  have hin := hacc.inOrder i r l hi
  cases l with
  | auth t =>
      cases r with
      | auth q => exact accounted_auth hacc hi
      | api authHeader call => exact hin.elim
      | background => exact hin.elim
  | storing token userId t =>
      cases r with
      | auth q =>
          refine accounted_quiet hacc hi hl (fun _ => nofun) ?_ (fun token' userId' h => ?_)
          · show InOrder env _ i (.auth q) (stepStoring env token userId t inp c.shared).2.1
            rcases stepStoring_cases env token userId t inp c.shared with heq | heq
            · rw [heq]
              exact hin.1.imp_right (fun h => h.later (later_advance env hi hl inp))
            · rw [heq]
              trivial
          · have hmem : Obs.otp (.session token' userId') ∈
                (stepStoring env token userId t inp c.shared).2.2 := h
            rw [obs_stepStoring] at hmem
            cases hmem
      | api authHeader call => exact hin.elim
      | background => exact hin.elim
  | authenticating p call =>
      refine accounted_quiet hacc hi hl (fun _ => nofun) ?_ (fun token userId h => ?_)
      · exact inOrder_passOn env _ i r call _
      · obtain ⟨_, _, ho⟩ := Option.map_eq_some_iff.mp (Option.mem_toList.mp h)
        cases ho
  | serving t =>
      refine accounted_quiet hacc hi hl (fun _ => nofun) ?_ (fun token userId h => ?_)
      · cases r <;> trivial
      · have hmem : Obs.otp (.session token userId) ∈ (if _ = c.shared.db then [] else _) := h
        split at hmem
        · cases hmem
        · cases List.mem_singleton.mp hmem
  | refused resp =>
      refine accounted_quiet hacc hi hl (fun _ => nofun) ?_ (fun _ _ h => nomatch h)
      cases r <;> trivial
  | background =>
      refine accounted_quiet hacc hi hl (fun _ => nofun) ?_ (fun _ _ h => nomatch h)
      cases r <;> trivial
  | stuck =>
      refine accounted_quiet hacc hi hl (fun _ => nofun) ?_ (fun _ _ h => nomatch h)
      cases r <;> trivial

end Run

/-- The invariant, in every run from a state with no code in `otp_codes`. -/
theorem accounted_of_reach {env : Env} {P : Config → Action → Prop} {s : State}
    (hs : ∀ k, s.otp.code k = none) {c : Config}
    (hr : (system env).Reach P (Interleave.Config.init s) c) : Accounted env c := by
  refine Interleave.System.Reach.induct (Accounted env) ⟨?_, ?_, ?_⟩ ?_ ?_ hr
  · intro k r hr
    rw [show (Interleave.Config.init s : Config).shared.otp.code k = s.otp.code k from rfl, hs] at hr
    cases hr
  · intro i r l h
    simp [Interleave.Config.init] at h
  · intro i token userId h
    simp [Interleave.Config.init] at h
  · exact fun c r _ hacc _ => accounted_spawn hacc r
  · exact fun c i r l inp hr hacc _ hi => accounted_advance hacc hi (owning_of_reach hr i r l hi)

end MessengerBackend.HttpApi
