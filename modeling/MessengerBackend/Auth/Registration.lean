/-
  Where `users` rows come from.

  Nothing links `verify-otp` to `register`: the 200 answer of `verify-otp` with
  `needsRegistration` leaves no record, and `register` neither reads nor writes `otp_codes`
  (`step_withOtp`). So a client that verified nothing registers any email, and the row says
  `is_verified = true` (`registered_unverified`).

  What does hold of every run is `Registered`: a new `users` row is the row one `register`
  request asked for after its validation, each request makes at most one, and a token is made
  only for a stored row: by `register` for the row it made, by `verify-otp` for a row with
  its email.
-/
import MessengerBackend.Auth.OtpSteps

namespace MessengerBackend.Otp

open Interleave
open PgDb (cstr varchar exec Stmt)

/-! ## The property -/

/-- The request is a `verify-otp` for `e` that was answered 200 with `needsRegistration`. -/
def welcomedFor (e : String) : Request × Thread → Bool
  | (.verifyOtp body, .exited (.response r)) =>
      (match verifyFields body with
        | .ok (email, _) => cstr email == e
        | .error _ => false) && r.status == 200 &&
      (match r.body.find "needsRegistration" with
        | some (.bool b) => b
        | _ => false)
  | _ => false

/-- A row with email `e` and `is_verified = true` was created. -/
def createdFor (e : String) : Nat × Obs → Bool
  | (_, .inserted u) => u.email == e && u.isVerified == some true
  | _ => false

/-- Each row created for an email has a successful verification of that email to itself. -/
def VerifiedRegistration (c : Config) : Prop :=
  ∀ e, c.trace.countP (createdFor e) ≤ c.threads.countP (welcomedFor e)

/-- `u` is what a registration stores. -/
structure RowOf (f : Registration) (u : User) : Prop where
  email : varchar 255 (cstr f.email) = .ok u.email
  username : varchar 255 (cstr f.username) = .ok u.username
  verified : u.isVerified = some true

theorem rowOf_userRow {f : Registration} {id : Uuid} {now : Time} {u : User}
    (h : userRow f id now = .ok u) : RowOf f u := by
  unfold userRow at h
  cases hname : varchar 255 (cstr f.username) with
  | error e => rw [hname] at h; cases h
  | ok username =>
      cases hmail : varchar 255 (cstr f.email) with
      | error e => rw [hname, hmail] at h; cases h
      | ok email =>
          cases hphone : varchar 20 (cstr f.phone) with
          | error e => rw [hname, hmail, hphone] at h; cases h
          | ok phone =>
              cases hdisplay : varchar 100 (cstr f.displayName) with
              | error e => rw [hname, hmail, hphone, hdisplay] at h; cases h
              | ok displayName =>
                  rw [hname, hmail, hphone, hdisplay] at h
                  cases h
                  exact ⟨hmail, hname, rfl⟩

/-- What holds of the rows and tokens of every run from the database `db`. -/
structure Registered (h : Helpers) (db : Db) (c : Config) : Prop where
  made : ∀ u ∈ c.shared.db.users, u ∈ db.users ∨ ∃ i, (i, .inserted u) ∈ c.trace
  asked : ∀ (i : Nat) (u : User), (i, .inserted u) ∈ c.trace →
    ∃ body publicKey l f, c.threads[i]? = some (.register body publicKey, l) ∧
      registerFields body publicKey = .ok f ∧ RowOf f u
  once : ∀ (i : Nat) (u u' : User), (i, .inserted u) ∈ c.trace → (i, .inserted u') ∈ c.trace →
    u = u'
  token : ∀ (i : Nat) (token userId : String), (i, .session token userId) ∈ c.trace →
    ∃ q l u now, c.threads[i]? = some (q, l) ∧ u ∈ c.shared.db.users ∧
      userId = Uuid.uuidOut u.id ∧ token = h.create userId now ∧
      ((∃ body email code, q = .verifyOtp body ∧ verifyFields body = .ok (email, code) ∧
          u.email = cstr email) ∨
        ((∃ body publicKey, q = .register body publicKey) ∧ (i, .inserted u) ∈ c.trace))

/-! ## One step -/

/-- The invariant: `Registered`, and a request that is not at its end has inserted
    nothing. -/
structure Enrolling (h : Helpers) (db : Db) (c : Config) : Prop extends Registered h db c where
  pending : ∀ (i : Nat) (q : Request) (l : Thread) (f : Registration) (u : User),
    c.threads[i]? = some (q, l) → l.registering = some f → (i, .inserted u) ∉ c.trace

theorem enrolling_init (h : Helpers) (db : Db) :
    Enrolling h db (Config.init (State.initial db)) where
  made u hu := Or.inl hu
  asked i u hm := by simp [Config.init] at hm
  once i u u' hm := by simp [Config.init] at hm
  token i token userId hm := by simp [Config.init] at hm
  pending i q l f u hi := by simp [Config.init] at hi

theorem enrolling_spawn {h : Helpers} {db : Db} {c : Config} (q : Request)
    (he : Enrolling h db c) :
    Enrolling h db { c with threads := c.threads ++ [(q, start h q)] } := by
  refine ⟨⟨he.made, ?_, he.once, ?_⟩, ?_⟩
  · intro i u hm
    obtain ⟨body, publicKey, l, f, hi, hrest⟩ := he.asked i u hm
    exact ⟨body, publicKey, l, f, getElem?_spawned _ hi, hrest⟩
  · intro i token userId hm
    obtain ⟨q', l, u, now, hi, hrest⟩ := he.token i token userId hm
    exact ⟨q', l, u, now, getElem?_spawned _ hi, hrest⟩
  · intro i q' l f u hi hl hm
    -- whoever inserted is an older thread
    obtain ⟨_, _, _, _, hold, _⟩ := he.asked i u hm
    rw [getElem?_spawned _ hold] at hi
    cases hi
    exact he.pending i _ l f u hold hl hm

section Step

variable {h : Helpers} {db : Db} {inp : Input} {c : Config} {i : Nat} {q : Request}
  {l l' : Thread} {s' : State} {obs : List Obs}

/-- A move that inserts no user: its session, if any, is for a row with its email. -/
theorem enrolling_quiet (he : Enrolling h db c) (ht : c.threads[i]? = some (q, l))
    (husers : s'.db.users = c.shared.db.users)
    (hobs : ∀ u, Obs.inserted u ∉ obs)
    (htoken : ∀ token userId, Obs.session token userId ∈ obs →
      ∃ u now, u ∈ c.shared.db.users ∧ userId = Uuid.uuidOut u.id ∧
        token = h.create userId now ∧ ∃ body email code, q = .verifyOtp body ∧
          verifyFields body = .ok (email, code) ∧ u.email = cstr email)
    (hreg : ∀ f, l'.registering = some f → l.registering = some f) :
    Enrolling h db ⟨s', c.threads.set i (q, l'), c.trace ++ obs.map (Prod.mk i)⟩ := by
  have hold : ∀ {j : Nat} {u : User}, (j, .inserted u) ∈ c.trace ++ obs.map (Prod.mk i) →
      (j, .inserted u) ∈ c.trace := by
    intro j u hm
    rcases mem_trace_moved hm with hm | ⟨_, hm⟩
    · exact hm
    · exact absurd hm (hobs u)
  refine ⟨⟨?_, ?_, ?_, ?_⟩, ?_⟩
  · intro u hu
    rcases he.made u (husers ▸ hu) with hu | ⟨j, hj⟩
    · exact Or.inl hu
    · exact Or.inr ⟨j, List.mem_append_left _ hj⟩
  · intro j u hm
    obtain ⟨body, publicKey, l₁, f, hj, hrest⟩ := he.asked j u (hold hm)
    obtain ⟨l₂, hj₂⟩ := request_moved l' ht hj
    exact ⟨body, publicKey, l₂, f, hj₂, hrest⟩
  · intro j u u' hm hm'
    exact he.once j u u' (hold hm) (hold hm')
  · intro j token userId hm
    rcases mem_trace_moved hm with hold' | ⟨rfl, hnew⟩
    · obtain ⟨q', l₁, u, now, hj, hu, hid, htok, hwho⟩ := he.token j token userId hold'
      obtain ⟨l₂, hj₂⟩ := request_moved l' ht hj
      refine ⟨q', l₂, u, now, hj₂, husers ▸ hu, hid, htok, ?_⟩
      rcases hwho with hverify | ⟨hreg', hins⟩
      · exact Or.inl hverify
      · exact Or.inr ⟨hreg', List.mem_append_left _ hins⟩
    · obtain ⟨u, now, hu, hid, htok, hverify⟩ := htoken token userId hnew
      obtain ⟨l₂, hj₂⟩ := request_moved l' ht ht
      exact ⟨q, l₂, u, now, hj₂, husers ▸ hu, hid, htok, Or.inl hverify⟩
  · intro j q' l₁ f u hj hl₁ hm
    rcases getElem?_moved hj with ⟨rfl, heq⟩ | ⟨_, hj⟩
    · cases heq
      exact he.pending j q l f u ht (hreg f hl₁) (hold hm)
    · exact he.pending j q' l₁ f u hj hl₁ (hold hm)

/-- The INSERT of a registration. -/
theorem enrolling_enrolled (he : Enrolling h db c) {f : Registration} {u : User}
    {t : Table User} {e : Exit} (ht : c.threads[i]? = some (q, .insert f))
    (hb : Belongs h q (.insert f)) (hrow : userRow f inp.freshId inp.now = .ok u)
    (hins : c.shared.db.users.insert u = some t)
    (hobs : obs = [] ∨ obs = [.session (h.create (Uuid.uuidOut u.id) inp.now) (Uuid.uuidOut u.id)]) :
    Enrolling h db ⟨c.shared.withUsers t, c.threads.set i (q, .exited e),
      c.trace ++ (Obs.inserted u :: obs).map (Prod.mk i)⟩ := by
  obtain ⟨body, publicKey, rfl, hf⟩ := hb
  have hmine : (i, Obs.inserted u) ∈ c.trace ++ (Obs.inserted u :: obs).map (Prod.mk i) :=
    List.mem_append_right _ (List.mem_cons_self ..)
  have hcase : ∀ {j : Nat} {v : User},
      (j, Obs.inserted v) ∈ c.trace ++ (Obs.inserted u :: obs).map (Prod.mk i) →
      (j, Obs.inserted v) ∈ c.trace ∨ (j = i ∧ v = u) := by
    intro j v hm
    rcases mem_trace_moved hm with hm | ⟨hj, hm⟩
    · exact Or.inl hm
    · refine Or.inr ⟨hj, ?_⟩
      rcases hobs with rfl | rfl <;> simpa using hm
  have hnone : ∀ v, (i, Obs.inserted v) ∉ c.trace :=
    fun v => he.pending i _ _ f v ht rfl
  refine ⟨⟨?_, ?_, ?_, ?_⟩, ?_⟩
  · intro v hv
    rcases (Table.mem_insert hins).mp hv with hv | rfl
    · rcases he.made v hv with hv | ⟨j, hj⟩
      · exact Or.inl hv
      · exact Or.inr ⟨j, List.mem_append_left _ hj⟩
    · exact Or.inr ⟨i, hmine⟩
  · intro j v hm
    rcases hcase hm with hm | ⟨rfl, rfl⟩
    · obtain ⟨body', publicKey', l₁, f', hj, hrest⟩ := he.asked j v hm
      obtain ⟨l₂, hj₂⟩ := request_moved (.exited e) ht hj
      exact ⟨body', publicKey', l₂, f', hj₂, hrest⟩
    · obtain ⟨l₂, hj₂⟩ := request_moved (.exited e) ht ht
      exact ⟨body, publicKey, l₂, f, hj₂, hf, rowOf_userRow hrow⟩
  · intro j v v' hm hm'
    rcases hcase hm with hm₀ | ⟨hj, hv⟩ <;> rcases hcase hm' with hm₁ | ⟨hj', hv'⟩
    · exact he.once j v v' hm₀ hm₁
    · exact absurd hm₀ (hj' ▸ hnone v)
    · exact absurd hm₁ (hj ▸ hnone v')
    · rw [hv, hv']
  · intro j token userId hm
    rcases mem_trace_moved hm with hold' | ⟨rfl, hnew⟩
    · obtain ⟨q', l₁, v, now, hj, hv, hid, htok, hwho⟩ := he.token j token userId hold'
      obtain ⟨l₂, hj₂⟩ := request_moved (.exited e) ht hj
      refine ⟨q', l₂, v, now, hj₂, (Table.mem_insert hins).mpr (Or.inl hv), hid, htok, ?_⟩
      rcases hwho with hverify | ⟨hreg, hmem⟩
      · exact Or.inl hverify
      · exact Or.inr ⟨hreg, List.mem_append_left _ hmem⟩
    · obtain ⟨l₂, hj₂⟩ := request_moved (.exited e) ht ht
      rcases hobs with rfl | rfl
      · simp at hnew
      · simp only [List.mem_cons, reduceCtorEq, Obs.session.injEq, List.not_mem_nil, or_false,
          false_or] at hnew
        obtain ⟨rfl, rfl⟩ := hnew
        exact ⟨_, l₂, u, inp.now, hj₂, (Table.mem_insert hins).mpr (Or.inr rfl), rfl, rfl,
          Or.inr ⟨⟨body, publicKey, rfl⟩, hmine⟩⟩
  · intro j q' l₁ f' v hj hl₁ hm
    rcases getElem?_moved hj with ⟨rfl, heq⟩ | ⟨hne, hj⟩
    · cases heq
      cases hl₁
    · rcases hcase hm with hm | ⟨hji, _⟩
      · exact he.pending j q' l₁ f' v hj hl₁ hm
      · exact hne hji

/-- The step lemma. -/
theorem enrolling_moves (he : Enrolling h db c) (ht : c.threads[i]? = some (q, l))
    (hb : Belongs h q l) (hm : Moves h inp c.shared l s' l' obs) :
    Enrolling h db ⟨s', c.threads.set i (q, l'), c.trace ++ obs.map (Prod.mk i)⟩ := by
  cases hm with
  | loggedIn _ hu hmail =>
      obtain ⟨body, code, hq, hf⟩ := hb
      refine enrolling_quiet he ht rfl (by simp) ?_ (by simp [Thread.registering])
      intro token userId hm
      cases List.mem_singleton.mp hm
      exact ⟨_, inp.now, hu, rfl, rfl, body, _, code, hq, hf, hmail⟩
  | checked hl hl' =>
      refine enrolling_quiet he ht rfl (by simp) (by simp) ?_
      intro f' hf'
      rw [hl'] at hf'
      rw [hl, hf']
  | enrolled _ hrow hins hobs => exact enrolling_enrolled he ht hb hrow hins hobs
  | _ =>
      exact enrolling_quiet he ht rfl (by simp) (by simp) (by simp [Thread.registering])

end Step

/-! ## Runs -/

theorem enrolling_of_reach {h : Helpers} {db : Db} {P : Config → Action → Prop} {c : Config}
    (hr : (system h).Reach P (Config.init (State.initial db)) c) : Enrolling h db c := by
  refine Interleave.System.Reach.induct (Enrolling h db) (enrolling_init h db) ?_ ?_ hr
  · intro c q _ he _
    exact enrolling_spawn q he
  · intro c i q l inp hr he _ ht
    exact enrolling_moves he ht (belongs_of_reach hr i q l ht) (moves_step h inp c.shared l)

/-! ## No link to `otp_codes` -/

theorem exec_selectUser_withOtp (o : PgDb.Outcome) (p : User → Bool) (s : State)
    (t : Table OtpCode) :
    exec o (selectUser p) (s.withOtp t) =
      ((exec o (selectUser p) s).1.withOtp t, (exec o (selectUser p) s).2) :=
  PgDb.exec_frame (g := fun s : State => s.withOtp t) rfl o

theorem insertUser_withOtp (f : Registration) (id : Uuid) (now : Time) (s : State)
    (t : Table OtpCode) :
    insertUser f id now (s.withOtp t) =
      (insertUser f id now s).map (fun x => (x.1.withOtp t, x.2)) := by
  unfold insertUser
  cases userRow f id now with
  | error e => rfl
  | ok u =>
      have husers : (s.withOtp t).db.users = s.db.users := rfl
      simp only [husers]
      cases s.db.users.insert u <;> rfl

theorem exec_insertUser_withOtp (o : PgDb.Outcome) (f : Registration) (id : Uuid) (now : Time)
    (s : State) (t : Table OtpCode) :
    exec o (insertUser f id now) (s.withOtp t) =
      ((exec o (insertUser f id now) s).1.withOtp t, (exec o (insertUser f id now) s).2) :=
  PgDb.exec_frame (g := fun s : State => s.withOtp t) (insertUser_withOtp f id now s t) o

/-- A statement of `register` does the same whatever `otp_codes` holds, and keeps it. -/
theorem step_withOtp (h : Helpers) {l : Thread} {f : Registration} (hl : l.registering = some f)
    (inp : Input) (s : State) (t : Table OtpCode) :
    step h l inp (s.withOtp t) = ((step h l inp s).1.withOtp t, (step h l inp s).2) := by
  cases l with
  | dupUser f => simp only [step, exec_selectUser_withOtp]
  | dupEmail f => simp only [step, exec_selectUser_withOtp]
  | dupPhone f => simp only [step, exec_selectUser_withOtp]
  | insert f =>
      simp only [step, exec_insertUser_withOtp, insertUser_withOtp]
      cases insertUser f inp.freshId inp.now s <;>
        cases (exec inp.outcome (insertUser f inp.freshId inp.now) s).2 <;> rfl
  | _ => cases hl

/-- In every run, a new `users` row is the row a `register` request asked for, one a request,
    and a token is for the row the request made or has the email of; and `register` does not
    depend on `otp_codes`. -/
theorem registered_of_reach (h : Helpers) (db : Db) (P : Config → Action → Prop) (c : Config)
    (hr : (system h).Reach P (Config.init (State.initial db)) c) :
    Registered h db c ∧
      ∀ (l : Thread) (f : Registration) (inp : Input) (s : State) (t : Table OtpCode),
        l.registering = some f →
        step h l inp (s.withOtp t) = ((step h l inp s).1.withOtp t, (step h l inp s).2) :=
  ⟨(enrolling_of_reach hr).toRegistered, fun _ _ inp s t hl => step_withOtp h hl inp s t⟩

def registerRequest : Request :=
  .register (some (.obj [("email", .str "a@b.cd"), ("username", .str "abc")])) "key"

/-- A registration with nothing before it. -/
def registerAlone : Config :=
  [.spawn registerRequest, go 0, go 0, go 0].foldl (system plainHelpers).next
    (Config.init (State.initial {}))

theorem registered_of_reach_alone : Registered plainHelpers {} registerAlone :=
  (registered_of_reach plainHelpers {} (fun _ _ => True) registerAlone
    (Interleave.System.reach_foldl _ _ _)).1

/-- A client that verified nothing registers an email, and the row says it is verified. -/
theorem registered_unverified :
    (system plainHelpers).Reach (fun _ _ => True) (Config.init (State.initial {})) registerAlone ∧
      registerAlone.trace.countP (createdFor "a@b.cd") = 1 ∧
      registerAlone.threads.countP (welcomedFor "a@b.cd") = 0 ∧
      ¬ VerifiedRegistration registerAlone := by
  have hcreated : registerAlone.trace.countP (createdFor "a@b.cd") = 1 := by decide
  have hnone : registerAlone.threads.countP (welcomedFor "a@b.cd") = 0 := by decide
  refine ⟨Interleave.System.reach_foldl _ _ _, hcreated, hnone, fun hverified => ?_⟩
  have hle := hverified "a@b.cd"
  omega

end MessengerBackend.Otp
