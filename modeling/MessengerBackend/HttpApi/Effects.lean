/-
  What a whole run of the server does to the database.

  Each step does nothing to it, is a statement of an authentication route, which may add a row
  of `users` and writes `otp_codes`, or is a statement of a handler (Api/Effects).
  `database_related` is the rule that follows for a relation between the databases before and
  after a run; `A` is a condition on the callers whose statements are executed.
-/
import MessengerBackend.Api.Confidentiality
import MessengerBackend.Api.Effects
import MessengerBackend.Auth.OtpSteps
import MessengerBackend.HttpApi.Server
import MessengerBackend.Lib.History

namespace MessengerBackend

namespace Otp

/-- What the authentication routes do to the database. -/
theorem Moves.db_eq {h : Helpers} {inp : Input} {s s' : State} {l l' : Thread} {obs : List Obs}
    (hm : Moves h inp s l s' l' obs) :
    ∃ users codes, s'.db = { s.db with users := users, otpCodes := codes } ∧
      (users = s.db.users ∨ ∃ u, s.db.users.insert u = some users) := by
  cases hm with
  | issued _ => exact ⟨s.db.users, _, rfl, Or.inl rfl⟩
  | counted _ => exact ⟨s.db.users, _, rfl, Or.inl rfl⟩
  | removed _ _ => exact ⟨s.db.users, _, rfl, Or.inl rfl⟩
  | enrolled _ _ hins _ => exact ⟨_, s.db.otpCodes, rfl, Or.inr ⟨_, hins⟩⟩
  | _ => exact ⟨s.db.users, s.db.otpCodes, rfl, Or.inl rfl⟩

end Otp

namespace HttpApi

open Interleave (Each)

/-! ## The threads -/

/-- A handler's statements are about its caller. -/
def Owning (_ : Request) : Thread → Prop
  | .serving t => t.Own
  | _ => True

theorem owning_passOn (r : Request) (call : Api.Call) (p : Session.Phase) :
    Owning r (passOn call p) := by
  cases p with
  | done u status =>
      simp only [passOn]
      split
      · trivial
      · exact Api.own_start _
  | _ => trivial

theorem owning_start (env : Env) (r : Request) : Owning r (start env r) := by
  cases r with
  | auth r => trivial
  | background => trivial
  | api authHeader call =>
      show Owning _ (if isPublic call then _ else _)
      split
      · exact Api.own_start _
      · exact owning_passOn _ call _

theorem owning_step (env : Env) (r : Request) (l : Thread) (inp : Input) (s : State) :
    Owning r (step env l inp s).2.1 := by
  cases l with
  | auth t =>
      show Owning r (afterAuth _ _)
      unfold afterAuth
      split <;> trivial
  | authenticating p call => exact owning_passOn r call _
  | serving t => exact Api.own_step env.pg t _ _
  | storing token userId t =>
      show Owning r (stepStoring env token userId t inp s).2.1
      rcases stepStoring_cases env token userId t inp s with h | h
      · rw [h]
        trivial
      · rw [h]
        trivial
  | refused resp => trivial
  | background => trivial
  | stuck => trivial

theorem owning_run (env : Env) (s : State) (as : List Action) :
    Each Owning (run env s as).threads :=
  Interleave.System.Reach.each Owning (owning_start env)
    (fun r l inp s _ => owning_step env r l inp s) (reach_run env s as)

/-! ## The rule -/

section Rule

variable {env : Env} (Q : Db → Db → Prop)

/-- One step. -/
theorem database_step (hrefl : ∀ db, Q db db) (htrans : ∀ a b d, Q a b → Q b d → Q a d)
    (husers : ∀ db u users, db.users.insert u = some users → Q db { db with users := users })
    (hcodes : ∀ db codes, Q db { db with otpCodes := codes }) {r : Request} {l : Thread}
    (hl : Owning r l) (inp : Input) (s : State)
    (heffect : ∀ t, l = .serving t → ∀ db db', Api.Effect env.pg t.uid s.now db db' → Q db db') :
    Q s.db (step env l inp s).1.db := by
  refine db_step (P := Q s.db) (hrefl _) ?_ ?_
  · intro t _
    obtain ⟨users, codes, hdb, hu⟩ := (Otp.moves_step env.helpers
      (inp.otpInput s.now) s.otp t).db_eq
    rw [hdb]
    have hfirst : Q s.db { s.db with users := users } := by
      rcases hu with rfl | ⟨u, hins⟩
      · exact hrefl s.db
      · exact husers s.db u users hins
    exact htrans _ _ _ hfirst (hcodes { s.db with users := users } codes)
  · rintro t rfl
    have heffects := Api.step_effects env.pg hl (inp.apiInput s.now) s.db
    have key : ∀ db', Api.Effects env.pg t.uid s.now s.db db' → Q s.db db' := by
      intro db' he
      induction he with
      | refl => exact hrefl _
      | tail _ he ih => exact htrans _ _ _ ih (heffect t rfl _ _ he)
    exact key _ heffects

/-- The run rule. -/
theorem database_related {P : Config → Action → Prop} {c₀ c : Config} (A : String → Prop)
    (hrefl : ∀ db, Q db db) (htrans : ∀ a b d, Q a b → Q b d → Q a d)
    (husers : ∀ db u users, db.users.insert u = some users → Q db { db with users := users })
    (hcodes : ∀ db codes, Q db { db with otpCodes := codes })
    (hP : ∀ (c : Config) i r t inp, c.threads[i]? = some (r, .serving t) → P c (.run i inp) → A t.uid)
    (heffect : ∀ uid now db db', A uid → Api.Effect env.pg uid now db db' → Q db db')
    (hc : Each Owning c₀.threads) (hr : (system env).Reach P c₀ c) :
    Q c₀.shared.db c.shared.db := by
  refine (Interleave.System.Reach.related Owning (fun s s' => Q s.db s'.db) (fun s => hrefl s.db)
    (fun a b d => htrans a.db b.db d.db) (owning_start env) ?_ hc hr).2
  intro c i r l inp hi hp hl
  refine ⟨owning_step env r l inp c.shared, ?_⟩
  refine database_step Q hrefl htrans husers hcodes hl inp c.shared ?_
  rintro t rfl db db' he
  exact heffect t.uid _ db db' (hP c i r t inp hi hp) he

end Rule

/-! ## The log of a run -/

section Log

variable {E V : Type}

/-- A label of the handlers' steps as one of the server's. -/
def served (label : Api.Thread → Api.Input → Db → List E) : Thread → Input → State → List E
  | .serving t, inp, s => label t (inp.apiInput s.now) s.db
  | _, _, _ => []

/-- What the handlers did in a run, in the order of their statements. -/
def log (label : Api.Thread → Api.Input → Db → List E) (env : Env) (s : State)
    (as : List Action) : List E :=
  (system env).log (served label) (Interleave.Config.init s) as

variable {env : Env} {label : Api.Thread → Api.Input → Db → List E} {view : Db → V}
  {apply : V → E → V}
  (hauth : ∀ db users codes, view { db with users := users, otpCodes := codes } = view db)
  (hserving : ∀ t inp db,
    view (Api.step env.pg t inp db).1 = (label t inp db).foldl apply (view db))

include hauth hserving

theorem view_step (l : Thread) (inp : Input) (s : State) :
    view (step env l inp s).1.db = (served label l inp s).foldl apply (view s.db) := by
  cases l with
  | serving t => exact hserving t _ s.db
  | auth t =>
      obtain ⟨users, codes, hdb, _⟩ := (Otp.moves_step env.helpers
        (inp.otpInput s.now) s.otp t).db_eq
      exact (congrArg view hdb).trans (hauth s.db users codes)
  | storing token userId t =>
      exact congrArg view (db_stepStoring env token userId t inp s)
  | authenticating p call => rfl
  | refused r => rfl
  | background => rfl
  | stuck => rfl

variable (view) in
/-- A view of the database that the authentication routes leave alone follows the log. -/
theorem view_run (s : State) (as : List Action) :
    view (run env s as).shared.db = (log label env s as).foldl apply (view s.db) :=
  (system env).log_replays (K := fun _ _ => True) (fun s => view s.db)
    (fun _ => trivial) (fun _ _ _ _ _ => trivial)
    (fun _ l inp s _ => view_step hauth hserving l inp s) as _ (Interleave.each_nil _)

variable (view) in
/-- If each handler's step is a run of a machine on the view, the whole log is one. -/
theorem log_runs {ok : V → E → Prop}
    (hruns : ∀ t inp db, Interleave.Runs ok apply (view db) (label t inp db)) (s : State)
    (as : List Action) : Interleave.Runs ok apply (view s.db) (log label env s as) := by
  refine (system env).log_runs (K := fun _ _ => True) (fun s => view s.db)
    (fun _ => trivial) (fun _ _ _ _ _ => trivial)
    (fun _ l inp s _ => view_step hauth hserving l inp s) (fun _ l inp s _ => ?_) as
    (Interleave.Config.init s) (Interleave.each_nil _)
  cases l with
  | serving t => exact hruns t _ s.db
  | _ => trivial

end Log

/-! ## A registration -/

def plainServer : Env := ⟨Session.nilEnv, Api.plainPg, id, fun _ => true⟩

/-- The database, with Redis at hand and nothing in it. -/
def serverOf (db : Db) : State := ⟨Otp.State.initial db, true, false, {}, 0⟩

/-- Thread `i` takes its next step, and nothing fails; a row that it inserts gets the id. -/
def goWith (freshId : Uuid) (i : Nat) : Action :=
  .run i ⟨⟨⟨0, true, .done, .done⟩, freshId⟩, ⟨some true, true, .answered⟩,
    ⟨true, true, true, true⟩, true, false, {}, 0⟩

def go (i : Nat) : Action := goWith .zero i

/-- The nil id registers, and its session is stored. -/
def registerRun : List Action := [.spawn (.auth Otp.registerRequest), go 0, go 0, go 0, go 0]

/-- The header with its token. -/
def nilHeader : Bytes := Session.bearer ++ utf8 Session.nilToken.made.token

def byNil (call : Api.Call) : Action := .spawn (.api nilHeader call)

end HttpApi

end MessengerBackend
