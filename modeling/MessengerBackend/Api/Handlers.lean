/-
  What the handlers that change something have in common.

  As with the authentication endpoints, a request is a thread whose atomic actions are its
  SQL statements: a handler's `Point` is where it stands between two of them, with the locals
  that are still live, and a step executes the next one (`attempt`) and runs on to the one
  after it. `Input` is what the step does not find in the database.

  `insertMember` and its like check foreign keys on the rows they insert; an UPDATE here never
  changes a key.
-/
import MessengerBackend.Lib.Interleave
import MessengerBackend.Api.Queries

namespace MessengerBackend.Api

open PgDb (Outcome Stmt exec)

/-- The outcome of the statement is `first`. -/
structure Input extends Env where
  /-- `uuid_generate_v4()`. -/
  freshId : Uuid

/-- A statement inside `try`: where the handler goes on from its result or its exception. -/
def attempt {α L : Type} (o : Outcome) (q : Stmt Db α) (db : Db) (ok : α → L)
    (failed : SqlError → L) : Db × L :=
  match (exec o q db).2 with
  | .ok a => ((exec o q db).1, ok a)
  | .error e => ((exec o q db).1, failed e)

/-- The rule for a statement by what becomes of it: refused or not executed, answered, or
    executed with its answer lost. -/
theorem attempt_rule {α L : Type} (K : Db → L → Prop) {o : Outcome} {q : Stmt Db α} {db : Db}
    {ok : α → L} {failed : SqlError → L}
    (hidle : ∀ e, (o.executes = true → ∃ e', q db = .error e') → K db (failed e))
    (hdone : ∀ db' a, q db = .ok (db', a) → o = .done → K db' (ok a))
    (hlost : ∀ db' a msg, q db = .ok (db', a) → o = .lost msg → K db' (failed (.connection msg))) :
    K (attempt o q db ok failed).1 (attempt o q db ok failed).2 := by
  unfold attempt exec
  cases o with
  | failed msg => exact hidle _ (fun h => nomatch h)
  | done =>
      cases hq : q db with
      | error e => exact hidle e (fun _ => ⟨e, hq⟩)
      | ok x => exact hdone x.1 x.2 hq rfl
  | lost msg =>
      cases hq : q db with
      | error e => exact hidle e (fun _ => ⟨e, hq⟩)
      | ok x => exact hlost x.1 x.2 msg hq rfl

/-- The same without asking why: the statement changed nothing, or it took effect, and either
    way its failure may be what the handler sees. -/
theorem attempt_inv {α L : Type} (K : Db → L → Prop) {o : Outcome} {q : Stmt Db α} {db : Db}
    {ok : α → L} {failed : SqlError → L} (hsame : ∀ e, K db (failed e))
    (hok : ∀ db' a, q db = .ok (db', a) → K db' (ok a) ∧ ∀ e, K db' (failed e)) :
    K (attempt o q db ok failed).1 (attempt o q db ok failed).2 :=
  attempt_rule K (fun e _ => hsame e) (fun db' a h _ => (hok db' a h).1)
    (fun db' a msg h _ => (hok db' a h).2 (.connection msg))

/-- Where the handler goes on, whatever becomes of the statement. -/
theorem attempt_next {α L : Type} {K : L → Prop} {o : Outcome} {q : Stmt Db α} {db : Db}
    {ok : α → L} {failed : SqlError → L} (hok : ∀ a, K (ok a)) (hfailed : ∀ e, K (failed e)) :
    K (attempt o q db ok failed).2 :=
  attempt_inv (fun _ l => K l) hfailed (fun _ a _ => ⟨hok a, hfailed⟩)

/-- An accepted statement whose answer arrives. -/
theorem attempt_done {α L : Type} {q : Stmt Db α} {db db' : Db} {a : α}
    (h : q db = .ok (db', a)) (ok : α → L) (failed : SqlError → L) :
    attempt .done q db ok failed = (db', ok a) := by
  simp only [attempt, exec, h]

/-- A statement that the database refuses, where every failure is taken the same way. -/
theorem attempt_refused {α L : Type} {o : Outcome} {q : Stmt Db α} {db : Db} {ok : α → L}
    {failed : SqlError → L} {e : SqlError} (h : q db = .error e) {l : L}
    (hl : ∀ e, failed e = l) : attempt o q db ok failed = (db, l) := by
  unfold attempt exec
  cases o <;> simp [h, hl]

/-! ## Bodies -/

/-- `json::parse` in its own `try`; the reads that follow it are in none. -/
def withBody {α : Type} (body : Option Json) (read : Json → Except JsonError α) :
    Except Exit α :=
  match body with
  | none => .error (.response (errorResp 400 "Invalid JSON"))
  | some j =>
      match read j with
      | .error _ => .error .exception
      | .ok a => .ok a

/-- `{{"ok", true}}` -/
def okBody : Json := .obj [("ok", .bool true)]

end MessengerBackend.Api
