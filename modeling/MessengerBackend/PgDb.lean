/-
  `PgDb::query` and `PgDb::exec`: one SQL statement, its parameters and its outcome.

  A statement is a function of the database that either fails with no effect or gives the
  new database and its result (every statement of the server runs in autocommit). On top of
  that, `exec` takes an `Outcome` from outside: the statement may never reach the server
  (`failed`), or be executed with its answer lost (`lost`); the caller sees an exception in
  both cases.

  Parameters are C strings (`p.c_str()`), so each is cut at its first NUL (`cstr`). A string
  that comes from a JSON document is valid UTF-8; the bytes of a path or of a query string
  need not be, and PostgreSQL then refuses the statement (`text`).
-/
import Mathlib.Data.List.TakeWhile
import MessengerBackend.Lib.ByteString
import MessengerBackend.Lib.Runs
import MessengerBackend.Uuid

namespace MessengerBackend

/-- Why a statement failed. -/
inductive SqlError where
  | unique
  | foreignKey
  | invalidUuid
  | invalidTimestamp
  | encoding
  | tooLong
  | outOfRange
  | syntaxError
  | connection (msg : String)
deriving DecidableEq

/-- The part of `PQerrorMessage` that the handlers pass on or look into. -/
def SqlError.message : SqlError → String
  | .unique => "duplicate key value violates unique constraint"
  | .foreignKey => "insert or update on table violates foreign key constraint"
  | .invalidUuid => "invalid input syntax for type uuid"
  | .invalidTimestamp => "invalid input syntax for type timestamp with time zone"
  | .encoding => "invalid byte sequence for encoding \"UTF8\""
  | .tooLong => "value too long for type character varying"
  | .outOfRange => "integer out of range"
  | .syntaxError => "syntax error at or near \"DELETE\""
  | .connection msg => msg

namespace PgDb

/-! ## Parameters -/

/-- `p.c_str()` as libpq reads it. -/
def cstr (s : String) : String := String.ofList (s.toList.takeWhile (· ≠ '\x00'))

/-- A text parameter made of arbitrary bytes; `none` is an encoding error. -/
def text (b : Bytes) : Option String := String.fromUTF8? ⟨(b.takeWhile (· ≠ 0)).toArray⟩

/-- A `uuid` parameter from a JSON string. -/
def uuid (s : String) : Option Uuid := Uuid.uuidIn (cstr s)

/-- A `uuid` parameter from a path segment. -/
def uuidBytes (b : Bytes) : Option Uuid := (text b).bind Uuid.uuidIn

theorem cstr_of_forall {s : String} (h : ∀ c ∈ s.toList, c ≠ '\x00') : cstr s = s := by
  have : s.toList.takeWhile (· ≠ '\x00') = s.toList :=
    List.takeWhile_eq_self_iff.mpr (fun c hc => by simpa using h c hc)
  rw [cstr, this, String.ofList_toList]

/-- The bytes of a text without NUL. -/
theorem text_utf8 {s : String} (h : ∀ c ∈ s.toList, c ≠ '\x00') : text (utf8 s) = some s := by
  have hne : ∀ b ∈ utf8 s, b ≠ 0 := by
    rintro b hb rfl
    obtain ⟨c, hc, hval⟩ := mem_utf8 hb (by decide)
    exact h c hc (Char.toNat_inj.mp hval)
  have hall : (utf8 s).takeWhile (· ≠ 0) = utf8 s :=
    List.takeWhile_eq_self_iff.mpr (fun b hb => by simpa using hne b hb)
  unfold text
  rw [hall]
  unfold utf8 String.fromUTF8?
  simp only [Array.toArray_toList]
  exact dif_pos s.isValidUTF8

/-- The bytes of a decoded parameter are those of its characters. -/
theorem utf8_of_text {b : Bytes} (hb : ∀ x ∈ b, x ≠ 0) {s : String} (h : text b = some s) :
    utf8 s = b := by
  have hnul : b.takeWhile (· ≠ 0) = b :=
    List.takeWhile_eq_self_iff.mpr (fun x hx => by simpa using hb x hx)
  unfold text String.fromUTF8? at h
  rw [hnul] at h
  split at h
  · have hbytes : s.toList.utf8Encode = ⟨b.toArray⟩ := by
      rw [String.utf8Encode_toList, ← Option.some.inj h]
      rfl
    have hlist := congrArg (fun a : ByteArray => a.data.toList) hbytes
    rw [utf8_eq_flatMap]
    simpa [List.utf8Encode] using hlist
  · cases h

/-- No NUL comes out of bytes without one. -/
theorem ne_nul_of_text {b : Bytes} (hb : ∀ x ∈ b, x ≠ 0) {s : String} (h : text b = some s) :
    ∀ c ∈ s.toList, c ≠ '\x00' := by
  rintro c hc rfl
  have hmem := mem_utf8_of_lt hc (by decide)
  rw [utf8_of_text hb h] at hmem
  exact hb _ hmem rfl

/-- An id that the database gave out is read back as itself. -/
theorem uuid_uuidOut (u : Uuid) : uuid (Uuid.uuidOut u) = some u := by
  have h : ∀ c ∈ (Uuid.uuidOut u).toList, c ≠ '\x00' := by
    rw [show (Uuid.uuidOut u).toList = Uuid.outBytes 16 u.digits from String.toList_ofList]
    exact Uuid.outBytes_ne_nul 16 u.digits
  rw [uuid, cstr_of_forall h, Uuid.uuidIn_uuidOut]

theorem eq_of_uuid_uuidOut {u v : Uuid} (h : uuid (Uuid.uuidOut u) = some v) : u = v :=
  Option.some.inj ((uuid_uuidOut u).symm.trans h)

/-- Storing in a `VARCHAR(n)` column: only an excess of blanks is cut. -/
def varchar (n : Nat) (s : String) : Except SqlError String :=
  if s.length ≤ n then .ok s
  else if (s.toList.drop n).all (· == ' ') then .ok (String.ofList (s.toList.take n))
  else .error .tooLong

/-- A parameter's conversion, or the error the statement fails with. -/
def need {α : Type} (e : SqlError) : Option α → Except SqlError α
  | some a => .ok a
  | none => .error e

theorem need_ok {α : Type} {e : SqlError} {x : Option α} {a : α} :
    need e x = .ok a ↔ x = some a := by
  cases x <;> simp [need]

/-! ## Statements -/

/-- What becomes of a statement, apart from the database itself. -/
inductive Outcome where
  | done
  | failed (msg : String)
  | lost (msg : String)
deriving DecidableEq

/-- The statement took effect, if the database accepted it. -/
def Outcome.executes : Outcome → Bool
  | .failed _ => false
  | _ => true

variable {D α : Type}

/-- A statement against a database `D`. -/
abbrev Stmt (D α : Type) := D → Except SqlError (D × α)

/-- The database after the statement, and what the caller gets: its result or an exception. -/
def exec (o : Outcome) (q : Stmt D α) (db : D) : D × Except SqlError α :=
  match o with
  | .failed msg => (db, .error (.connection msg))
  | .done =>
      match q db with
      | .ok (db', a) => (db', .ok a)
      | .error e => (db, .error e)
  | .lost msg =>
      match q db with
      | .ok (db', _) => (db', .error (.connection msg))
      | .error e => (db, .error e)

/-- A read-only statement. -/
def reading (q : D → Except SqlError α) : Stmt D α := fun db => (q db).map (Prod.mk db)

theorem reading_ok {q : D → Except SqlError α} {db db' : D} {a : α} :
    reading q db = .ok (db', a) ↔ db' = db ∧ q db = .ok a := by
  unfold reading
  cases q db <;> simp [Except.map, eq_comm]

/-- A result the caller sees is the result of the executed statement. -/
theorem exec_ok {o : Outcome} {q : Stmt D α} {db : D} {a : α}
    (h : (exec o q db).2 = .ok a) : q db = .ok ((exec o q db).1, a) := by
  cases o with
  | failed msg => simp [exec] at h
  | done =>
      revert h
      simp only [exec]
      cases hq : q db with
      | error e => intro h; cases h
      | ok x => intro h; cases h; rfl
  | lost msg =>
      revert h
      simp only [exec]
      cases hq : q db with
      | error e => intro h; cases h
      | ok x => intro h; cases h

/-- A statement that neither reads nor writes what `g` changes. -/
theorem exec_frame {q : Stmt D α} {g : D → D} {db : D}
    (h : q (g db) = (q db).map (fun x => (g x.1, x.2))) (o : Outcome) :
    exec o q (g db) = (g (exec o q db).1, (exec o q db).2) := by
  unfold exec
  rw [h]
  cases o <;> cases q db <;> rfl

/-- What a read-only statement answers is what it read. -/
theorem exec_reading_ok {o : Outcome} {q : D → Except SqlError α} {db : D} {a : α}
    (h : (exec o (reading q) db).2 = .ok a) : q db = .ok a :=
  (reading_ok.mp (exec_ok h)).2

end PgDb

end MessengerBackend
