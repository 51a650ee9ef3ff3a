/-
  The handlers that change the caller's own rows: `PATCH /api/auth/me` and the contacts.

  `update_me` builds its UPDATE while it reads the body: each field present adds an
  assignment `column = $i` and a parameter, and the WHERE clause takes the next number. An
  `Update` is that pair of vectors; the statement looks its parameters up by number.
-/
import MessengerBackend.Api.Handlers

namespace MessengerBackend.Api.Accounts

open PgDb (Stmt cstr varchar need)
open Except (bind_ok)

/-! ## Requests and points -/

inductive Call where
  | updateMe (body : Option Json)
  | addContact (body : Option Json)
  | removeContact (contactId : Bytes)

/-- The columns that `update_me` may set. -/
inductive Column where
  | displayName
  | bio
  | avatarUrl
  | statusText
  | phoneNumber
deriving DecidableEq

/-- `parts`, as column and placeholder, with `params` and `idx`. -/
structure Update where
  parts : List (Column × Nat)
  params : List String
  idx : Nat
deriving DecidableEq

inductive Point where
  | updateMe (u : Update)
  | addContact (contactId nickname : String)
  | removeContact (contactId : Bytes)
  | exited (e : Exit)

def respond (status : Nat) (body : Json) : Point := .exited (.response (jsonResp status body))

def refuse (status : Nat) (msg : String) : Point := .exited (.response (errorResp status msg))

def failed (_ : SqlError) : Point := .exited (.response serverError)

/-! ## Before the first statement -/

/-- `add_field`. -/
def addField (body : Json) (u : Update) (field : Column × String) : Except JsonError Update :=
  match body.find field.2 with
  | none => .ok u
  | some .null => .ok u
  | some v => do
      let s ← v.getString
      pure ⟨u.parts ++ [(field.1, u.idx)], u.params ++ [s], u.idx + 1⟩

def fields : List (Column × String) :=
  [(.displayName, "displayName"), (.bio, "bio"), (.avatarUrl, "avatarUrl"),
   (.statusText, "statusText"), (.phoneNumber, "phone")]

def routeUpdateMe (uid : String) (body : Option Json) : Point :=
  match withBody body (fun j => fields.foldlM (addField j) ⟨[], [], 1⟩) with
  | .error e => .exited e
  | .ok u =>
      if u.parts = [] then refuse 400 "Nothing to update"
      else .updateMe { u with params := u.params ++ [uid] }

def routeAddContact (uid : String) (body : Option Json) : Point :=
  match withBody body (fun j => do
      let contactId ← j.valueString "contactId" ""
      let nickname ← j.valueString "nickname" ""
      pure (contactId, nickname)) with
  | .error e => .exited e
  | .ok (contactId, nickname) =>
      if contactId = "" then refuse 400 "contactId required"
      else if contactId = uid then refuse 400 "Cannot add yourself"
      else .addContact contactId nickname

def start (uid : String) : Call → Point
  | .updateMe body => routeUpdateMe uid body
  | .addContact body => routeAddContact uid body
  | .removeContact contactId => .removeContact contactId

/-! ## The statements -/

/-- The parameter `$i`. -/
def Update.param (u : Update) (i : Nat) : Except SqlError String :=
  match u.params[i - 1]? with
  | some s => .ok (cstr s)
  | none => .error .syntaxError

/-- Assigning a text to a column. -/
def Column.set (c : Column) (s : String) (x : User) : Except SqlError User :=
  match c with
  | .displayName => (varchar 100 s).map (fun s => { x with displayName := some s })
  | .bio => .ok { x with bio := some s }
  | .avatarUrl => .ok { x with avatarUrl := some s }
  | .statusText => (varchar 255 s).map (fun s => { x with statusText := some s })
  | .phoneNumber => (varchar 20 s).map (fun s => { x with phoneNumber := some s })

/-- The SET clause on one row. -/
def Update.apply (u : Update) (x : User) : Except SqlError User :=
  u.parts.foldlM (fun x part => do
    let s ← u.param part.2
    part.1.set s x) x

/-- `"UPDATE users SET " + … + " WHERE id = $" + std::to_string(idx)` -/
def updateUser (u : Update) : Stmt Db Unit := fun db => do
  let id ← (u.param u.idx).bind (fun s => need .invalidUuid (Uuid.uuidIn s))
  match db.users.rows.find? (fun x => x.id == id) with
  | none => pure (db, ())
  | some x => do
      let x' ← u.apply x
      match db.users.update (fun y => y.id == id) (fun _ => x') with
      | none => .error .unique
      | some users => pure ({ db with users := users }, ())

def rename (nickname : Option String) (c : Contact) : Contact := { c with nickname := nickname }

/-- ON CONFLICT (user_id, contact_id) DO UPDATE SET nickname = EXCLUDED.nickname. -/
def upsertRow (row : Contact) (db : Db) : Except SqlError Db :=
  match db.contacts.insert row with
  | none =>
      let contacts := db.contacts.modify (Keyed.clash row) (rename row.nickname) (fun _ _ => rfl)
      .ok { db with contacts := contacts }
  | some contacts =>
      if db.hasUser row.userId && db.hasUser row.contactId then
        .ok { db with contacts := contacts }
      else .error .foreignKey

/-- INSERT INTO contacts (user_id, contact_id, nickname) VALUES ($1, $2, $3). -/
def upsertContact (uid contactId nickname : String) : Stmt Db Unit := fun db => do
  let u ← need .invalidUuid (PgDb.uuid uid)
  let c ← need .invalidUuid (PgDb.uuid contactId)
  let nickname ← varchar 255 (cstr nickname)
  let db₁ ← upsertRow { userId := u, contactId := c, nickname := some nickname } db
  pure (db₁, ())

/-- DELETE FROM contacts WHERE user_id=$1 AND contact_id=$2. -/
def eraseContact (uid : String) (contactId : Bytes) : Stmt Db Unit := fun db => do
  let u ← need .invalidUuid (PgDb.uuid uid)
  let c ← need .invalidUuid (PgDb.uuidBytes contactId)
  pure ({ db with contacts := db.contacts.erase (fun r => r.userId == u && r.contactId == c) }, ())

/-! ## One step -/

def step (uid : String) : Point → Input → Db → Db × Point
  | .updateMe u, inp, db =>
      attempt inp.first (updateUser u) db (fun _ => respond 200 okBody) failed
  | .addContact contactId nickname, inp, db =>
      attempt inp.first (upsertContact uid contactId nickname) db
        (fun _ => respond 201 okBody) failed
  | .removeContact contactId, inp, db =>
      attempt inp.first (eraseContact uid contactId) db (fun _ => respond 200 okBody) failed
  | .exited e, _, db => (db, .exited e)

/-! ## What the statements write -/

theorem updateUser_ok {u : Update} {db db' : Db} {a : Unit} (h : updateUser u db = .ok (db', a)) :
    ∃ users, db' = { db with users := users } := by
  unfold updateUser at h
  obtain ⟨id, _, h⟩ := bind_ok.mp h
  split at h
  · cases h
    exact ⟨db.users, rfl⟩
  · obtain ⟨x', _, h⟩ := bind_ok.mp h
    split at h
    · cases h
    · cases h
      exact ⟨_, rfl⟩

theorem upsertRow_ok {row : Contact} {db db' : Db} (h : upsertRow row db = .ok db') :
    ∃ contacts, db' = { db with contacts := contacts } := by
  unfold upsertRow at h
  split at h
  · cases h
    exact ⟨_, rfl⟩
  · split at h
    · cases h
      exact ⟨_, rfl⟩
    · cases h

theorem upsertContact_ok {uid contactId nickname : String} {db db' : Db} {a : Unit}
    (h : upsertContact uid contactId nickname db = .ok (db', a)) :
    ∃ contacts, db' = { db with contacts := contacts } := by
  unfold upsertContact at h
  obtain ⟨u, _, h⟩ := bind_ok.mp h
  obtain ⟨c, _, h⟩ := bind_ok.mp h
  obtain ⟨nick, _, h⟩ := bind_ok.mp h
  obtain ⟨db₁, hrow, h⟩ := bind_ok.mp h
  cases h
  exact upsertRow_ok hrow

theorem eraseContact_ok {uid : String} {contactId : Bytes} {db db' : Db} {a : Unit}
    (h : eraseContact uid contactId db = .ok (db', a)) :
    ∃ contacts, db' = { db with contacts := contacts } := by
  unfold eraseContact at h
  obtain ⟨u, _, h⟩ := bind_ok.mp h
  obtain ⟨c, _, h⟩ := bind_ok.mp h
  cases h
  exact ⟨_, rfl⟩

/-- A step writes `users` and `contacts` only. -/
theorem step_writes (uid : String) (p : Point) (inp : Input) (db : Db) :
    ∃ users contacts, (step uid p inp db).1 = { db with users := users, contacts := contacts } := by
  let K : Db → Point → Prop := fun db' _ =>
    ∃ users contacts, db' = { db with users := users, contacts := contacts }
  have same : K db (.exited .exception) := ⟨db.users, db.contacts, rfl⟩
  cases p with
  | updateMe u =>
      refine attempt_inv K (fun _ => same) (fun db' a h => ?_)
      obtain ⟨users, rfl⟩ := updateUser_ok h
      exact ⟨⟨users, db.contacts, rfl⟩, fun _ => ⟨users, db.contacts, rfl⟩⟩
  | addContact contactId nickname =>
      refine attempt_inv K (fun _ => same) (fun db' a h => ?_)
      obtain ⟨contacts, rfl⟩ := upsertContact_ok h
      exact ⟨⟨db.users, contacts, rfl⟩, fun _ => ⟨db.users, contacts, rfl⟩⟩
  | removeContact contactId =>
      refine attempt_inv K (fun _ => same) (fun db' a h => ?_)
      obtain ⟨contacts, rfl⟩ := eraseContact_ok h
      exact ⟨⟨db.users, contacts, rfl⟩, fun _ => ⟨db.users, contacts, rfl⟩⟩
  | exited e => exact same

end MessengerBackend.Api.Accounts
