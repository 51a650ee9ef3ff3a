/-
  The handlers that change `chats`, `chat_members`, `messages` and `reactions`.

  `open_direct` and `create_group` run several statements without a transaction; the others
  run one. Only `create_group` swallows a failure, of a member's INSERT. The chat id in the
  path of `pin` and `react` is not used, and the ON CONFLICT clause of `react` is not SQL, so
  that its statement always fails.

  Each statement that writes has a lemma `…_ok`: what it did, if it was accepted.
-/
import MessengerBackend.Api.Handlers

namespace MessengerBackend.Api.Chats

open PgDb (Stmt cstr varchar need need_ok)
open Except (bind_ok)
open Select (join)

/-! ## Requests and points -/

inductive Call where
  | openDirect (body : Option Json)
  | createGroup (body : Option Json)
  | addMember (chatId : Bytes) (body : Option Json)
  | removeMember (chatId targetUid : Bytes)
  | pinMessage (chatId msgId : Bytes)
  | reactMessage (chatId msgId : Bytes) (body : Option Json)
  | muteChat (chatId : Bytes)

inductive Point where
  | findDirect (targetId : String)
  | createDirect (targetId : String)
  | joinDirect (chatId targetId : String)
  | createGroup (name desc : String) (memberIds : List Json)
  | ownGroup (chatId name : String) (memberIds : List Json)
  | joinGroup (chatId name memberId : String) (rest : List Json)
  | addMember (chatId : Bytes) (target : String)
  | removeMember (chatId targetUid : Bytes)
  | pinMessage (msgId : Bytes)
  | reactMessage (msgId : Bytes) (emoji : String)
  | muteChat (chatId : Bytes)
  | exited (e : Exit)

def respond (status : Nat) (body : Json) : Point := .exited (.response (jsonResp status body))

def refuse (status : Nat) (msg : String) : Point := .exited (.response (errorResp status msg))

/-- Every catch block but the one of a group member. -/
def failed (_ : SqlError) : Point := .exited (.response serverError)

/-! ## Before the first statement -/

/-- `memberIds`, if it is there and an array. -/
def memberIds (j : Json) : List Json :=
  match j.find "memberIds" with
  | some (.arr l) => l
  | _ => []

/-- A body with one required text field. -/
def withField (body : Option Json) (key missing : String) (go : String → Point) : Point :=
  match withBody body (fun j => j.valueString key "") with
  | .error e => .exited e
  | .ok s => if s = "" then refuse 400 missing else go s

def routeOpenDirect (body : Option Json) : Point :=
  withField body "targetUserId" "targetUserId required" .findDirect

def routeCreateGroup (body : Option Json) : Point :=
  match withBody body (fun j => do
      let name ← j.valueString "name" ""
      let desc ← j.valueString "description" ""
      pure (name, desc, memberIds j)) with
  | .error e => .exited e
  | .ok (name, desc, members) =>
      if name = "" then refuse 400 "name required" else .createGroup name desc members

def routeAddMember (chatId : Bytes) (body : Option Json) : Point :=
  withField body "userId" "userId required" (.addMember chatId)

def routeReactMessage (msgId : Bytes) (body : Option Json) : Point :=
  withField body "emoji" "emoji required" (.reactMessage msgId)

def start : Call → Point
  | .openDirect body => routeOpenDirect body
  | .createGroup body => routeCreateGroup body
  | .addMember chatId body => routeAddMember chatId body
  | .removeMember chatId targetUid => .removeMember chatId targetUid
  | .pinMessage _ msgId => .pinMessage msgId
  | .reactMessage _ msgId body => routeReactMessage msgId body
  | .muteChat chatId => .muteChat chatId

/-- The points where a handler runs its first statement. -/
def Point.isFirst : Point → Bool
  | .createDirect _ => false
  | .joinDirect _ _ => false
  | .ownGroup _ _ _ => false
  | .joinGroup _ _ _ _ => false
  | .exited _ => false
  | _ => true

theorem withField_cases (body : Option Json) (key missing : String) {go : String → Point}
    (hgo : ∀ s, (go s).isFirst = true) :
    (∃ e, withField body key missing go = .exited e) ∨
      (withField body key missing go).isFirst = true := by
  unfold withField
  split
  · exact Or.inl ⟨_, rfl⟩
  · split
    · exact Or.inl ⟨_, rfl⟩
    · exact Or.inr (hgo _)

/-- A handler answers without a statement, or stands before its first. -/
theorem start_cases (c : Call) : (∃ e, start c = .exited e) ∨ (start c).isFirst = true := by
  cases c with
  | openDirect body => exact withField_cases body _ _ (fun _ => rfl)
  | createGroup body =>
      show (∃ e, routeCreateGroup body = .exited e) ∨ (routeCreateGroup body).isFirst = true
      unfold routeCreateGroup
      split
      · exact Or.inl ⟨_, rfl⟩
      · split
        · exact Or.inl ⟨_, rfl⟩
        · exact Or.inr rfl
  | addMember chatId body => exact withField_cases body _ _ (fun _ => rfl)
  | removeMember chatId targetUid => exact Or.inr rfl
  | pinMessage chatId msgId => exact Or.inr rfl
  | reactMessage chatId msgId body => exact withField_cases body _ _ (fun _ => rfl)
  | muteChat chatId => exact Or.inr rfl

/-! ## The statements -/

/-- SELECT c.id … with two joins on `chat_members`, LIMIT 1. -/
def selectDirect (uid targetId : String) : Stmt Db (Option Chat) :=
  PgDb.reading (fun db => do
    let u ← need .invalidUuid (PgDb.uuid uid)
    let v ← need .invalidUuid (PgDb.uuid targetId)
    let first := join (fun c cm1 => cm1.chatId == c.id && cm1.userId == u)
      db.chats.rows db.chatMembers.rows
    let both := join (fun p cm2 => cm2.chatId == p.1.id && cm2.userId == v)
      first db.chatMembers.rows
    pure (((both.filter (fun p => p.1.1.chatType == .priv)).head?).map (fun p => p.1.1)))

def chatRow (id : Uuid) (chatType : ChatType) (name description : Option String) (createdBy : Uuid)
    (now : Time) : Chat where
  id := id
  chatType := chatType
  name := name
  description := description
  createdBy := some createdBy
  createdAt := some now
  updatedAt := some now

/-- The `name` column of a new chat; a name goes with a description. -/
def chatName : Option (String × String) → Except SqlError (Option String)
  | none => .ok none
  | some (name, _) => (varchar 255 (cstr name)).map some

/-- INSERT INTO chats … RETURNING id. -/
def insertChat (chatType : ChatType) (naming : Option (String × String)) (uid : String)
    (id : Uuid) (now : Time) : Stmt Db Uuid := fun db => do
  let u ← need .invalidUuid (PgDb.uuid uid)
  let name ← chatName naming
  if db.hasUser u then
    match db.chats.insert
        (chatRow id chatType name (naming.map (fun n => cstr n.2)) u now) with
    | none => .error .unique
    | some chats => .ok ({ db with chats := chats }, id)
  else .error .foreignKey

/-- One row of an INSERT INTO chat_members. -/
def insertMember (row : ChatMember) (db : Db) : Except SqlError Db :=
  match db.chatMembers.insert row with
  | none => .error .unique
  | some members =>
      if db.hasChat row.chatId && db.hasUser row.userId then
        .ok { db with chatMembers := members }
      else .error .foreignKey

/-- VALUES ($1, $2, 'member'), ($1, $3, 'member'): both rows or none. -/
def insertPair (chatId uid targetId : String) (now : Time) : Stmt Db Unit := fun db => do
  let c ← need .invalidUuid (PgDb.uuid chatId)
  let u ← need .invalidUuid (PgDb.uuid uid)
  let v ← need .invalidUuid (PgDb.uuid targetId)
  let db₁ ← insertMember { chatId := c, userId := u, joinedAt := some now } db
  let db₂ ← insertMember { chatId := c, userId := v, joinedAt := some now } db₁
  pure (db₂, ())

/-- VALUES ($1, $2, 'owner', true). -/
def insertOwner (chatId uid : String) (now : Time) : Stmt Db Unit := fun db => do
  let c ← need .invalidUuid (PgDb.uuid chatId)
  let u ← need .invalidUuid (PgDb.uuid uid)
  let db₁ ← insertMember
    { chatId := c, userId := u, role := "owner", canAdmin := true, joinedAt := some now } db
  pure (db₁, ())

/-- VALUES ($1, $2, 'member') ON CONFLICT DO NOTHING. -/
def insertGroupMember (chatId memberId : String) (now : Time) : Stmt Db Unit := fun db => do
  let c ← need .invalidUuid (PgDb.uuid chatId)
  let v ← need .invalidUuid (PgDb.uuid memberId)
  match db.memberRow c v with
  | some _ => pure (db, ())
  | none =>
      let db₁ ← insertMember { chatId := c, userId := v, joinedAt := some now } db
      pure (db₁, ())

/-- `WHERE chat_id = $1 AND user_id = $2` -/
def isPair (c v : Uuid) (m : ChatMember) : Bool := m.chatId == c && m.userId == v

/-- An UPDATE of the pair's row. -/
def modifyMember (c v : Uuid) (f : ChatMember → ChatMember)
    (hf : ∀ a b, Keyed.clash (f a) b = Keyed.clash a b) (db : Db) : Db :=
  { db with chatMembers := db.chatMembers.modify (isPair c v) f hf }

/-- VALUES ($1, $2, 'member') ON CONFLICT (chat_id, user_id) DO UPDATE SET left_at = NULL. -/
def upsertMember (chatId : Bytes) (target : String) (now : Time) : Stmt Db Unit := fun db => do
  let c ← need .invalidUuid (PgDb.uuidBytes chatId)
  let v ← need .invalidUuid (PgDb.uuid target)
  match db.memberRow c v with
  | some _ => pure (modifyMember c v (fun m => { m with leftAt := none }) (fun _ _ => rfl) db, ())
  | none =>
      let db₁ ← insertMember { chatId := c, userId := v, joinedAt := some now } db
      pure (db₁, ())

/-- UPDATE chat_members SET left_at = NOW(). -/
def leaveMember (chatId targetUid : Bytes) (now : Time) : Stmt Db Unit := fun db => do
  let c ← need .invalidUuid (PgDb.uuidBytes chatId)
  let v ← need .invalidUuid (PgDb.uuidBytes targetUid)
  pure (modifyMember c v (fun m => { m with leftAt := some now }) (fun _ _ => rfl) db, ())

/-- The CASE of `mute`. -/
def toggledMute (pg : Pg) (now : Time) (mutedUntil : Option Time) : Option Time :=
  if mutedUntil.all (· < now) then some (pg.yearAfter now) else none

/-- UPDATE chat_members SET muted_until = CASE … END. -/
def muteMember (pg : Pg) (chatId : Bytes) (uid : String) (now : Time) : Stmt Db Unit := fun db => do
  let c ← need .invalidUuid (PgDb.uuidBytes chatId)
  let u ← need .invalidUuid (PgDb.uuid uid)
  pure (modifyMember c u (fun m => { m with mutedUntil := toggledMute pg now m.mutedUntil })
    (fun _ _ => rfl) db, ())

/-- NOT NULL is NULL. -/
def flipPin (m : Message) : Message := { m with isPinned := m.isPinned.map (!·) }

theorem clash_flipPin (a b : Message) : Keyed.clash (flipPin a) b = Keyed.clash a b := rfl

def flipPinOf (i : Uuid) (db : Db) : Db :=
  { db with messages := db.messages.modify (fun m => m.id == i) flipPin clash_flipPin }

/-- UPDATE messages SET is_pinned = NOT is_pinned WHERE id = $1. -/
def togglePin (msgId : Bytes) : Stmt Db Unit := fun db => do
  let i ← need .invalidUuid (PgDb.uuidBytes msgId)
  pure (flipPinOf i db, ())

/-- INSERT INTO reactions … ON CONFLICT … DO DELETE, which PostgreSQL does not parse. -/
def insertReaction (_msgId : Bytes) (_uid _emoji : String) : Stmt Db Unit :=
  fun _ => .error .syntaxError

/-! ## One step -/

/-- The loop over `memberIds`, up to its next statement. -/
def nextMember (uid chatId name : String) : List Json → Point
  | [] => respond 201 (.obj [("id", .str chatId), ("name", .str name)])
  | mid :: rest =>
      match mid.getString with
      | .error _ => .exited (.response serverError)
      | .ok memberId =>
          if memberId = uid then nextMember uid chatId name rest
          else .joinGroup chatId name memberId rest

def step (pg : Pg) (uid : String) : Point → Input → Db → Db × Point
  | .findDirect targetId, inp, db =>
      attempt inp.first (selectDirect uid targetId) db (fun
        | some c => respond 200 (.obj [("id", .str (Uuid.uuidOut c.id))])
        | none => .createDirect targetId) failed
  | .createDirect targetId, inp, db =>
      attempt inp.first (insertChat .priv none uid inp.freshId inp.now) db
        (fun id => .joinDirect (Uuid.uuidOut id) targetId) failed
  | .joinDirect chatId targetId, inp, db =>
      attempt inp.first (insertPair chatId uid targetId inp.now) db
        (fun _ => respond 201 (.obj [("id", .str chatId)])) failed
  | .createGroup name desc members, inp, db =>
      attempt inp.first (insertChat .group (some (name, desc)) uid inp.freshId inp.now) db
        (fun id => .ownGroup (Uuid.uuidOut id) name members) failed
  | .ownGroup chatId name members, inp, db =>
      attempt inp.first (insertOwner chatId uid inp.now) db
        (fun _ => nextMember uid chatId name members) failed
  | .joinGroup chatId name memberId rest, inp, db =>
      -- a failure is swallowed
      attempt inp.first (insertGroupMember chatId memberId inp.now) db
        (fun _ => nextMember uid chatId name rest) (fun _ => nextMember uid chatId name rest)
  | .addMember chatId target, inp, db =>
      attempt inp.first (upsertMember chatId target inp.now) db
        (fun _ => respond 200 okBody) failed
  | .removeMember chatId targetUid, inp, db =>
      attempt inp.first (leaveMember chatId targetUid inp.now) db
        (fun _ => respond 200 okBody) failed
  | .pinMessage msgId, inp, db =>
      attempt inp.first (togglePin msgId) db (fun _ => respond 200 okBody) failed
  | .reactMessage msgId emoji, inp, db =>
      attempt inp.first (insertReaction msgId uid emoji) db (fun _ => respond 200 okBody) failed
  | .muteChat chatId, inp, db =>
      attempt inp.first (muteMember pg chatId uid inp.now) db (fun _ => respond 200 okBody) failed
  | .exited e, _, db => (db, .exited e)

/-! ## The row of a pair -/

theorem memberRow_insert {db : Db} {row : ChatMember} {members : Table ChatMember}
    (h : db.chatMembers.insert row = some members) (c v : Uuid) :
    ({ db with chatMembers := members } : Db).memberRow c v =
      if isPair c v row then some row else db.memberRow c v := by
  have hrows : ({ db with chatMembers := members } : Db).memberRow c v =
      (db.memberRow c v).or (if isPair c v row then some row else none) := by
    unfold Db.memberRow isPair
    rw [Table.insert_rows h, List.find?_append]
    congr 1
    rw [List.find?_cons, List.find?_nil]
    split <;> simp_all
  rw [hrows]
  by_cases hp : isPair c v row = true
  · have hnone : db.memberRow c v = none := by
      unfold Db.memberRow
      rw [List.find?_eq_none]
      intro m hm hpair
      have hclash := Table.insert_fresh h m hm
      simp only [isPair, Bool.and_eq_true, beq_iff_eq] at hp hpair
      simp [Keyed.clash, hp, hpair] at hclash
    rw [hnone, if_pos hp, Option.none_or]
  · rw [if_neg hp, if_neg hp, Option.or_none]

theorem memberRow_modifyMember {c v : Uuid} {f : ChatMember → ChatMember}
    (hf : ∀ a b, Keyed.clash (f a) b = Keyed.clash a b) (db : Db) (c' v' : Uuid) :
    (modifyMember c v f hf db).memberRow c' v' =
      if c' = c ∧ v' = v then (db.memberRow c' v').map f else db.memberRow c' v' := by
  have hq : ∀ a, isPair c' v' (f a) = isPair c' v' a :=
    fun a => hf a { chatId := c', userId := v' }
  have hfind : (modifyMember c v f hf db).memberRow c' v' =
      (db.memberRow c' v').map (fun a => if isPair c v a then f a else a) :=
    Table.find?_modify hf hq
  rw [hfind]
  cases hrow : db.memberRow c' v' with
  | none => simp
  | some m =>
      have hpair := List.find?_some hrow
      simp only [Bool.and_eq_true, beq_iff_eq] at hpair
      simp only [Option.map_some, isPair, hpair, Bool.and_eq_true, beq_iff_eq]
      split <;> rfl

/-! ## What the statements write -/

theorem insertChat_ok {chatType : ChatType} {naming : Option (String × String)} {uid : String}
    {id : Uuid} {now : Time} {db db' : Db} {a : Uuid}
    (h : insertChat chatType naming uid id now db = .ok (db', a)) :
    a = id ∧ ∃ u name chats, PgDb.uuid uid = some u ∧ chatName naming = .ok name ∧
      db.hasUser u = true ∧
      db.chats.insert (chatRow id chatType name (naming.map (fun n => cstr n.2)) u now) =
        some chats ∧ db' = { db with chats := chats } := by
  unfold insertChat at h
  obtain ⟨u, hu, h⟩ := bind_ok.mp h
  obtain ⟨name, hname, h⟩ := bind_ok.mp h
  split at h
  · rename_i huser
    split at h
    · cases h
    · rename_i chats hins
      cases h
      exact ⟨rfl, u, name, chats, need_ok.mp hu, hname, huser, hins, rfl⟩
  · cases h

theorem insertMember_ok {row : ChatMember} {db db' : Db} (h : insertMember row db = .ok db') :
    ∃ members, db.chatMembers.insert row = some members ∧ db.hasChat row.chatId = true ∧
      db.hasUser row.userId = true ∧ db' = { db with chatMembers := members } := by
  unfold insertMember at h
  split at h
  · cases h
  · rename_i members hins
    split at h
    · rename_i hfk
      rw [Bool.and_eq_true] at hfk
      cases h
      exact ⟨members, hins, hfk.1, hfk.2, rfl⟩
    · cases h

/-- A pair without a row gets one, in an existing chat and for an existing user. -/
theorem insertMember_accepts (row : ChatMember) (db : Db)
    (hrow : db.memberRow row.chatId row.userId = none) (hchat : db.hasChat row.chatId = true)
    (huser : db.hasUser row.userId = true) :
    ∃ members, db.chatMembers.insert row = some members ∧
      insertMember row db = .ok { db with chatMembers := members } := by
  have hfree : ∀ m ∈ db.chatMembers, Keyed.clash row m = false := by
    intro m hm
    have hne := List.find?_eq_none.mp hrow m hm
    rw [Keyed.symm]
    simpa [Keyed.clash] using hne
  obtain ⟨members, hins⟩ := Table.insert_isSome hfree
  refine ⟨members, hins, ?_⟩
  unfold insertMember
  rw [hins]
  simp only [hchat, huser, Bool.and_true, if_true]

theorem insertPair_ok {chatId uid targetId : String} {now : Time} {db db' : Db} {a : Unit}
    (h : insertPair chatId uid targetId now db = .ok (db', a)) :
    ∃ c u v db₁, PgDb.uuid chatId = some c ∧ PgDb.uuid uid = some u ∧
      PgDb.uuid targetId = some v ∧
      insertMember { chatId := c, userId := u, joinedAt := some now } db = .ok db₁ ∧
      insertMember { chatId := c, userId := v, joinedAt := some now } db₁ = .ok db' := by
  unfold insertPair at h
  obtain ⟨c, hc, h⟩ := bind_ok.mp h
  obtain ⟨u, hu, h⟩ := bind_ok.mp h
  obtain ⟨v, hv, h⟩ := bind_ok.mp h
  obtain ⟨db₁, hfirst, h⟩ := bind_ok.mp h
  obtain ⟨db₂, hsecond, h⟩ := bind_ok.mp h
  cases h
  exact ⟨c, u, v, db₁, need_ok.mp hc, need_ok.mp hu, need_ok.mp hv, hfirst, hsecond⟩

theorem insertOwner_ok {chatId uid : String} {now : Time} {db db' : Db} {a : Unit}
    (h : insertOwner chatId uid now db = .ok (db', a)) :
    ∃ c u, PgDb.uuid chatId = some c ∧ PgDb.uuid uid = some u ∧
      insertMember { chatId := c, userId := u, role := "owner", canAdmin := true,
                     joinedAt := some now } db = .ok db' := by
  unfold insertOwner at h
  obtain ⟨c, hc, h⟩ := bind_ok.mp h
  obtain ⟨u, hu, h⟩ := bind_ok.mp h
  obtain ⟨db₁, hins, h⟩ := bind_ok.mp h
  cases h
  exact ⟨c, u, need_ok.mp hc, need_ok.mp hu, hins⟩

theorem insertGroupMember_ok {chatId memberId : String} {now : Time} {db db' : Db} {a : Unit}
    (h : insertGroupMember chatId memberId now db = .ok (db', a)) :
    ∃ c v, PgDb.uuid chatId = some c ∧ PgDb.uuid memberId = some v ∧
      (db' = db ∨
        insertMember { chatId := c, userId := v, joinedAt := some now } db = .ok db') := by
  unfold insertGroupMember at h
  obtain ⟨c, hc, h⟩ := bind_ok.mp h
  obtain ⟨v, hv, h⟩ := bind_ok.mp h
  refine ⟨c, v, need_ok.mp hc, need_ok.mp hv, ?_⟩
  split at h
  · cases h
    exact Or.inl rfl
  · obtain ⟨db₁, hins, h⟩ := bind_ok.mp h
    cases h
    exact Or.inr hins

/-- Either way the target's row is as it was but active, or new, and no other row changed. -/
theorem upsertMember_ok {chatId : Bytes} {target : String} {now : Time} {db db' : Db} {a : Unit}
    (h : upsertMember chatId target now db = .ok (db', a)) :
    ∃ c v, PgDb.uuidBytes chatId = some c ∧ PgDb.uuid target = some v ∧
      ((db.memberRow c v).isSome = true ∧
          db' = modifyMember c v (fun m => { m with leftAt := none }) (fun _ _ => rfl) db ∨
        db.memberRow c v = none ∧
          insertMember { chatId := c, userId := v, joinedAt := some now } db = .ok db') := by
  unfold upsertMember at h
  obtain ⟨c, hc, h⟩ := bind_ok.mp h
  obtain ⟨v, hv, h⟩ := bind_ok.mp h
  refine ⟨c, v, need_ok.mp hc, need_ok.mp hv, ?_⟩
  split at h
  · rename_i m hm
    cases h
    exact Or.inl ⟨by rw [hm]; rfl, rfl⟩
  · rename_i hm
    obtain ⟨db₁, hins, h⟩ := bind_ok.mp h
    cases h
    exact Or.inr ⟨hm, hins⟩

/-- An existing row, or an existing chat and user, is enough. -/
theorem upsertMember_accepts {chatId : Bytes} {target : String} {db : Db} {c v : Uuid}
    (hc : PgDb.uuidBytes chatId = some c) (hv : PgDb.uuid target = some v)
    (hchat : db.hasChat c = true) (huser : db.memberRow c v = none → db.hasUser v = true)
    (now : Time) : ∃ db', upsertMember chatId target now db = .ok (db', ()) ∧
      db'.activeMember c v = true := by
  unfold upsertMember
  rw [hc, hv]
  cases hrow : db.memberRow c v with
  | some m =>
      refine ⟨modifyMember c v (fun m => { m with leftAt := none }) (fun _ _ => rfl) db, ?_, ?_⟩
      · show (match db.memberRow c v with | some _ => _ | none => _) = _
        rw [hrow]
        rfl
      · rw [Db.activeMember_eq, memberRow_modifyMember, if_pos ⟨rfl, rfl⟩, hrow]
        rfl
  | none =>
      obtain ⟨members, hins, hok⟩ := insertMember_accepts
        { chatId := c, userId := v, joinedAt := some now } db hrow hchat (huser hrow)
      refine ⟨{ db with chatMembers := members }, ?_, ?_⟩
      · show (match db.memberRow c v with | some _ => _ | none => _) = _
        rw [hrow]
        show insertMember _ db >>= _ = _
        rw [hok]
        rfl
      · rw [Db.activeMember_eq, memberRow_insert hins, if_pos (by simp [isPair])]
        rfl

theorem leaveMember_ok {chatId targetUid : Bytes} {now : Time} {db db' : Db} {a : Unit}
    (h : leaveMember chatId targetUid now db = .ok (db', a)) :
    ∃ c v, PgDb.uuidBytes chatId = some c ∧ PgDb.uuidBytes targetUid = some v ∧
      db' = modifyMember c v (fun m => { m with leftAt := some now }) (fun _ _ => rfl) db := by
  unfold leaveMember at h
  obtain ⟨c, hc, h⟩ := bind_ok.mp h
  obtain ⟨v, hv, h⟩ := bind_ok.mp h
  cases h
  exact ⟨c, v, need_ok.mp hc, need_ok.mp hv, rfl⟩

theorem muteMember_ok {pg : Pg} {chatId : Bytes} {uid : String} {now : Time} {db db' : Db}
    {a : Unit} (h : muteMember pg chatId uid now db = .ok (db', a)) :
    ∃ c u, PgDb.uuidBytes chatId = some c ∧ PgDb.uuid uid = some u ∧
      db' = modifyMember c u (fun m => { m with mutedUntil := toggledMute pg now m.mutedUntil })
        (fun _ _ => rfl) db := by
  unfold muteMember at h
  obtain ⟨c, hc, h⟩ := bind_ok.mp h
  obtain ⟨u, hu, h⟩ := bind_ok.mp h
  cases h
  exact ⟨c, u, need_ok.mp hc, need_ok.mp hu, rfl⟩

theorem togglePin_ok {msgId : Bytes} {db db' : Db} {a : Unit}
    (h : togglePin msgId db = .ok (db', a)) :
    ∃ i, PgDb.uuidBytes msgId = some i ∧ db' = flipPinOf i db := by
  unfold togglePin at h
  obtain ⟨i, hi, h⟩ := bind_ok.mp h
  cases h
  exact ⟨i, need_ok.mp hi, rfl⟩

/-- The loop goes on with the same chat, or the handler is at its end. -/
theorem nextMember_cases (uid chatId name : String) (l : List Json) :
    (∃ e, nextMember uid chatId name l = .exited e) ∨
      ∃ memberId rest, nextMember uid chatId name l = .joinGroup chatId name memberId rest := by
  induction l with
  | nil => exact Or.inl ⟨_, rfl⟩
  | cons mid l ih =>
      unfold nextMember
      split
      · exact Or.inl ⟨_, rfl⟩
      · split
        · exact ih
        · exact Or.inr ⟨_, _, rfl⟩

/-- A step writes `chats`, `chat_members` and `messages` only. -/
theorem step_writes (pg : Pg) (uid : String) (p : Point) (inp : Input) (db : Db) :
    ∃ chats members messages, (step pg uid p inp db).1 =
      { db with chats := chats, chatMembers := members, messages := messages } := by
  let K : Db → Prop := fun db' => ∃ chats members messages, db' =
    { db with chats := chats, chatMembers := members, messages := messages }
  have same : K db := ⟨db.chats, db.chatMembers, db.messages, rfl⟩
  have stmt : ∀ {α : Type} {o : PgDb.Outcome} {q : Stmt Db α} {ok : α → Point}
      {failed : SqlError → Point}, (∀ db' a, q db = .ok (db', a) → K db') →
      K (attempt o q db ok failed).1 :=
    fun h => attempt_inv (fun db' _ => K db') (fun _ => same)
      (fun db' a hq => ⟨h db' a hq, fun _ => h db' a hq⟩)
  have chat : ∀ {ty : ChatType} {naming : Option (String × String)} {id : Uuid} {db' : Db}
      {a : Uuid}, insertChat ty naming uid id inp.now db = .ok (db', a) → K db' := by
    intro ty naming id db' a h
    obtain ⟨_, _, _, chats, _, _, _, _, rfl⟩ := insertChat_ok h
    exact ⟨chats, db.chatMembers, db.messages, rfl⟩
  have member : ∀ {row : ChatMember} {db' : Db}, insertMember row db = .ok db' → K db' := by
    intro row db' h
    obtain ⟨members, _, _, _, rfl⟩ := insertMember_ok h
    exact ⟨db.chats, members, db.messages, rfl⟩
  cases p with
  | findDirect targetId =>
      refine stmt (fun db' a h => ?_)
      obtain ⟨rfl, _⟩ := PgDb.reading_ok.mp h
      exact same
  | createDirect targetId => exact stmt (fun _ _ h => chat h)
  | joinDirect chatId targetId =>
      refine stmt (fun db' a h => ?_)
      obtain ⟨_, _, _, db₁, _, _, _, hfirst, hsecond⟩ := insertPair_ok h
      obtain ⟨_, _, _, _, rfl⟩ := insertMember_ok hfirst
      obtain ⟨members, _, _, _, rfl⟩ := insertMember_ok hsecond
      exact ⟨db.chats, members, db.messages, rfl⟩
  | createGroup name desc members => exact stmt (fun _ _ h => chat h)
  | ownGroup chatId name members =>
      refine stmt (fun db' a h => ?_)
      obtain ⟨_, _, _, _, hins⟩ := insertOwner_ok h
      exact member hins
  | joinGroup chatId name memberId rest =>
      refine stmt (fun db' a h => ?_)
      obtain ⟨_, _, _, _, rfl | hins⟩ := insertGroupMember_ok h
      · exact same
      · exact member hins
  | addMember chatId target =>
      refine stmt (fun db' a h => ?_)
      obtain ⟨_, _, _, _, ⟨_, rfl⟩ | ⟨_, hins⟩⟩ := upsertMember_ok h
      · exact ⟨db.chats, _, db.messages, rfl⟩
      · exact member hins
  | removeMember chatId targetUid =>
      refine stmt (fun db' a h => ?_)
      obtain ⟨_, _, _, _, rfl⟩ := leaveMember_ok h
      exact ⟨db.chats, _, db.messages, rfl⟩
  | pinMessage msgId =>
      refine stmt (fun db' a h => ?_)
      obtain ⟨_, _, rfl⟩ := togglePin_ok h
      exact ⟨db.chats, db.chatMembers, _, rfl⟩
  | reactMessage msgId emoji => exact stmt (fun _ _ h => nomatch h)
  | muteChat chatId =>
      refine stmt (fun db' a h => ?_)
      obtain ⟨_, _, _, _, rfl⟩ := muteMember_ok h
      exact ⟨db.chats, _, db.messages, rfl⟩
  | exited e => exact same

end MessengerBackend.Api.Chats
