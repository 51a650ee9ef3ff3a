/-
  The handlers that change `channels`, `channel_subscribers` and `channel_posts`.

  `create_channel` and `subscribe` run two statements without a transaction. `create_post`
  reads the caller's role before it inserts; `delete_post` reads nothing.
-/
import Mathlib.Data.List.Infix
import MessengerBackend.Api.Handlers

namespace MessengerBackend.Api.Channels

open PgDb (Stmt cstr varchar need need_ok)
open Except (bind_ok)

/-! ## Requests and points -/

inductive Call where
  | createChannel (body : Option Json)
  | subscribeChannel (channelId : Bytes)
  | createPost (channelId : Bytes) (body : Option Json)
  | deletePost (channelId postId : Bytes)

inductive Point where
  | createChannel (username name description : String) (isPublic : Bool)
  | ownChannel (chanId username : String)
  | subscribe (channelId : Bytes)
  | countSubscriber (channelId : Bytes)
  | readRole (channelId : Bytes) (content : String) (isPaid : Bool)
  | createPost (channelId : Bytes) (content : String) (isPaid : Bool)
  | deletePost (channelId postId : Bytes)
  | exited (e : Exit)

def respond (status : Nat) (body : Json) : Point := .exited (.response (jsonResp status body))

def refuse (status : Nat) (msg : String) : Point := .exited (.response (errorResp status msg))

def failed (_ : SqlError) : Point := .exited (.response serverError)

/-! ## Before the first statement -/

def routeCreateChannel (body : Option Json) : Point :=
  match withBody body (fun j => do
      let username ← j.valueString "username" ""
      let name ← j.valueString "name" ""
      let description ← j.valueString "description" ""
      let isPublic ← j.valueBool "isPublic" true
      pure (username, name, description, isPublic)) with
  | .error e => .exited e
  | .ok (username, name, description, isPublic) =>
      if username = "" ∨ name = "" then refuse 400 "username and name required"
      else .createChannel username name description isPublic

def routeCreatePost (channelId : Bytes) (body : Option Json) : Point :=
  match withBody body (fun j => do
      let content ← j.valueString "content" ""
      let isPaid ← j.valueBool "isPaid" false
      pure (content, isPaid)) with
  | .error e => .exited e
  | .ok (content, isPaid) => .readRole channelId content isPaid

def start : Call → Point
  | .createChannel body => routeCreateChannel body
  | .subscribeChannel channelId => .subscribe channelId
  | .createPost channelId body => routeCreatePost channelId body
  | .deletePost channelId postId => .deletePost channelId postId

/-! ## The statements -/

def channelRow (id : Uuid) (username name description : String) (isPublic : Bool)
    (ownerId : Uuid) : Channel where
  id := id
  username := username
  name := name
  description := some description
  isPublic := isPublic
  ownerId := some ownerId

/-- INSERT INTO channels … RETURNING id. -/
def insertChannel (username name description : String) (isPublic : Bool) (uid : String)
    (id : Uuid) : Stmt Db Uuid := fun db => do
  let username ← varchar 64 (cstr username)
  let name ← varchar 255 (cstr name)
  let u ← need .invalidUuid (PgDb.uuid uid)
  match db.channels.insert (channelRow id username name (cstr description) isPublic u) with
  | none => .error .unique
  | some channels =>
      if db.hasUser u then .ok ({ db with channels := channels }, id) else .error .foreignKey

/-- A row of `channel_subscribers`. -/
def insertSubscriber (row : ChannelSubscriber) (db : Db) : Except SqlError Db :=
  match db.channelSubscribers.insert row with
  | none => .error .unique
  | some subscribers =>
      if db.hasChannel row.channelId && db.hasUser row.userId then
        .ok { db with channelSubscribers := subscribers }
      else .error .foreignKey

/-- VALUES ($1, $2, 'owner'). -/
def insertOwner (chanId uid : String) : Stmt Db Unit := fun db => do
  let ch ← need .invalidUuid (PgDb.uuid chanId)
  let u ← need .invalidUuid (PgDb.uuid uid)
  let db₁ ← insertSubscriber { channelId := ch, userId := u, role := "owner" } db
  pure (db₁, ())

/-- The caller's row in a channel. -/
def subscriberRow (db : Db) (ch u : Uuid) : Option ChannelSubscriber :=
  db.channelSubscribers.rows.find? (fun s => s.channelId == ch && s.userId == u)

/-- VALUES ($1, $2, 'subscriber') ON CONFLICT DO NOTHING. -/
def insertSubscription (channelId : Bytes) (uid : String) : Stmt Db Unit := fun db => do
  let ch ← need .invalidUuid (PgDb.uuidBytes channelId)
  let u ← need .invalidUuid (PgDb.uuid uid)
  match subscriberRow db ch u with
  | some _ => pure (db, ())
  | none =>
      let db₁ ← insertSubscriber { channelId := ch, userId := u } db
      pure (db₁, ())

def countUp (c : Channel) : Channel := { c with subscriberCount := c.subscriberCount + 1 }

theorem clash_countUp (a b : Channel) : Keyed.clash (countUp a) b = Keyed.clash a b := rfl

/-- UPDATE channels SET subscriber_count = subscriber_count + 1; an INT. -/
def incrementCount (channelId : Bytes) : Stmt Db Unit := fun db => do
  let ch ← need .invalidUuid (PgDb.uuidBytes channelId)
  if db.channels.rows.any (fun c => c.id == ch && 2 ^ 31 ≤ c.subscriberCount + 1) then
    .error .outOfRange
  else
    let channels := db.channels.modify (fun c => c.id == ch) countUp clash_countUp
    pure ({ db with channels := channels }, ())

/-- SELECT role FROM channel_subscribers WHERE channel_id=$1 AND user_id=$2. -/
def selectRole (channelId : Bytes) (uid : String) : Stmt Db (Option String) :=
  PgDb.reading (fun db => do
    let ch ← need .invalidUuid (PgDb.uuidBytes channelId)
    let u ← need .invalidUuid (PgDb.uuid uid)
    pure ((subscriberRow db ch u).map ChannelSubscriber.role))

def postRow (id ch : Uuid) (content : String) (isPaid : Bool) (authorId : Uuid) (now : Time) :
    ChannelPost where
  id := id
  channelId := ch
  authorId := some authorId
  content := content
  isPaid := isPaid
  createdAt := some now

/-- INSERT INTO channel_posts. -/
def insertPost (channelId : Bytes) (content : String) (isPaid : Bool) (uid : String) (id : Uuid)
    (now : Time) : Stmt Db Unit := fun db => do
  let ch ← need .invalidUuid (PgDb.uuidBytes channelId)
  let u ← need .invalidUuid (PgDb.uuid uid)
  match db.channelPosts.insert (postRow id ch (cstr content) isPaid u now) with
  | none => .error .unique
  | some posts =>
      if db.hasChannel ch && db.hasUser u then .ok ({ db with channelPosts := posts }, ())
      else .error .foreignKey

def dropPost (p ch : Uuid) (db : Db) : Db :=
  { db with channelPosts := db.channelPosts.erase (fun r => r.id == p && r.channelId == ch) }

/-- DELETE FROM channel_posts WHERE id=$1 AND channel_id=$2. -/
def erasePost (channelId postId : Bytes) : Stmt Db Unit := fun db => do
  let p ← need .invalidUuid (PgDb.uuidBytes postId)
  let ch ← need .invalidUuid (PgDb.uuidBytes channelId)
  pure (dropPost p ch db, ())

/-! ## One step -/

/-- `err.find("unique") != std::string::npos` -/
def createFailed (e : SqlError) : Point :=
  if "unique".toList <:+: e.message.toList then refuse 409 "Username already taken"
  else .exited (.response serverError)

def step (uid : String) : Point → Input → Db → Db × Point
  | .createChannel username name description isPublic, inp, db =>
      attempt inp.first (insertChannel username name description isPublic uid inp.freshId) db
        (fun id => .ownChannel (Uuid.uuidOut id) username) createFailed
  | .ownChannel chanId username, inp, db =>
      attempt inp.first (insertOwner chanId uid) db
        (fun _ => respond 201 (.obj [("id", .str chanId), ("username", .str username)]))
        createFailed
  | .subscribe channelId, inp, db =>
      attempt inp.first (insertSubscription channelId uid) db
        (fun _ => .countSubscriber channelId) failed
  | .countSubscriber channelId, inp, db =>
      attempt inp.first (incrementCount channelId) db (fun _ => respond 200 okBody) failed
  | .readRole channelId content isPaid, inp, db =>
      attempt inp.first (selectRole channelId uid) db
        (fun role =>
          if role = some "owner" ∨ role = some "admin" then .createPost channelId content isPaid
          else refuse 403 "Not a channel admin") failed
  | .createPost channelId content isPaid, inp, db =>
      attempt inp.first (insertPost channelId content isPaid uid inp.freshId inp.now) db
        (fun _ => respond 201 okBody) failed
  | .deletePost channelId postId, inp, db =>
      attempt inp.first (erasePost channelId postId) db (fun _ => respond 200 okBody) failed
  | .exited e, _, db => (db, .exited e)

/-! ## What the statements write -/

theorem insertChannel_ok {username name description uid : String} {isPublic : Bool} {id : Uuid}
    {db db' : Db} {a : Uuid}
    (h : insertChannel username name description isPublic uid id db = .ok (db', a)) :
    a = id ∧ ∃ username' name' u channels, PgDb.uuid uid = some u ∧ db.hasUser u = true ∧
      db.channels.insert (channelRow id username' name' (cstr description) isPublic u) =
        some channels ∧ db' = { db with channels := channels } := by
  unfold insertChannel at h
  obtain ⟨username', _, h⟩ := bind_ok.mp h
  obtain ⟨name', _, h⟩ := bind_ok.mp h
  obtain ⟨u, hu, h⟩ := bind_ok.mp h
  split at h
  · cases h
  · rename_i channels hins
    split at h
    · rename_i huser
      cases h
      exact ⟨rfl, username', name', u, channels, need_ok.mp hu, huser, hins, rfl⟩
    · cases h

theorem insertSubscriber_ok {row : ChannelSubscriber} {db db' : Db}
    (h : insertSubscriber row db = .ok db') :
    ∃ subscribers, db.channelSubscribers.insert row = some subscribers ∧
      db.hasChannel row.channelId = true ∧ db.hasUser row.userId = true ∧
      db' = { db with channelSubscribers := subscribers } := by
  unfold insertSubscriber at h
  split at h
  · cases h
  · rename_i subscribers hins
    split at h
    · rename_i hfk
      rw [Bool.and_eq_true] at hfk
      cases h
      exact ⟨subscribers, hins, hfk.1, hfk.2, rfl⟩
    · cases h

theorem insertOwner_ok {chanId uid : String} {db db' : Db} {a : Unit}
    (h : insertOwner chanId uid db = .ok (db', a)) :
    ∃ ch u, PgDb.uuid chanId = some ch ∧ PgDb.uuid uid = some u ∧
      insertSubscriber { channelId := ch, userId := u, role := "owner" } db = .ok db' := by
  unfold insertOwner at h
  obtain ⟨ch, hch, h⟩ := bind_ok.mp h
  obtain ⟨u, hu, h⟩ := bind_ok.mp h
  obtain ⟨db₁, hins, h⟩ := bind_ok.mp h
  cases h
  exact ⟨ch, u, need_ok.mp hch, need_ok.mp hu, hins⟩

theorem insertSubscription_ok {channelId : Bytes} {uid : String} {db db' : Db} {a : Unit}
    (h : insertSubscription channelId uid db = .ok (db', a)) :
    ∃ ch u, PgDb.uuidBytes channelId = some ch ∧ PgDb.uuid uid = some u ∧
      (db' = db ∨ insertSubscriber { channelId := ch, userId := u } db = .ok db') := by
  unfold insertSubscription at h
  obtain ⟨ch, hch, h⟩ := bind_ok.mp h
  obtain ⟨u, hu, h⟩ := bind_ok.mp h
  refine ⟨ch, u, need_ok.mp hch, need_ok.mp hu, ?_⟩
  split at h
  · cases h
    exact Or.inl rfl
  · obtain ⟨db₁, hins, h⟩ := bind_ok.mp h
    cases h
    exact Or.inr hins

theorem incrementCount_ok {channelId : Bytes} {db db' : Db} {a : Unit}
    (h : incrementCount channelId db = .ok (db', a)) :
    ∃ ch, PgDb.uuidBytes channelId = some ch ∧ db' = { db with
      channels := db.channels.modify (fun c => c.id == ch) countUp clash_countUp } := by
  unfold incrementCount at h
  obtain ⟨ch, hch, h⟩ := bind_ok.mp h
  split at h
  · cases h
  · cases h
    exact ⟨ch, need_ok.mp hch, rfl⟩

theorem insertPost_ok {channelId : Bytes} {content uid : String} {isPaid : Bool} {id : Uuid}
    {now : Time} {db db' : Db} {a : Unit}
    (h : insertPost channelId content isPaid uid id now db = .ok (db', a)) :
    ∃ ch u posts, PgDb.uuidBytes channelId = some ch ∧ PgDb.uuid uid = some u ∧
      db.channelPosts.insert (postRow id ch (cstr content) isPaid u now) = some posts ∧
      db' = { db with channelPosts := posts } := by
  unfold insertPost at h
  obtain ⟨ch, hch, h⟩ := bind_ok.mp h
  obtain ⟨u, hu, h⟩ := bind_ok.mp h
  split at h
  · cases h
  · rename_i posts hins
    split at h
    · cases h
      exact ⟨ch, u, posts, need_ok.mp hch, need_ok.mp hu, hins, rfl⟩
    · cases h

theorem erasePost_ok {channelId postId : Bytes} {db db' : Db} {a : Unit}
    (h : erasePost channelId postId db = .ok (db', a)) :
    ∃ p ch, PgDb.uuidBytes postId = some p ∧ PgDb.uuidBytes channelId = some ch ∧
      db' = dropPost p ch db := by
  unfold erasePost at h
  obtain ⟨p, hp, h⟩ := bind_ok.mp h
  obtain ⟨ch, hch, h⟩ := bind_ok.mp h
  cases h
  exact ⟨p, ch, need_ok.mp hp, need_ok.mp hch, rfl⟩

theorem selectRole_ok {channelId : Bytes} {uid : String} {db db' : Db} {role : Option String}
    (h : selectRole channelId uid db = .ok (db', role)) :
    db' = db ∧ ∃ ch u, PgDb.uuidBytes channelId = some ch ∧ PgDb.uuid uid = some u ∧
      role = (subscriberRow db ch u).map ChannelSubscriber.role := by
  obtain ⟨rfl, hx⟩ := PgDb.reading_ok.mp h
  obtain ⟨ch, hch, hx⟩ := bind_ok.mp hx
  obtain ⟨u, hu, hx⟩ := bind_ok.mp hx
  cases hx
  exact ⟨rfl, ch, u, need_ok.mp hch, need_ok.mp hu, rfl⟩

/-- A step writes `channels`, `channel_subscribers` and `channel_posts` only. -/
theorem step_writes (uid : String) (p : Point) (inp : Input) (db : Db) :
    ∃ channels subscribers posts, (step uid p inp db).1 =
      { db with channels := channels, channelSubscribers := subscribers, channelPosts := posts } := by
  let K : Db → Prop := fun db' => ∃ channels subscribers posts, db' =
    { db with channels := channels, channelSubscribers := subscribers, channelPosts := posts }
  have same : K db := ⟨db.channels, db.channelSubscribers, db.channelPosts, rfl⟩
  have stmt : ∀ {α : Type} {o : PgDb.Outcome} {q : Stmt Db α} {ok : α → Point}
      {failed : SqlError → Point}, (∀ db' a, q db = .ok (db', a) → K db') →
      K (attempt o q db ok failed).1 :=
    fun h => attempt_inv (fun db' _ => K db') (fun _ => same)
      (fun db' a hq => ⟨h db' a hq, fun _ => h db' a hq⟩)
  cases p with
  | createChannel username name description isPublic =>
      refine stmt (fun db' a h => ?_)
      obtain ⟨_, _, _, _, channels, _, _, _, rfl⟩ := insertChannel_ok h
      exact ⟨channels, db.channelSubscribers, db.channelPosts, rfl⟩
  | ownChannel chanId username =>
      refine stmt (fun db' a h => ?_)
      obtain ⟨_, _, _, _, hins⟩ := insertOwner_ok h
      obtain ⟨subscribers, _, _, _, rfl⟩ := insertSubscriber_ok hins
      exact ⟨db.channels, subscribers, db.channelPosts, rfl⟩
  | subscribe channelId =>
      refine stmt (fun db' a h => ?_)
      obtain ⟨_, _, _, _, rfl | hins⟩ := insertSubscription_ok h
      · exact same
      · obtain ⟨subscribers, _, _, _, rfl⟩ := insertSubscriber_ok hins
        exact ⟨db.channels, subscribers, db.channelPosts, rfl⟩
  | countSubscriber channelId =>
      refine stmt (fun db' a h => ?_)
      obtain ⟨_, _, rfl⟩ := incrementCount_ok h
      exact ⟨_, db.channelSubscribers, db.channelPosts, rfl⟩
  | readRole channelId content isPaid =>
      refine stmt (fun db' a h => ?_)
      obtain ⟨rfl, _⟩ := selectRole_ok h
      exact same
  | createPost channelId content isPaid =>
      refine stmt (fun db' a h => ?_)
      obtain ⟨_, _, posts, _, _, _, rfl⟩ := insertPost_ok h
      exact ⟨db.channels, db.channelSubscribers, posts, rfl⟩
  | deletePost channelId postId =>
      refine stmt (fun db' a h => ?_)
      obtain ⟨_, _, _, _, rfl⟩ := erasePost_ok h
      exact ⟨db.channels, db.channelSubscribers, _, rfl⟩
  | exited e => exact same

end MessengerBackend.Api.Channels
