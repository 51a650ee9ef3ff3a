/-
  The GET handlers of the API, behind `authenticate_request`: what each answers to the caller
  `uid` in one state of the database.

  A handler runs at most two statements, each with its own `Outcome`. Path parameters are the
  bytes between two slashes, query parameters are C strings. Every statement is written in
  the order of its clauses: FROM and JOIN, WHERE, ORDER BY, LIMIT, columns.

  `respond` is the route table. Not here: the websocket route, and the 404 and 405 of paths
  and methods that no route takes.
-/
import MessengerBackend.Sql

namespace MessengerBackend.Api

open PgDb (need query)
open Select (join orderBy asc desc)
open Sql

/-- What a request depends on besides the caller and the database. -/
structure Env where
  now : Time
  connected : Bool
  first : PgDb.Outcome
  second : PgDb.Outcome

def serverError : Response := errorResp 500 "Server error"

/-- The rest of a handler inside `try { … } catch (...)`, after a query. -/
def answer (rows : Except SqlError (List Json)) (k : List Json → Response) : Response :=
  match rows with
  | .ok rs => k rs
  | .error _ => serverError

/-- An array with one object for each row. -/
def arrayOf (f : Json → Json) (rows : List Json) : Response :=
  jsonResp 200 (.arr (rows.map f))

/-- The columns of a row under the keys of a response. -/
def pick (keys : List (String × String)) (r : Json) : Json :=
  .obj (keys.map (fun k => (k.1, col r k.2)))

/-! ## Users -/

def userColumns (pg : Pg) (u : User) : List (String × Json) :=
  [("id", uuidCol u.id), ("username", .str u.username), ("email", .str u.email),
   ("phone_number", .ofText u.phoneNumber), ("display_name", .ofText u.displayName),
   ("avatar_url", .ofText u.avatarUrl), ("bio", .ofText u.bio), ("status", .ofText u.status),
   ("status_text", .ofText u.statusText), ("created_at", nullable (timeCol pg) u.createdAt)]

/-- The row of a SELECT that lists `names`. -/
def columns (names : List String) (row : List (String × Json)) : Json :=
  .obj (row.filter (fun c => names.contains c.1))

def selectMe (pg : Pg) (uid : String) (db : Db) : Except SqlError (List Json) := do
  let id ← need .invalidUuid (PgDb.uuid uid)
  pure ((db.users.select (fun u => u.id == id && u.isDeleted == some false)).map
    (fun u => columns ["id", "username", "email", "phone_number", "display_name", "avatar_url",
      "bio", "status", "status_text", "created_at"] (userColumns pg u)))

/-- `GET /api/auth/me` -/
def routeGetMe (pg : Pg) (env : Env) (uid : String) (db : Db) : Response :=
  answer (query env.first (selectMe pg uid) db) fun rows =>
    match rows with
    | [] => errorResp 404 "User not found"
    | u :: _ => jsonResp 200 (pick [("id", "id"), ("username", "username"), ("email", "email"),
        ("phone", "phone_number"), ("displayName", "display_name"), ("avatarUrl", "avatar_url"),
        ("bio", "bio"), ("status", "status"), ("statusText", "status_text"),
        ("createdAt", "created_at")] u)

/-- The FROM and WHERE of both user searches. -/
def usersLike (pg : Pg) (q : Bytes) (uid : String) (db : Db) : Except SqlError (List User) := do
  let like ← need .encoding (PgDb.text (likeBytes q))
  let id ← need .invalidUuid (PgDb.uuid uid)
  pure ((db.users.select (fun u =>
    (ilike pg u.username like || ilikeNull pg u.displayName like) &&
      u.isDeleted == some false && u.id != id)).take 20)

def selectUsersLike (pg : Pg) (names : List String) (q : Bytes) (uid : String) (db : Db) :
    Except SqlError (List Json) :=
  (usersLike pg q uid db).map (fun us => us.map (fun u => columns names (userColumns pg u)))

/-- `GET /api/auth/users/search?q=...` -/
def routeSearchUsers (pg : Pg) (env : Env) (uid : String) (q : Option Bytes) (db : Db) :
    Response :=
  if urlParam q = [] then jsonResp 200 (.arr [])
  else answer (query env.first (selectUsersLike pg
      ["id", "username", "display_name", "avatar_url", "status"] (urlParam q) uid) db)
    (arrayOf (pick [("id", "id"), ("username", "username"), ("displayName", "display_name"),
      ("avatarUrl", "avatar_url"), ("status", "status")]))

/-- `GET /api/chats/users/search?q=...`: no test for an empty `q`, no status. -/
def routeChatSearchUsers (pg : Pg) (env : Env) (uid : String) (q : Option Bytes) (db : Db) :
    Response :=
  answer (query env.first (selectUsersLike pg
      ["id", "username", "display_name", "avatar_url"] (urlParam q) uid) db)
    (arrayOf (pick [("id", "id"), ("username", "username"), ("displayName", "display_name"),
      ("avatarUrl", "avatar_url")]))

def selectUser (pg : Pg) (userId : Bytes) (db : Db) : Except SqlError (List Json) := do
  let id ← need .invalidUuid (PgDb.uuidBytes userId)
  pure ((db.users.select (fun u => u.id == id && u.isDeleted == some false)).map
    (fun u => columns ["id", "username", "display_name", "avatar_url", "bio", "status"]
      (userColumns pg u)))

/-- `GET /api/auth/users/:id` -/
def routeGetUser (pg : Pg) (env : Env) (userId : Bytes) (db : Db) : Response :=
  answer (query env.first (selectUser pg userId) db) fun rows =>
    match rows with
    | [] => errorResp 404 "User not found"
    | u :: _ => jsonResp 200 (pick [("id", "id"), ("username", "username"),
        ("displayName", "display_name"), ("avatarUrl", "avatar_url"), ("bio", "bio"),
        ("status", "status")] u)

/-! ## Chats -/

/-- `SELECT 1 FROM chat_members WHERE chat_id=$1 AND user_id=$2 AND left_at IS NULL` -/
def selectMembership (chatId : Bytes) (uid : String) (db : Db) : Except SqlError (List Json) := do
  let c ← need .invalidUuid (PgDb.uuidBytes chatId)
  let u ← need .invalidUuid (PgDb.uuid uid)
  pure ((db.chatMembers.select
      (fun m => m.chatId == c && m.userId == u && m.leftAt.isNone)).map
    (fun _ => .obj [("?column?", .str "1")]))

/-- `ORDER BY created_at DESC` -/
def newestMessage (a b : Message) : Bool := desc (fun x y => x ≤ y) a.createdAt b.createdAt

/-- The sub-query `last_message`. -/
def lastMessage (db : Db) (c : Uuid) : Option String :=
  ((orderBy newestMessage
    (db.messages.select (fun m => m.chatId == c && m.isDeleted == some false))).head?).map
    Message.content

/-- The sub-query `unread_count`. -/
def unreadCount (db : Db) (c u : Uuid) : Nat :=
  ((join (fun md msg => md.messageId == msg.id) db.messageDelivery.rows db.messages.rows).filter
    (fun p => p.2.chatId == c && p.1.recipientId == u && p.1.status.any (· != "read"))).length

/-- The chats `u` is an active member of, latest first. -/
def chatsOf (u : Uuid) (db : Db) : List Chat :=
  ((orderBy (fun a b => desc (fun x y => x ≤ y) a.1.updatedAt b.1.updatedAt)
    ((join (fun c cm => cm.chatId == c.id) db.chats.rows db.chatMembers.rows).filter
      (fun p => p.2.userId == u && p.2.leftAt.isNone))).take 100).map Prod.fst

def selectChats (pg : Pg) (uid : String) (db : Db) : Except SqlError (List Json) := do
  let u ← need .invalidUuid (PgDb.uuid uid)
  pure ((chatsOf u db).map (fun c =>
    .obj [("id", uuidCol c.id), ("chat_type", .str c.chatType.text), ("name", .ofText c.name),
      ("avatar_url", .ofText c.avatarUrl), ("updated_at", nullable (timeCol pg) c.updatedAt),
      ("last_message", .ofText (lastMessage db c.id)),
      ("unread_count", intCol (unreadCount db c.id u))]))

/-- `GET /api/chats` -/
def routeGetChats (pg : Pg) (env : Env) (uid : String) (db : Db) : Response :=
  answer (query env.first (selectChats pg uid) db)
    (arrayOf (pick [("id", "id"), ("type", "chat_type"), ("name", "name"),
      ("avatarUrl", "avatar_url"), ("lastMessage", "last_message"),
      ("unreadCount", "unread_count"), ("updatedAt", "updated_at")]))

def selectChat (pg : Pg) (chatId : Bytes) (db : Db) : Except SqlError (List Json) := do
  let id ← need .invalidUuid (PgDb.uuidBytes chatId)
  pure ((db.chats.select (fun c => c.id == id)).map (fun c =>
    .obj [("id", uuidCol c.id), ("chat_type", .str c.chatType.text), ("name", .ofText c.name),
      ("description", .ofText c.description), ("avatar_url", .ofText c.avatarUrl),
      ("created_at", nullable (timeCol pg) c.createdAt)]))

/-- `GET /api/chats/:id` -/
def routeGetChatInfo (pg : Pg) (env : Env) (uid : String) (chatId : Bytes) (db : Db) : Response :=
  answer (query env.first (selectMembership chatId uid) db) fun mem =>
    if mem.isEmpty then errorResp 403 "Not a member"
    else answer (query env.second (selectChat pg chatId) db) fun rows =>
      match rows with
      | [] => errorResp 404 "Chat not found"
      | c :: _ => jsonResp 200 (pick [("id", "id"), ("type", "chat_type"), ("name", "name"),
          ("description", "description"), ("avatarUrl", "avatar_url"),
          ("createdAt", "created_at")] c)

/-- The `before` bound of a page: the second of the two statements has it. -/
def beforeBound (pg : Pg) (now : Time) (before : Bytes) : Except SqlError (Option Time) :=
  if before = [] then pure none
  else do
    let s ← need .encoding (PgDb.text before)
    let t ← need .invalidTimestamp (pg.timestamptzIn now s)
    pure (some t)

/-- `created_at < $2`, where there is a bound. -/
def isBefore (bound createdAt : Option Time) : Bool :=
  match bound with
  | none => true
  | some t => createdAt.any (· < t)

/-- One page of a chat. -/
def messagePage (c : Uuid) (bound : Option Time) (db : Db) : List (Message × User) :=
  (orderBy (fun a b => newestMessage a.1 b.1)
    ((join (fun m u => m.senderId == some u.id) db.messages.rows db.users.rows).filter
      (fun p => p.1.chatId == c && p.1.isDeleted == some false &&
        isBefore bound p.1.createdAt))).take 50

def selectMessages (pg : Pg) (now : Time) (chatId before : Bytes) (db : Db) :
    Except SqlError (List Json) := do
  let c ← need .invalidUuid (PgDb.uuidBytes chatId)
  let bound ← beforeBound pg now before
  pure ((messagePage c bound db).map (fun p =>
    .obj [("id", uuidCol p.1.id), ("sender_id", nullable uuidCol p.1.senderId),
      ("content", .str p.1.content), ("content_type", .ofText p.1.contentType),
      ("is_edited", nullable boolCol p.1.isEdited), ("is_pinned", nullable boolCol p.1.isPinned),
      ("reply_to_id", nullable uuidCol p.1.replyToId),
      ("created_at", nullable (timeCol pg) p.1.createdAt),
      ("sender_username", .str p.2.username), ("sender_name", .ofText p.2.displayName),
      ("sender_avatar", .ofText p.2.avatarUrl)]))

/-- `GET /api/chats/:id/messages?before=...` -/
def routeGetMessages (pg : Pg) (env : Env) (uid : String) (chatId : Bytes)
    (before : Option Bytes) (db : Db) : Response :=
  answer (query env.first (selectMembership chatId uid) db) fun mem =>
    if mem.isEmpty then errorResp 403 "Not a member"
    else answer (query env.second (selectMessages pg env.now chatId (urlParam before)) db)
      (arrayOf (pick [("id", "id"), ("senderId", "sender_id"), ("senderName", "sender_name"),
        ("senderAvatar", "sender_avatar"), ("content", "content"), ("type", "content_type"),
        ("isEdited", "is_edited"), ("isPinned", "is_pinned"), ("replyToId", "reply_to_id"),
        ("createdAt", "created_at")]))

def selectMembers (pg : Pg) (chatId : Bytes) (db : Db) : Except SqlError (List Json) := do
  let c ← need .invalidUuid (PgDb.uuidBytes chatId)
  pure ((orderBy (fun a b => asc (fun x y => x ≤ y) a.1.joinedAt b.1.joinedAt)
    ((join (fun cm u => u.id == cm.userId) db.chatMembers.rows db.users.rows).filter
      (fun p => p.1.chatId == c && p.1.leftAt.isNone))).map (fun p =>
    .obj [("id", uuidCol p.2.id), ("username", .str p.2.username),
      ("display_name", .ofText p.2.displayName), ("avatar_url", .ofText p.2.avatarUrl),
      ("status", .ofText p.2.status), ("role", .str p.1.role),
      ("joined_at", nullable (timeCol pg) p.1.joinedAt)]))

/-- `GET /api/chats/:id/members`: for any caller. -/
def routeGetMembers (pg : Pg) (env : Env) (chatId : Bytes) (db : Db) : Response :=
  answer (query env.first (selectMembers pg chatId) db)
    (arrayOf (pick [("id", "id"), ("username", "username"), ("displayName", "display_name"),
      ("avatarUrl", "avatar_url"), ("status", "status"), ("role", "role"),
      ("joinedAt", "joined_at")]))

/-- The messages of `c` that match, newest first. -/
def messagesLike (pg : Pg) (c : Uuid) (like : String) (db : Db) : List Message :=
  (orderBy newestMessage (db.messages.select (fun m =>
    m.chatId == c && ilike pg m.content like && m.isDeleted == some false))).take 50

def selectMessagesLike (pg : Pg) (chatId q : Bytes) (db : Db) : Except SqlError (List Json) := do
  let c ← need .invalidUuid (PgDb.uuidBytes chatId)
  let like ← need .encoding (PgDb.text (likeBytes q))
  pure ((messagesLike pg c like db).map (fun m =>
    .obj [("id", uuidCol m.id), ("sender_id", nullable uuidCol m.senderId),
      ("content", .str m.content), ("created_at", nullable (timeCol pg) m.createdAt)]))

/-- `GET /api/chats/:id/search?q=...`: for any caller. -/
def routeSearchMessages (pg : Pg) (env : Env) (chatId : Bytes) (q : Option Bytes) (db : Db) :
    Response :=
  if urlParam q = [] then jsonResp 200 (.arr [])
  else answer (query env.first (selectMessagesLike pg chatId (urlParam q)) db) (arrayOf id)

/-! ## Contacts -/

def selectContacts (pg : Pg) (uid : String) (db : Db) : Except SqlError (List Json) := do
  let id ← need .invalidUuid (PgDb.uuid uid)
  pure ((orderBy (fun a b => pg.collate a.2.username b.2.username)
    ((join (fun c u => u.id == c.contactId) db.contacts.rows db.users.rows).filter
      (fun p => p.1.userId == id && p.1.isBlocked == some false))).map (fun p =>
    .obj [("id", uuidCol p.2.id), ("username", .str p.2.username),
      ("display_name", .ofText p.2.displayName), ("avatar_url", .ofText p.2.avatarUrl),
      ("status", .ofText p.2.status), ("nickname", .ofText p.1.nickname),
      ("is_favorite", nullable boolCol p.1.isFavorite)]))

/-- `GET /api/contacts` -/
def routeGetContacts (pg : Pg) (env : Env) (uid : String) (db : Db) : Response :=
  answer (query env.first (selectContacts pg uid) db)
    (arrayOf (pick [("id", "id"), ("username", "username"), ("displayName", "display_name"),
      ("avatarUrl", "avatar_url"), ("status", "status"), ("nickname", "nickname"),
      ("isFavorite", "is_favorite")]))

def selectContact (uid : String) (contactId : Bytes) (db : Db) : Except SqlError (List Json) := do
  let u ← need .invalidUuid (PgDb.uuid uid)
  let c ← need .invalidUuid (PgDb.uuidBytes contactId)
  pure ((db.contacts.select (fun r => r.userId == u && r.contactId == c)).map
    (fun _ => .obj [("?column?", .str "1")]))

/-- `GET /api/contacts/check/:id` -/
def routeCheckContact (env : Env) (uid : String) (contactId : Bytes) (db : Db) : Response :=
  answer (query env.first (selectContact uid contactId) db) fun rows =>
    jsonResp 200 (.obj [("isContact", .bool (!rows.isEmpty))])

def selectByPhone (pg : Pg) (phone : Bytes) (db : Db) : Except SqlError (List Json) := do
  let p ← need .encoding (PgDb.text phone)
  pure ((db.users.select (fun u => u.phoneNumber == some p && u.isDeleted == some false)).map
    (fun u => columns ["id", "username", "display_name", "avatar_url"] (userColumns pg u)))

/-- `GET /api/contacts/find-by-phone?phone=...` -/
def routeFindByPhone (pg : Pg) (env : Env) (phone : Option Bytes) (db : Db) : Response :=
  if urlParam phone = [] then errorResp 400 "phone required"
  else answer (query env.first (selectByPhone pg (urlParam phone)) db) fun rows =>
    match rows with
    | [] => errorResp 404 "User not found"
    | u :: _ => jsonResp 200 (pick [("id", "id"), ("username", "username"),
        ("displayName", "display_name"), ("avatarUrl", "avatar_url")] u)

/-! ## Channels -/

def channelColumns (c : Channel) : List (String × Json) :=
  [("id", uuidCol c.id), ("username", .str c.username), ("name", .str c.name),
   ("description", .ofText c.description), ("avatar_url", .ofText c.avatarUrl),
   ("is_public", boolCol c.isPublic), ("subscriber_count", intCol c.subscriberCount),
   ("owner_id", nullable uuidCol c.ownerId)]

/-- The public channels that match; the pattern of an empty `q` takes all. -/
def channelsLike (pg : Pg) (like : String) (db : Db) : List Channel :=
  (orderBy (fun a b => b.subscriberCount ≤ a.subscriberCount) (db.channels.select (fun c =>
    c.isPublic && (like == "%%" || ilike pg c.name like || ilike pg c.username like)))).take 50

def selectExplore (pg : Pg) (q : Bytes) (db : Db) : Except SqlError (List Json) := do
  let like ← need .encoding (PgDb.text (likeBytes q))
  pure ((channelsLike pg like db).map (fun c => columns ["id", "username", "name", "description",
    "avatar_url", "is_public", "subscriber_count"] (channelColumns c)))

/-- `GET /api/channels/explore?q=...` -/
def routeExploreChannels (pg : Pg) (env : Env) (q : Option Bytes) (db : Db) : Response :=
  answer (query env.first (selectExplore pg (urlParam q)) db) (arrayOf id)

def selectMyChannels (pg : Pg) (uid : String) (db : Db) : Except SqlError (List Json) := do
  let u ← need .invalidUuid (PgDb.uuid uid)
  pure ((orderBy (fun a b => pg.collate a.2.name b.2.name)
    ((join (fun cs c => c.id == cs.channelId) db.channelSubscribers.rows db.channels.rows).filter
      (fun p => p.1.userId == u))).map (fun p =>
    .obj [("id", uuidCol p.2.id), ("username", .str p.2.username), ("name", .str p.2.name),
      ("avatar_url", .ofText p.2.avatarUrl), ("role", .str p.1.role)]))

/-- `GET /api/channels/my` -/
def routeMyChannels (pg : Pg) (env : Env) (uid : String) (db : Db) : Response :=
  answer (query env.first (selectMyChannels pg uid) db) (arrayOf id)

def selectChannel (username : Bytes) (db : Db) : Except SqlError (List Json) := do
  let name ← need .encoding (PgDb.text username)
  pure ((db.channels.select (fun c => c.username == name)).map
    (fun c => .obj (channelColumns c)))

/-- `GET /api/channels/:username` -/
def routeGetChannel (env : Env) (username : Bytes) (db : Db) : Response :=
  answer (query env.first (selectChannel username) db) fun rows =>
    match rows with
    | [] => errorResp 404 "Channel not found"
    | c :: _ => jsonResp 200 c

/-- One page of a channel. -/
def postPage (ch : Uuid) (bound : Option Time) (db : Db) : List ChannelPost :=
  (orderBy (fun a b => desc (fun x y => x ≤ y) a.createdAt b.createdAt)
    (db.channelPosts.select (fun p => p.channelId == ch && isBefore bound p.createdAt))).take 30

def selectPosts (pg : Pg) (now : Time) (channelId before : Bytes) (db : Db) :
    Except SqlError (List Json) := do
  let ch ← need .invalidUuid (PgDb.uuidBytes channelId)
  let bound ← beforeBound pg now before
  pure ((postPage ch bound db).map (fun p =>
    .obj [("id", uuidCol p.id), ("channel_id", uuidCol p.channelId), ("content", .str p.content),
      ("media_urls", .ofText p.mediaUrls), ("is_paid", boolCol p.isPaid),
      ("created_at", nullable (timeCol pg) p.createdAt)]))

/-- `GET /api/channels/:id/posts?before=...` -/
def routeGetChannelPosts (pg : Pg) (env : Env) (channelId : Bytes) (before : Option Bytes)
    (db : Db) : Response :=
  answer (query env.first (selectPosts pg env.now channelId (urlParam before)) db) (arrayOf id)

/-! ## Routes -/

/-- `GET /health` -/
def routeHealth (env : Env) : Response :=
  jsonResp 200 (.obj [("status", .str (if env.connected then "ok" else "db_error")),
    ("db", .bool env.connected), ("ts", .num (unixSeconds env.now))])

/-- A GET request, by its route. -/
inductive GetRequest where
  | health
  | me
  | searchUsers (q : Option Bytes)
  | user (userId : Bytes)
  | chats
  | chatInfo (chatId : Bytes)
  | messages (chatId : Bytes) (before : Option Bytes)
  | members (chatId : Bytes)
  | searchMessages (chatId : Bytes) (q : Option Bytes)
  | chatSearchUsers (q : Option Bytes)
  | contacts
  | checkContact (contactId : Bytes)
  | findByPhone (phone : Option Bytes)
  | exploreChannels (q : Option Bytes)
  | myChannels
  | channel (username : Bytes)
  | channelPosts (channelId : Bytes) (before : Option Bytes)
deriving DecidableEq

/-- The answer to an authenticated caller. -/
def respond (pg : Pg) (env : Env) (uid : String) (r : GetRequest) (db : Db) : Response :=
  match r with
  | .health => routeHealth env
  | .me => routeGetMe pg env uid db
  | .searchUsers q => routeSearchUsers pg env uid q db
  | .user userId => routeGetUser pg env userId db
  | .chats => routeGetChats pg env uid db
  | .chatInfo chatId => routeGetChatInfo pg env uid chatId db
  | .messages chatId before => routeGetMessages pg env uid chatId before db
  | .members chatId => routeGetMembers pg env chatId db
  | .searchMessages chatId q => routeSearchMessages pg env chatId q db
  | .chatSearchUsers q => routeChatSearchUsers pg env uid q db
  | .contacts => routeGetContacts pg env uid db
  | .checkContact contactId => routeCheckContact env uid contactId db
  | .findByPhone phone => routeFindByPhone pg env phone db
  | .exploreChannels q => routeExploreChannels pg env q db
  | .myChannels => routeMyChannels pg env uid db
  | .channel username => routeGetChannel env username db
  | .channelPosts channelId before => routeGetChannelPosts pg env channelId before db

end MessengerBackend.Api
