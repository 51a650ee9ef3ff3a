/-
  The PostgreSQL schema of `run_migrations`, as far as the handlers read or write it.

  One structure a table, one `Table` with the table's PRIMARY KEY and UNIQUE constraints, and
  `Db` with all of them. A nullable column is an `Option`. Timestamps are microseconds.
  Columns that no handler reads and no handler sets are left out, and so is the surrogate `id`
  of the tables whose rows are addressed by another key.

  `OtpCode.issue` is not a column: it numbers the `send-otp` upsert that wrote the row, so
  that the security statements can say which issuance a request used. No statement reads it.
-/
import MessengerBackend.Lib.Table
import MessengerBackend.PgDb

namespace MessengerBackend

/-- Microseconds since the epoch. -/
abbrev Time := Int

def unixSeconds (t : Time) : Int := t / 1000000

structure User where
  id : Uuid
  username : String
  email : String
  phoneNumber : Option String := none
  passwordHash : String := ""
  passwordSalt : String := ""
  displayName : Option String := none
  statusText : Option String := none
  avatarUrl : Option String := none
  bio : Option String := none
  status : Option String := some "offline"
  publicKey : String := ""
  isVerified : Option Bool := some false
  isDeleted : Option Bool := some false
  createdAt : Option Time := none
deriving DecidableEq

structure OtpCode where
  email : String
  codeHash : String
  attempts : Nat
  expiresAt : Time
  issue : Nat
deriving DecidableEq

/-- `CHECK (chat_type IN ('private', 'group', 'channel'))`. -/
inductive ChatType where
  | priv
  | group
  | channel
deriving DecidableEq

def ChatType.text : ChatType → String
  | .priv => "private"
  | .group => "group"
  | .channel => "channel"

structure Chat where
  id : Uuid
  chatType : ChatType
  name : Option String := none
  description : Option String := none
  avatarUrl : Option String := none
  createdBy : Option Uuid := none
  createdAt : Option Time := none
  updatedAt : Option Time := none
deriving DecidableEq

structure ChatMember where
  chatId : Uuid
  userId : Uuid
  role : String := "member"
  canAdmin : Bool := false
  joinedAt : Option Time := none
  leftAt : Option Time := none
  mutedUntil : Option Time := none
deriving DecidableEq

structure Message where
  id : Uuid
  chatId : Uuid
  senderId : Option Uuid := none
  replyToId : Option Uuid := none
  content : String
  contentType : Option String := some "text"
  isEdited : Option Bool := some false
  isPinned : Option Bool := some false
  isDeleted : Option Bool := some false
  createdAt : Option Time := none
deriving DecidableEq

structure MessageDelivery where
  messageId : Uuid
  recipientId : Uuid
  status : Option String := some "sent"
deriving DecidableEq

structure Reaction where
  messageId : Uuid
  userId : Uuid
  emoji : String
deriving DecidableEq

structure Contact where
  userId : Uuid
  contactId : Uuid
  nickname : Option String := none
  isFavorite : Option Bool := some false
  isBlocked : Option Bool := some false
deriving DecidableEq

structure Channel where
  id : Uuid
  username : String
  name : String
  description : Option String := none
  avatarUrl : Option String := none
  isPublic : Bool := true
  subscriberCount : Int := 0
  ownerId : Option Uuid := none
deriving DecidableEq

structure ChannelSubscriber where
  channelId : Uuid
  userId : Uuid
  role : String := "subscriber"
deriving DecidableEq

/-- `mediaUrls` is the text form of the array column; no handler sets it. -/
structure ChannelPost where
  id : Uuid
  channelId : Uuid
  authorId : Option Uuid := none
  content : String
  mediaUrls : Option String := some "{}"
  isPaid : Bool := false
  createdAt : Option Time := none
deriving DecidableEq

/-! ## Constraints -/

/-- Two NULLs do not clash in a UNIQUE column. -/
def sameNonNull (a b : Option String) : Bool := a.isSome && a == b

theorem sameNonNull_symm (a b : Option String) : sameNonNull a b = sameNonNull b a := by
  cases a <;> cases b <;> simp [sameNonNull, eq_comm]

instance : Keyed User where
  clash a b := a.id == b.id || a.username == b.username || a.email == b.email ||
    sameNonNull a.phoneNumber b.phoneNumber
  symm a b := by
    rw [Bool.beq_comm (a := a.id), Bool.beq_comm (a := a.username),
      Bool.beq_comm (a := a.email), sameNonNull_symm]

instance : Keyed OtpCode where
  clash a b := a.email == b.email
  symm _ _ := Bool.beq_comm

instance : Keyed Chat where
  clash a b := a.id == b.id
  symm _ _ := Bool.beq_comm

instance : Keyed ChatMember where
  clash a b := a.chatId == b.chatId && a.userId == b.userId
  symm a b := by rw [Bool.beq_comm (a := a.chatId), Bool.beq_comm (a := a.userId)]

instance : Keyed Message where
  clash a b := a.id == b.id
  symm _ _ := Bool.beq_comm

instance : Keyed MessageDelivery where
  clash a b := a.messageId == b.messageId && a.recipientId == b.recipientId
  symm a b := by
    rw [Bool.beq_comm (a := a.messageId), Bool.beq_comm (a := a.recipientId)]

instance : Keyed Reaction where
  clash a b := a.messageId == b.messageId && a.userId == b.userId && a.emoji == b.emoji
  symm a b := by
    rw [Bool.beq_comm (a := a.messageId), Bool.beq_comm (a := a.userId),
      Bool.beq_comm (a := a.emoji)]

instance : Keyed Contact where
  clash a b := a.userId == b.userId && a.contactId == b.contactId
  symm a b := by rw [Bool.beq_comm (a := a.userId), Bool.beq_comm (a := a.contactId)]

instance : Keyed Channel where
  clash a b := a.id == b.id || a.username == b.username
  symm a b := by rw [Bool.beq_comm (a := a.id), Bool.beq_comm (a := a.username)]

instance : Keyed ChannelSubscriber where
  clash a b := a.channelId == b.channelId && a.userId == b.userId
  symm a b := by rw [Bool.beq_comm (a := a.channelId), Bool.beq_comm (a := a.userId)]

instance : Keyed ChannelPost where
  clash a b := a.id == b.id
  symm _ _ := Bool.beq_comm

/-- The database. -/
structure Db where
  users : Table User := .empty
  otpCodes : Table OtpCode := .empty
  chats : Table Chat := .empty
  chatMembers : Table ChatMember := .empty
  messages : Table Message := .empty
  messageDelivery : Table MessageDelivery := .empty
  reactions : Table Reaction := .empty
  contacts : Table Contact := .empty
  channels : Table Channel := .empty
  channelSubscribers : Table ChannelSubscriber := .empty
  channelPosts : Table ChannelPost := .empty
deriving DecidableEq

namespace Db

/-- The foreign key `REFERENCES users(id)`. -/
def hasUser (db : Db) (u : Uuid) : Bool := db.users.rows.any (·.id == u)

/-- The foreign key `REFERENCES chats(id)`. -/
def hasChat (db : Db) (c : Uuid) : Bool := db.chats.rows.any (·.id == c)

/-- The foreign key `REFERENCES channels(id)`. -/
def hasChannel (db : Db) (ch : Uuid) : Bool := db.channels.rows.any (·.id == ch)

/-- A `chat_members` row of the pair. -/
def memberRow (db : Db) (c u : Uuid) : Option ChatMember :=
  db.chatMembers.rows.find? (fun m => m.chatId == c && m.userId == u)

/-- `u` has a `chat_members` row in `c` with `left_at` NULL. -/
def activeMember (db : Db) (c u : Uuid) : Bool :=
  db.chatMembers.rows.any (fun m => m.chatId == c && m.userId == u && m.leftAt.isNone)

/-- There is one row of the pair, so it decides. -/
theorem activeMember_eq (db : Db) (c u : Uuid) :
    db.activeMember c u = (db.memberRow c u).any (fun m => m.leftAt.isNone) := by
  unfold activeMember memberRow
  cases hrow : db.chatMembers.rows.find? (fun m => m.chatId == c && m.userId == u) with
  | none =>
      rw [List.find?_eq_none] at hrow
      rw [Option.any_none, List.any_eq_false]
      intro m hm h
      rw [Bool.and_eq_true] at h
      exact hrow m hm h.1
  | some m =>
      have hmem := List.mem_of_find?_eq_some hrow
      have hpair := List.find?_some hrow
      simp only [Bool.and_eq_true, beq_iff_eq] at hpair
      rw [Option.any_some, Bool.eq_iff_iff, List.any_eq_true]
      constructor
      · rintro ⟨m', hm', h⟩
        simp only [Bool.and_eq_true, beq_iff_eq] at h
        have heq : m' = m := Table.eq_of_clash hm' hmem (by simp [Keyed.clash, h, hpair])
        rw [← heq]
        exact h.2
      · intro h
        exact ⟨m, hmem, by simp [hpair, h]⟩

end Db

end MessengerBackend
