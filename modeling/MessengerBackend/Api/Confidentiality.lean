/-
  What a GET request tells about the messages of a chat.

  * `Db.hide c`: the database without the messages of `c` and the reactions and deliveries
    that belong to them. Two databases that differ only there are `SameBut c`.
  * `Confidential pg c r`: to a caller who is not an active member of `c`, the request `r`
    answers the same in any two such databases.
  * `confidential_iff`: every request is, but a search in `c` itself. `routeSearchMessages`
    has no membership test, so whoever knows the id reads the messages (`search_discloses`).

  Each handler has a lemma `…_hide`: on the database without the messages it answers what it
  did. For most that is by definition, since they read other tables.
-/
import MessengerBackend.Api.Queries

namespace MessengerBackend

namespace Db

/-- The message is one of `c`. -/
def inChat (db : Db) (c messageId : Uuid) : Bool :=
  db.messages.rows.any (fun m => m.id == messageId && m.chatId == c)

/-- The database without what belongs to the messages of `c`. -/
def hide (c : Uuid) (db : Db) : Db :=
  { db with
    messages := db.messages.erase (fun m => m.chatId == c)
    messageDelivery := db.messageDelivery.erase (fun d => db.inChat c d.messageId)
    reactions := db.reactions.erase (fun r => db.inChat c r.messageId) }

end Db

namespace Api

open PgDb (need query query_congr query_ok)
open Select (join orderBy mem_join mem_orderBy filter_join_filter)
open Sql

/-- The databases differ at most in the messages of `c`. -/
def SameBut (c : Uuid) (db db' : Db) : Prop := db.hide c = db'.hide c

def Confidential (pg : Pg) (c : Uuid) (r : GetRequest) : Prop :=
  ∀ (env : Env) (uid : String) (u : Uuid) (db db' : Db), PgDb.uuid uid = some u →
    db.activeMember c u = false → SameBut c db db' →
    respond pg env uid r db = respond pg env uid r db'

/-- A search in `c` with a pattern that the database accepts. -/
def exposes (c : Uuid) : GetRequest → Bool
  | .searchMessages chatId q =>
      PgDb.uuidBytes chatId == some c && !(urlParam q).isEmpty &&
        (PgDb.text (likeBytes (urlParam q))).isSome
  | _ => false

/-! ## The statements without the messages of a chat -/

section Hide

variable {c c' u : Uuid} {db : Db}

/-- A WHERE clause on another chat selects what it did. -/
theorem select_messages_hide (hc : c' ≠ c) (p : Message → Bool)
    (hp : ∀ m, p m = true → m.chatId = c') :
    (db.hide c).messages.select p = db.messages.select p := by
  apply Table.select_erase_of_disjoint
  intro m _ hm
  rw [hp m hm]
  simpa using hc

theorem lastMessage_hide (hc : c' ≠ c) : lastMessage (db.hide c) c' = lastMessage db c' := by
  unfold lastMessage
  rw [select_messages_hide hc]
  intro m hm
  simp only [Bool.and_eq_true, beq_iff_eq] at hm
  exact hm.1

/-- A delivery of a message of another chat does not belong to `c`: ids are unique. -/
theorem inChat_of_mem {m : Message} (hm : m ∈ db.messages) (hc : m.chatId ≠ c) :
    db.inChat c m.id = false := by
  rw [Db.inChat, List.any_eq_false]
  intro m' hm' h
  simp only [Bool.and_eq_true, beq_iff_eq] at h
  have heq : m' = m := Table.eq_of_clash hm' hm (by simpa [Keyed.clash] using h.1)
  exact hc (heq ▸ h.2)

theorem unreadCount_hide (hc : c' ≠ c) : unreadCount (db.hide c) c' u = unreadCount db c' u := by
  unfold unreadCount
  congr 1
  apply filter_join_filter
  intro md _ msg hmsg hon hw
  simp only [Bool.and_eq_true, beq_iff_eq] at hon hw
  have hchat : msg.chatId ≠ c := hw.1.1 ▸ hc
  have hmine := inChat_of_mem hmsg hchat
  rw [← hon] at hmine
  exact ⟨by simpa using hmine, by simpa using hchat⟩

theorem messagePage_hide (hc : c' ≠ c) (bound : Option Time) :
    messagePage c' bound (db.hide c) = messagePage c' bound db := by
  let on (m : Message) (u : User) : Bool := m.senderId == some u.id
  let w (p : Message × User) : Bool :=
    p.1.chatId == c' && p.1.isDeleted == some false && isBefore bound p.1.createdAt
  have hdrop : (join on (db.messages.rows.filter (fun m => !(m.chatId == c)))
      (db.users.rows.filter (fun _ => true))).filter w =
      (join on db.messages.rows db.users.rows).filter w := by
    apply filter_join_filter
    intro m _ u _ _ hw
    simp only [w, Bool.and_eq_true, beq_iff_eq] at hw
    rw [hw.1.1]
    exact ⟨by simpa using hc, rfl⟩
  rw [List.filter_true] at hdrop
  unfold messagePage
  congr 2

theorem messagesLike_hide (hc : c' ≠ c) (pg : Pg) (like : String) :
    messagesLike pg c' like (db.hide c) = messagesLike pg c' like db := by
  unfold messagesLike
  rw [select_messages_hide hc]
  intro m hm
  simp only [Bool.and_eq_true, beq_iff_eq] at hm
  exact hm.1.1

/-- The chats of a caller are those it is an active member of. -/
theorem activeMember_of_mem_chatsOf {x : Chat} (hx : x ∈ chatsOf u db) :
    db.activeMember x.id u = true := by
  unfold chatsOf at hx
  obtain ⟨⟨x', cm⟩, hp, rfl⟩ := List.mem_map.mp hx
  have hp := mem_orderBy.mp (List.mem_of_mem_take hp)
  obtain ⟨hjoin, hw⟩ := List.mem_filter.mp hp
  obtain ⟨_, hcm, hon⟩ := mem_join.mp hjoin
  simp only [Bool.and_eq_true, beq_iff_eq] at hon hw
  rw [Db.activeMember, List.any_eq_true]
  exact ⟨cm, hcm, by simp [hon, hw]⟩

end Hide

/-! ## The handlers -/

section Handlers

variable {pg : Pg} {env : Env} {uid : String} {c u : Uuid} {db : Db}

theorem selectChats_hide (hu : PgDb.uuid uid = some u) (hm : db.activeMember c u = false) :
    selectChats pg uid (db.hide c) = selectChats pg uid db := by
  have hrows : ∀ x ∈ chatsOf u db,
      lastMessage (db.hide c) x.id = lastMessage db x.id ∧
        unreadCount (db.hide c) x.id u = unreadCount db x.id u := by
    intro x hx
    have hne : x.id ≠ c := by
      intro heq
      rw [← heq, activeMember_of_mem_chatsOf hx] at hm
      cases hm
    exact ⟨lastMessage_hide hne, unreadCount_hide hne⟩
  unfold selectChats
  rw [hu]
  show Except.ok ((chatsOf u db).map _) = Except.ok ((chatsOf u db).map _)
  congr 1
  apply List.map_congr_left
  intro x hx
  rw [(hrows x hx).1, (hrows x hx).2]

theorem routeGetChats_hide (hu : PgDb.uuid uid = some u) (hm : db.activeMember c u = false) :
    routeGetChats pg env uid (db.hide c) = routeGetChats pg env uid db := by
  unfold routeGetChats
  rw [query_congr (selectChats_hide hu hm)]

/-- The gate of a handler lets no row through for a caller who is not a member. -/
theorem selectMembership_eq_nil {chatId : Bytes} (hchat : PgDb.uuidBytes chatId = some c)
    (hu : PgDb.uuid uid = some u) (hm : db.activeMember c u = false) :
    selectMembership chatId uid db = .ok [] := by
  unfold selectMembership
  rw [hchat, hu]
  have hnone : db.chatMembers.select
      (fun m => m.chatId == c && m.userId == u && m.leftAt.isNone) = [] := by
    rw [Table.select, List.filter_eq_nil_iff]
    rw [Db.activeMember, List.any_eq_false] at hm
    exact hm
  show Except.ok ((db.chatMembers.select _).map _) = Except.ok []
  rw [hnone]
  rfl

/-- And some for one who is. -/
theorem selectMembership_of_member {chatId : Bytes} (hchat : PgDb.uuidBytes chatId = some c)
    (hu : PgDb.uuid uid = some u) (hm : db.activeMember c u = true) :
    ∃ mem, selectMembership chatId uid db = .ok mem ∧ mem.isEmpty = false := by
  obtain ⟨m, hm, hpair⟩ := List.any_eq_true.mp hm
  unfold selectMembership
  rw [hchat, hu]
  refine ⟨_, rfl, ?_⟩
  have hrow : m ∈ db.chatMembers.select
      (fun m => m.chatId == c && m.userId == u && m.leftAt.isNone) :=
    Table.mem_select.mpr ⟨hm, hpair⟩
  rw [List.isEmpty_eq_false_iff]
  exact fun hnil => List.ne_nil_of_mem hrow (List.map_eq_nil_iff.mp hnil)

theorem selectMessages_hide {chatId : Bytes} (hchat : PgDb.uuidBytes chatId ≠ some c)
    (now : Time) (before : Bytes) :
    selectMessages pg now chatId before (db.hide c) = selectMessages pg now chatId before db := by
  unfold selectMessages
  cases hid : PgDb.uuidBytes chatId with
  | none => rfl
  | some c' =>
      have hne : c' ≠ c := fun heq => hchat (heq ▸ hid)
      cases hbound : beforeBound pg now before with
      | error e => rfl
      | ok bound =>
          show Except.ok ((messagePage c' bound (db.hide c)).map _) =
            Except.ok ((messagePage c' bound db).map _)
          rw [messagePage_hide hne]

theorem routeGetMessages_hide (hu : PgDb.uuid uid = some u) (hm : db.activeMember c u = false)
    (chatId : Bytes) (before : Option Bytes) :
    routeGetMessages pg env uid chatId before (db.hide c) =
      routeGetMessages pg env uid chatId before db := by
  unfold routeGetMessages
  show answer (query env.first (selectMembership chatId uid) db) _ = _
  by_cases hchat : PgDb.uuidBytes chatId = some c
  · -- the first statement answers no row, so the second does not run
    cases hq : query env.first (selectMembership chatId uid) db with
    | error e => rfl
    | ok rows =>
        have hrows := query_ok hq
        rw [selectMembership_eq_nil hchat hu hm] at hrows
        rw [← Except.ok.inj hrows]
        rfl
  · rw [query_congr (selectMessages_hide hchat env.now (urlParam before))]

theorem selectMessagesLike_hide {chatId q : Bytes}
    (h : PgDb.uuidBytes chatId ≠ some c ∨ PgDb.text (likeBytes q) = none) :
    selectMessagesLike pg chatId q (db.hide c) = selectMessagesLike pg chatId q db := by
  unfold selectMessagesLike
  cases hid : PgDb.uuidBytes chatId with
  | none => rfl
  | some c' =>
      rcases h with hchat | htext
      · have hne : c' ≠ c := fun heq => hchat (heq ▸ hid)
        cases htext : PgDb.text (likeBytes q) with
        | none => rfl
        | some like =>
            show Except.ok ((messagesLike pg c' like (db.hide c)).map _) =
              Except.ok ((messagesLike pg c' like db).map _)
            rw [messagesLike_hide hne]
      · rw [htext]
        rfl

theorem routeSearchMessages_hide {chatId : Bytes} {q : Option Bytes}
    (h : exposes c (.searchMessages chatId q) = false) :
    routeSearchMessages pg env chatId q (db.hide c) = routeSearchMessages pg env chatId q db := by
  unfold routeSearchMessages
  split
  · rfl
  · rename_i hq
    rw [query_congr (selectMessagesLike_hide ?_)]
    by_cases hchat : PgDb.uuidBytes chatId = some c
    · right
      simpa [exposes, hchat, hq] using h
    · exact Or.inl hchat

/-- A request that does not search in `c` answers without the messages of `c`. -/
theorem respond_hide (hu : PgDb.uuid uid = some u) (hm : db.activeMember c u = false)
    {r : GetRequest} (hr : exposes c r = false) :
    respond pg env uid r (db.hide c) = respond pg env uid r db := by
  cases r with
  | chats => exact routeGetChats_hide hu hm
  | messages chatId before => exact routeGetMessages_hide hu hm chatId before
  | searchMessages chatId q => exact routeSearchMessages_hide hr
  | _ => rfl

end Handlers

/-! ## The search -/

/-- A chat with no members and a user. -/
def silentChat (c u : Uuid) : Db where
  users := ⟨[{ id := u, username := "eve", email := "eve@example.org" }],
    List.pairwise_singleton _ _⟩
  chats := ⟨[{ id := c, chatType := .group }], List.pairwise_singleton _ _⟩

/-- The same with one message. -/
def spokenChat (c u : Uuid) (content : String) : Db :=
  { silentChat c u with
    messages := ⟨[{ id := c, chatId := c, content := content, createdAt := some 0 }],
      List.pairwise_singleton _ _⟩ }

theorem sameBut_spoken (c u : Uuid) (content : String) :
    SameBut c (silentChat c u) (spokenChat c u content) := by
  have hempty : (spokenChat c u content).messages.erase (fun m => m.chatId == c) = .empty := by
    apply Table.ext
    simp [Table.erase, spokenChat]
  unfold SameBut
  show Db.hide c (silentChat c u) = { silentChat c u with
    messages := (spokenChat c u content).messages.erase (fun m => m.chatId == c) }
  rw [hempty]
  rfl

/-- The number of elements of an array. -/
def arrayLength : Json → Nat
  | .arr l => l.length
  | _ => 0

def calm : Env := ⟨0, true, .done, .done⟩

/-- A search in `c` finds the message, if it is there. -/
theorem arrayLength_search {pg : Pg} {uid : String} {c : Uuid} {chatId : Bytes}
    {q : Option Bytes} {like : String} (hchat : PgDb.uuidBytes chatId = some c)
    (hq : urlParam q ≠ []) (hlike : PgDb.text (likeBytes (urlParam q)) = some like) (db : Db) :
    arrayLength (respond pg calm uid (.searchMessages chatId q) db).body =
      (messagesLike pg c like db).length := by
  have hrows : selectMessagesLike pg chatId (urlParam q) db = .ok ((messagesLike pg c like db).map
      (fun m => .obj [("id", uuidCol m.id), ("sender_id", nullable uuidCol m.senderId),
        ("content", .str m.content), ("created_at", nullable (timeCol pg) m.createdAt)])) := by
    unfold selectMessagesLike
    rw [hchat, hlike]
    rfl
  show arrayLength (routeSearchMessages pg calm chatId q db).body = _
  unfold routeSearchMessages
  rw [if_neg hq]
  simp only [PgDb.query, calm, hrows, answer, arrayOf, jsonResp, arrayLength, List.length_map]

theorem not_confidential_of_exposes (pg : Pg) {c : Uuid} {r : GetRequest}
    (h : exposes c r = true) : ¬ Confidential pg c r := by
  intro hconf
  cases r with
  | searchMessages chatId q =>
      simp only [exposes, Bool.and_eq_true, beq_iff_eq, Option.isSome_iff_exists] at h
      obtain ⟨⟨hchat, hq⟩, like, hlike⟩ := h
      have hq : urlParam q ≠ [] := by simpa using hq
      obtain ⟨content, hcontent⟩ := exists_ilike pg hlike
      have heq := congrArg (fun x : Response => arrayLength x.body)
        (hconf calm (Uuid.uuidOut c) c _ _ (PgDb.uuid_uuidOut c) rfl (sameBut_spoken c c content))
      simp only [arrayLength_search hchat hq hlike] at heq
      have hfound : messagesLike pg c like (spokenChat c c content) =
          [{ id := c, chatId := c, content := content, createdAt := some 0 }] := by
        simp [messagesLike, spokenChat, Table.select, hcontent, orderBy]
      rw [hfound] at heq
      cases heq
  | _ => cases h

/-- A request keeps the messages of `c` from everyone but its members if and only if it is
    no search in `c`. -/
theorem confidential_iff (pg : Pg) (c : Uuid) (r : GetRequest) :
    Confidential pg c r ↔ exposes c r = false := by
  constructor
  · intro hconf
    by_contra h
    exact not_confidential_of_exposes pg (by simpa using h) hconf
  · intro hr env uid u db db' hu hm hsame
    have hm' : db'.activeMember c u = false := by
      have hmembers : (db.hide c).chatMembers = (db'.hide c).chatMembers :=
        congrArg Db.chatMembers hsame
      unfold Db.activeMember
      rw [show db'.chatMembers = db.chatMembers from hmembers.symm]
      exact hm
    calc respond pg env uid r db
        = respond pg env uid r (db.hide c) := (respond_hide hu hm hr).symm
      _ = respond pg env uid r (db'.hide c) := congrArg (respond pg env uid r) hsame
      _ = respond pg env uid r db' := respond_hide hu hm' hr

/-- No case folding. -/
def plainPg : Pg where
  lower := id
  lower_percent := rfl
  timestamptzOut _ := ""
  timestamptzIn _ _ := none
  collate _ _ := true
  yearAfter t := t

def eve : Uuid := .zero

def secretChat : Uuid := .repeated ⟨1, by decide⟩

/-- `GET /api/chats/11111111111111111111111111111111/search?q=h` -/
def searchSecret : GetRequest := .searchMessages (List.replicate 32 49) (some [104])

/-- Whoever searches a chat by its id learns whether a message contains the text. -/
theorem search_discloses : ¬ Confidential plainPg secretChat searchSecret := by
  intro hconf
  have heq := congrArg (fun x : Response => arrayLength x.body)
    (hconf calm (Uuid.uuidOut eve) eve (silentChat secretChat eve)
      (spokenChat secretChat eve "hi") (PgDb.uuid_uuidOut eve) (by decide) (by
        unfold SameBut
        decide))
  exact absurd heq (by decide)

end Api

end MessengerBackend
