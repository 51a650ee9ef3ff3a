/-
  The lists of members and of chats, in a database whose foreign keys hold.

  Each is a join of `chat_members` with the users or the chats that its rows point to. It shows
  a row once, and leaves none out, since what the row points to is there: `lists_members`,
  `lists_chats`. `Lists` says it of the JSON: each key of a map once, with what the map has
  there in the columns.
-/
import Mathlib.Data.List.Perm.Subperm
import MessengerBackend.Api.Confidentiality
import MessengerBackend.HttpApi.Integrity

namespace MessengerBackend.HttpApi

open Api
open PgDb (need)
open Select (join orderBy)
open Sql

/-! ## A list of a map -/

/-- Each key of the map once, under "id", with the columns of its value. -/
def Lists {α : Type} (rows : List Json) (cols : α → List (String × Json)) (m : Uuid → Option α) :
    Prop :=
  ∃ entries : List (Uuid × α), (entries.map Prod.fst).Nodup ∧
    (∀ k a, (k, a) ∈ entries ↔ m k = some a) ∧
    List.Forall₂ (fun (r : Json) e =>
      ∀ f ∈ ("id", uuidCol e.1) :: cols e.2, r.find f.1 = some f.2) rows entries

section Rows

variable {α ρ : Type} {l : List ρ} {cols : α → List (String × Json)} {m : Uuid → Option α}

/-- By the rows that it is made of. -/
theorem lists_of_rows (key : ρ → Uuid) (val : ρ → α) (shown : ρ → Json) (hrows : l.Nodup)
    (hkey : ∀ x ∈ l, ∀ y ∈ l, key x = key y → x = y)
    (hmem : ∀ k a, (∃ x ∈ l, key x = k ∧ val x = a) ↔ m k = some a)
    (hshown : ∀ x ∈ l, ∀ f ∈ ("id", uuidCol (key x)) :: cols (val x),
      (shown x).find f.1 = some f.2) :
    Lists (l.map shown) cols m := by
  refine ⟨l.map (fun x => (key x, val x)), ?_, fun k a => ?_, ?_⟩
  · rw [List.map_map]
    exact hrows.map_on hkey
  · rw [← hmem, List.mem_map]
    simp only [Prod.mk.injEq]
  · rw [List.forall₂_map_left_iff, List.forall₂_map_right_iff, List.forall₂_same]
    exact hshown

end Rows

section Membership

variable {pg : Pg} {db : Db} {c u : Uuid}

/-! ## The members of a chat -/

/-- The row of an active member. -/
def activeRow (db : Db) (c v : Uuid) : Option ChatMember :=
  (db.memberRow c v).filter (fun m => m.leftAt.isNone)

theorem activeRow_eq_some {m : ChatMember} {v : Uuid} : activeRow db c v = some m ↔
    m ∈ db.chatMembers ∧ m.chatId = c ∧ m.userId = v ∧ m.leftAt = none := by
  unfold activeRow
  rw [Option.filter_eq_some_iff, Option.isNone_iff_eq_none]
  constructor
  · rintro ⟨hrow, hleft⟩
    have hpair := List.find?_some hrow
    simp only [Bool.and_eq_true, beq_iff_eq] at hpair
    exact ⟨List.mem_of_find?_eq_some hrow, hpair.1, hpair.2, hleft⟩
  · rintro ⟨hm, rfl, rfl, hleft⟩
    refine ⟨?_, hleft⟩
    cases hrow : db.memberRow m.chatId m.userId with
    | none => exact absurd (by simp) (List.find?_eq_none.mp hrow m hm)
    | some m' =>
        have hpair := List.find?_some hrow
        have heq : m' = m := Table.eq_of_clash (List.mem_of_find?_eq_some hrow) hm hpair
        rw [heq]

theorem isSome_activeRow (db : Db) (c v : Uuid) : (activeRow db c v).isSome = db.activeMember c v := by
  rw [Db.activeMember_eq, activeRow]
  cases db.memberRow c v with
  | none => rfl
  | some m => cases hleft : m.leftAt <;> simp [Option.filter, hleft]

/-- The chat of a membership is there. -/
theorem exists_chat (hs : db.Integrity) (h : db.activeMember c u = true) : ∃ x ∈ db.chats, x.id = c := by
  rw [← isSome_activeRow] at h
  obtain ⟨m, hrow⟩ := Option.isSome_iff_exists.mp h
  obtain ⟨hmem, hchat, _⟩ := activeRow_eq_some.mp hrow
  exact hs.memberChat m hmem c (congrArg some hchat)

def memberRows (db : Db) (c : Uuid) : List (ChatMember × User) :=
  orderBy (fun a b => Select.asc (fun x y => x ≤ y) a.1.joinedAt b.1.joinedAt)
    ((join (fun cm u => u.id == cm.userId) db.chatMembers.rows db.users.rows).filter
      (fun p => p.1.chatId == c && p.1.leftAt.isNone))

theorem mem_memberRows {p : ChatMember × User} : p ∈ memberRows db c ↔
    activeRow db c p.1.userId = some p.1 ∧ p.2 ∈ db.users ∧ p.2.id = p.1.userId := by
  obtain ⟨m, x⟩ := p
  simp only [memberRows, Select.mem_orderBy, List.mem_filter, Select.mem_join, Bool.and_eq_true,
    beq_iff_eq, Option.isNone_iff_eq_none, activeRow_eq_some, Table.mem_iff, true_and]
  tauto

theorem nodup_memberRows (db : Db) (c : Uuid) : (memberRows db c).Nodup :=
  Select.nodup_orderBy _ ((Select.nodup_join _ (Table.nodup_rows (fun _ => by simp [Keyed.clash]) _)
    (Table.nodup_rows (fun _ => by simp [Keyed.clash]) _)).filter _)

/-- `role` and `joinedAt`. -/
def memberCols (pg : Pg) (m : ChatMember) : List (String × Json) :=
  [("role", .str m.role), ("joinedAt", nullable (timeCol pg) m.joinedAt)]

theorem user_unique {x y : User} (hx : x ∈ db.users) (hy : y ∈ db.users) (h : x.id = y.id) : x = y :=
  Table.eq_of_clash hx hy (by simp [Keyed.clash, h])

/-- A row of the response. -/
def memberShown (pg : Pg) (p : ChatMember × User) : Json :=
  pick [("id", "id"), ("username", "username"), ("displayName", "display_name"),
    ("avatarUrl", "avatar_url"), ("status", "status"), ("role", "role"), ("joinedAt", "joined_at")]
    (.obj [("id", uuidCol p.2.id), ("username", .str p.2.username),
      ("display_name", .ofText p.2.displayName), ("avatar_url", .ofText p.2.avatarUrl),
      ("status", .ofText p.2.status), ("role", .str p.1.role),
      ("joined_at", nullable (timeCol pg) p.1.joinedAt)])

/-- The list of members, for any caller. -/
theorem lists_members (hs : db.Integrity) {q : Api.Env} (hq : q.first = .done) {chatId : Bytes}
    (hc : PgDb.uuidBytes chatId = some c) (uid : String) :
    ∃ rows, respond pg q uid (.members chatId) db = jsonResp 200 (.arr rows) ∧
      Lists rows (memberCols pg) (activeRow db c) := by
  refine ⟨(memberRows db c).map (memberShown pg), ?_, lists_of_rows (fun p => p.2.id) Prod.fst
    (memberShown pg) (nodup_memberRows db c) (fun p hp p' hp' hid => ?_) (fun v m => ?_)
    (fun p hp f hf => ?_)⟩
  · simp only [respond, routeGetMembers, selectMembers, PgDb.query, hq, hc, need, answer, arrayOf,
      bind, Except.bind, pure, Except.pure, List.map_map]
    rfl
  · obtain ⟨hrow, hx, hxid⟩ := mem_memberRows.mp hp
    obtain ⟨hrow', hx', hxid'⟩ := mem_memberRows.mp hp'
    have huser : p.2 = p'.2 := user_unique hx hx' hid
    have hmember : p.1 = p'.1 := by
      rw [← hxid, hid, hxid', hrow'] at hrow
      exact (Option.some.inj hrow).symm
    exact Prod.ext hmember huser
  · constructor
    · rintro ⟨p, hp, rfl, rfl⟩
      obtain ⟨hrow, _, hxid⟩ := mem_memberRows.mp hp
      rw [hxid]
      exact hrow
    · intro hrow
      obtain ⟨hm, _, rfl, _⟩ := activeRow_eq_some.mp hrow
      obtain ⟨x, hx, hxid⟩ := hs.memberUser m hm m.userId rfl
      exact ⟨(m, x), mem_memberRows.mpr ⟨hrow, hx, hxid⟩, hxid, rfl⟩
  · simp only [memberCols, List.mem_cons, List.not_mem_nil, or_false] at hf
    rcases hf with rfl | rfl | rfl <;> rfl

/-! ## The chats of a user -/

/-- `type` and `name`. -/
def chatCols (x : Chat) : List (String × Json) :=
  [("type", .str x.chatType.text), ("name", .ofText x.name)]

/-- The chats that `u` is in. -/
def chatOf (db : Db) (u c : Uuid) : Option Chat :=
  if db.activeMember c u then db.chats.lookup Chat.id c else none

theorem isSome_chatOf (hs : db.Integrity) (c u : Uuid) :
    (chatOf db u c).isSome = db.activeMember c u := by
  unfold chatOf
  cases hm : db.activeMember c u with
  | false => rfl
  | true =>
      rw [if_pos rfl, Option.isSome_iff_ne_none]
      intro hnone
      obtain ⟨x, hx, hid⟩ := exists_chat hs hm
      exact Table.lookup_eq_none.mp hnone x hx hid

/-- At most as many as one page shows. -/
def FewChats (db : Db) (u : Uuid) : Prop :=
  (db.chatMembers.select (fun m => m.userId == u && m.leftAt.isNone)).length ≤ 100

def chatRows (db : Db) (u : Uuid) : List (Chat × ChatMember) :=
  orderBy (fun a b => Select.desc (fun x y => x ≤ y) a.1.updatedAt b.1.updatedAt)
    ((join (fun c cm => cm.chatId == c.id) db.chats.rows db.chatMembers.rows).filter
      (fun p => p.2.userId == u && p.2.leftAt.isNone))

theorem mem_chatRows {p : Chat × ChatMember} : p ∈ chatRows db u ↔
    p.1 ∈ db.chats ∧ activeRow db p.1.id u = some p.2 := by
  obtain ⟨x, m⟩ := p
  simp only [chatRows, Select.mem_orderBy, List.mem_filter, Select.mem_join, Bool.and_eq_true,
    beq_iff_eq, Option.isNone_iff_eq_none, activeRow_eq_some, Table.mem_iff]
  tauto

theorem nodup_chatRows (db : Db) (u : Uuid) : (chatRows db u).Nodup :=
  Select.nodup_orderBy _ ((Select.nodup_join _ (Table.nodup_rows (fun _ => by simp [Keyed.clash]) _)
    (Table.nodup_rows (fun _ => by simp [Keyed.clash]) _)).filter _)

theorem chat_unique {x y : Chat} (hx : x ∈ db.chats) (hy : y ∈ db.chats) (h : x.id = y.id) : x = y :=
  Table.eq_of_clash hx hy (by simp [Keyed.clash, h])

/-- A chat is there once, so the memberships bound the list. -/
theorem length_chatRows (h : FewChats db u) : (chatRows db u).length ≤ 100 := by
  have hnodup : ((chatRows db u).map Prod.snd).Nodup := by
    refine (nodup_chatRows db u).map_on (fun p hp p' hp' heq => Prod.ext ?_ heq)
    obtain ⟨hx, hrow⟩ := mem_chatRows.mp hp
    obtain ⟨hx', hrow'⟩ := mem_chatRows.mp hp'
    refine chat_unique hx hx' ?_
    rw [← (activeRow_eq_some.mp hrow).2.1, heq, (activeRow_eq_some.mp hrow').2.1]
  have hsub : (chatRows db u).map Prod.snd ⊆
      db.chatMembers.select (fun m => m.userId == u && m.leftAt.isNone) := by
    intro m hm
    obtain ⟨p, hp, rfl⟩ := List.mem_map.mp hm
    obtain ⟨hmem, _, huser, hleft⟩ := activeRow_eq_some.mp (mem_chatRows.mp hp).2
    exact Table.mem_select.mpr ⟨hmem, by simp [huser, hleft]⟩
  have hle := (List.Nodup.subperm hnodup hsub).length_le
  rw [List.length_map] at hle
  exact hle.trans h

/-- A row of the response. -/
def chatShown (pg : Pg) (u : Uuid) (db : Db) (p : Chat × ChatMember) : Json :=
  pick [("id", "id"), ("type", "chat_type"), ("name", "name"), ("avatarUrl", "avatar_url"),
    ("lastMessage", "last_message"), ("unreadCount", "unread_count"), ("updatedAt", "updated_at")]
    (.obj [("id", uuidCol p.1.id), ("chat_type", .str p.1.chatType.text), ("name", .ofText p.1.name),
      ("avatar_url", .ofText p.1.avatarUrl), ("updated_at", nullable (timeCol pg) p.1.updatedAt),
      ("last_message", .ofText (lastMessage db p.1.id)),
      ("unread_count", intCol (unreadCount db p.1.id u))])

/-- The list of the caller's chats. -/
theorem lists_chats {q : Api.Env} (hq : q.first = .done) {uid : String}
    (hu : PgDb.uuid uid = some u) (hfew : FewChats db u) :
    ∃ rows, respond pg q uid .chats db = jsonResp 200 (.arr rows) ∧
      Lists rows chatCols (chatOf db u) := by
  refine ⟨(chatRows db u).map (chatShown pg u db), ?_, lists_of_rows (fun p => p.1.id) Prod.fst
    (chatShown pg u db) (nodup_chatRows db u) (fun p hp p' hp' hid => ?_) (fun c x => ?_)
    (fun p hp f hf => ?_)⟩
  · have hall : chatsOf u db = (chatRows db u).map Prod.fst := by
      show ((chatRows db u).take 100).map Prod.fst = _
      rw [List.take_of_length_le (length_chatRows hfew)]
    simp only [respond, routeGetChats, selectChats, PgDb.query, hq, hu, need, answer, arrayOf,
      bind, Except.bind, pure, Except.pure, List.map_map, hall]
    rfl
  · obtain ⟨hx, hrow⟩ := mem_chatRows.mp hp
    obtain ⟨hx', hrow'⟩ := mem_chatRows.mp hp'
    rw [hid, hrow'] at hrow
    exact Prod.ext (chat_unique hx hx' hid) (Option.some.inj hrow).symm
  · unfold chatOf
    rw [← isSome_activeRow]
    constructor
    · rintro ⟨p, hp, rfl, rfl⟩
      obtain ⟨hx, hrow⟩ := mem_chatRows.mp hp
      rw [hrow, Option.isSome_some, if_pos rfl]
      exact Table.lookup_of_mem (fun _ _ => rfl) hx
    · intro h
      split at h
      · rename_i hsome
        obtain ⟨m, hrow⟩ := Option.isSome_iff_exists.mp hsome
        have hid : x.id = c := Table.key_of_lookup h
        rw [← hid] at hrow
        exact ⟨(x, m), mem_chatRows.mpr ⟨Table.mem_of_lookup h, hrow⟩, hid, rfl⟩
      · cases h
  · simp only [chatCols, List.mem_cons, List.not_mem_nil, or_false] at hf
    rcases hf with rfl | rfl | rfl <;> rfl

end Membership

end MessengerBackend.HttpApi
