/-
  Reading a chat or a channel page by page.

  `get_messages` answers with the 50 newest messages of a chat, `get_channel_posts` with the 30
  newest posts of a channel; with `before` only with those from earlier than that. A client
  passes the creation time of the last item it has been given. The comparison is strict, so of
  several messages with that time the ones behind the end of the page are lost, and the JOIN of
  `get_messages` drops every message without a sender.

  `paginates_iff`: a walk from page to page returns everything if and only if neither happens.
-/
import MessengerBackend.Lib.Keyset
import MessengerBackend.Api.Search

namespace MessengerBackend

/-- A time in an answer is read back as itself. -/
structure Pg.TimeSurvives (pg : Pg) (t : Time) : Prop where
  nonempty : pg.timestamptzOut t ≠ ""
  nul : ∀ c ∈ (pg.timestamptzOut t).toList, c ≠ '\x00'
  read : ∀ now, pg.timestamptzIn now (pg.timestamptzOut t) = some t

namespace Api

open PgDb (need)
open Select (join orderBy desc)
open Keyset (Sweep Straddled Descending)
open Sql

/-! ## The property -/

inductive Feed where
  | messages (chatId : Bytes)
  | channelPosts (channelId : Bytes)

namespace Feed

def request (before : Option Bytes) : Feed → GetRequest
  | messages chatId => .messages chatId before
  | channelPosts channelId => .channelPosts channelId before

/-- The LIMIT. -/
def size : Feed → Nat
  | messages _ => 50
  | channelPosts _ => 30

/-- Where an item has its creation time. -/
def stamp : Feed → String
  | messages _ => "createdAt"
  | channelPosts _ => "created_at"

/-- The posts of a channel. -/
def posts (channelId : Bytes) (db : Db) : List ChannelPost :=
  match PgDb.uuidBytes channelId with
  | none => []
  | some ch => db.channelPosts.select (fun p => p.channelId == ch)

/-- What is to be returned: ids and creation times. -/
def rows (db : Db) : Feed → List (Uuid × Time)
  | messages chatId => (chatMessages chatId db).map (fun m => (m.id, m.createdAt.getD 0))
  | channelPosts channelId => (posts channelId db).map (fun p => (p.id, p.createdAt.getD 0))

/-- All of it has a creation time. -/
def Dated (db : Db) : Feed → Prop
  | messages chatId => ∀ m ∈ chatMessages chatId db, m.createdAt.isSome = true
  | channelPosts channelId => ∀ p ∈ posts channelId db, p.createdAt.isSome = true

/-- The caller may read it. -/
def Readable (uid : String) (db : Db) : Feed → Prop
  | messages chatId => ∃ c u, PgDb.uuidBytes chatId = some c ∧ PgDb.uuid uid = some u ∧
      db.activeMember c u = true
  | channelPosts channelId => ∃ ch, PgDb.uuidBytes channelId = some ch

/-- Each message has the row of its sender. -/
def Sent (db : Db) : Feed → Prop
  | messages chatId => ∀ m ∈ chatMessages chatId db,
      db.users.rows.any (fun u => m.senderId == some u.id) = true
  | channelPosts _ => True

end Feed

/-- A client reads one page after the other, until an empty one: what it has been given. Each
    request finds the database as it is, at any time. -/
inductive Walk (fetch : Env → Option Bytes → Response) (stamp : String) :
    Option Bytes → List Json → Prop where
  | done (env : Env) {before : Option Bytes} : env.first = .done → env.second = .done →
      fetch env before = jsonResp 200 (.arr []) → Walk fetch stamp before []
  | page (env : Env) {before : Option Bytes} {items rest : List Json} {last : Json} {s : String} :
      env.first = .done → env.second = .done → fetch env before = jsonResp 200 (.arr items) →
      items.getLast? = some last → last.find stamp = some (.str s) →
      Walk fetch stamp (some (utf8 s)) rest → Walk fetch stamp before (items ++ rest)

/-- Every row once, newest first. -/
def ReturnsAll (rows : List (Uuid × Time)) (items : List Json) : Prop :=
  ∃ l, l.Perm rows ∧ Descending Prod.snd l ∧
    items.map (Json.find "id") = l.map (fun r => some (uuidCol r.1))

/-- The walk ends, and returns everything. -/
structure Paginates (pg : Pg) (uid : String) (db : Db) (f : Feed) : Prop where
  ends : ∃ items, Walk (fun env before => respond pg env uid (f.request before) db) f.stamp none
    items
  complete : ∀ items, Walk (fun env before => respond pg env uid (f.request before) db) f.stamp none
    items → ReturnsAll (f.rows db) items

/-! ## A walk is a sweep -/

/-- The pages of a list in order. -/
structure Serves {ρ : Type} (pg : Pg) (fetch : Env → Option Bytes → Response) (stamp : String)
    (n : Nat) (l : List ρ) (key : ρ → Time) (ident : ρ → Uuid) (shown : ρ → Json) : Prop where
  page : ∀ env before b, env.first = .done → env.second = .done →
    beforeBound pg env.now (urlParam before) = .ok b →
    fetch env before = jsonResp 200
      (.arr (((l.filter (fun x => isBefore b (some (key x)))).take n).map shown))
  stamped : ∀ x ∈ l, (shown x).find stamp = some (timeCol pg (key x))
  named : ∀ x ∈ l, (shown x).find "id" = some (uuidCol (ident x))
  sorted : Descending key l

section Walks

variable {ρ : Type} {pg : Pg} {fetch : Env → Option Bytes → Response} {stamp : String} {n : Nat}
  {l : List ρ} {key : ρ → Time} {ident : ρ → Uuid} {shown : ρ → Json}

theorem beforeBound_time {t : Time} (ht : pg.TimeSurvives t) (now : Time) :
    beforeBound pg now (urlParam (some (utf8 (pg.timestamptzOut t)))) = .ok (some t) := by
  have htext := PgDb.text_utf8 ht.nul
  have hbytes : urlParam (some (utf8 (pg.timestamptzOut t))) = utf8 (pg.timestamptzOut t) := by
    refine List.takeWhile_eq_self_iff.mpr (fun b hb => ?_)
    have hne : b ≠ 0 := by
      rintro rfl
      obtain ⟨c, hc, hval⟩ := mem_utf8 hb (by decide)
      exact ht.nul c hc (Char.toNat_inj.mp hval)
    simpa using hne
  have hne : utf8 (pg.timestamptzOut t) ≠ [] := fun h =>
    ht.nonempty (utf8_injective (h.trans rfl))
  unfold beforeBound
  rw [hbytes, if_neg hne, htext]
  simp only [need, bind, Except.bind, ht.read]
  rfl

/-- The rows below the last key of a page are those of the next one. -/
theorem filter_isBefore {b : Option Time} {x : ρ} (hx : isBefore b (some (key x)) = true) :
    (l.filter (fun a => isBefore b (some (key a)))).filter (fun a => key a < key x) =
      l.filter (fun a => isBefore (some (key x)) (some (key a))) := by
  rw [List.filter_filter]
  refine List.filter_congr (fun a _ => ?_)
  cases b with
  | none => simp [isBefore]
  | some t =>
      have hx : key x < t := by simpa [isBefore] using hx
      rw [Bool.eq_iff_iff]
      simp only [isBefore, Option.any_some, Bool.and_eq_true, decide_eq_true_eq]
      exact ⟨fun h => h.1, fun h => ⟨h, lt_trans h hx⟩⟩

theorem sweep_of_walk (hpg : ∀ x ∈ l, pg.TimeSurvives (key x))
    (h : Serves pg fetch stamp n l key ident shown) {before : Option Bytes} {items : List Json}
    (hw : Walk fetch stamp before items) :
    ∀ b, (∀ now, beforeBound pg now (urlParam before) = .ok b) →
      ∃ w, Sweep key n (l.filter (fun x => isBefore b (some (key x)))) w ∧
        items = w.map shown := by
  induction hw with
  | @done env before h₁ h₂ hfetch =>
      intro b hb
      rw [h.page env before b h₁ h₂ (hb _)] at hfetch
      have hnil := List.map_eq_nil_iff.mp (Json.arr.inj (congrArg Response.body hfetch))
      exact ⟨[], .done hnil, rfl⟩
  | @page env before items rest last s h₁ h₂ hfetch hlast hstamp _ ih =>
      intro b hb
      rw [h.page env before b h₁ h₂ (hb _)] at hfetch
      obtain rfl : _ = items := Json.arr.inj (congrArg Response.body hfetch)
      rw [List.getLast?_map, Option.map_eq_some_iff] at hlast
      obtain ⟨x, hx, rfl⟩ := hlast
      have hmem := List.mem_of_mem_take (List.mem_of_getLast? hx)
      obtain ⟨hxl, hxb⟩ := List.mem_filter.mp hmem
      rw [h.stamped x hxl] at hstamp
      obtain rfl : pg.timestamptzOut (key x) = s := Json.str.inj (Option.some.inj hstamp)
      obtain ⟨w, hsweep, hrest⟩ := ih (some (key x)) (beforeBound_time (hpg x hxl))
      rw [← filter_isBefore hxb] at hsweep
      exact ⟨_, .page hx hsweep, by rw [hrest, List.map_append]⟩

theorem walk_of_sweep (hpg : ∀ x ∈ l, pg.TimeSurvives (key x))
    (h : Serves pg fetch stamp n l key ident shown) {l' w : List ρ} (hw : Sweep key n l' w) :
    ∀ (b : Option Time) (before : Option Bytes),
      l' = l.filter (fun x => isBefore b (some (key x))) →
      (∀ now, beforeBound pg now (urlParam before) = .ok b) →
      Walk fetch stamp before (w.map shown) := by
  induction hw with
  | @done l' hnil =>
      rintro b before rfl hb
      refine .done calm rfl rfl ?_
      rw [h.page calm before b rfl rfl (hb _), hnil]
      rfl
  | @page l' w x hx _ ih =>
      rintro b before rfl hb
      have hmem := List.mem_of_mem_take (List.mem_of_getLast? hx)
      obtain ⟨hxl, hxb⟩ := List.mem_filter.mp hmem
      have hrest := ih (some (key x)) (some (utf8 (pg.timestamptzOut (key x))))
        (filter_isBefore hxb) (beforeBound_time (hpg x hxl))
      rw [List.map_append]
      refine .page calm rfl rfl (h.page calm before b rfl rfl (hb _)) ?_
        (h.stamped x hxl) hrest
      rw [List.getLast?_map, hx]
      rfl

/-- A walk returns everything if and only if the list is all of the rows and no group of equal
    keys straddles the end of a page. -/
theorem returnsAll_of_walk_iff (hpg : ∀ x ∈ l, pg.TimeSurvives (key x)) (hn : 0 < n)
    (h : Serves pg fetch stamp n l key ident shown) {rows : List (Uuid × Time)}
    (hsub : (l.map (fun x => (ident x, key x))).Subperm rows) :
    ((∃ items, Walk fetch stamp none items) ∧
        ∀ items, Walk fetch stamp none items → ReturnsAll rows items) ↔
      rows.length ≤ l.length ∧ ¬ Straddled Prod.snd n rows := by
  have hnone : ∀ now, beforeBound pg now (urlParam none) = .ok none := fun _ => rfl
  have hwhole : l.filter (fun x => isBefore none (some (key x))) = l :=
    List.filter_eq_self.mpr (fun _ _ => rfl)
  have hstraddle : rows.length ≤ l.length → (Straddled Prod.snd n rows ↔ Straddled key n l) := by
    intro hlen
    have hperm := hsub.perm_of_length_le (by rwa [List.length_map])
    exact (Keyset.straddled_perm hperm.symm).trans Keyset.straddled_map
  obtain ⟨w, hw⟩ := Keyset.exists_sweep key n l
  obtain ⟨hin, hall⟩ := Keyset.sweep_eq_iff hn h.sorted hw
  constructor
  · rintro ⟨_, hret⟩
    obtain ⟨rs, hperm, _, hids⟩ :=
      hret _ (walk_of_sweep hpg h hw none none hwhole.symm hnone)
    have hlen : rows.length = w.length := by
      have := congrArg List.length hids
      simp only [List.length_map] at this
      rw [this, hperm.length_eq]
    have hle : rows.length ≤ l.length := hlen ▸ hin.length_le
    have hge : l.length ≤ rows.length := by simpa using hsub.length_le
    refine ⟨hle, ?_⟩
    rw [hstraddle hle]
    exact hall.mp (hin.eq_of_length (by omega))
  · rintro ⟨hle, hno⟩
    rw [hstraddle hle] at hno
    refine ⟨⟨_, walk_of_sweep hpg h hw none none hwhole.symm hnone⟩, ?_⟩
    intro items hwalk
    obtain ⟨w', hw', rfl⟩ := sweep_of_walk hpg h hwalk none hnone
    rw [hwhole] at hw'
    obtain rfl : w' = l := (Keyset.sweep_eq_iff hn h.sorted hw').2.mpr hno
    refine ⟨_, hsub.perm_of_length_le (by rwa [List.length_map]), ?_, ?_⟩
    · exact List.pairwise_map.mpr h.sorted
    · rw [List.map_map, List.map_map]
      exact List.map_congr_left (fun x hx => h.named x hx)

end Walks

/-! ## The two statements -/

section Order

variable {ρ : Type} (stampOf : ρ → Option Time)

/-- `ORDER BY created_at DESC` -/
def newest (a b : ρ) : Bool := desc (fun x y => decide (x ≤ y)) (stampOf a) (stampOf b)

theorem newest_total (a b : ρ) : newest stampOf a b = true ∨ newest stampOf b a = true :=
  Select.desc_total (fun x y => by simpa using le_total x y) _ _

theorem newest_trans (a b c : ρ) (h : newest stampOf a b = true)
    (h' : newest stampOf b c = true) : newest stampOf a c = true :=
  Select.desc_trans (fun x y z hxy hyz => by
    simp only [decide_eq_true_eq] at hxy hyz ⊢
    exact le_trans hxy hyz) _ _ _ h h'

variable {stampOf} {xs : List ρ}

theorem isBefore_dated (hdated : ∀ x ∈ xs, (stampOf x).isSome = true) (b : Option Time) :
    ∀ x ∈ xs, isBefore b (stampOf x) = isBefore b (some ((stampOf x).getD 0)) := by
  intro x hx
  obtain ⟨t, ht⟩ := Option.isSome_iff_exists.mp (hdated x hx)
  rw [ht]
  rfl

theorem descending_orderBy (hdated : ∀ x ∈ xs, (stampOf x).isSome = true) :
    Descending (fun x => (stampOf x).getD 0) (orderBy (newest stampOf) xs) := by
  have hsorted := Select.pairwise_orderBy (newest_total stampOf) (newest_trans stampOf) xs
  refine hsorted.imp_of_mem (fun {a b} ha hb hab => ?_)
  obtain ⟨t, ht⟩ := Option.isSome_iff_exists.mp (hdated a (Select.mem_orderBy.mp ha))
  obtain ⟨t', ht'⟩ := Option.isSome_iff_exists.mp (hdated b (Select.mem_orderBy.mp hb))
  rw [newest, ht, ht'] at hab
  simpa [desc, ht, ht'] using hab

/-- The bound before the sort is the bound after it. -/
theorem orderBy_isBefore (hdated : ∀ x ∈ xs, (stampOf x).isSome = true) (b : Option Time) :
    orderBy (newest stampOf) (xs.filter (fun x => isBefore b (stampOf x))) =
      (orderBy (newest stampOf) xs).filter (fun x => isBefore b (some ((stampOf x).getD 0))) := by
  rw [List.filter_congr (isBefore_dated hdated b),
    Select.filter_orderBy (newest_total stampOf) (newest_trans stampOf)]

end Order

section Statements

variable {pg : Pg} {uid : String} {db : Db}

def postColumns (pg : Pg) (p : ChannelPost) : Json :=
  .obj [("id", uuidCol p.id), ("channel_id", uuidCol p.channelId), ("content", .str p.content),
    ("media_urls", .ofText p.mediaUrls), ("is_paid", boolCol p.isPaid),
    ("created_at", nullable (timeCol pg) p.createdAt)]

theorem serves_posts {channelId : Bytes} {ch : Uuid} (hch : PgDb.uuidBytes channelId = some ch)
    (hdated : ∀ p ∈ Feed.posts channelId db, p.createdAt.isSome = true) :
    Serves pg (fun env before => routeGetChannelPosts pg env channelId before db) "created_at" 30
      (orderBy (newest ChannelPost.createdAt) (Feed.posts channelId db))
      (fun p => p.createdAt.getD 0) ChannelPost.id (postColumns pg) where
  page := by
    intro env before b hfirst _ hb
    have hpage : postPage ch b db =
        ((orderBy (newest ChannelPost.createdAt) (Feed.posts channelId db)).filter
          (fun p => isBefore b (some (p.createdAt.getD 0)))).take 30 := by
      rw [← orderBy_isBefore hdated, Feed.posts, hch]
      unfold postPage Table.select
      rw [List.filter_filter]
      simp only [Bool.and_comm]
      rfl
    have hok : selectPosts pg env.now channelId (urlParam before) db =
        .ok ((postPage ch b db).map (postColumns pg)) := by
      simp only [selectPosts, hch, hb, need, bind, Except.bind]
      rfl
    simp only [routeGetChannelPosts, PgDb.query, hfirst, hok, answer, arrayOf, List.map_id, hpage]
  stamped := by
    intro p hp
    obtain ⟨t, ht⟩ := Option.isSome_iff_exists.mp (hdated p (Select.mem_orderBy.mp hp))
    rw [postColumns, ht]
    rfl
  named := fun _ _ => rfl
  sorted := descending_orderBy hdated

/-- A message beside the row of its sender, as the SELECT has it. -/
def messageColumns (pg : Pg) (p : Message × User) : Json :=
  .obj [("id", uuidCol p.1.id), ("sender_id", nullable uuidCol p.1.senderId),
    ("content", .str p.1.content), ("content_type", .ofText p.1.contentType),
    ("is_edited", nullable boolCol p.1.isEdited), ("is_pinned", nullable boolCol p.1.isPinned),
    ("reply_to_id", nullable uuidCol p.1.replyToId),
    ("created_at", nullable (timeCol pg) p.1.createdAt),
    ("sender_username", .str p.2.username), ("sender_name", .ofText p.2.displayName),
    ("sender_avatar", .ofText p.2.avatarUrl)]

/-- The answer of `get_messages` has it under these keys. -/
def messageShown (pg : Pg) (p : Message × User) : Json :=
  pick [("id", "id"), ("senderId", "sender_id"), ("senderName", "sender_name"),
    ("senderAvatar", "sender_avatar"), ("content", "content"), ("type", "content_type"),
    ("isEdited", "is_edited"), ("isPinned", "is_pinned"), ("replyToId", "reply_to_id"),
    ("createdAt", "created_at")] (messageColumns pg p)

/-- The JOIN of `get_messages`. -/
def sentMessages (chatId : Bytes) (db : Db) : List (Message × User) :=
  join (fun m u => m.senderId == some u.id) (chatMessages chatId db) db.users.rows

theorem dated_sentMessages {chatId : Bytes}
    (hdated : ∀ m ∈ chatMessages chatId db, m.createdAt.isSome = true) :
    ∀ p ∈ sentMessages chatId db, p.1.createdAt.isSome = true :=
  fun p hp => hdated p.1 (Select.mem_join.mp hp).1

/-- User ids are unique, so the JOIN drops the messages without a sender and repeats none. -/
theorem map_fst_sentMessages (chatId : Bytes) (db : Db) :
    (sentMessages chatId db).map Prod.fst =
      (chatMessages chatId db).filter
        (fun m => db.users.rows.any (fun u => m.senderId == some u.id)) := by
  refine Select.map_fst_join (fun m _ => ?_)
  refine Table.length_select_le_one (t := db.users) (fun u v hu hv => ?_)
  have hid : some u.id = some v.id := (beq_iff_eq.mp hu).symm.trans (beq_iff_eq.mp hv)
  simp [Keyed.clash, Option.some.inj hid]

theorem messagePage_eq {chatId : Bytes} {c : Uuid} (hc : PgDb.uuidBytes chatId = some c)
    (hdated : ∀ m ∈ chatMessages chatId db, m.createdAt.isSome = true) (b : Option Time) :
    messagePage c b db =
      ((orderBy (newest (fun p => p.1.createdAt)) (sentMessages chatId db)).filter
        (fun p => isBefore b (some (p.1.createdAt.getD 0)))).take 50 := by
  rw [← orderBy_isBefore (dated_sentMessages hdated)]
  have hwhere : sentMessages chatId db =
      (join (fun m u => m.senderId == some u.id) db.messages.rows db.users.rows).filter
        (fun p => p.1.chatId == c && p.1.isDeleted == some false) := by
    rw [sentMessages, chatMessages, hc]
    exact (Select.filter_join_fst _
      (fun m : Message => m.chatId == c && m.isDeleted == some false) _ _).symm
  rw [hwhere, List.filter_filter]
  unfold messagePage
  simp only [Bool.and_comm]
  rfl

variable (pg) in
theorem serves_messages {chatId : Bytes} {c u : Uuid} (hc : PgDb.uuidBytes chatId = some c)
    (hu : PgDb.uuid uid = some u) (hm : db.activeMember c u = true)
    (hdated : ∀ m ∈ chatMessages chatId db, m.createdAt.isSome = true) :
    Serves pg (fun env before => routeGetMessages pg env uid chatId before db) "createdAt" 50
      (orderBy (newest (fun p => p.1.createdAt)) (sentMessages chatId db))
      (fun p => p.1.createdAt.getD 0) (fun p => p.1.id) (messageShown pg) where
  page := by
    intro env before b hfirst hsecond hb
    obtain ⟨mem, hmember, hsome⟩ := selectMembership_of_member hc hu hm
    have hok : selectMessages pg env.now chatId (urlParam before) db =
        .ok ((messagePage c b db).map (messageColumns pg)) := by
      simp only [selectMessages, hc, hb, need, bind, Except.bind]
      rfl
    rw [messagePage_eq hc hdated] at hok
    simp only [routeGetMessages, PgDb.query, hfirst, hsecond, hmember, hok, answer, hsome,
      Bool.false_eq_true, if_false, arrayOf, List.map_map]
    rfl
  stamped := by
    intro p hp
    obtain ⟨t, ht⟩ := Option.isSome_iff_exists.mp
      (dated_sentMessages hdated p (Select.mem_orderBy.mp hp))
    have hcol : (messageShown pg p).find "createdAt" =
        some (nullable (timeCol pg) p.1.createdAt) := rfl
    rw [hcol, ht]
    rfl
  named := fun _ _ => rfl
  sorted := descending_orderBy (dated_sentMessages hdated)

/-! ## What is lost -/

/-- The rows that a feed may return are among those it is to return. -/
theorem subperm_sentMessages (chatId : Bytes) (db : Db) :
    ((orderBy (newest (fun p => p.1.createdAt)) (sentMessages chatId db)).map
      (fun p => (p.1.id, p.1.createdAt.getD 0))).Subperm ((Feed.messages chatId).rows db) := by
  have hperm : ((orderBy (newest (fun p => p.1.createdAt)) (sentMessages chatId db)).map
      (fun p => (p.1.id, p.1.createdAt.getD 0))).Perm
      (((sentMessages chatId db).map Prod.fst).map (fun m => (m.id, m.createdAt.getD 0))) := by
    rw [List.map_map]
    exact (List.perm_insertionSort _ _).map _
  refine hperm.subperm.trans ?_
  rw [map_fst_sentMessages]
  exact (List.filter_sublist.map _).subperm

theorem length_sentMessages {chatId : Bytes} :
    ((Feed.messages chatId).rows db).length ≤
        (orderBy (newest (fun p => p.1.createdAt)) (sentMessages chatId db)).length ↔
      (Feed.messages chatId).Sent db := by
  have hlen : (sentMessages chatId db).length = ((chatMessages chatId db).filter
      (fun m => db.users.rows.any (fun u => m.senderId == some u.id))).length := by
    rw [← map_fst_sentMessages, List.length_map]
  rw [orderBy, List.length_insertionSort, hlen, Feed.rows, List.length_map]
  constructor
  · intro h
    have hall := List.filter_sublist.eq_of_length_le h
    exact List.filter_eq_self.mp hall
  · intro h
    rw [List.filter_eq_self.mpr h]

/-- A walk through a chat or a channel returns everything once, newest first, if and only if each
    message has a sender and no items with one creation time begin before the end of a page and
    end behind it. -/
theorem paginates_iff (pg : Pg) (uid : String) (db : Db) (f : Feed) (hread : f.Readable uid db)
    (hdated : f.Dated db) (hpg : ∀ r ∈ f.rows db, pg.TimeSurvives r.2) :
    Paginates pg uid db f ↔ f.Sent db ∧ ¬ Straddled Prod.snd f.size (f.rows db) := by
  have hand : Paginates pg uid db f ↔ (∃ items, Walk (fun env before =>
      respond pg env uid (f.request before) db) f.stamp none items) ∧
      ∀ items, Walk (fun env before => respond pg env uid (f.request before) db) f.stamp none
        items → ReturnsAll (f.rows db) items :=
    ⟨fun h => ⟨h.ends, h.complete⟩, fun h => ⟨h.1, h.2⟩⟩
  rw [hand]
  cases f with
  | messages chatId =>
      obtain ⟨c, u, hc, hu, hm⟩ := hread
      have hsub := subperm_sentMessages chatId db
      rw [← length_sentMessages]
      refine returnsAll_of_walk_iff ?_ (by decide) (serves_messages pg hc hu hm hdated) hsub
      intro p hp
      exact hpg _ (hsub.subset (List.mem_map_of_mem hp))
  | channelPosts channelId =>
      obtain ⟨ch, hch⟩ := hread
      have hperm : ((orderBy (newest ChannelPost.createdAt) (Feed.posts channelId db)).map
          (fun p => (p.id, p.createdAt.getD 0))).Perm ((Feed.channelPosts channelId).rows db) :=
        (List.perm_insertionSort _ _).map _
      have hall : ((Feed.channelPosts channelId).rows db).length ≤
          (orderBy (newest ChannelPost.createdAt) (Feed.posts channelId db)).length ↔
          (Feed.channelPosts channelId).Sent db := by
        rw [← hperm.length_eq, List.length_map]
        exact iff_of_true (Nat.le_refl _) trivial
      rw [← hall]
      refine returnsAll_of_walk_iff ?_ (by decide) (serves_posts hch hdated) hperm.subperm
      intro p hp
      exact hpg _ (hperm.subset (List.mem_map_of_mem hp))

end Statements

/-! ## Two chats -/

/-- PostgreSQL's text of the seconds 0, 1 and 2, for a server in UTC. -/
def clockPg : Pg :=
  { plainPg with
    timestamptzOut := fun t =>
      if t = 0 then "1970-01-01 00:00:00+00"
      else if t = 1000000 then "1970-01-01 00:00:01+00"
      else "1970-01-01 00:00:02+00"
    timestamptzIn := fun _ s =>
      if s = "1970-01-01 00:00:00+00" then some 0
      else if s = "1970-01-01 00:00:01+00" then some 1000000
      else if s = "1970-01-01 00:00:02+00" then some 2000000
      else none }

theorem clockPg_survives {t : Time} (ht : t ∈ ([0, 1000000, 2000000] : List Time)) :
    clockPg.TimeSurvives t := by
  simp only [List.mem_cons, List.not_mem_nil, or_false] at ht
  rcases ht with rfl | rfl | rfl
  all_goals exact ⟨by decide, List.all_iff_forall_prop.mp (by decide), fun _ => by simp [clockPg]⟩

/-- Eve's chat. -/
def eveChat (messages : Table Message) : Db :=
  { silentChat secretChat eve with
    chatMembers := ⟨[{ chatId := secretChat, userId := eve }], List.pairwise_singleton _ _⟩
    messages }

/-- The `k`th message: two in the first second, and 25 in each one after it. -/
def line (sender : Option Uuid) (k : Nat) : Message :=
  { id := ⟨⟨k % 16, Nat.mod_lt k (by decide)⟩ ::
      List.replicate 31 ⟨k / 16 % 16, Nat.mod_lt (k / 16) (by decide)⟩, rfl⟩
    chatId := secretChat
    senderId := sender
    content := "hi"
    createdAt := some (((k + 23) / 25 : Nat) * 1000000) }

/-- 52 messages of Eve. -/
def talk : Table Message := ⟨(List.range 52).map (line (some eve)), by decide +kernel⟩

/-- One message of somebody who has been removed. -/
def orphan : Table Message := ⟨[line none 3], List.pairwise_singleton _ _⟩

/-- `GET /api/chats/11111111111111111111111111111111/messages` -/
def readByEve : Feed := .messages (List.replicate 32 49)

theorem readable_eveChat (messages : Table Message) :
    readByEve.Readable (Uuid.uuidOut eve) (eveChat messages) :=
  ⟨secretChat, eve, by decide, PgDb.uuid_uuidOut eve, rfl⟩

theorem survives_of_seconds {rows : List (Uuid × Time)}
    (h : ∀ r ∈ rows, r.2 ∈ ([0, 1000000, 2000000] : List Time)) :
    ∀ r ∈ rows, clockPg.TimeSurvives r.2 :=
  fun r hr => clockPg_survives (h r hr)

theorem dated_talk : ∀ m ∈ chatMessages (List.replicate 32 49) (eveChat talk),
    m.createdAt.isSome = true := by decide +kernel

theorem sent_talk : ∀ m ∈ chatMessages (List.replicate 32 49) (eveChat talk),
    (eveChat talk).users.rows.any (fun u => m.senderId == some u.id) = true := by decide +kernel

/-- A page of 50 and one of two. -/
theorem paginates_iff_talk :
    Paginates clockPg (Uuid.uuidOut eve) (eveChat talk) readByEve :=
  (paginates_iff clockPg (Uuid.uuidOut eve) (eveChat talk) readByEve (readable_eveChat _)
    dated_talk (survives_of_seconds (by decide +kernel))).mpr ⟨sent_talk, by decide +kernel⟩

/-- A message whose sender has been removed is on no page. -/
theorem message_lost :
    readByEve.Readable (Uuid.uuidOut eve) (eveChat orphan) ∧ readByEve.Dated (eveChat orphan) ∧
      (∀ r ∈ readByEve.rows (eveChat orphan), clockPg.TimeSurvives r.2) ∧
      readByEve.rows (eveChat orphan) = [((line none 3).id, 1000000)] ∧
      Walk (fun env before => respond clockPg env (Uuid.uuidOut eve) (readByEve.request before)
        (eveChat orphan)) readByEve.stamp none [] ∧
      ¬ Paginates clockPg (Uuid.uuidOut eve) (eveChat orphan) readByEve := by
  have hrows : readByEve.rows (eveChat orphan) = [((line none 3).id, 1000000)] := by
    decide +kernel
  have hdated : ∀ m ∈ chatMessages (List.replicate 32 49) (eveChat orphan),
      m.createdAt.isSome = true := by decide +kernel
  have hempty : sentMessages (List.replicate 32 49) (eveChat orphan) = [] := by decide +kernel
  have hserves := serves_messages clockPg (c := secretChat) (by decide)
    (PgDb.uuid_uuidOut eve) (by decide) hdated
  have hwalk : Walk (fun env before => respond clockPg env (Uuid.uuidOut eve)
      (readByEve.request before) (eveChat orphan)) readByEve.stamp none [] := by
    refine .done calm rfl rfl ?_
    have hpage := hserves.page calm none none rfl rfl rfl
    rw [hempty] at hpage
    exact hpage
  refine ⟨readable_eveChat _, hdated, survives_of_seconds (by decide +kernel), hrows, hwalk,
    fun hpages => ?_⟩
  obtain ⟨l, hperm, _, hids⟩ := hpages.complete [] hwalk
  rw [hrows] at hperm
  rw [List.perm_singleton.mp hperm] at hids
  cases hids

end Api

end MessengerBackend
