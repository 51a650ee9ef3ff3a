/-
  The four searches: which rows does a query find?

  A handler puts '%' on both sides of `q` and escapes nothing, so a '%', a '_' or a '\' in `q`
  is read as part of the pattern. `search_literal_iff`: over every database a query finds the
  rows that contain it, as far as the LIMIT goes, if and only if none of the three is in it
  (or it cannot match at all, because a column is too short or an id is none).

  The query here is what the handler reads, the C string of the parameter.
-/
import Mathlib.Data.Bool.AllAny
import MessengerBackend.Api.Confidentiality

namespace MessengerBackend

/-- The searched columns within `VARCHAR(n)`. -/
structure Db.Fits (db : Db) : Prop where
  username : ∀ u ∈ db.users, u.username.length ≤ 255
  displayName : ∀ u ∈ db.users, ∀ s ∈ u.displayName, s.length ≤ 100
  channelName : ∀ c ∈ db.channels, c.name.length ≤ 255
  channelUsername : ∀ c ∈ db.channels, c.username.length ≤ 64

namespace Api

open PgDb (need)
open Select (orderBy)
open Sql

/-! ## The property -/

/-- A row that a search is about: the columns it looks into, and what the answer has for it. -/
structure Candidate where
  texts : List String
  shown : Json

/-- The searches. -/
inductive Endpoint where
  | searchUsers
  | chatSearchUsers
  | searchMessages (chatId : Bytes)
  | exploreChannels

namespace Endpoint

def request (q : Option Bytes) : Endpoint → GetRequest
  | searchUsers => .searchUsers q
  | chatSearchUsers => .chatSearchUsers q
  | searchMessages chatId => .searchMessages chatId q
  | exploreChannels => .exploreChannels q

def limit : Endpoint → Nat
  | searchUsers | chatSearchUsers => 20
  | searchMessages _ | exploreChannels => 50

/-- The longest of the searched columns; TEXT has no bound. -/
def width : Endpoint → Option Nat
  | searchMessages _ => none
  | _ => some 255

/-- An id among the parameters is none. -/
def malformed (uid : String) : Endpoint → Prop
  | searchUsers | chatSearchUsers => PgDb.uuid uid = none
  | searchMessages chatId => PgDb.uuidBytes chatId = none
  | exploreChannels => False

end Endpoint

def userCandidate (pg : Pg) (names : List String) (keys : List (String × String)) (u : User) :
    Candidate :=
  ⟨u.username :: u.displayName.toList, pick keys (columns names (userColumns pg u))⟩

def messageCandidate (pg : Pg) (m : Message) : Candidate :=
  ⟨[m.content], .obj [("id", uuidCol m.id), ("sender_id", nullable uuidCol m.senderId),
    ("content", .str m.content), ("created_at", nullable (timeCol pg) m.createdAt)]⟩

def channelCandidate (c : Channel) : Candidate :=
  ⟨[c.name, c.username], columns ["id", "username", "name", "description", "avatar_url",
    "is_public", "subscriber_count"] (channelColumns c)⟩

/-- The other users. -/
def otherUsers (uid : String) (db : Db) : List User :=
  match PgDb.uuid uid with
  | none => []
  | some id => db.users.select (fun u => u.isDeleted == some false && u.id != id)

/-- The messages of a chat. -/
def chatMessages (chatId : Bytes) (db : Db) : List Message :=
  match PgDb.uuidBytes chatId with
  | none => []
  | some c => db.messages.select (fun m => m.chatId == c && m.isDeleted == some false)

/-- The rows that may be returned. -/
def Endpoint.candidates (pg : Pg) (uid : String) (db : Db) : Endpoint → List Candidate
  | searchUsers => (otherUsers uid db).map (userCandidate pg
      ["id", "username", "display_name", "avatar_url", "status"]
      [("id", "id"), ("username", "username"), ("displayName", "display_name"),
        ("avatarUrl", "avatar_url"), ("status", "status")])
  | chatSearchUsers => (otherUsers uid db).map (userCandidate pg
      ["id", "username", "display_name", "avatar_url"]
      [("id", "id"), ("username", "username"), ("displayName", "display_name"),
        ("avatarUrl", "avatar_url")])
  | searchMessages chatId => (chatMessages chatId db).map (messageCandidate pg)
  | exploreChannels => (db.channels.select Channel.isPublic).map channelCandidate

/-- `q` is in the text, upper and lower case alike. -/
def contains (pg : Pg) (q : Bytes) (s : String) : Bool :=
  match PgDb.text q with
  | none => false
  | some t => decide (t.toList.map pg.lower <:+: s.toList.map pg.lower)

def Candidate.hit (pg : Pg) (q : Bytes) (c : Candidate) : Bool := c.texts.any (contains pg q)

/-- The array in an answer. -/
def items (r : Response) : List Json :=
  match r.body with
  | .arr js => js
  | _ => []

/-- What is returned contains the query, and what contains it is returned within the LIMIT. -/
structure Literal (rows : List Candidate) (hit : Candidate → Bool) (limit : Nat)
    (found : List Json) : Prop where
  sound : ∀ j ∈ found, ∃ c ∈ rows, hit c = true ∧ c.shown = j
  complete : (rows.filter hit).length ≤ limit → ∀ c ∈ rows, hit c = true → c.shown ∈ found

/-- So many characters has the shortest text that the pattern of `t` matches. -/
def shortest (t : String) : Nat :=
  ((Like.parse wild (Like.around wild t.toList)).map Like.breadth).getD 0

/-- The queries that are searched for literally. -/
def Endpoint.TakenLiterally (e : Endpoint) (uid : String) (q : Bytes) : Prop :=
  e.malformed uid ∨ ∀ t, PgDb.text q = some t →
    (∀ c ∈ t.toList, ¬ wild.Special c) ∨ ∃ n, e.width = some n ∧ n < shortest t

/-! ## What a search returns -/

theorem literal_of_agree {rows l : List Candidate} {accept hit : Candidate → Bool} {limit : Nat}
    (h : ∀ c ∈ rows, accept c = hit c) (hl : l.Perm (rows.filter accept)) :
    Literal rows hit limit ((l.take limit).map Candidate.shown) := by
  have hsame : rows.filter accept = rows.filter hit := List.filter_congr h
  rw [hsame] at hl
  refine ⟨?_, ?_⟩
  · intro j hj
    obtain ⟨c, hc, rfl⟩ := List.mem_map.mp hj
    have hmem := hl.mem_iff.mp (List.mem_of_mem_take hc)
    exact ⟨c, (List.mem_filter.mp hmem).1, (List.mem_filter.mp hmem).2, rfl⟩
  · intro hfew c hc hhit
    rw [List.take_of_length_le (hl.length_eq ▸ hfew)]
    exact List.mem_map_of_mem (hl.mem_iff.mpr (List.mem_filter.mpr ⟨hc, hhit⟩))

section Respond

variable {pg : Pg} {env : Env} {uid : String} {db : Db} {v : Option Bytes} {like : String}

/-- The WHERE of a search is the rows it is about and the pattern. -/
theorem filter_candidates {α : Type} [Keyed α] {t : Table α} {eligible full : α → Bool}
    {accept : Candidate → Bool} {f : α → Candidate}
    (h : ∀ a, full a = (eligible a && accept (f a))) :
    (t.select full).map f = ((t.select eligible).map f).filter accept := by
  unfold Table.select
  rw [List.filter_map, List.filter_filter]
  congr 1
  exact List.filter_congr (fun a _ => (h a).trans (Bool.and_comm _ _))

/-- The pattern on one of the columns. -/
def Candidate.accepted (pg : Pg) (like : String) (c : Candidate) : Bool :=
  c.texts.any (fun s => ilike pg s like)

theorem likesUser (names : List String) (keys : List (String × String)) (id : Uuid) (u : User) :
    ((ilike pg u.username like || ilikeNull pg u.displayName like) &&
        u.isDeleted == some false && u.id != id) =
      ((u.isDeleted == some false && u.id != id) &&
        (userCandidate pg names keys u).accepted pg like) := by
  unfold Candidate.accepted userCandidate ilikeNull
  cases u.displayName <;>
    simp only [Option.any, Option.toList, List.any_cons, List.any_nil, Bool.or_false] <;>
    rw [Bool.and_comm (u.isDeleted == some false && u.id != id), Bool.and_assoc]

theorem items_answer {rows : List Json} {sel : Db → Except SqlError (List Json)}
    (hdone : env.first = .done) (h : sel db = .ok rows) (f : Json → Json) :
    items (answer (PgDb.query env.first sel db) (arrayOf f)) = rows.map f := by
  simp only [PgDb.query, hdone, h, answer, arrayOf, jsonResp, items]

theorem items_refused {e : SqlError} {sel : Db → Except SqlError (List Json)}
    (hdone : env.first = .done) (h : sel db = .error e) (k : List Json → Response) :
    items (answer (PgDb.query env.first sel db) k) = [] := by
  simp only [PgDb.query, hdone, h, answer]
  rfl

/-- The array is a part, within the LIMIT, of the rows that match the pattern. -/
def Found (pg : Pg) (like : String) (rows : List Candidate) (limit : Nat) (found : List Json) :
    Prop :=
  ∃ l : List Candidate, l.Perm (rows.filter (Candidate.accepted pg like)) ∧
    found = (l.take limit).map Candidate.shown

theorem found_nil (pg : Pg) (like : String) (limit : Nat) : Found pg like [] limit [] :=
  ⟨[], List.Perm.refl _, by simp⟩

/-- Either user search. -/
theorem found_users (hdone : env.first = .done)
    (hlike : PgDb.text (likeBytes (urlParam v)) = some like) (names : List String)
    (keys : List (String × String)) :
    Found pg like ((otherUsers uid db).map (userCandidate pg names keys)) 20
      (items (answer (PgDb.query env.first (selectUsersLike pg names (urlParam v) uid) db)
        (arrayOf (pick keys)))) := by
  unfold otherUsers
  cases hid : PgDb.uuid uid with
  | none =>
      have herr : selectUsersLike pg names (urlParam v) uid db = .error .invalidUuid := by
        simp only [selectUsersLike, usersLike, hlike, hid, need, bind, Except.bind]
        rfl
      rw [items_refused hdone herr]
      exact found_nil pg like 20
  | some id =>
      let full : User → Bool := fun u =>
        (ilike pg u.username like || ilikeNull pg u.displayName like) &&
          u.isDeleted == some false && u.id != id
      have hok : selectUsersLike pg names (urlParam v) uid db =
          .ok (((db.users.select full).take 20).map (fun u => columns names (userColumns pg u))) := by
        simp only [selectUsersLike, usersLike, hlike, hid, need, bind, Except.bind]
        rfl
      rw [items_answer hdone hok]
      refine ⟨(db.users.select full).map (userCandidate pg names keys), ?_, ?_⟩
      · rw [filter_candidates (likesUser names keys id)]
      · rw [← List.map_take, List.map_map, List.map_map]
        rfl

theorem found_messages {chatId : Bytes} (hdone : env.first = .done) (hq : urlParam v ≠ [])
    (hlike : PgDb.text (likeBytes (urlParam v)) = some like) :
    Found pg like ((chatMessages chatId db).map (messageCandidate pg)) 50
      (items (routeSearchMessages pg env chatId v db)) := by
  unfold chatMessages routeSearchMessages
  rw [if_neg hq]
  cases hid : PgDb.uuidBytes chatId with
  | none =>
      have herr : selectMessagesLike pg chatId (urlParam v) db = .error .invalidUuid := by
        simp only [selectMessagesLike, hid, need, bind, Except.bind]
      rw [items_refused hdone herr]
      exact found_nil pg like 50
  | some c =>
      have hok : selectMessagesLike pg chatId (urlParam v) db =
          .ok ((messagesLike pg c like db).map (fun m => (messageCandidate pg m).shown)) := by
        simp only [selectMessagesLike, hlike, hid, need, bind, Except.bind]
        rfl
      rw [items_answer hdone hok, List.map_id]
      refine ⟨(orderBy newestMessage (db.messages.select (fun m => m.chatId == c &&
        ilike pg m.content like && m.isDeleted == some false))).map (messageCandidate pg), ?_, ?_⟩
      · refine ((List.perm_insertionSort _ _).map _).trans (List.Perm.of_eq ?_)
        refine filter_candidates (fun m => ?_)
        simp only [messageCandidate, Candidate.accepted, List.any_cons, List.any_nil,
          Bool.or_false]
        rw [Bool.and_assoc, Bool.and_assoc, Bool.and_comm (ilike pg m.content like)]
      · rw [← List.map_take, List.map_map]
        rfl

theorem ne_percents (hq : urlParam v ≠ [])
    (hlike : PgDb.text (likeBytes (urlParam v)) = some like) : like ≠ "%%" := by
  rintro rfl
  obtain ⟨t, ht, heq⟩ := text_likeBytes.mp hlike
  have hempty : t.toList = [] := by
    have hlen := congrArg List.length heq
    have htwo : ("%%" : String).toList.length = 2 := by decide
    rw [htwo, Like.around, List.length_cons, List.length_append, List.length_singleton] at hlen
    exact List.length_eq_zero_iff.mp (by omega)
  refine hq ?_
  rw [← PgDb.utf8_of_text ne_zero_of_mem_urlParam ht, utf8_eq_flatMap, hempty]
  rfl

theorem found_channels (hdone : env.first = .done) (hq : urlParam v ≠ [])
    (hlike : PgDb.text (likeBytes (urlParam v)) = some like) :
    Found pg like ((db.channels.select Channel.isPublic).map channelCandidate) 50
      (items (routeExploreChannels pg env v db)) := by
  have hok : selectExplore pg (urlParam v) db =
      .ok ((channelsLike pg like db).map (fun c => (channelCandidate c).shown)) := by
    simp only [selectExplore, hlike, need, bind, Except.bind]
    rfl
  unfold routeExploreChannels
  rw [items_answer hdone hok, List.map_id]
  refine ⟨(orderBy (fun a b => b.subscriberCount ≤ a.subscriberCount) (db.channels.select (fun c =>
    c.isPublic && (like == "%%" || ilike pg c.name like || ilike pg c.username like)))).map
      channelCandidate, ?_, ?_⟩
  · refine ((List.perm_insertionSort _ _).map _).trans (List.Perm.of_eq ?_)
    refine filter_candidates (fun c => ?_)
    have hsome : (like == "%%") = false := beq_eq_false_iff_ne.mpr (ne_percents hq hlike)
    simp only [channelCandidate, Candidate.accepted, List.any_cons, List.any_nil, Bool.or_false,
      hsome, Bool.false_or]
  · rw [← List.map_take, List.map_map]
    rfl

variable (pg uid db) in
/-- Any of the four. -/
theorem found_respond (e : Endpoint) (hdone : env.first = .done) (hq : urlParam v ≠ [])
    (hlike : PgDb.text (likeBytes (urlParam v)) = some like) :
    Found pg like (e.candidates pg uid db) e.limit (items (respond pg env uid (e.request v) db)) := by
  cases e with
  | searchUsers =>
      simp only [Endpoint.request, respond, routeSearchUsers, if_neg hq]
      exact found_users hdone hlike _ _
  | chatSearchUsers => exact found_users hdone hlike _ _
  | searchMessages chatId => exact found_messages hdone hq hlike
  | exploreChannels => exact found_channels hdone hq hlike

/-- A parameter that is no text is an error of the statement. -/
theorem items_respond_none (e : Endpoint) (hdone : env.first = .done) (hq : urlParam v ≠ [])
    (hlike : PgDb.text (likeBytes (urlParam v)) = none) :
    items (respond pg env uid (e.request v) db) = [] := by
  cases e with
  | searchUsers =>
      simp only [Endpoint.request, respond, routeSearchUsers, if_neg hq]
      refine items_refused (e := .encoding) hdone ?_ _
      simp only [selectUsersLike, usersLike, hlike, need, bind, Except.bind]
      rfl
  | chatSearchUsers =>
      refine items_refused (e := .encoding) hdone ?_ _
      simp only [selectUsersLike, usersLike, hlike, need, bind, Except.bind]
      rfl
  | searchMessages chatId =>
      simp only [Endpoint.request, respond, routeSearchMessages, if_neg hq]
      cases hid : PgDb.uuidBytes chatId with
      | none =>
          refine items_refused (e := .invalidUuid) hdone ?_ _
          simp only [selectMessagesLike, hid, need, bind, Except.bind]
      | some c =>
          refine items_refused (e := .encoding) hdone ?_ _
          simp only [selectMessagesLike, hid, hlike, need, bind, Except.bind]
  | exploreChannels =>
      refine items_refused (e := .encoding) hdone ?_ _
      simp only [selectExplore, hlike, need, bind, Except.bind]

end Respond

/-! ## The pattern against the query -/

section Pattern

variable {pg : Pg} {v : Option Bytes} {like t s : String} {ts : List (Like.Tok Char)}

/-- The tokens of a query, and those of its folded pattern. -/
theorem ilike_of_tokens (hfold : Like.Respects wild pg.lower)
    (hlike : like.toList = Like.around wild t.toList)
    (hts : Like.parse wild (Like.around wild t.toList) = some ts) :
    ilike pg s like = Like.accepts (ts.map (Like.Tok.map pg.lower)) (s.toList.map pg.lower) := by
  have hparse : Like.parse wild (like.toList.map pg.lower) =
      some (ts.map (Like.Tok.map pg.lower)) := by
    rw [hlike, hfold.parse, hts]
    rfl
  unfold ilike
  rw [hparse]

theorem exists_tokens (t : String) :
    ∃ ts, Like.parse wild (Like.around wild t.toList) = some ts :=
  Option.isSome_iff_exists.mp (Like.parse_append_any (w := wild) (wild.any :: t.toList))

theorem breadth_folded (f : Char → Char) (ts : List (Like.Tok Char)) :
    Like.breadth (ts.map (Like.Tok.map f)) = Like.breadth ts := by
  rw [← Like.length_fill (f wild.any), Like.fill_map, List.length_map, Like.length_fill]

theorem contains_of_text (ht : PgDb.text (urlParam v) = some t) :
    contains pg (urlParam v) s = decide (t.toList.map pg.lower <:+: s.toList.map pg.lower) := by
  unfold contains
  rw [ht]

/-- A query without special characters. -/
theorem ilike_eq_contains (hfold : Like.Respects wild pg.lower)
    (ht : PgDb.text (urlParam v) = some t) (hlike : like.toList = Like.around wild t.toList)
    (hplain : ∀ c ∈ t.toList, ¬ wild.Special c) (s : String) :
    ilike pg s like = contains pg (urlParam v) s := by
  have hfolded : ∀ c ∈ t.toList.map pg.lower, ¬ wild.Special c := by
    intro c hc
    obtain ⟨x, hx, rfl⟩ := List.mem_map.mp hc
    exact fun h => hplain x hx ((hfold.special x).mp h)
  obtain ⟨ts, hts, hacc⟩ := Like.accepts_around hfolded
  unfold ilike
  rw [contains_of_text ht, hlike, hfold.around, hts, Bool.eq_iff_iff, decide_eq_true_iff]
  exact hacc _

/-- A query that no column is long enough for. -/
theorem ilike_eq_contains_of_short (hfold : Like.Respects wild pg.lower)
    (ht : PgDb.text (urlParam v) = some t) (hlike : like.toList = Like.around wild t.toList)
    (hs : s.length < shortest t) : ilike pg s like = contains pg (urlParam v) s := by
  obtain ⟨ts, hts⟩ := exists_tokens t
  have hbreadth : shortest t = Like.breadth ts := by
    unfold shortest
    rw [hts]
    rfl
  rw [hbreadth] at hs
  have hno : ilike pg s like = false := by
    rw [ilike_of_tokens hfold hlike hts, Bool.eq_false_iff]
    intro h
    have hle := Like.breadth_le_of_accepts _ _ h
    rw [breadth_folded, List.length_map] at hle
    exact absurd hs (Nat.not_lt.mpr hle)
  rw [hno, contains_of_text ht, eq_comm, decide_eq_false_iff_not]
  intro h
  have hle := h.length_le
  rw [List.length_map, List.length_map] at hle
  exact absurd hs (Nat.not_lt.mpr ((Like.breadth_around_le hts).trans hle))

/-- A query with a special character finds a text that it is not in. -/
theorem exists_misread (hfold : Like.Respects wild pg.lower)
    (ht : PgDb.text (urlParam v) = some t) (hlike : like.toList = Like.around wild t.toList)
    (hspecial : ∃ c ∈ t.toList, wild.Special c) :
    ∃ s : String, s.length = shortest t ∧ ilike pg s like = true ∧
      contains pg (urlParam v) s = false := by
  obtain ⟨ts, hts⟩ := exists_tokens t
  have ha : ¬ wild.Special 'a' := by decide
  refine ⟨String.ofList (Like.fill 'a' ts), ?_, ?_, ?_⟩
  · unfold shortest
    rw [hts, String.length_ofList, Like.length_fill]
    rfl
  · rw [ilike_of_tokens hfold hlike hts, String.toList_ofList, ← Like.fill_map]
    exact Like.accepts_fill _ _
  · obtain ⟨c, hc, hs⟩ := hspecial
    have hparse : Like.parse wild (Like.around wild (t.toList.map pg.lower)) =
        some (ts.map (Like.Tok.map pg.lower)) := by
      rw [← hfold.around, hfold.parse, hts]
      rfl
    rw [contains_of_text ht, String.toList_ofList, ← Like.fill_map, decide_eq_false_iff_not]
    exact Like.not_infix_fill (fun h => ha ((hfold.special 'a').mp h))
      ⟨pg.lower c, List.mem_map_of_mem hc, (hfold.special c).mpr hs⟩ hparse

end Pattern

/-! ## Literal searches -/

section Searches

variable {pg : Pg} {uid : String} {db : Db} {e : Endpoint}

/-- The searched columns are no longer than the longest. -/
theorem length_of_candidate (hfits : db.Fits) {n : Nat} (hw : e.width = some n) :
    ∀ c ∈ e.candidates pg uid db, ∀ s ∈ c.texts, s.length ≤ n := by
  have husers : ∀ u ∈ otherUsers uid db, ∀ s ∈ u.username :: u.displayName.toList,
      s.length ≤ 255 := by
    intro u hu s hs
    have hmem : u ∈ db.users := by
      unfold otherUsers at hu
      split at hu
      · cases hu
      · exact (Table.mem_select.mp hu).1
    rcases List.mem_cons.mp hs with rfl | hs
    · exact hfits.username u hmem
    · exact (hfits.displayName u hmem s (Option.mem_toList.mp hs)).trans (by decide)
  intro c hc s hs
  cases e with
  | searchMessages chatId => cases hw
  | searchUsers =>
      obtain rfl := Option.some.inj hw
      obtain ⟨u, hu, rfl⟩ := List.mem_map.mp hc
      exact husers u hu s hs
  | chatSearchUsers =>
      obtain rfl := Option.some.inj hw
      obtain ⟨u, hu, rfl⟩ := List.mem_map.mp hc
      exact husers u hu s hs
  | exploreChannels =>
      obtain rfl := Option.some.inj hw
      obtain ⟨ch, hch, rfl⟩ := List.mem_map.mp hc
      have hmem := (Table.mem_select.mp hch).1
      simp only [channelCandidate, List.mem_cons, List.not_mem_nil, or_false] at hs
      rcases hs with rfl | rfl
      · exact hfits.channelName ch hmem
      · exact (hfits.channelUsername ch hmem).trans (by decide)

theorem candidates_of_malformed (h : e.malformed uid) : e.candidates pg uid db = [] := by
  have husers : PgDb.uuid uid = none → otherUsers uid db = [] := by
    intro h
    unfold otherUsers
    rw [h]
  cases e with
  | searchUsers => exact List.map_eq_nil_iff.mpr (husers h)
  | chatSearchUsers => exact List.map_eq_nil_iff.mpr (husers h)
  | searchMessages chatId =>
      refine List.map_eq_nil_iff.mpr ?_
      unfold chatMessages
      rw [show PgDb.uuidBytes chatId = none from h]
  | exploreChannels => exact h.elim

variable (pg) in
/-- One user, who is not the caller. -/
theorem exists_user (hid : PgDb.uuid uid ≠ none) {s : String} (hs : s.length ≤ 255)
    (names : List String) (keys : List (String × String)) :
    ∃ db : Db, db.Fits ∧ ∃ c, (otherUsers uid db).map (userCandidate pg names keys) = [c] ∧
      c.texts = [s] := by
  obtain ⟨id, hid⟩ := Option.ne_none_iff_exists'.mp hid
  obtain ⟨other, hother⟩ : ∃ other : Uuid, other ≠ id := by
    by_cases hz : id = .zero
    · exact ⟨.repeated ⟨1, by decide⟩, by rw [hz]; decide⟩
    · exact ⟨.zero, fun h => hz h.symm⟩
  let u : User := { id := other, username := s, email := "" }
  refine ⟨{ users := ⟨[u], List.pairwise_singleton _ _⟩ }, ?_, userCandidate pg names keys u, ?_,
    rfl⟩
  · refine ⟨?_, ?_, ?_, ?_⟩ <;> simp [Table.mem_iff, Table.empty, u, hs]
  · unfold otherUsers
    rw [hid]
    simp [Table.select, u, hother]

variable (pg) in
/-- A database with one row to search, and `s` in it. -/
theorem exists_single (hid : ¬ e.malformed uid) {s : String}
    (hs : ∀ n, e.width = some n → s.length ≤ n) :
    ∃ db : Db, db.Fits ∧ ∃ c, e.candidates pg uid db = [c] ∧ s ∈ c.texts ∧
      ∀ s' ∈ c.texts, s' = s ∨ s' = "" := by
  cases e with
  | searchUsers =>
      obtain ⟨db, hfits, c, hc, htexts⟩ := exists_user pg hid (hs 255 rfl) _ _
      exact ⟨db, hfits, c, hc, by simp [htexts]⟩
  | chatSearchUsers =>
      obtain ⟨db, hfits, c, hc, htexts⟩ := exists_user pg hid (hs 255 rfl) _ _
      exact ⟨db, hfits, c, hc, by simp [htexts]⟩
  | searchMessages chatId =>
      obtain ⟨c, hc⟩ := Option.ne_none_iff_exists'.mp hid
      let m : Message := { id := .zero, chatId := c, content := s }
      refine ⟨{ messages := ⟨[m], List.pairwise_singleton _ _⟩ }, ?_, messageCandidate pg m, ?_, ?_⟩
      · refine ⟨?_, ?_, ?_, ?_⟩ <;> simp [Table.mem_iff, Table.empty]
      · rw [Endpoint.candidates, chatMessages, hc]
        simp [Table.select, m]
      · simp [messageCandidate, m]
  | exploreChannels =>
      let c : Channel := { id := .zero, username := "", name := s }
      refine ⟨{ channels := ⟨[c], List.pairwise_singleton _ _⟩ }, ?_, channelCandidate c, ?_, ?_⟩
      · refine ⟨?_, ?_, ?_, ?_⟩ <;> simp [Table.mem_iff, Table.empty, c, hs 255 rfl]
      · simp [Endpoint.candidates, Table.select, c]
      · simp [channelCandidate, c]

/-- A text that contains no query is in no row by the query. -/
theorem contains_empty {v : Option Bytes} {s : String} (h : contains pg (urlParam v) s = false) :
    contains pg (urlParam v) "" = false := by
  unfold contains at h ⊢
  split at h
  · rfl
  · rw [decide_eq_false_iff_not] at h ⊢
    exact fun hempty => h (hempty.trans (List.nil_infix))

variable {v : Option Bytes}

theorem literal_of_takenLiterally (hfold : Like.Respects wild pg.lower) (hq : urlParam v ≠ [])
    (hlit : e.TakenLiterally uid (urlParam v)) {env : Env} (hdone : env.first = .done)
    (hfits : db.Fits) :
    Literal (e.candidates pg uid db) (Candidate.hit pg (urlParam v)) e.limit
      (items (respond pg env uid (e.request v) db)) := by
  cases ht : PgDb.text (urlParam v) with
  | none =>
      have hnone : PgDb.text (likeBytes (urlParam v)) = none := by
        rw [Option.eq_none_iff_forall_ne_some]
        intro like hlike
        obtain ⟨t, ht', _⟩ := text_likeBytes.mp hlike
        rw [ht] at ht'
        cases ht'
      have hmiss : ∀ c, Candidate.hit pg (urlParam v) c = false := by
        intro c
        have hno : ∀ s, contains pg (urlParam v) s = false := by
          intro s
          unfold contains
          rw [ht]
        exact List.any_eq_false.mpr (fun s _ => by rw [hno s]; exact Bool.false_ne_true)
      rw [items_respond_none e hdone hq hnone]
      refine ⟨fun j hj => (by cases hj), fun _ c _ hc => ?_⟩
      rw [hmiss c] at hc
      cases hc
  | some t =>
      have hpattern : (String.ofList (Like.around wild t.toList)).toList =
          Like.around wild t.toList := String.toList_ofList
      have hlike := text_likeBytes.mpr ⟨t, ht, hpattern⟩
      obtain ⟨l, hl, hitems⟩ := found_respond pg uid db e hdone hq hlike
      rw [hitems]
      refine literal_of_agree (fun c hc => ?_) hl
      have htexts : ∀ s ∈ c.texts, ilike pg s (String.ofList (Like.around wild t.toList)) =
          contains pg (urlParam v) s := by
        intro s hs
        rcases hlit with hbad | hlit
        · rw [candidates_of_malformed hbad] at hc
          cases hc
        · rcases hlit t ht with hplain | ⟨n, hw, hn⟩
          · exact ilike_eq_contains hfold ht hpattern hplain s
          · exact ilike_eq_contains_of_short hfold ht hpattern
              ((length_of_candidate hfits hw c hc s hs).trans_lt hn)
      unfold Candidate.accepted Candidate.hit
      rw [Bool.eq_iff_iff, List.any_eq_true, List.any_eq_true]
      exact exists_congr (fun s => and_congr_right (fun hs => by rw [htexts s hs]))

theorem takenLiterally_of_literal (hfold : Like.Respects wild pg.lower) (hq : urlParam v ≠ [])
    (env : Env) (hdone : env.first = .done)
    (h : ∀ db : Db, db.Fits → Literal (e.candidates pg uid db) (Candidate.hit pg (urlParam v))
      e.limit (items (respond pg env uid (e.request v) db))) :
    e.TakenLiterally uid (urlParam v) := by
  by_cases hid : e.malformed uid
  · exact Or.inl hid
  refine Or.inr (fun t ht => ?_)
  by_contra hno
  obtain ⟨hspecial, hwide⟩ := not_or.mp hno
  simp only [not_forall, not_not, exists_prop] at hspecial
  have hpattern : (String.ofList (Like.around wild t.toList)).toList =
      Like.around wild t.toList := String.toList_ofList
  have hlike := text_likeBytes.mpr ⟨t, ht, hpattern⟩
  obtain ⟨s, hlen, hacc, hmiss⟩ := exists_misread hfold ht hpattern hspecial
  have hs : ∀ n, e.width = some n → s.length ≤ n := fun n hn =>
    Nat.le_of_not_lt (fun hlt => hwide ⟨n, hn, hlen ▸ hlt⟩)
  obtain ⟨db, hfits, c, hc, hmem, htexts⟩ := exists_single pg hid hs
  obtain ⟨l, hl, hitems⟩ := found_respond pg uid db e hdone hq hlike
  have haccepted : c.accepted pg (String.ofList (Like.around wild t.toList)) = true :=
    List.any_eq_true.mpr ⟨s, hmem, hacc⟩
  rw [hc, List.filter_cons_of_pos haccepted, List.filter_nil, List.perm_singleton] at hl
  have hlit := h db hfits
  rw [hitems, hl, hc] at hlit
  have hlimit : [c].take e.limit = [c] := by cases e <;> rfl
  obtain ⟨c', hc', hhit, _⟩ := hlit.sound c.shown (by rw [hlimit]; exact List.mem_singleton.mpr rfl)
  rw [List.mem_singleton.mp hc'] at hhit
  obtain ⟨s', hs', hcontains⟩ := List.any_eq_true.mp hhit
  rcases htexts s' hs' with rfl | rfl
  · rw [hmiss] at hcontains
    cases hcontains
  · rw [contains_empty hmiss] at hcontains
    cases hcontains

end Searches

/-- Over every database whose columns fit their types, a search with an answer finds the rows that
    contain the query if and only if the query is one of those. -/
theorem search_literal_iff (pg : Pg) (hfold : Like.Respects wild pg.lower) (e : Endpoint)
    (uid : String) (v : Option Bytes) (hq : urlParam v ≠ []) :
    (∀ (env : Env) (db : Db), env.first = .done → db.Fits →
      Literal (e.candidates pg uid db) (Candidate.hit pg (urlParam v)) e.limit
        (items (respond pg env uid (e.request v) db))) ↔ e.TakenLiterally uid (urlParam v) :=
  ⟨fun h => takenLiterally_of_literal hfold hq calm rfl (fun db => h calm db rfl),
    fun h _ _ hdone hfits => literal_of_takenLiterally hfold hq h hdone hfits⟩

theorem plainPg_respects : Like.Respects wild plainPg.lower :=
  ⟨fun _ => Iff.rfl, fun _ => Iff.rfl, fun _ => Iff.rfl⟩

theorem taken_h : (Endpoint.searchMessages (List.replicate 32 49)).TakenLiterally
    (Uuid.uuidOut eve) [104] := by
  refine Or.inr (fun t ht => Or.inl ?_)
  have htext : PgDb.text [104] = some "h" := by decide
  rw [htext] at ht
  obtain rfl := Option.some.inj ht
  exact List.all_iff_forall_prop.mp (by decide)

/-- `GET /api/chats/11111111111111111111111111111111/search?q=h`, in a chat where "hi" has been
    said. -/
theorem search_literal_iff_h :
    Literal ((Endpoint.searchMessages (List.replicate 32 49)).candidates plainPg
      (Uuid.uuidOut eve) (spokenChat secretChat eve "hi")) (Candidate.hit plainPg [104]) 50
      (items (respond plainPg calm (Uuid.uuidOut eve)
        (.searchMessages (List.replicate 32 49) (some [104]))
        (spokenChat secretChat eve "hi"))) :=
  (search_literal_iff plainPg plainPg_respects (.searchMessages (List.replicate 32 49))
    (Uuid.uuidOut eve) (some [104]) (by decide)).mpr taken_h calm
    (spokenChat secretChat eve "hi") rfl ⟨by decide, by decide, by decide, by decide⟩

/-- Bob, and nothing else. -/
def onlyBob : Db :=
  { users := ⟨[{ id := .repeated ⟨11, by decide⟩, username := "bob", email := "b@b.cd" }],
      List.pairwise_singleton _ _⟩ }

/-- `GET /api/auth/users/search?q=_` finds Bob. -/
theorem underscore_finds_bob : onlyBob.Fits ∧
    (items (respond plainPg calm (Uuid.uuidOut eve) (.searchUsers (some [95])) onlyBob)).length =
      1 ∧
    (Endpoint.searchUsers.candidates plainPg (Uuid.uuidOut eve) onlyBob).any
      (Candidate.hit plainPg [95]) = false ∧
    ¬ Literal (Endpoint.searchUsers.candidates plainPg (Uuid.uuidOut eve) onlyBob)
      (Candidate.hit plainPg [95]) Endpoint.searchUsers.limit
      (items (respond plainPg calm (Uuid.uuidOut eve) (.searchUsers (some [95])) onlyBob)) := by
  have hfound : (items (respond plainPg calm (Uuid.uuidOut eve) (.searchUsers (some [95]))
      onlyBob)).length = 1 := by decide
  have hnone : (Endpoint.searchUsers.candidates plainPg (Uuid.uuidOut eve) onlyBob).any
      (Candidate.hit plainPg [95]) = false := by decide
  refine ⟨⟨by decide, by decide, by decide, by decide⟩, hfound, hnone, fun hlit => ?_⟩
  obtain ⟨j, hj⟩ := List.exists_mem_of_length_pos (hfound ▸ Nat.one_pos)
  obtain ⟨c, hc, hhit, _⟩ := hlit.sound j hj
  rw [List.any_eq_false] at hnone
  exact hnone c hc hhit

end Api

end MessengerBackend
