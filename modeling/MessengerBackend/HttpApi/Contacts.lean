/-
  The contacts as an address book, and what the server answers about them.

  `book db (u, c)` is what `u` has on `c`: nothing, or a nickname. Adding a contact writes it,
  or writes over it, and removing one clears it; `Accounts.edits` says when, and no other
  statement of the server has a part in it (`book_of_step`). So after any run the book is what
  the last edit of the pair left (`addressBook_eq`), and the two routes that read it answer
  from that: `contacts_of_run`.

  The list takes no contact that is blocked, and no route blocks one.
-/
import MessengerBackend.Api.DirectChats
import MessengerBackend.HttpApi.Answers

namespace MessengerBackend

open PgDb (Stmt cstr varchar need need_ok)
open Interleave (write lastWrite)
open Select (join orderBy)
open Sql
open Except (bind_ok)

/-! ## The book -/

/-- The owner and the user that the contact is. -/
def Contact.pair (r : Contact) : Uuid × Uuid := (r.userId, r.contactId)

theorem clash_contact (a b : Contact) : Keyed.clash a b = decide (a.pair = b.pair) := by
  simp [Keyed.clash, Contact.pair, Bool.beq_eq_decide_eq, Bool.decide_and]

/-- WHERE user_id = … AND contact_id = …. -/
theorem pair_clause (u c : Uuid) : (fun r : Contact => r.userId == u && r.contactId == c) =
    fun r => decide (r.pair = (u, c)) := by
  funext r
  exact clash_contact r { userId := u, contactId := c }

/-- The nickname, which may be NULL, if there is a row. -/
def Db.book (db : Db) (k : Uuid × Uuid) : Option (Option String) :=
  (db.contacts.lookup Contact.pair k).map Contact.nickname

/-- The pair, and what it is from then on. -/
abbrev Edit := (Uuid × Uuid) × Option (Option String)

namespace Api.Accounts

/-- Adding needs both users, unless it only renames. -/
def additions (uid contactId nickname : String) (db : Db) : List Edit :=
  match PgDb.uuid uid, PgDb.uuid contactId, varchar 255 (cstr nickname) with
  | some u, some c, .ok nick =>
      if (db.book (u, c)).isSome || (db.hasUser u && db.hasUser c) then [((u, c), some (some nick))]
      else []
  | _, _, _ => []

def removals (uid : String) (contactId : Bytes) : List Edit :=
  match PgDb.uuid uid, PgDb.uuidBytes contactId with
  | some u, some c => [((u, c), none)]
  | _, _ => []

/-- What a step of a handler does to the book. -/
def edits (uid : String) : Point → Input → Db → List Edit
  | .addContact contactId nickname, inp, db =>
      if inp.first.executes then additions uid contactId nickname db else []
  | .removeContact contactId, inp, _ =>
      if inp.first.executes then removals uid contactId else []
  | _, _, _ => []

/-- An accepted row is in the book, and nothing else changed there. -/
theorem upsertRow_accepted {row : Contact} {db db' : Db} (h : upsertRow row db = .ok db') :
    db' = { db with contacts := db.contacts.upsert row (rename row.nickname) (fun _ _ => rfl) } ∧
      ((db.book row.pair).isSome || (db.hasUser row.userId && db.hasUser row.contactId)) = true := by
  unfold upsertRow at h
  unfold Table.upsert
  split at h
  · rename_i hnone
    cases h
    obtain ⟨b, hb, hclash⟩ := Table.insert_eq_none hnone
    have hpair : row.pair = b.pair := by simpa [clash_contact] using hclash
    refine ⟨by rw [hnone], ?_⟩
    rw [Db.book, hpair, Table.lookup_of_mem clash_contact hb]
    rfl
  · rename_i contacts hins
    split at h
    · rename_i hfk
      cases h
      exact ⟨by rw [hins], by rw [hfk, Bool.or_true]⟩
    · cases h

theorem upsertRow_refused {row : Contact} {db : Db} {e : SqlError} (h : upsertRow row db = .error e) :
    ((db.book row.pair).isSome || (db.hasUser row.userId && db.hasUser row.contactId)) = false := by
  unfold upsertRow at h
  split at h
  · cases h
  · rename_i contacts hins
    split at h
    · cases h
    · rename_i hfk
      have hnone : db.contacts.lookup Contact.pair row.pair = none := by
        refine Table.lookup_eq_none.mpr (fun b hb hpair => ?_)
        have hfresh := Table.insert_fresh hins b hb
        simp [clash_contact, hpair] at hfresh
      rw [Db.book, hnone, Bool.eq_false_iff.mpr hfk]
      rfl

theorem book_upsert (row : Contact) (db : Db) :
    Db.book { db with contacts := db.contacts.upsert row (rename row.nickname) (fun _ _ => rfl) } =
      write db.book (row.pair, some row.nickname) := by
  funext k
  rw [Db.book, Table.lookup_upsert (f := rename row.nickname) (fun _ _ => rfl) clash_contact
    (fun _ => rfl)]
  by_cases hk : k = row.pair
  · subst hk
    rw [if_pos rfl]
    rw [Interleave.write_self]
    cases db.contacts.lookup Contact.pair row.pair <;> rfl
  · rw [if_neg hk, Interleave.write_of_ne hk]
    rfl

theorem book_erase (u c : Uuid) (db : Db) :
    Db.book { db with contacts := db.contacts.erase (fun r => r.userId == u && r.contactId == c) } =
      write db.book ((u, c), none) := by
  funext k
  have hlookup : (db.contacts.erase (fun r => r.userId == u && r.contactId == c)).lookup
      Contact.pair k = if k = (u, c) then none else db.contacts.lookup Contact.pair k := by
    rw [pair_clause]
    exact Table.lookup_erase (u, c) k
  rw [Db.book, hlookup]
  by_cases hk : k = (u, c)
  · subst hk
    rw [if_pos rfl, Interleave.write_self]
    rfl
  · rw [if_neg hk, Interleave.write_of_ne hk]
    rfl

theorem book_upsertContact {uid contactId nickname : String} {db db' : Db} {a : Unit}
    (h : upsertContact uid contactId nickname db = .ok (db', a)) :
    db'.book = (additions uid contactId nickname db).foldl write db.book := by
  unfold upsertContact at h
  obtain ⟨u, hu, h⟩ := bind_ok.mp h
  obtain ⟨c, hc, h⟩ := bind_ok.mp h
  obtain ⟨nick, hnick, h⟩ := bind_ok.mp h
  obtain ⟨db₁, hrow, h⟩ := bind_ok.mp h
  cases h
  obtain ⟨rfl, hcond⟩ := upsertRow_accepted hrow
  have hcond : ((db.book (u, c)).isSome || (db.hasUser u && db.hasUser c)) = true := hcond
  simp only [additions, need_ok.mp hu, need_ok.mp hc, hnick, hcond, if_true]
  exact book_upsert _ db

theorem additions_of_error {uid contactId nickname : String} {db : Db} {e : SqlError}
    (h : upsertContact uid contactId nickname db = .error e) :
    additions uid contactId nickname db = [] := by
  unfold additions
  split
  · rename_i u c nick hu hc hnick
    simp only [upsertContact, hu, hc, hnick, need, bind, Except.bind] at h
    cases hrow : upsertRow { userId := u, contactId := c, nickname := some nick } db with
    | error e' =>
        have hcond : ((db.book (u, c)).isSome || (db.hasUser u && db.hasUser c)) = false :=
          upsertRow_refused hrow
        rw [hcond]
        rfl
    | ok db₁ =>
        rw [hrow] at h
        cases h
  · rfl

theorem book_eraseContact {uid : String} {contactId : Bytes} {db db' : Db} {a : Unit}
    (h : eraseContact uid contactId db = .ok (db', a)) :
    db'.book = (removals uid contactId).foldl write db.book := by
  unfold eraseContact at h
  obtain ⟨u, hu, h⟩ := bind_ok.mp h
  obtain ⟨c, hc, h⟩ := bind_ok.mp h
  cases h
  simp only [removals, need_ok.mp hu, need_ok.mp hc]
  exact book_erase u c db

theorem removals_of_error {uid : String} {contactId : Bytes} {db : Db} {e : SqlError}
    (h : eraseContact uid contactId db = .error e) : removals uid contactId = [] := by
  unfold removals
  split
  · rename_i u c hu hc
    simp only [eraseContact, hu, hc, need, bind, Except.bind] at h
    cases h
  · rfl

/-- The step lemma of the handlers of this kind. -/
theorem book_step (uid : String) (p : Point) (inp : Input) (db : Db) :
    (step uid p inp db).1.book = (edits uid p inp db).foldl write db.book := by
  cases p with
  | addContact contactId nickname =>
      exact attempt_replays Db.book (fun _ _ h => book_upsertContact h)
        (fun _ h => additions_of_error h)
  | removeContact contactId =>
      exact attempt_replays Db.book (fun _ _ h => book_eraseContact h)
        (fun _ h => removals_of_error h)
  | updateMe u =>
      refine attempt_inv (fun db' _ => db'.book = db.book) (fun _ => rfl) (fun db' a h => ?_)
      obtain ⟨users, rfl⟩ := updateUser_ok h
      exact ⟨rfl, fun _ => rfl⟩
  | exited e => rfl

end Api.Accounts

namespace HttpApi

/-! ## The book after a run -/

def edits (t : Api.Thread) (inp : Api.Input) (db : Db) : List Edit :=
  match t.point with
  | .account p => Api.Accounts.edits t.uid p inp db
  | _ => []

theorem book_of_step (pg : Pg) (t : Api.Thread) (inp : Api.Input) (db : Db) :
    (Api.step pg t inp db).1.book = (edits t inp db).foldl write db.book := by
  obtain ⟨uid, point⟩ := t
  cases point with
  | query r => rfl
  | answered r => rfl
  | account p => exact Api.Accounts.book_step uid p inp db
  | chat p =>
      obtain ⟨chats, members, messages, hdb⟩ := Api.Chats.step_writes pg uid p inp db
      exact (congrArg Db.book hdb :)
  | channel p =>
      obtain ⟨channels, subscribers, posts, hdb⟩ := Api.Channels.step_writes uid p inp db
      exact (congrArg Db.book hdb :)

/-- What the last edit of the pair left, or the start. -/
def addressBook (env : Env) (s : State) (as : List Action) (k : Uuid × Uuid) :
    Option (Option String) :=
  (lastWrite k (log edits env s as)).getD (s.db.book k)

theorem book_of_run (env : Env) (s : State) (as : List Action) :
    (run env s as).shared.db.book = addressBook env s as := by
  funext k
  rw [view_run Db.book (fun _ _ _ => rfl) (book_of_step env.pg) s as]
  exact Interleave.foldl_write _ _ k

/-! ## The answers -/

def NoneBlocked (db : Db) : Prop := ∀ c ∈ db.contacts, c.isBlocked = some false

/-- A new contact is not blocked, and no statement blocks one. -/
theorem noneBlocked_effect {pg : Pg} {uid : String} {now : Time} {db db' : Db}
    (he : Api.Effect pg uid now db db') (h : NoneBlocked db) : NoneBlocked db' := by
  cases he with
  | newContact _ hrow hins _ _ =>
      intro c hc
      rcases (Table.mem_insert hins).mp hc with hold | rfl
      · exact h c hold
      · exact hrow
  | @renameContact row _ =>
      intro c hc
      obtain ⟨a, ha, rfl⟩ :=
        (Table.mem_modify (f := Api.Accounts.rename row.nickname) (fun _ _ => rfl)).mp hc
      split <;> exact h a ha
  | dropContact _ => exact fun c hc => h c (Table.mem_erase.mp hc).1
  | _ => exact h

theorem noneBlocked_run (env : Env) {s : State} (as : List Action) (h : NoneBlocked s.db) :
    NoneBlocked (run env s as).shared.db :=
  database_related (fun db db' => NoneBlocked db → NoneBlocked db') (fun _ => True)
    (fun _ h => h) (fun _ _ _ hab hbd h => hbd (hab h)) (fun _ _ _ _ h => h) (fun _ _ h => h)
    (fun _ _ _ _ _ _ _ => trivial) (fun _ _ _ _ _ he h => noneBlocked_effect he h)
    (Interleave.each_nil _) (reach_run env s as) h

section List

variable {pg : Pg} {db : Db} {u : Uuid}

/-- The contacts of `u`, each with the user that it is. -/
def contactRows (pg : Pg) (u : Uuid) (db : Db) : List (Contact × User) :=
  orderBy (fun a b => pg.collate a.2.username b.2.username)
    ((join (fun c x => x.id == c.contactId) db.contacts.rows db.users.rows).filter
      (fun p => p.1.userId == u && p.1.isBlocked == some false))

theorem mem_contactRows {p : Contact × User} : p ∈ contactRows pg u db ↔
    p.1 ∈ db.contacts ∧ p.2 ∈ db.users ∧ p.2.id = p.1.contactId ∧ p.1.userId = u ∧
      p.1.isBlocked = some false := by
  obtain ⟨r, x⟩ := p
  simp only [contactRows, Select.mem_orderBy, List.mem_filter, Select.mem_join, Bool.and_eq_true,
    beq_iff_eq, Table.mem_iff]
  tauto

theorem nodup_contactRows : (contactRows pg u db).Nodup :=
  Select.nodup_orderBy _ ((Select.nodup_join _ (Table.nodup_rows (fun _ => by simp [Keyed.clash]) _)
    (Table.nodup_rows (fun _ => by simp [Keyed.clash]) _)).filter _)

/-- A row of the response. -/
def contactShown (p : Contact × User) : Json :=
  Api.pick [("id", "id"), ("username", "username"), ("displayName", "display_name"),
    ("avatarUrl", "avatar_url"), ("status", "status"), ("nickname", "nickname"),
    ("isFavorite", "is_favorite")]
    (.obj [("id", uuidCol p.2.id), ("username", .str p.2.username),
      ("display_name", .ofText p.2.displayName), ("avatar_url", .ofText p.2.avatarUrl),
      ("status", .ofText p.2.status), ("nickname", .ofText p.1.nickname),
      ("is_favorite", nullable boolCol p.1.isFavorite)])

def contactCols (nickname : Option String) : List (String × Json) :=
  [("nickname", .ofText nickname)]

/-- The list says of each user what the book has. -/
theorem lists_contacts (hs : db.Integrity) (hb : NoneBlocked db) {q : Api.Env}
    (hq : q.first = .done) {uid : String} (hu : PgDb.uuid uid = some u) :
    ∃ rows, Api.respond pg q uid .contacts db = jsonResp 200 (.arr rows) ∧
      Lists rows contactCols (fun c => db.book (u, c)) := by
  refine ⟨(contactRows pg u db).map contactShown, ?_, lists_of_rows (fun p => p.2.id)
    (fun p => p.1.nickname) contactShown nodup_contactRows (fun p hp p' hp' hid => ?_)
    (fun c nick => ?_) (fun p hp f hf => ?_)⟩
  · simp only [Api.respond, Api.routeGetContacts, Api.selectContacts, PgDb.query, hq, hu, need,
      Api.answer, Api.arrayOf, bind, Except.bind, pure, Except.pure, List.map_map]
    rfl
  · obtain ⟨hr, hx, hxid, huser, _⟩ := mem_contactRows.mp hp
    obtain ⟨hr', hx', hxid', huser', _⟩ := mem_contactRows.mp hp'
    refine Prod.ext (Table.eq_of_clash hr hr' ?_) (user_unique hx hx' hid)
    have hcontact : p.1.contactId = p'.1.contactId := by rw [← hxid, ← hxid', hid]
    simp [Keyed.clash, huser, huser', hcontact]
  · constructor
    · rintro ⟨p, hp, rfl, rfl⟩
      obtain ⟨hmem, _, hxid, huser, _⟩ := mem_contactRows.mp hp
      have hpair : (u, p.2.id) = p.1.pair := by rw [Contact.pair, huser, hxid]
      show db.book (u, p.2.id) = some p.1.nickname
      rw [hpair, Db.book, Table.lookup_of_mem clash_contact hmem]
      rfl
    · intro hbook
      obtain ⟨r, hlookup, rfl⟩ := Option.map_eq_some_iff.mp hbook
      have hpair : r.pair = (u, c) := Table.key_of_lookup hlookup
      obtain ⟨huser, hcontact⟩ := Prod.mk.inj hpair
      have hmem := Table.mem_of_lookup hlookup
      obtain ⟨x, hx, hxid⟩ := hs.contactUser r hmem r.contactId rfl
      exact ⟨(r, x), mem_contactRows.mpr ⟨hmem, hx, hxid, huser, hb r hmem⟩,
        hxid.trans hcontact, rfl⟩
  · simp only [contactCols, List.mem_cons, List.not_mem_nil, or_false] at hf
    rcases hf with rfl | rfl <;> rfl

end List

/-- What `check` looks for. -/
theorem isEmpty_select_contact (db : Db) (u c : Uuid) :
    (db.contacts.select (fun r => r.userId == u && r.contactId == c)).isEmpty =
      !(db.book (u, c)).isSome := by
  rw [pair_clause, Db.book, Option.isSome_map]
  cases hl : db.contacts.lookup Contact.pair (u, c) with
  | none =>
      have hnone : db.contacts.select (fun r => decide (r.pair = (u, c))) = [] :=
        List.filter_eq_nil_iff.mpr (fun r hr => by simpa using Table.lookup_eq_none.mp hl r hr)
      rw [hnone]
      rfl
  | some r =>
      have hmem : r ∈ db.contacts.select (fun r => decide (r.pair = (u, c))) :=
        Table.mem_select.mpr ⟨Table.mem_of_lookup hl, by simpa using Table.key_of_lookup hl⟩
      rw [Option.isSome_some, Bool.not_true, List.isEmpty_eq_false_iff_exists_mem]
      exact ⟨r, hmem⟩

/-- The two routes that read the book, after any run. -/
theorem contacts_of_run (env : Env) (s : State) (as : List Action) (q : Api.Env) (u : Uuid)
    (uid : String) (hs : s.db.Integrity) (hb : NoneBlocked s.db) (hu : PgDb.uuid uid = some u)
    (hq : q.first = .done) :
    (∃ rows, Api.respond env.pg q uid .contacts (run env s as).shared.db =
        jsonResp 200 (.arr rows) ∧
        Lists rows contactCols (fun c => addressBook env s as (u, c))) ∧
      ∀ id c, PgDb.uuidBytes id = some c →
        Api.respond env.pg q uid (.checkContact id) (run env s as).shared.db =
          jsonResp 200 (.obj [("isContact", .bool (addressBook env s as (u, c)).isSome)]) := by
  have hrun := integrity_reach hs (reach_run env s as)
  have hblocked := noneBlocked_run env as hb
  rw [← book_of_run]
  generalize (run env s as).shared.db = db at hrun hblocked ⊢
  constructor
  · exact lists_contacts hrun hblocked hq hu
  · intro id c hc
    simp only [Api.respond, Api.routeCheckContact, Api.selectContact, PgDb.query, hq, hu, hc, need,
      Api.answer, bind, Except.bind, pure, Except.pure, List.isEmpty_map, isEmpty_select_contact,
      Bool.not_not]

def bob : Uuid := .repeated ⟨14, by decide⟩

/-- Alice has Bob among the contacts. -/
def friends : Db where
  users := ⟨[{ id := Api.alice, username := "alice", email := "alice@b.cd" },
    { id := bob, username := "bob", email := "bob@b.cd" }], by decide⟩
  contacts := ⟨[{ userId := Api.alice, contactId := bob, nickname := some "b" }],
    List.pairwise_singleton _ _⟩

theorem integrity_friends : friends.Integrity := by
  have husers : Db.Integrity { friends with contacts := .empty } :=
    Db.integrity_empty.users (fun _ hx => absurd hx List.not_mem_nil)
  refine husers.contacts ?_ ?_
  · rintro r hr k ⟨⟩
    obtain rfl := List.mem_singleton.mp hr
    exact ⟨_, List.mem_cons_self, rfl⟩
  · rintro r hr k ⟨⟩
    obtain rfl := List.mem_singleton.mp hr
    exact ⟨_, List.mem_cons_of_mem _ List.mem_cons_self, rfl⟩

def addContact (c : Uuid) (nickname : String) : Action :=
  byNil (.account (.addContact
    (some (.obj [("contactId", .str (Uuid.uuidOut c)), ("nickname", .str nickname)]))))

/-- The nil id registers, adds Bob and Alice side by side, and removes Alice. -/
def friendsRun : List Action :=
  registerRun ++ [addContact bob "Bobby", addContact Api.alice "Al"] ++
    (List.range 6).flatMap (fun _ => [go 1, go 2]) ++
    byNil (.account (.removeContact (utf8 (Uuid.uuidOut Api.alice)))) :: List.replicate 6 (go 3)

/-- It has Bob. -/
theorem contacts_of_run_friends :
    addressBook plainServer (serverOf friends) friendsRun (.zero, bob) = some (some "Bobby") ∧
      (∃ rows, Api.respond plainServer.pg ⟨0, true, .done, .done⟩ (Uuid.uuidOut .zero) .contacts
          (run plainServer (serverOf friends) friendsRun).shared.db = jsonResp 200 (.arr rows) ∧
        Lists rows contactCols
          (fun c => addressBook plainServer (serverOf friends) friendsRun (.zero, c))) ∧
      Api.respond plainServer.pg ⟨0, true, .done, .done⟩ (Uuid.uuidOut .zero)
          (.checkContact (utf8 (Uuid.uuidOut bob)))
          (run plainServer (serverOf friends) friendsRun).shared.db =
        jsonResp 200 (.obj [("isContact", .bool true)]) ∧
      Api.respond plainServer.pg ⟨0, true, .done, .done⟩ (Uuid.uuidOut .zero)
          (.checkContact (utf8 (Uuid.uuidOut Api.alice)))
          (run plainServer (serverOf friends) friendsRun).shared.db =
        jsonResp 200 (.obj [("isContact", .bool false)]) := by
  have hbook : addressBook plainServer (serverOf friends) friendsRun (.zero, bob) =
      some (some "Bobby") ∧
      addressBook plainServer (serverOf friends) friendsRun (.zero, Api.alice) = none := by
    decide +kernel
  obtain ⟨hbob, halice⟩ := hbook
  obtain ⟨hlist, hcheck⟩ := contacts_of_run plainServer (serverOf friends) friendsRun
    ⟨0, true, .done, .done⟩ .zero (Uuid.uuidOut .zero) integrity_friends
    (List.forall_mem_singleton.mpr rfl) (PgDb.uuid_uuidOut .zero) rfl
  have hin := hcheck _ bob (PgDb.uuidBytes_uuidOut bob)
  have hout := hcheck _ Api.alice (PgDb.uuidBytes_uuidOut Api.alice)
  rw [hbob] at hin
  rw [halice] at hout
  exact ⟨hbob, hlist, hin, hout⟩

end HttpApi

end MessengerBackend
