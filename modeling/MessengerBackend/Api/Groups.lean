/-
  `POST /api/chats/group`: who is in the new group.

  The handler makes the chat, gives the caller the owner's row, and then inserts one row for
  each entry of `memberIds` that is not the text of the caller's own id. An entry is compared
  as a text there and as a `uuid` in the database, so the caller in another spelling, like a
  user who is named twice, is a conflict, and DO NOTHING; an entry that is no id or no user is
  an error of its own INSERT, and swallowed.

  `Forming` is the loop invariant: the members so far are those of the entries so far.
  `createGroup_exact` is about any interleaving in which nobody else touches the chat.
-/
import MessengerBackend.Api.Creation
import MessengerBackend.Api.Profile

namespace MessengerBackend

/-- The rows of a chat. -/
def Db.membersOf (db : Db) (i : Uuid) : List ChatMember :=
  db.chatMembers.select (fun m => m.chatId == i)

theorem Db.membersOf_insert {db : Db} {row : ChatMember} {members : Table ChatMember}
    (h : db.chatMembers.insert row = some members) :
    ({ db with chatMembers := members } : Db).membersOf row.chatId =
      db.membersOf row.chatId ++ [row] := by
  unfold membersOf Table.select
  rw [Table.insert_rows h, List.filter_append]
  simp

/-- The foreign key of `chat_members` to `chats`. -/
def Db.MembersReferToChats (db : Db) : Prop :=
  ∀ m ∈ db.chatMembers, db.hasChat m.chatId = true

theorem Db.MembersReferToChats.membersOf_nil {db : Db} (h : db.MembersReferToChats) {i : Uuid}
    (hnew : db.hasChat i = false) : db.membersOf i = [] := by
  unfold membersOf Table.select
  rw [List.filter_eq_nil_iff]
  intro m hm hi
  rw [← eq_of_beq hi, h m hm] at hnew
  cases hnew

theorem Db.memberRow_eq_none {db : Db} {i v : Uuid} :
    db.memberRow i v = none ↔ v ∉ (db.membersOf i).map ChatMember.userId := by
  unfold memberRow membersOf Table.select
  simp [List.find?_eq_none]

namespace Api

open PgDb (Outcome need need_ok)

/-! ## The property -/

/-- The user is the caller, or exists and is one that `memberIds` denotes. -/
def Wanted (known : Uuid → Bool) (u : Uuid) (ids : List String) (v : Uuid) : Prop :=
  v = u ∨ known v = true ∧ ∃ s ∈ ids, PgDb.uuid s = some v

/-- One row a wanted user, all active, with `u` the only owner and the only administrator. -/
structure ExactGroup (members : List ChatMember) (u : Uuid) (wanted : Uuid → Prop) : Prop where
  users : ∀ v, v ∈ members.map ChatMember.userId ↔ wanted v
  single : (members.map ChatMember.userId).Nodup
  active : ∀ m ∈ members, m.leftAt = none
  owner : ∀ m ∈ members, m.role = "owner" ↔ m.userId = u
  admin : ∀ m ∈ members, m.canAdmin = true ↔ m.userId = u

section Members

variable {members : List ChatMember} {u v : Uuid} {wanted wanted' : Uuid → Prop}

theorem ExactGroup.congr (h : ExactGroup members u wanted) (hw : ∀ v, wanted v ↔ wanted' v) :
    ExactGroup members u wanted' :=
  ⟨fun v => (h.users v).trans (hw v), h.single, h.active, h.owner, h.admin⟩

theorem exactGroup_owner (i u : Uuid) (now : Time) :
    ExactGroup [{ chatId := i, userId := u, role := "owner", canAdmin := true,
                  joinedAt := some now }] u (· = u) := by
  refine ⟨?_, ?_, ?_, ?_, ?_⟩ <;> simp

/-- A new row for another user. -/
theorem ExactGroup.joined (h : ExactGroup members u wanted) (hv : v ∉ members.map ChatMember.userId)
    (hu : v ≠ u) (i : Uuid) (now : Time) :
    ExactGroup (members ++ [{ chatId := i, userId := v, joinedAt := some now }]) u
      (fun x => wanted x ∨ x = v) := by
  have hrow : ∀ m ∈ members ++ [{ chatId := i, userId := v, joinedAt := some now }],
      m ∈ members ∨ m = { chatId := i, userId := v, joinedAt := some now } := by simp
  refine ⟨?_, ?_, ?_, ?_, ?_⟩
  · intro x
    rw [List.map_append, List.mem_append, h.users]
    simp
  · rw [List.map_append, List.nodup_append]
    refine ⟨h.single, List.nodup_singleton _, ?_⟩
    rintro x hx y hy rfl
    rw [List.map_singleton, List.mem_singleton] at hy
    exact hv ((show x = v from hy) ▸ hx)
  · intro m hm
    rcases hrow m hm with hm | rfl
    · exact h.active m hm
    · rfl
  · intro m hm
    rcases hrow m hm with hm | rfl
    · exact h.owner m hm
    · have hrole : ("member" : String) ≠ "owner" := by decide
      exact ⟨fun h => absurd h hrole, fun h => absurd h hu⟩
  · intro m hm
    rcases hrow m hm with hm | rfl
    · exact h.admin m hm
    · exact ⟨fun h => (by cases h), fun h => absurd h hu⟩

end Members

section Entries

variable {known : Uuid → Bool} {u v : Uuid} {ids : List String} {s : String}

theorem wanted_append {rest : List String} {x : Uuid} :
    Wanted known u (ids ++ rest) x ↔
      Wanted known u ids x ∨ known x = true ∧ ∃ s ∈ rest, PgDb.uuid s = some x := by
  unfold Wanted
  constructor
  · rintro (rfl | ⟨hk, t, ht, hx⟩)
    · exact Or.inl (Or.inl rfl)
    · rcases List.mem_append.mp ht with ht | ht
      · exact Or.inl (Or.inr ⟨hk, t, ht, hx⟩)
      · exact Or.inr ⟨hk, t, ht, hx⟩
  · rintro ((rfl | ⟨hk, t, ht, hx⟩) | ⟨hk, t, ht, hx⟩)
    · exact Or.inl rfl
    · exact Or.inr ⟨hk, t, List.mem_append_left _ ht, hx⟩
    · exact Or.inr ⟨hk, t, List.mem_append_right _ ht, hx⟩

/-- Entries that denote nobody new. -/
theorem wanted_append_same {rest : List String}
    (h : ∀ s ∈ rest, ∀ v, PgDb.uuid s = some v → known v = true → Wanted known u ids v) (x : Uuid) :
    Wanted known u ids x ↔ Wanted known u (ids ++ rest) x := by
  rw [wanted_append]
  refine ⟨Or.inl, ?_⟩
  rintro (hx | ⟨hk, s, hs, hx⟩)
  · exact hx
  · exact h s hs x hx hk

/-- An entry that denotes an existing user. -/
theorem wanted_append_new (hs : PgDb.uuid s = some v) (hk : known v = true) (x : Uuid) :
    (Wanted known u ids x ∨ x = v) ↔ Wanted known u (ids ++ [s]) x := by
  rw [wanted_append]
  constructor
  · rintro (hx | rfl)
    · exact Or.inl hx
    · exact Or.inr ⟨hk, s, List.mem_singleton.mpr rfl, hs⟩
  · rintro (hx | ⟨_, t, ht, hx⟩)
    · exact Or.inl hx
    · rw [List.mem_singleton.mp ht, hs] at hx
      exact Or.inr (Option.some.inj hx).symm

end Entries

/-! ## The loop -/

/-- Where the handler stands in the state `db`, with at most `n` statements to go: the
    members are those of the entries it is through with. -/
inductive Forming (known : Uuid → Bool) (cid u : Uuid) (name : String) (ids : List String)
    (db : Db) : Nat → Chats.Point → Prop
  | creating (desc : String) : db.hasChat cid = false → db.membersOf cid = [] →
      Forming known cid u name ids db (ids.length + 2)
        (.createGroup name desc (ids.map Json.str))
  | owning : db.hasChat cid = true → db.membersOf cid = [] →
      Forming known cid u name ids db (ids.length + 1)
        (.ownGroup (Uuid.uuidOut cid) name (ids.map Json.str))
  | joining (done : List String) (s : String) (todo : List String) : ids = done ++ s :: todo →
      db.hasChat cid = true → ExactGroup (db.membersOf cid) u (Wanted known u done) →
      Forming known cid u name ids db (todo.length + 1)
        (.joinGroup (Uuid.uuidOut cid) name s (todo.map Json.str))
  | formed : ExactGroup (db.membersOf cid) u (Wanted known u ids) →
      Forming known cid u name ids db 0
        (Chats.respond 201 (.obj [("id", .str (Uuid.uuidOut cid)), ("name", .str name)]))

section Loop

variable {known : Uuid → Bool} {cid u : Uuid} {uid name : String} {ids : List String}
  {db db' : Db} {n : Nat} {p : Chats.Point}

/-- Only the rows of the chat and its existence matter. -/
theorem Forming.congr (h : Forming known cid u name ids db n p)
    (hchat : db'.hasChat cid = db.hasChat cid) (hmem : db'.membersOf cid = db.membersOf cid) :
    Forming known cid u name ids db' n p := by
  cases h with
  | creating desc hc hm => exact .creating desc (hchat.trans hc) (hmem.trans hm)
  | owning hc hm => exact .owning (hchat.trans hc) (hmem.trans hm)
  | joining done s todo heq hc hg => exact .joining done s todo heq (hchat.trans hc) (hmem ▸ hg)
  | formed hg => exact .formed (hmem ▸ hg)

/-- The entries that are the caller's own id are skipped; they denote the caller. -/
theorem forming_next (huid : PgDb.uuid uid = some u) (hchat : db.hasChat cid = true)
    (todo : List String) :
    ∀ done, ids = done ++ todo → ExactGroup (db.membersOf cid) u (Wanted known u done) →
      ∃ n ≤ todo.length, Forming known cid u name ids db n
        (Chats.nextMember uid (Uuid.uuidOut cid) name (todo.map Json.str)) := by
  induction todo with
  | nil =>
      intro done heq hg
      rw [List.append_nil] at heq
      exact ⟨0, Nat.le_refl 0, .formed (heq ▸ hg)⟩
  | cons s todo ih =>
      intro done heq hg
      by_cases hs : s = uid
      · have hsame : ExactGroup (db.membersOf cid) u (Wanted known u (done ++ [s])) := by
          refine hg.congr (wanted_append_same ?_)
          intro t ht v hv _
          rw [List.mem_singleton.mp ht, hs, huid] at hv
          exact Or.inl (Option.some.inj hv).symm
        obtain ⟨n, hn, hform⟩ := ih (done ++ [s]) (by rw [heq, List.append_assoc]; rfl) hsame
        have hskip : Chats.nextMember uid (Uuid.uuidOut cid) name ((s :: todo).map Json.str) =
            Chats.nextMember uid (Uuid.uuidOut cid) name (todo.map Json.str) := if_pos hs
        exact ⟨n, Nat.le_succ_of_le hn, hskip ▸ hform⟩
      · have hstop : Chats.nextMember uid (Uuid.uuidOut cid) name ((s :: todo).map Json.str) =
            .joinGroup (Uuid.uuidOut cid) name s (todo.map Json.str) := if_neg hs
        exact ⟨todo.length + 1, Nat.le_refl _, hstop ▸ .joining done s todo heq hchat hg⟩

section Entry

variable {chatId s : String} {v : Uuid} (now : Time)

theorem insertGroupMember_malformed (hc : PgDb.uuid chatId = some cid) (hs : PgDb.uuid s = none) :
    Chats.insertGroupMember chatId s now db = .error .invalidUuid := by
  unfold Chats.insertGroupMember
  rw [hc, hs]
  rfl

theorem insertGroupMember_conflict (hc : PgDb.uuid chatId = some cid) (hs : PgDb.uuid s = some v)
    (hrow : (db.memberRow cid v).isSome = true) :
    Chats.insertGroupMember chatId s now db = .ok (db, ()) := by
  obtain ⟨m, hm⟩ := Option.isSome_iff_exists.mp hrow
  unfold Chats.insertGroupMember
  rw [hc, hs]
  simp only [need, bind, Except.bind, hm]
  rfl

theorem insertGroupMember_new (hc : PgDb.uuid chatId = some cid) (hs : PgDb.uuid s = some v)
    (hrow : db.memberRow cid v = none) :
    Chats.insertGroupMember chatId s now db =
      (Chats.insertMember { chatId := cid, userId := v, joinedAt := some now } db).map
        (fun db₁ => (db₁, ())) := by
  unfold Chats.insertGroupMember
  rw [hc, hs]
  simp only [need, bind, Except.bind, hrow]
  cases Chats.insertMember { chatId := cid, userId := v, joinedAt := some now } db <;> rfl

/-- The foreign key refuses an id that is no user's. -/
theorem insertGroupMember_unknown (hc : PgDb.uuid chatId = some cid) (hs : PgDb.uuid s = some v)
    (hrow : db.memberRow cid v = none) (huser : ¬ db.hasUser v = true) :
    ∃ e, Chats.insertGroupMember chatId s now db = .error e := by
  rw [insertGroupMember_new now hc hs hrow]
  cases hrefused : Chats.insertMember { chatId := cid, userId := v, joinedAt := some now } db with
  | ok db₁ =>
      obtain ⟨_, _, _, hu, _⟩ := Chats.insertMember_ok hrefused
      exact absurd hu huser
  | error e => exact ⟨e, rfl⟩

end Entry

/-- The INSERT of one entry, whatever becomes of it. -/
theorem join_entry {L : Type} {done : List String} (hchat : db.hasChat cid = true)
    (hk : ∀ v, db.hasUser v = known v)
    (hg : ExactGroup (db.membersOf cid) u (Wanted known u done)) (s : String) (now : Time) (l : L) :
    ∃ db', attempt .done (Chats.insertGroupMember (Uuid.uuidOut cid) s now) db (fun _ => l)
        (fun _ => l) = (db', l) ∧ db'.hasChat cid = true ∧
      ExactGroup (db'.membersOf cid) u (Wanted known u (done ++ [s])) := by
  have hc := PgDb.uuid_uuidOut cid
  cases hs : PgDb.uuid s with
  | none =>
      refine ⟨db, attempt_refused (insertGroupMember_malformed now hc hs) (fun _ => rfl), hchat,
        hg.congr (wanted_append_same ?_)⟩
      intro t ht v hv _
      rw [List.mem_singleton.mp ht, hs] at hv
      cases hv
  | some v =>
      have hsame : (known v = true → Wanted known u done v) →
          ExactGroup (db.membersOf cid) u (Wanted known u (done ++ [s])) := by
        intro hv
        refine hg.congr (wanted_append_same ?_)
        intro t ht w hw hkw
        rw [List.mem_singleton.mp ht, hs] at hw
        obtain rfl := Option.some.inj hw
        exact hv hkw
      cases hrow : db.memberRow cid v with
      | some m =>
          have hmem : v ∈ (db.membersOf cid).map ChatMember.userId := by
            by_contra hv
            rw [Db.memberRow_eq_none.mpr hv] at hrow
            cases hrow
          have hok := insertGroupMember_conflict now hc hs (by rw [hrow]; rfl)
          exact ⟨db, attempt_done hok _ _, hchat, hsame (fun _ => (hg.users v).mp hmem)⟩
      | none =>
          have hv := Db.memberRow_eq_none.mp hrow
          by_cases huser : db.hasUser v = true
          · have hnew := insertGroupMember_new now hc hs hrow
            obtain ⟨members, hins, hok⟩ := Chats.insertMember_accepts
              { chatId := cid, userId := v, joinedAt := some now } db hrow hchat huser
            rw [hok] at hnew
            refine ⟨{ db with chatMembers := members }, attempt_done hnew _ _, hchat, ?_⟩
            have hne : v ≠ u := by
              rintro rfl
              exact hv ((hg.users v).mpr (Or.inl rfl))
            have hjoin : ({ db with chatMembers := members } : Db).membersOf cid = _ :=
              Db.membersOf_insert hins
            rw [hjoin]
            exact (hg.joined hv hne cid now).congr
              (wanted_append_new hs ((hk v).symm.trans huser))
          · obtain ⟨e, hrefused⟩ := insertGroupMember_unknown now hc hs hrow huser
            exact ⟨db, attempt_refused hrefused (fun _ => rfl), hchat,
              hsame (fun hkv => absurd ((hk v).trans hkv) huser)⟩

/-- The chat is made. -/
theorem insertChat_accepts (huid : PgDb.uuid uid = some u) (huser : db.hasUser u = true)
    (hname : name.length ≤ 255) (hfresh : db.hasChat cid = false) (desc : String) (now : Time) :
    ∃ db', Chats.insertChat .group (some (name, desc)) uid cid now db = .ok (db', cid) ∧
      db'.hasChat cid = true ∧ db'.membersOf cid = db.membersOf cid := by
  have hshort : (PgDb.cstr name).length ≤ 255 := by
    unfold PgDb.cstr
    rw [String.length_ofList]
    exact ((List.takeWhile_sublist _).length_le).trans hname
  have hchatName : Chats.chatName (some (name, desc)) = .ok (some (PgDb.cstr name)) := by
    have hfits : PgDb.varchar 255 (PgDb.cstr name) = .ok (PgDb.cstr name) := by
      rw [PgDb.varchar, if_pos hshort]
    simp only [Chats.chatName, hfits]
    rfl
  let row := Chats.chatRow cid .group (some (PgDb.cstr name)) (some (PgDb.cstr desc)) u now
  have hfree : ∀ x ∈ db.chats, Keyed.clash row x = false := by
    intro x hx
    have hne : ¬ (x.id == cid) = true := List.any_eq_false.mp hfresh x hx
    rw [Keyed.symm]
    exact Bool.eq_false_iff.mpr hne
  obtain ⟨chats, hins⟩ := Table.insert_isSome hfree
  refine ⟨{ db with chats := chats }, ?_, ?_, rfl⟩
  · unfold Chats.insertChat
    rw [huid, hchatName]
    simp only [need, bind, Except.bind, huser, if_true]
    rw [show db.chats.insert (Chats.chatRow cid .group (some (PgDb.cstr name))
      (Option.map (fun n => PgDb.cstr n.2) (some (name, desc))) u now) = some chats from hins]
  · exact List.any_eq_true.mpr ⟨row, (Table.mem_insert hins).mpr (Or.inr rfl), beq_self_eq_true cid⟩

/-- The caller's row. -/
theorem insertOwner_accepts (huid : PgDb.uuid uid = some u) (huser : db.hasUser u = true)
    (hchat : db.hasChat cid = true) (hnone : db.membersOf cid = []) (now : Time) :
    ∃ db', Chats.insertOwner (Uuid.uuidOut cid) uid now db = .ok (db', ()) ∧
      db'.hasChat cid = true ∧ ExactGroup (db'.membersOf cid) u (· = u) := by
  have hrow : db.memberRow cid u = none := by
    rw [Db.memberRow_eq_none, hnone]
    exact List.not_mem_nil
  obtain ⟨members, hins, hok⟩ := Chats.insertMember_accepts
    { chatId := cid, userId := u, role := "owner", canAdmin := true, joinedAt := some now } db
    hrow hchat huser
  refine ⟨{ db with chatMembers := members }, ?_, hchat, ?_⟩
  · unfold Chats.insertOwner
    rw [PgDb.uuid_uuidOut, huid]
    simp only [need, bind, Except.bind, hok]
    rfl
  · have hjoin : ({ db with chatMembers := members } : Db).membersOf cid = _ :=
      Db.membersOf_insert hins
    rw [hjoin, hnone]
    exact exactGroup_owner cid u now

/-- The step lemma: one statement fewer to go. -/
theorem forming_step (pg : Pg) (huid : PgDb.uuid uid = some u) (hname : name.length ≤ 255)
    (hu : known u = true) (h : Forming known cid u name ids db n p)
    (hk : ∀ v, db.hasUser v = known v) {inp : Input} (ho : inp.first = .done)
    (hid : inp.freshId = cid) :
    ∃ n' ≤ n - 1, Forming known cid u name ids (Chats.step pg uid p inp db).1 n'
      (Chats.step pg uid p inp db).2 := by
  cases h with
  | creating desc hc hm =>
      obtain ⟨db', hok, hchat, hsame⟩ := insertChat_accepts huid ((hk u).trans hu) hname hc desc
        inp.now
      simp only [Chats.step, ho, hid]
      rw [attempt_done hok]
      exact ⟨_, Nat.le_refl _, .owning hchat (hsame.trans hm)⟩
  | owning hc hm =>
      obtain ⟨db', hok, hchat, hg⟩ := insertOwner_accepts huid ((hk u).trans hu) hc hm inp.now
      simp only [Chats.step, ho]
      rw [attempt_done hok]
      exact forming_next huid hchat ids [] rfl (hg.congr (fun v => by simp [Wanted]))
  | joining done s todo heq hc hg =>
      obtain ⟨db', hjoin, hchat, hg'⟩ := join_entry hc hk hg s inp.now
        (Chats.nextMember uid (Uuid.uuidOut cid) name (todo.map Json.str))
      simp only [Chats.step, ho]
      rw [hjoin]
      exact forming_next huid hchat todo (done ++ [s]) (by rw [heq, List.append_assoc]; rfl) hg'
  | formed hg => exact ⟨0, Nat.le_refl 0, .formed hg⟩

end Loop

/-! ## Any interleaving -/

/-- No request of the API makes or removes a user. -/
theorem hasUser_step (pg : Pg) (t : Thread) (inp : Input) (db : Db) (v : Uuid) :
    (step pg t inp db).1.hasUser v = db.hasUser v := by
  have ofUsers : ∀ {db' : Db}, db'.users.rows.map User.id = db.users.rows.map User.id →
      db'.hasUser v = db.hasUser v := by
    intro db' h
    have hany := congrArg (fun l : List Uuid => l.any (· == v)) h
    simp only [List.any_map] at hany
    exact hany
  obtain ⟨uid, point⟩ := t
  cases point with
  | query r => rfl
  | answered r => rfl
  | account p =>
      cases p with
      | updateMe u =>
          refine attempt_inv (fun db' _ => db'.hasUser v = db.hasUser v) (fun _ => rfl) ?_
          intro db' a h
          have hsame := ofUsers (Accounts.ids_of_updateUser h)
          exact ⟨hsame, fun _ => hsame⟩
      | addContact contactId nickname =>
          refine attempt_inv (fun db' _ => db'.hasUser v = db.hasUser v) (fun _ => rfl) ?_
          intro db' a h
          obtain ⟨contacts, rfl⟩ := Accounts.upsertContact_ok h
          exact ⟨rfl, fun _ => rfl⟩
      | removeContact contactId =>
          refine attempt_inv (fun db' _ => db'.hasUser v = db.hasUser v) (fun _ => rfl) ?_
          intro db' a h
          obtain ⟨contacts, rfl⟩ := Accounts.eraseContact_ok h
          exact ⟨rfl, fun _ => rfl⟩
      | exited e => rfl
  | chat p =>
      obtain ⟨chats, members, messages, hdb⟩ := Chats.step_writes pg uid p inp db
      exact ofUsers (congrArg (fun x : Db => x.users.rows.map User.id) hdb :)
  | channel p =>
      obtain ⟨channels, subscribers, posts, hdb⟩ := Channels.step_writes uid p inp db
      exact ofUsers (congrArg (fun x : Db => x.users.rows.map User.id) hdb :)

/-- The statements of thread `i` are executed and answered, and the id that the database makes
    for it is `cid`; nobody else touches that chat. -/
def Undisturbed (pg : Pg) (i : Nat) (cid : Uuid) (c : Config) : Action → Prop
  | .spawn _ => True
  | .run j inp =>
      if j = i then inp.first = .done ∧ inp.freshId = cid
      else ((system pg).next c (.run j inp)).shared.hasChat cid = c.shared.hasChat cid ∧
        ((system pg).next c (.run j inp)).shared.membersOf cid = c.shared.membersOf cid

/-- How many statements thread `i` runs. -/
def ownSteps (i : Nat) (as : List Action) : Nat :=
  as.countP (fun a => match a with
    | .run j _ => j == i
    | .spawn _ => false)

section Run

variable {pg : Pg} {known : Uuid → Bool} {cid u : Uuid} {uid name : String} {ids : List String}
  {i : Nat} {r : Request}

/-- Thread `i` is at a point of `Forming`. -/
def FormingAt (known : Uuid → Bool) (cid u : Uuid) (uid name : String) (ids : List String) (i : Nat)
    (r : Request) (n : Nat) (c : Config) : Prop :=
  (∀ v, c.shared.hasUser v = known v) ∧ ∃ p, c.threads[i]? = some (r, ⟨uid, .chat p⟩) ∧
    Forming known cid u name ids c.shared n p

/-- One action: a statement of the thread brings it on, any other leaves it where it is. -/
theorem formingAt_next (huid : PgDb.uuid uid = some u) (hname : name.length ≤ 255)
    (hu : known u = true) {n : Nat} {c : Config} (h : FormingAt known cid u uid name ids i r n c)
    {a : Action} (ha : Undisturbed pg i cid c a) :
    ∃ n' ≤ n - ownSteps i [a],
      FormingAt known cid u uid name ids i r n' ((system pg).next c a) := by
  obtain ⟨hk, p, ht, hform⟩ := h
  cases a with
  | spawn q =>
      exact ⟨n, Nat.le_refl n, hk, p, Interleave.getElem?_spawned _ ht, hform⟩
  | run j inp =>
      by_cases hj : j = i
      · subst hj
        rw [Undisturbed, if_pos rfl] at ha
        have hone : ownSteps j [Interleave.Action.run j inp] = 1 := by simp [ownSteps]
        obtain ⟨n', hn', hform'⟩ := forming_step pg huid hname hu hform hk ha.1 ha.2
        rw [hone, (system pg).next_run ht]
        refine ⟨n', hn', fun v => ?_, (Chats.step pg uid p inp c.shared).2, ?_, hform'⟩
        · exact (hasUser_step pg ⟨uid, .chat p⟩ inp c.shared v).trans (hk v)
        · exact List.getElem?_set_self (List.getElem?_eq_some_iff.mp ht).1
      · have hnone : ownSteps i [Interleave.Action.run j inp] = 0 := by simp [ownSteps, hj]
        rw [Undisturbed, if_neg hj] at ha
        rw [hnone]
        have hform' := hform.congr ha.1 ha.2
        cases htj : c.threads[j]? with
        | none =>
            rw [(system pg).next_run_none htj] at hform' ⊢
            exact ⟨n, Nat.le_refl n, hk, p, ht, hform'⟩
        | some q =>
            rw [(system pg).next_run htj] at hform' ⊢
            refine ⟨n, Nat.le_refl n, fun v => ?_, p, ?_, hform'⟩
            · exact (hasUser_step pg q.2 inp c.shared v).trans (hk v)
            · exact (List.getElem?_set_ne hj).trans ht

/-- The run lemma. -/
theorem formingAt_foldl (huid : PgDb.uuid uid = some u) (hname : name.length ≤ 255)
    (hu : known u = true) (as : List Action) :
    ∀ {n : Nat} {c : Config}, FormingAt known cid u uid name ids i r n c →
      (system pg).Meets (Undisturbed pg i cid) c as →
      ∃ n' ≤ n - ownSteps i as,
        FormingAt known cid u uid name ids i r n' (as.foldl (system pg).next c) := by
  induction as with
  | nil => intro n c h _; exact ⟨n, Nat.le_refl n, h⟩
  | cons a as ih =>
      intro n c h hmeets
      obtain ⟨n₁, hn₁, h₁⟩ := formingAt_next huid hname hu h hmeets.1
      obtain ⟨n₂, hn₂, h₂⟩ := ih h₁ hmeets.2
      have hcount : ownSteps i (a :: as) = ownSteps i [a] + ownSteps i as := by
        unfold ownSteps
        rw [← List.singleton_append, List.countP_append]
      exact ⟨n₂, by omega, h₂⟩

end Run

/-! ## The request -/

/-- A body with a name, perhaps a description, and a list of texts as members. -/
structure GroupBody (j : Json) (name : String) (ids : List String) : Prop where
  named : j.find "name" = some (.str name)
  nonempty : name ≠ ""
  short : name.length ≤ 255
  described : j.find "description" = none ∨ ∃ desc, j.find "description" = some (.str desc)
  listed : j.find "memberIds" = some (.arr (ids.map Json.str))

theorem isObject_of_find {j v : Json} {key : String} (h : j.find key = some v) :
    j.isObject = true := by
  unfold Json.find at h
  split at h
  · rfl
  · cases h

theorem valueString_of_find {j : Json} {key s : String} (h : j.find key = some (.str s))
    (dflt : String) : j.valueString key dflt = .ok s := by
  unfold Json.valueString Json.valueWith
  rw [if_pos (isObject_of_find h), h]
  rfl

theorem routeCreateGroup_of {j : Json} {name : String} {ids : List String}
    (h : GroupBody j name ids) : ∃ desc, Chats.routeCreateGroup (some j) =
      .createGroup name desc (ids.map Json.str) := by
  have hname := valueString_of_find h.named ""
  have hdesc : ∃ desc, j.valueString "description" "" = .ok desc := by
    rcases h.described with hnone | ⟨desc, hsome⟩
    · exact ⟨"", by
        rw [Json.valueString, Json.valueWith, if_pos (isObject_of_find h.named), hnone]⟩
    · exact ⟨desc, valueString_of_find hsome ""⟩
  obtain ⟨desc, hdesc⟩ := hdesc
  have hmembers : Chats.memberIds j = ids.map Json.str := by
    unfold Chats.memberIds
    rw [h.listed]
  refine ⟨desc, ?_⟩
  unfold Chats.routeCreateGroup withBody
  simp only [hname, hdesc, hmembers, bind, Except.bind, pure, Except.pure]
  exact if_neg h.nonempty

/-- `POST /api/chats/group` -/
def groupRequest (uid : String) (j : Json) : Request := ⟨uid, .chat (.createGroup (some j))⟩

/-- The request of an existing user, from where it starts until its statements have run, in any
    interleaving in which nobody else touches the new chat: it is answered 201, and the rows of
    the chat are one for each wanted user. -/
theorem createGroup_exact (pg : Pg) (c : Config) (i : Nat) (cid u : Uuid) (uid : String) (j : Json)
    (name : String) (ids : List String) (as : List Action) (hbody : GroupBody j name ids)
    (huid : PgDb.uuid uid = some u) (huser : c.shared.hasUser u = true)
    (hstart : c.threads[i]? = some (groupRequest uid j, start (groupRequest uid j)))
    (hnew : c.shared.hasChat cid = false) (hrefs : c.shared.MembersReferToChats)
    (hmeets : (system pg).Meets (Undisturbed pg i cid) c as)
    (henough : ids.length + 2 ≤ ownSteps i as) :
    ∃ t, (as.foldl (system pg).next c).threads[i]? = some (groupRequest uid j, t) ∧
      t.exit = some (.response (jsonResp 201
        (.obj [("id", .str (Uuid.uuidOut cid)), ("name", .str name)]))) ∧
      ExactGroup ((as.foldl (system pg).next c).shared.membersOf cid) u
        (Wanted c.shared.hasUser u ids) := by
  obtain ⟨desc, hroute⟩ := routeCreateGroup_of hbody
  have hat : FormingAt c.shared.hasUser cid u uid name ids i (groupRequest uid j)
      (ids.length + 2) c := by
    refine ⟨fun _ => rfl, .createGroup name desc (ids.map Json.str), ?_,
      .creating desc hnew (hrefs.membersOf_nil hnew)⟩
    rw [hstart, ← hroute]
    rfl
  obtain ⟨n, hn, _, p, ht, hform⟩ := formingAt_foldl huid hbody.short huser as hat hmeets
  have hzero : n = 0 := by omega
  subst hzero
  cases hform with
  | formed hg => exact ⟨_, ht, rfl, hg⟩

/-- Eve twice, a text that is no id, and Alice herself. -/
def clubMembers : List String :=
  [Uuid.uuidOut eve, Uuid.uuidOut eve, "nobody", Uuid.uuidOut alice]

/-- `POST /api/chats/group` by Alice. -/
def createClub : Request := groupRequest (Uuid.uuidOut alice)
  (.obj [("name", .str "club"), ("memberIds", .arr (clubMembers.map Json.str))])

theorem undisturbed_go (c : Config) : Undisturbed plainPg 0 secretChat c (go 0) := by
  rw [go, Undisturbed, if_pos rfl]
  exact ⟨rfl, rfl⟩

/-- The club has the members that Alice named. -/
theorem createGroup_exact_club : ExactGroup
    (((List.replicate 6 (go 0)).foldl (system plainPg).next
      ((system plainPg).next (Interleave.Config.init twoUsers) (.spawn createClub))).shared.membersOf
        secretChat) alice
    (Wanted twoUsers.hasUser alice clubMembers) := by
  obtain ⟨_, _, _, hg⟩ := createGroup_exact plainPg
    ((system plainPg).next (Interleave.Config.init twoUsers) (.spawn createClub)) 0 secretChat alice
    (Uuid.uuidOut alice) _ "club" clubMembers (List.replicate 6 (go 0))
    ⟨rfl, by decide, by decide, Or.inl rfl, rfl⟩ (PgDb.uuid_uuidOut alice)
    (by decide) rfl (by decide) (by unfold Db.MembersReferToChats; decide)
    ⟨undisturbed_go _, undisturbed_go _, undisturbed_go _, undisturbed_go _, undisturbed_go _,
      undisturbed_go _, trivial⟩ (by decide)
  exact hg

end Api

end MessengerBackend
