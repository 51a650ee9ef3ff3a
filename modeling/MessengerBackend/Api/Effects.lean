/-
  What one statement of the API can do to the database, said once for all handlers.

  `Effect pg uid now db db'` has a constructor for each kind of statement that writes, with
  what was checked when it did: whose row it is, which foreign keys were there, that no key
  clashed. `step_effects`: a step of a thread does nothing, or an effect, or (`open_direct`,
  whose INSERT has two rows) two of them. Invariants over whole runs are proved by cases on it.

  `Thread.Own`: the statement that `update_me` has built is about the caller. It is what
  `start` makes, and holds from then on.
-/
import Mathlib.Logic.Relation
import MessengerBackend.Api.Server
import MessengerBackend.Api.Profile

namespace MessengerBackend.Api

open PgDb (Stmt need_ok cstr)
open Except (bind_ok)

/-! ## The effects -/

inductive Effect (pg : Pg) (uid : String) (now : Time) (db : Db) : Db → Prop where
  | profile {x x' : User} {users : Table User} : PgDb.uuid uid = some x.id → x ∈ db.users →
      Accounts.others x' = Accounts.others x →
      db.users.update (fun y => y.id == x.id) (fun _ => x') = some users →
      Effect pg uid now db { db with users := users }
  | newContact {row : Contact} {contacts : Table Contact} : PgDb.uuid uid = some row.userId →
      row.isBlocked = some false → db.contacts.insert row = some contacts →
      db.hasUser row.userId = true → db.hasUser row.contactId = true →
      Effect pg uid now db { db with contacts := contacts }
  | renameContact {row : Contact} : PgDb.uuid uid = some row.userId →
      Effect pg uid now db { db with
        contacts := db.contacts.modify (Keyed.clash row) (Accounts.rename row.nickname)
          (fun _ _ => rfl) }
  | dropContact {u c : Uuid} : PgDb.uuid uid = some u →
      Effect pg uid now db { db with
        contacts := db.contacts.erase (fun r => r.userId == u && r.contactId == c) }
  | chat {row : Chat} {u : Uuid} {chats : Table Chat} : PgDb.uuid uid = some u →
      row.createdBy = some u → db.hasUser u = true → db.chats.insert row = some chats →
      Effect pg uid now db { db with chats := chats }
  | member {row : ChatMember} {members : Table ChatMember} : row.mutedUntil = none →
      db.chatMembers.insert row = some members → db.hasChat row.chatId = true →
      db.hasUser row.userId = true → Effect pg uid now db { db with chatMembers := members }
  | leftAt (c v : Uuid) (t : Option Time) :
      Effect pg uid now db
        (Chats.modifyMember c v (fun m => { m with leftAt := t }) (fun _ _ => rfl) db)
  | mute {u : Uuid} (c : Uuid) : PgDb.uuid uid = some u →
      Effect pg uid now db (Chats.modifyMember c u
        (fun m => { m with mutedUntil := Chats.toggledMute pg now m.mutedUntil })
        (fun _ _ => rfl) db)
  | pin (i : Uuid) : Effect pg uid now db (Chats.flipPinOf i db)
  | channel {row : Channel} {u : Uuid} {channels : Table Channel} : PgDb.uuid uid = some u →
      row.ownerId = some u → db.hasUser u = true → db.channels.insert row = some channels →
      Effect pg uid now db { db with channels := channels }
  | subscriber {row : ChannelSubscriber} {subscribers : Table ChannelSubscriber} :
      PgDb.uuid uid = some row.userId → db.channelSubscribers.insert row = some subscribers →
      db.hasChannel row.channelId = true → db.hasUser row.userId = true →
      Effect pg uid now db { db with channelSubscribers := subscribers }
  | count (ch : Uuid) : Effect pg uid now db { db with
      channels := db.channels.modify (fun c => c.id == ch) Channels.countUp Channels.clash_countUp }
  | post {row : ChannelPost} {u : Uuid} {posts : Table ChannelPost} : PgDb.uuid uid = some u →
      row.authorId = some u → db.channelPosts.insert row = some posts →
      db.hasChannel row.channelId = true → db.hasUser u = true →
      Effect pg uid now db { db with channelPosts := posts }
  | dropPost (p ch : Uuid) : Effect pg uid now db (Channels.dropPost p ch db)

/-- No effect, or some in a row. -/
abbrev Effects (pg : Pg) (uid : String) (now : Time) : Db → Db → Prop :=
  Relation.ReflTransGen (Effect pg uid now)

theorem Effects.of {pg : Pg} {uid : String} {now : Time} {db db' : Db}
    (h : Effect pg uid now db db') : Effects pg uid now db db' := .single h

/-- A statement, by what it does when the database accepts it. -/
theorem effects_attempt {pg : Pg} {uid : String} {now : Time} {db : Db} {α L : Type}
    {o : PgDb.Outcome} {q : Stmt Db α} {ok : α → L} {failed : SqlError → L}
    (h : ∀ db' a, q db = .ok (db', a) → Effects pg uid now db db') :
    Effects pg uid now db (attempt o q db ok failed).1 :=
  attempt_inv (fun db' _ => Effects pg uid now db db') (fun _ => .refl)
    (fun db' a hq => ⟨h db' a hq, fun _ => h db' a hq⟩)

/-- What a statement does to a view of the database, as the list of what it did. -/
theorem attempt_replays {α L V E : Type} (view : Db → V) {apply : V → E → V} {es : List E}
    {o : PgDb.Outcome} {q : Stmt Db α} {db : Db} {ok : α → L} {failed : SqlError → L}
    (hok : ∀ db' a, q db = .ok (db', a) → view db' = es.foldl apply (view db))
    (hrefused : ∀ e, q db = .error e → es = []) :
    view (attempt o q db ok failed).1 = (if o.executes then es else []).foldl apply (view db) := by
  refine attempt_rule (fun db' _ => view db' = (if o.executes then es else []).foldl apply (view db))
    (fun e he => ?_) (fun db' a hq ho => ?_) (fun db' a msg hq ho => ?_)
  · split
    · rename_i hex
      obtain ⟨e', hq⟩ := he hex
      rw [hrefused e' hq]
      rfl
    · rfl
  · rw [ho]
    exact hok db' a hq
  · rw [ho]
    exact hok db' a hq

/-! ## Accounts -/

namespace Accounts

/-- The last parameter is the caller. -/
def Point.Own (uid : String) : Point → Prop
  | .updateMe u => u.param u.idx = .ok (cstr uid)
  | _ => True

theorem addField_idx {body : Json} {u u' : Update} {field : Column × String}
    (h : addField body u field = .ok u') (hu : u.params.length + 1 = u.idx) :
    u'.params.length + 1 = u'.idx := by
  unfold addField at h
  split at h
  · cases h
    exact hu
  · cases h
    exact hu
  · obtain ⟨s, _, h⟩ := bind_ok.mp h
    cases h
    rw [List.length_append, List.length_singleton, hu]

theorem foldlM_addField_idx {body : Json} (fs : List (Column × String)) :
    ∀ {u u' : Update}, fs.foldlM (addField body) u = .ok u' → u.params.length + 1 = u.idx →
      u'.params.length + 1 = u'.idx := by
  induction fs with
  | nil =>
      intro u u' h hu
      cases h
      exact hu
  | cons f fs ih =>
      intro u u' h hu
      rw [List.foldlM_cons] at h
      obtain ⟨u₁, hfirst, h⟩ := bind_ok.mp h
      exact ih h (addField_idx hfirst hu)

theorem own_routeUpdateMe (uid : String) (body : Option Json) :
    (routeUpdateMe uid body).Own uid := by
  unfold routeUpdateMe withBody
  cases body with
  | none => trivial
  | some j =>
      cases hfold : fields.foldlM (addField j) ⟨[], [], 1⟩ with
      | error e =>
          simp only [hfold]
          trivial
      | ok u =>
          have hidx := foldlM_addField_idx fields hfold rfl
          simp only [hfold]
          split
          · trivial
          · show Update.param { u with params := u.params ++ [uid] } u.idx = .ok (cstr uid)
            have hlast : (u.params ++ [uid])[u.idx - 1]? = some uid := by
              rw [← hidx, Nat.add_sub_cancel, List.getElem?_concat_length]
            unfold Update.param
            rw [hlast]

theorem own_routeAddContact (uid : String) (body : Option Json) :
    (routeAddContact uid body).Own uid := by
  unfold routeAddContact
  split
  · trivial
  · split
    · trivial
    · split <;> trivial

theorem own_start (uid : String) (c : Call) : (start uid c).Own uid := by
  cases c with
  | updateMe body => exact own_routeUpdateMe uid body
  | addContact body => exact own_routeAddContact uid body
  | removeContact contactId => trivial

theorem own_step (uid : String) (p : Point) (inp : Input) (db : Db) :
    (step uid p inp db).2.Own uid := by
  cases p with
  | updateMe u => exact attempt_next (K := Point.Own uid) (fun _ => trivial) (fun _ => trivial)
  | addContact contactId nickname =>
      exact attempt_next (K := Point.Own uid) (fun _ => trivial) (fun _ => trivial)
  | removeContact contactId =>
      exact attempt_next (K := Point.Own uid) (fun _ => trivial) (fun _ => trivial)
  | exited e => trivial

theorem others_of_apply {u : Update} {x x' : User} (h : u.apply x = .ok x') :
    others x' = others x := by
  have key : ∀ (parts : List (Column × Nat)) (x : User), parts.foldlM (fun x part => do
      let s ← u.param part.2
      part.1.set s x) x = .ok x' → others x' = others x := by
    intro parts
    induction parts with
    | nil =>
        intro x h
        cases h
        rfl
    | cons part parts ih =>
        intro x h
        rw [List.foldlM_cons] at h
        obtain ⟨x₁, hset, h⟩ := bind_ok.mp h
        obtain ⟨s, _, hset⟩ := bind_ok.mp hset
        obtain ⟨t, _, rfl⟩ := set_ok hset
        exact (ih _ h).trans (others_put part.1 t x)
  exact key u.parts x h

variable {pg : Pg} {uid : String} {now : Time} {db db' : Db} {a : Unit}

theorem effects_updateUser {u : Update} (hown : u.param u.idx = .ok (cstr uid))
    (h : updateUser u db = .ok (db', a)) : Effects pg uid now db db' := by
  unfold updateUser at h
  obtain ⟨id, hid, h⟩ := bind_ok.mp h
  rw [hown] at hid
  have hid : PgDb.uuid uid = some id := need_ok.mp hid
  split at h
  · cases h
    exact .refl
  · rename_i x hfind
    obtain ⟨x', happly, h⟩ := bind_ok.mp h
    split at h
    · cases h
    · rename_i users hupdate
      cases h
      have hxid : x.id = id := by simpa using List.find?_some hfind
      rw [← hxid] at hid hupdate
      exact Effects.of (.profile hid (List.mem_of_find?_eq_some hfind) (others_of_apply happly)
        hupdate)

theorem effects_upsertContact {contactId nickname : String}
    (h : upsertContact uid contactId nickname db = .ok (db', a)) : Effects pg uid now db db' := by
  unfold upsertContact at h
  obtain ⟨u, hu, h⟩ := bind_ok.mp h
  obtain ⟨c, _, h⟩ := bind_ok.mp h
  obtain ⟨nick, _, h⟩ := bind_ok.mp h
  obtain ⟨db₁, hrow, h⟩ := bind_ok.mp h
  cases h
  unfold upsertRow at hrow
  split at hrow
  · cases hrow
    have hmine : PgDb.uuid uid =
        some ({ userId := u, contactId := c, nickname := some nick } : Contact).userId :=
      need_ok.mp hu
    exact Effects.of (.renameContact hmine)
  · rename_i contacts hins
    split at hrow
    · rename_i hfk
      rw [Bool.and_eq_true] at hfk
      cases hrow
      exact Effects.of (.newContact (need_ok.mp hu) rfl hins hfk.1 hfk.2)
    · cases hrow

theorem effects_eraseContact {contactId : Bytes}
    (h : eraseContact uid contactId db = .ok (db', a)) : Effects pg uid now db db' := by
  unfold eraseContact at h
  obtain ⟨u, hu, h⟩ := bind_ok.mp h
  obtain ⟨c, _, h⟩ := bind_ok.mp h
  cases h
  exact Effects.of (.dropContact (need_ok.mp hu))

theorem effects_step {p : Point} (hown : p.Own uid) (inp : Input) (db : Db) :
    Effects pg uid now db (step uid p inp db).1 := by
  cases p with
  | updateMe u => exact effects_attempt (fun _ _ h => effects_updateUser hown h)
  | addContact contactId nickname => exact effects_attempt (fun _ _ h => effects_upsertContact h)
  | removeContact contactId => exact effects_attempt (fun _ _ h => effects_eraseContact h)
  | exited e => exact .refl

end Accounts

/-! ## Chats -/

namespace Chats

variable {pg : Pg} {uid : String} {now : Time} {db db' : Db}

theorem effects_insertChat {chatType : ChatType} {naming : Option (String × String)} {id a : Uuid}
    (h : insertChat chatType naming uid id now db = .ok (db', a)) : Effects pg uid now db db' := by
  obtain ⟨_, u, name, chats, hu, _, huser, hins, rfl⟩ := insertChat_ok h
  exact Effects.of (.chat hu rfl huser hins)

theorem effects_insertMember {row : ChatMember} (hmute : row.mutedUntil = none)
    (h : insertMember row db = .ok db') : Effects pg uid now db db' := by
  obtain ⟨members, hins, hchat, huser, rfl⟩ := insertMember_ok h
  exact Effects.of (.member hmute hins hchat huser)

theorem effects_step (p : Point) (inp : Input) (db : Db) :
    Effects pg uid inp.now db (step pg uid p inp db).1 := by
  cases p with
  | findDirect targetId =>
      refine effects_attempt (fun db' a h => ?_)
      obtain ⟨rfl, _⟩ := PgDb.reading_ok.mp h
      exact .refl
  | createDirect targetId => exact effects_attempt (fun _ _ h => effects_insertChat h)
  | joinDirect chatId targetId =>
      refine effects_attempt (fun db' a h => ?_)
      obtain ⟨c, u, v, db₁, _, _, _, hfirst, hsecond⟩ := insertPair_ok h
      exact (effects_insertMember rfl hfirst).trans (effects_insertMember rfl hsecond)
  | createGroup name desc members => exact effects_attempt (fun _ _ h => effects_insertChat h)
  | ownGroup chatId name members =>
      refine effects_attempt (fun db' a h => ?_)
      obtain ⟨c, u, _, _, hins⟩ := insertOwner_ok h
      exact effects_insertMember rfl hins
  | joinGroup chatId name memberId rest =>
      refine effects_attempt (fun db' a h => ?_)
      obtain ⟨c, v, _, _, rfl | hins⟩ := insertGroupMember_ok h
      · exact .refl
      · exact effects_insertMember rfl hins
  | addMember chatId target =>
      refine effects_attempt (fun db' a h => ?_)
      obtain ⟨c, v, _, _, ⟨_, rfl⟩ | ⟨_, hins⟩⟩ := upsertMember_ok h
      · exact Effects.of (.leftAt c v none)
      · exact effects_insertMember rfl hins
  | removeMember chatId targetUid =>
      refine effects_attempt (fun db' a h => ?_)
      obtain ⟨c, v, _, _, rfl⟩ := leaveMember_ok h
      exact Effects.of (.leftAt c v (some inp.now))
  | pinMessage msgId =>
      refine effects_attempt (fun db' a h => ?_)
      obtain ⟨i, _, rfl⟩ := togglePin_ok h
      exact Effects.of (.pin i)
  | reactMessage msgId emoji => exact effects_attempt (fun _ _ h => nomatch h)
  | muteChat chatId =>
      refine effects_attempt (fun db' a h => ?_)
      obtain ⟨c, u, _, hu, rfl⟩ := muteMember_ok h
      exact Effects.of (.mute c hu)
  | exited e => exact .refl

end Chats

/-! ## Channels -/

namespace Channels

variable {pg : Pg} {uid : String} {now : Time} {db db' : Db}

theorem effects_insertSubscriber {row : ChannelSubscriber} (hu : PgDb.uuid uid = some row.userId)
    (h : insertSubscriber row db = .ok db') : Effects pg uid now db db' := by
  obtain ⟨subscribers, hins, hch, huser, rfl⟩ := insertSubscriber_ok h
  exact Effects.of (.subscriber hu hins hch huser)

theorem effects_insertPost {channelId : Bytes} {content : String} {isPaid : Bool} {id : Uuid}
    {a : Unit} (h : insertPost channelId content isPaid uid id now db = .ok (db', a)) :
    Effects pg uid now db db' := by
  unfold insertPost at h
  obtain ⟨ch, _, h⟩ := bind_ok.mp h
  obtain ⟨u, hu, h⟩ := bind_ok.mp h
  split at h
  · cases h
  · rename_i posts hins
    split at h
    · rename_i hfk
      rw [Bool.and_eq_true] at hfk
      cases h
      exact Effects.of (.post (need_ok.mp hu) rfl hins hfk.1 hfk.2)
    · cases h

theorem effects_step (p : Point) (inp : Input) (db : Db) :
    Effects pg uid inp.now db (step uid p inp db).1 := by
  cases p with
  | createChannel username name description isPublic =>
      refine effects_attempt (fun db' a h => ?_)
      obtain ⟨_, _, _, u, channels, hu, huser, hins, rfl⟩ := insertChannel_ok h
      exact Effects.of (.channel hu rfl huser hins)
  | ownChannel chanId username =>
      refine effects_attempt (fun db' a h => ?_)
      obtain ⟨ch, u, _, hu, hins⟩ := insertOwner_ok h
      exact effects_insertSubscriber hu hins
  | subscribe channelId =>
      refine effects_attempt (fun db' a h => ?_)
      obtain ⟨ch, u, _, hu, rfl | hins⟩ := insertSubscription_ok h
      · exact .refl
      · exact effects_insertSubscriber hu hins
  | countSubscriber channelId =>
      refine effects_attempt (fun db' a h => ?_)
      obtain ⟨ch, _, rfl⟩ := incrementCount_ok h
      exact Effects.of (.count ch)
  | readRole channelId content isPaid =>
      refine effects_attempt (fun db' a h => ?_)
      obtain ⟨rfl, _⟩ := selectRole_ok h
      exact .refl
  | createPost channelId content isPaid => exact effects_attempt (fun _ _ h => effects_insertPost h)
  | deletePost channelId postId =>
      refine effects_attempt (fun db' a h => ?_)
      obtain ⟨p, ch, _, _, rfl⟩ := erasePost_ok h
      exact Effects.of (.dropPost p ch)
  | exited e => exact .refl

end Channels

/-! ## All handlers -/

def Thread.Own (t : Thread) : Prop :=
  match t.point with
  | .account p => p.Own t.uid
  | _ => True

theorem own_start (r : Request) : (start r).Own := by
  obtain ⟨uid, call⟩ := r
  cases call with
  | account c => exact Accounts.own_start uid c
  | query r => trivial
  | chat c => trivial
  | channel c => trivial

theorem own_step (pg : Pg) (t : Thread) (inp : Input) (db : Db) :
    (step pg t inp db).2.1.Own := by
  obtain ⟨uid, point⟩ := t
  cases point with
  | account p => exact Accounts.own_step uid p inp db
  | query r => trivial
  | answered r => trivial
  | chat p => trivial
  | channel p => trivial

/-- The step lemma: what a step of a thread does to the database. -/
theorem step_effects (pg : Pg) {t : Thread} (hown : t.Own) (inp : Input) (db : Db) :
    Effects pg t.uid inp.now db (step pg t inp db).1 := by
  obtain ⟨uid, point⟩ := t
  cases point with
  | query r => exact .refl
  | answered r => exact .refl
  | account p => exact Accounts.effects_step hown inp db
  | chat p => exact Chats.effects_step p inp db
  | channel p => exact Channels.effects_step p inp db

theorem uid_step (pg : Pg) (t : Thread) (inp : Input) (db : Db) :
    (step pg t inp db).2.1.uid = t.uid := by
  obtain ⟨uid, point⟩ := t
  cases point <;> rfl

end MessengerBackend.Api
