/-
  The channels over whole runs: who subscribes to what, and what is posted.

  `subscription db (ch, u)` is the role that `u` has in `ch`, and `post db p` the post with the
  id. `Channels.enrolments` and `Channels.postings` say when a step of a handler writes them;
  no other statement of the server has a part in it. So after any run each is what was written
  there last (`roleIn`, `board`).

  * `subscriptions_of_run`: the list of the caller's channels is that map.
  * `posts_of_run`: a page of a channel is made of the posts that the map has there, the
    newest of them (`Page`). `before` is absent or a timestamp.

  A post of another channel survives a deletion with its id, and a subscription is never taken
  back.
-/
import MessengerBackend.HttpApi.Answers
import MessengerBackend.HttpApi.Effects
import MessengerBackend.Api.DirectChats

namespace MessengerBackend

open PgDb (Stmt cstr need need_ok)
open Interleave (write lastWrite)
open Select (join orderBy)
open Sql
open Except (bind_ok)

/-! ## The two maps -/

def ChannelSubscriber.pair (s : ChannelSubscriber) : Uuid × Uuid := (s.channelId, s.userId)

theorem clash_subscriber (a b : ChannelSubscriber) :
    Keyed.clash a b = decide (a.pair = b.pair) := by
  simp [Keyed.clash, ChannelSubscriber.pair, Bool.beq_eq_decide_eq, Bool.decide_and]

theorem clash_post (a b : ChannelPost) : Keyed.clash a b = decide (a.id = b.id) := rfl

/-- The role in a channel of a user. -/
def Db.subscription (db : Db) (k : Uuid × Uuid) : Option String :=
  (db.channelSubscribers.lookup ChannelSubscriber.pair k).map ChannelSubscriber.role

def Db.post (db : Db) (p : Uuid) : Option ChannelPost := db.channelPosts.lookup ChannelPost.id p

/-- A channel and a user, with the role from then on. -/
abbrev Enrolment := (Uuid × Uuid) × Option String

/-- A post from then on, or none. -/
abbrev Posting := Uuid × Option ChannelPost

namespace Api.Channels

/-! ## Subscriptions -/

/-- A row is added once, and needs both sides. -/
def enrolment (channel user : Option Uuid) (role : String) (db : Db) : List Enrolment :=
  match channel, user with
  | some ch, some u =>
      if (db.subscription (ch, u)).isNone && (db.hasChannel ch && db.hasUser u) then
        [((ch, u), some role)]
      else []
  | _, _ => []

def enrolments (uid : String) : Point → Input → Db → List Enrolment
  | .ownChannel chanId _, inp, db =>
      if inp.first.executes then enrolment (PgDb.uuid chanId) (PgDb.uuid uid) "owner" db else []
  | .subscribe channelId, inp, db =>
      if inp.first.executes then
        enrolment (PgDb.uuidBytes channelId) (PgDb.uuid uid) "subscriber" db
      else []
  | _, _, _ => []

theorem subscriberRow_eq (db : Db) (ch u : Uuid) :
    subscriberRow db ch u = db.channelSubscribers.lookup ChannelSubscriber.pair (ch, u) := by
  refine List.find?_congr (fun s _ => ?_)
  exact clash_subscriber s { channelId := ch, userId := u }

theorem subscription_insertSubscriber {row : ChannelSubscriber} {db db' : Db}
    (h : insertSubscriber row db = .ok db') :
    db.subscription row.pair = none ∧ (db.hasChannel row.channelId && db.hasUser row.userId) = true ∧
      db'.subscription = write db.subscription (row.pair, some row.role) := by
  obtain ⟨subscribers, hins, hch, hu, rfl⟩ := insertSubscriber_ok h
  refine ⟨?_, by rw [hch, hu]; rfl, ?_⟩
  · rw [Db.subscription, Table.lookup_eq_none.mpr (fun b hb hpair => ?_)]
    · rfl
    · have hfresh := Table.insert_fresh hins b hb
      rw [clash_subscriber, hpair] at hfresh
      simp at hfresh
  · funext k
    rw [Db.subscription, Table.lookup_insert clash_subscriber hins]
    by_cases hk : k = row.pair
    · subst hk
      rw [if_pos rfl, Interleave.write_self]
      rfl
    · rw [if_neg hk, Interleave.write_of_ne hk]
      rfl

theorem insertSubscriber_refused {row : ChannelSubscriber} {db : Db} {e : SqlError}
    (h : insertSubscriber row db = .error e) :
    ((db.subscription row.pair).isNone && (db.hasChannel row.channelId && db.hasUser row.userId)) =
      false := by
  unfold insertSubscriber at h
  split at h
  · rename_i hnone
    obtain ⟨b, hb, hclash⟩ := Table.insert_eq_none hnone
    rw [clash_subscriber, decide_eq_true_iff] at hclash
    rw [Db.subscription, hclash, Table.lookup_of_mem clash_subscriber hb]
    rfl
  · split at h
    · cases h
    · rename_i hfk
      rw [Bool.eq_false_iff.mpr hfk, Bool.and_false]

theorem subscription_insertOwner {chanId uid : String} {db db' : Db} {a : Unit}
    (h : insertOwner chanId uid db = .ok (db', a)) :
    db'.subscription = (enrolment (PgDb.uuid chanId) (PgDb.uuid uid) "owner" db).foldl write
      db.subscription := by
  obtain ⟨ch, u, hch, hu, hins⟩ := insertOwner_ok h
  obtain ⟨hnone, hfk, hwrite⟩ := subscription_insertSubscriber hins
  have hnone : db.subscription (ch, u) = none := hnone
  have hfk : (db.hasChannel ch && db.hasUser u) = true := hfk
  rw [hwrite, hch, hu]
  simp only [enrolment, hnone, hfk, Option.isNone_none, Bool.and_self, if_true]
  rfl

theorem insertOwner_refused {chanId uid : String} {db : Db} {e : SqlError}
    (h : insertOwner chanId uid db = .error e) :
    enrolment (PgDb.uuid chanId) (PgDb.uuid uid) "owner" db = [] := by
  unfold enrolment
  split
  · rename_i ch u hch hu
    simp only [insertOwner, hch, hu, need, bind, Except.bind] at h
    cases hrow : insertSubscriber { channelId := ch, userId := u, role := "owner" } db with
    | error e' => exact if_neg (Bool.eq_false_iff.mp (insertSubscriber_refused hrow))
    | ok db₁ =>
        rw [hrow] at h
        cases h
  · rfl

theorem subscription_insertSubscription {channelId : Bytes} {uid : String} {db db' : Db} {a : Unit}
    (h : insertSubscription channelId uid db = .ok (db', a)) :
    db'.subscription = (enrolment (PgDb.uuidBytes channelId) (PgDb.uuid uid) "subscriber" db).foldl
      write db.subscription := by
  unfold insertSubscription at h
  obtain ⟨ch, hch, h⟩ := bind_ok.mp h
  obtain ⟨u, hu, h⟩ := bind_ok.mp h
  rw [need_ok.mp hch, need_ok.mp hu]
  split at h
  · rename_i row hrow
    cases h
    have hsome : db.subscription (ch, u) = some row.role := by
      rw [Db.subscription, ← subscriberRow_eq, hrow]
      rfl
    simp only [enrolment, hsome, Option.isNone_some, Bool.false_and]
    rfl
  · obtain ⟨db₁, hins, h⟩ := bind_ok.mp h
    cases h
    obtain ⟨hnone, hfk, hwrite⟩ := subscription_insertSubscriber hins
    have hnone : db.subscription (ch, u) = none := hnone
    have hfk : (db.hasChannel ch && db.hasUser u) = true := hfk
    rw [hwrite]
    simp only [enrolment, hnone, hfk, Option.isNone_none, Bool.and_self, if_true]
    rfl

theorem insertSubscription_refused {channelId : Bytes} {uid : String} {db : Db} {e : SqlError}
    (h : insertSubscription channelId uid db = .error e) :
    enrolment (PgDb.uuidBytes channelId) (PgDb.uuid uid) "subscriber" db = [] := by
  unfold enrolment
  split
  · rename_i ch u hch hu
    simp only [insertSubscription, hch, hu, need, bind, Except.bind] at h
    split at h
    · cases h
    · cases hrow : insertSubscriber { channelId := ch, userId := u } db with
      | error e' => exact if_neg (Bool.eq_false_iff.mp (insertSubscriber_refused hrow))
      | ok db₁ =>
          rw [hrow] at h
          cases h
  · rfl

/-! ## Posts -/

/-- A new post needs its channel, its author and a new id. -/
def posted (channel author : Option Uuid) (id : Uuid) (content : String) (isPaid : Bool)
    (now : Time) (db : Db) : List Posting :=
  match channel, author with
  | some ch, some u =>
      if (db.post id).isNone && (db.hasChannel ch && db.hasUser u) then
        [(id, some (postRow id ch (cstr content) isPaid u now))]
      else []
  | _, _ => []

/-- A post is taken down only under its own channel. -/
def takenDown (post channel : Option Uuid) (db : Db) : List Posting :=
  match post, channel with
  | some p, some ch => if (db.post p).any (·.channelId == ch) then [(p, none)] else []
  | _, _ => []

def postings (uid : String) : Point → Input → Db → List Posting
  | .createPost channelId content isPaid, inp, db =>
      if inp.first.executes then
        posted (PgDb.uuidBytes channelId) (PgDb.uuid uid) inp.freshId content isPaid inp.now db
      else []
  | .deletePost channelId postId, inp, db =>
      if inp.first.executes then takenDown (PgDb.uuidBytes postId) (PgDb.uuidBytes channelId) db
      else []
  | _, _, _ => []

theorem post_insertPost {channelId : Bytes} {content uid : String} {isPaid : Bool} {id : Uuid}
    {now : Time} {db db' : Db} {a : Unit}
    (h : insertPost channelId content isPaid uid id now db = .ok (db', a)) :
    db'.post = (posted (PgDb.uuidBytes channelId) (PgDb.uuid uid) id content isPaid now db).foldl
      write db.post := by
  unfold insertPost at h
  obtain ⟨ch, hch, h⟩ := bind_ok.mp h
  obtain ⟨u, hu, h⟩ := bind_ok.mp h
  rw [need_ok.mp hch, need_ok.mp hu]
  split at h
  · cases h
  · rename_i posts hins
    split at h
    · rename_i hfk
      cases h
      have hnone : db.post id = none := by
        refine Table.lookup_eq_none.mpr (fun b hb hid => ?_)
        have hfresh := Table.insert_fresh hins b hb
        rw [clash_post, hid] at hfresh
        simp [postRow] at hfresh
      simp only [posted, hnone, hfk, Option.isNone_none, Bool.and_self, if_true]
      funext k
      rw [Db.post, Table.lookup_insert clash_post hins]
      by_cases hk : k = id
      · subst hk
        exact (if_pos rfl).trans (Interleave.write_self db.post k _).symm
      · exact (if_neg hk).trans (Interleave.write_of_ne hk db.post _).symm
    · cases h

theorem insertPost_refused {channelId : Bytes} {content uid : String} {isPaid : Bool} {id : Uuid}
    {now : Time} {db : Db} {e : SqlError}
    (h : insertPost channelId content isPaid uid id now db = .error e) :
    posted (PgDb.uuidBytes channelId) (PgDb.uuid uid) id content isPaid now db = [] := by
  unfold posted
  split
  · rename_i ch u hch hu
    simp only [insertPost, hch, hu, need, bind, Except.bind] at h
    split at h
    · rename_i hnone
      obtain ⟨b, hb, hclash⟩ := Table.insert_eq_none hnone
      have hid : b.id = id := (of_decide_eq_true hclash).symm
      have hsome : db.post id = some b := (Table.lookup_eq_some clash_post).mpr ⟨hb, hid⟩
      rw [hsome]
      rfl
    · split at h
      · cases h
      · rename_i hfk
        rw [Bool.eq_false_iff.mpr hfk, Bool.and_false]
        rfl
  · rfl

theorem post_dropPost (p ch : Uuid) (db : Db) :
    (dropPost p ch db).post = (takenDown (some p) (some ch) db).foldl write db.post := by
  funext k
  have hlookup : (dropPost p ch db).post k =
      if k = p then (db.post k).filter (fun r => !(r.channelId == ch)) else db.post k :=
    Table.lookup_erase_and clash_post (fun r => r.channelId == ch) p k
  have htaken : takenDown (some p) (some ch) db =
      if (db.post p).any (·.channelId == ch) then [(p, none)] else [] := rfl
  rw [hlookup, htaken]
  by_cases hk : k = p
  · subst hk
    rw [if_pos rfl]
    by_cases hany : (db.post k).any (·.channelId == ch) = true
    · have hgone : [(k, none)].foldl write db.post k = none := Interleave.write_self db.post k none
      rw [if_pos hany, hgone]
      obtain ⟨r, hr, hch⟩ := (Option.any_eq_true _ _).mp hany
      rw [hr]
      simp [Option.filter, hch]
    · rw [if_neg hany]
      show (db.post k).filter _ = db.post k
      cases hr : db.post k with
      | none => rfl
      | some r =>
          rw [hr] at hany
          simpa [Option.filter] using hany
  · rw [if_neg hk]
    split
    · exact (Interleave.write_of_ne hk _ _).symm
    · rfl

theorem erasePost_refused {channelId postId : Bytes} {db : Db} {e : SqlError}
    (h : erasePost channelId postId db = .error e) :
    takenDown (PgDb.uuidBytes postId) (PgDb.uuidBytes channelId) db = [] := by
  unfold takenDown
  split
  · rename_i p ch hp hch
    simp only [erasePost, hp, hch, need, bind, Except.bind] at h
    cases h
  · rfl

/-! ## The step lemmas -/

theorem subscription_step (uid : String) (p : Point) (inp : Input) (db : Db) :
    (step uid p inp db).1.subscription = (enrolments uid p inp db).foldl write db.subscription := by
  have same : ∀ {α : Type} {o : PgDb.Outcome} {q : Stmt Db α} {ok : α → Point}
      {failed : SqlError → Point},
      (∀ db' a, q db = .ok (db', a) → db'.subscription = db.subscription) →
      (attempt o q db ok failed).1.subscription = db.subscription :=
    fun h => attempt_inv (fun db' _ => db'.subscription = db.subscription) (fun _ => rfl)
      (fun db' a hq => ⟨h db' a hq, fun _ => h db' a hq⟩)
  cases p with
  | ownChannel chanId username =>
      exact attempt_replays Db.subscription (fun _ _ h => subscription_insertOwner h)
        (fun _ h => insertOwner_refused h)
  | subscribe channelId =>
      exact attempt_replays Db.subscription
        (fun _ _ h => subscription_insertSubscription h) (fun _ h => insertSubscription_refused h)
  | createChannel username name description isPublic =>
      refine same (fun db' a h => ?_)
      obtain ⟨_, _, _, _, _, _, _, _, rfl⟩ := insertChannel_ok h
      rfl
  | countSubscriber channelId =>
      refine same (fun db' a h => ?_)
      obtain ⟨_, _, rfl⟩ := incrementCount_ok h
      rfl
  | readRole channelId content isPaid =>
      refine same (fun db' a h => ?_)
      obtain ⟨rfl, _⟩ := selectRole_ok h
      rfl
  | createPost channelId content isPaid =>
      refine same (fun db' a h => ?_)
      obtain ⟨_, _, _, _, _, _, rfl⟩ := insertPost_ok h
      rfl
  | deletePost channelId postId =>
      refine same (fun db' a h => ?_)
      obtain ⟨_, _, _, _, rfl⟩ := erasePost_ok h
      rfl
  | exited e => rfl

theorem post_step (uid : String) (p : Point) (inp : Input) (db : Db) :
    (step uid p inp db).1.post = (postings uid p inp db).foldl write db.post := by
  have same : ∀ {α : Type} {o : PgDb.Outcome} {q : Stmt Db α} {ok : α → Point}
      {failed : SqlError → Point}, (∀ db' a, q db = .ok (db', a) → db'.post = db.post) →
      (attempt o q db ok failed).1.post = db.post :=
    fun h => attempt_inv (fun db' _ => db'.post = db.post) (fun _ => rfl)
      (fun db' a hq => ⟨h db' a hq, fun _ => h db' a hq⟩)
  cases p with
  | createPost channelId content isPaid =>
      exact attempt_replays Db.post (fun _ _ h => post_insertPost h)
        (fun _ h => insertPost_refused h)
  | deletePost channelId postId =>
      refine attempt_replays Db.post (fun db' a h => ?_) (fun _ h => erasePost_refused h)
      obtain ⟨p, ch, hp, hch, rfl⟩ := erasePost_ok h
      rw [hp, hch]
      exact post_dropPost p ch db
  | createChannel username name description isPublic =>
      refine same (fun db' a h => ?_)
      obtain ⟨_, _, _, _, _, _, _, _, rfl⟩ := insertChannel_ok h
      rfl
  | ownChannel chanId username =>
      refine same (fun db' a h => ?_)
      obtain ⟨_, _, _, _, hins⟩ := insertOwner_ok h
      obtain ⟨_, _, _, _, rfl⟩ := insertSubscriber_ok hins
      rfl
  | subscribe channelId =>
      refine same (fun db' a h => ?_)
      obtain ⟨_, _, _, _, rfl | hins⟩ := insertSubscription_ok h
      · rfl
      · obtain ⟨_, _, _, _, rfl⟩ := insertSubscriber_ok hins
        rfl
  | countSubscriber channelId =>
      refine same (fun db' a h => ?_)
      obtain ⟨_, _, rfl⟩ := incrementCount_ok h
      rfl
  | readRole channelId content isPaid =>
      refine same (fun db' a h => ?_)
      obtain ⟨rfl, _⟩ := selectRole_ok h
      rfl
  | exited e => rfl

end Api.Channels

namespace HttpApi

/-! ## The maps after a run -/

def enrolments (t : Api.Thread) (inp : Api.Input) (db : Db) : List Enrolment :=
  match t.point with
  | .channel p => Api.Channels.enrolments t.uid p inp db
  | _ => []

def postings (t : Api.Thread) (inp : Api.Input) (db : Db) : List Posting :=
  match t.point with
  | .channel p => Api.Channels.postings t.uid p inp db
  | _ => []

theorem subscription_of_step (pg : Pg) (t : Api.Thread) (inp : Api.Input) (db : Db) :
    (Api.step pg t inp db).1.subscription = (enrolments t inp db).foldl write db.subscription := by
  obtain ⟨uid, point⟩ := t
  cases point with
  | query r => rfl
  | answered r => rfl
  | channel p => exact Api.Channels.subscription_step uid p inp db
  | account p =>
      obtain ⟨users, contacts, hdb⟩ := Api.Accounts.step_writes uid p inp db
      exact (congrArg Db.subscription hdb :)
  | chat p =>
      obtain ⟨chats, members, messages, hdb⟩ := Api.Chats.step_writes pg uid p inp db
      exact (congrArg Db.subscription hdb :)

theorem post_of_step (pg : Pg) (t : Api.Thread) (inp : Api.Input) (db : Db) :
    (Api.step pg t inp db).1.post = (postings t inp db).foldl write db.post := by
  obtain ⟨uid, point⟩ := t
  cases point with
  | query r => rfl
  | answered r => rfl
  | channel p => exact Api.Channels.post_step uid p inp db
  | account p =>
      obtain ⟨users, contacts, hdb⟩ := Api.Accounts.step_writes uid p inp db
      exact (congrArg Db.post hdb :)
  | chat p =>
      obtain ⟨chats, members, messages, hdb⟩ := Api.Chats.step_writes pg uid p inp db
      exact (congrArg Db.post hdb :)

/-- The role that the run left the user with. -/
def roleIn (env : Env) (s : State) (as : List Action) (k : Uuid × Uuid) : Option String :=
  (lastWrite k (log enrolments env s as)).getD (s.db.subscription k)

/-- The post that the run left under the id. -/
def board (env : Env) (s : State) (as : List Action) (p : Uuid) : Option ChannelPost :=
  (lastWrite p (log postings env s as)).getD (s.db.post p)

theorem subscription_run (env : Env) (s : State) (as : List Action) :
    (run env s as).shared.db.subscription = roleIn env s as := by
  funext k
  rw [view_run Db.subscription (fun _ _ _ => rfl) (subscription_of_step env.pg) s as]
  exact Interleave.foldl_write _ _ k

theorem post_run (env : Env) (s : State) (as : List Action) :
    (run env s as).shared.db.post = board env s as := by
  funext p
  rw [view_run Db.post (fun _ _ _ => rfl) (post_of_step env.pg) s as]
  exact Interleave.foldl_write _ _ p

/-! ## The caller's channels -/

section List

variable {pg : Pg} {db : Db} {u : Uuid}

def channelRows (pg : Pg) (u : Uuid) (db : Db) : List (ChannelSubscriber × Channel) :=
  orderBy (fun a b => pg.collate a.2.name b.2.name)
    ((join (fun cs c => c.id == cs.channelId) db.channelSubscribers.rows db.channels.rows).filter
      (fun p => p.1.userId == u))

theorem mem_channelRows {p : ChannelSubscriber × Channel} : p ∈ channelRows pg u db ↔
    p.1 ∈ db.channelSubscribers ∧ p.2 ∈ db.channels ∧ p.2.id = p.1.channelId ∧ p.1.userId = u := by
  obtain ⟨r, x⟩ := p
  simp only [channelRows, Select.mem_orderBy, List.mem_filter, Select.mem_join, beq_iff_eq,
    Table.mem_iff]
  tauto

theorem nodup_channelRows : (channelRows pg u db).Nodup :=
  Select.nodup_orderBy _ ((Select.nodup_join _ (Table.nodup_rows (fun _ => by simp [Keyed.clash]) _)
    (Table.nodup_rows (fun _ => by simp [Keyed.clash]) _)).filter _)

/-- A row of the response. -/
def channelShown (p : ChannelSubscriber × Channel) : Json :=
  .obj [("id", uuidCol p.2.id), ("username", .str p.2.username), ("name", .str p.2.name),
    ("avatar_url", .ofText p.2.avatarUrl), ("role", .str p.1.role)]

def roleCols (role : String) : List (String × Json) := [("role", .str role)]

/-- The list says of each channel what the map has. -/
theorem lists_channels (hs : db.Integrity) {q : Api.Env} (hq : q.first = .done) {uid : String}
    (hu : PgDb.uuid uid = some u) :
    ∃ rows, Api.respond pg q uid .myChannels db = jsonResp 200 (.arr rows) ∧
      Lists rows roleCols (fun ch => db.subscription (ch, u)) := by
  refine ⟨(channelRows pg u db).map channelShown, ?_, lists_of_rows (fun p => p.2.id)
    (fun p => p.1.role) channelShown nodup_channelRows (fun p hp p' hp' hid => ?_)
    (fun ch role => ?_) (fun p hp f hf => ?_)⟩
  · simp only [Api.respond, Api.routeMyChannels, Api.selectMyChannels, PgDb.query, hq, hu, need,
      Api.answer, Api.arrayOf, bind, Except.bind, pure, Except.pure, List.map_map]
    rfl
  · obtain ⟨hr, hx, hxid, huser⟩ := mem_channelRows.mp hp
    obtain ⟨hr', hx', hxid', huser'⟩ := mem_channelRows.mp hp'
    refine Prod.ext (Table.eq_of_clash hr hr' ?_) (Table.eq_of_clash hx hx' ?_)
    · have hch : p.1.channelId = p'.1.channelId := by rw [← hxid, ← hxid', hid]
      simp [Keyed.clash, huser, huser', hch]
    · simp [Keyed.clash, hid]
  · constructor
    · rintro ⟨p, hp, rfl, rfl⟩
      obtain ⟨hmem, _, hxid, huser⟩ := mem_channelRows.mp hp
      have hpair : (p.2.id, u) = p.1.pair := by rw [ChannelSubscriber.pair, huser, hxid]
      show db.subscription (p.2.id, u) = some p.1.role
      rw [hpair, Db.subscription, Table.lookup_of_mem clash_subscriber hmem]
      rfl
    · intro hrole
      obtain ⟨r, hlookup, rfl⟩ := Option.map_eq_some_iff.mp hrole
      have hpair : r.pair = (ch, u) := Table.key_of_lookup hlookup
      obtain ⟨hch, huser⟩ := Prod.mk.inj hpair
      have hmem := Table.mem_of_lookup hlookup
      obtain ⟨x, hx, hxid⟩ := hs.subscriberChannel r hmem r.channelId rfl
      exact ⟨(r, x), mem_channelRows.mpr ⟨hmem, hx, hxid, huser⟩, hxid.trans hch, rfl⟩
  · simp only [roleCols, List.mem_cons, List.not_mem_nil, or_false] at hf
    rcases hf with rfl | rfl <;> rfl

/-! ## A page of a channel -/

/-- ORDER BY created_at DESC. -/
def newer (a b : ChannelPost) : Bool :=
  Select.desc (fun x y => x ≤ y) a.createdAt b.createdAt

/-- The newest posts of the map in a channel, before the bound. -/
structure Page (posts : Uuid → Option ChannelPost) (ch : Uuid) (bound : Option Time)
    (page : List ChannelPost) : Prop where
  nodup : page.Nodup
  sorted : page.Pairwise (fun a b => newer a b = true)
  short : page.length ≤ 30
  shown : ∀ p ∈ page, posts p.id = some p ∧ p.channelId = ch ∧ Api.isBefore bound p.createdAt = true
  rest : ∀ p, posts p.id = some p → p.channelId = ch → Api.isBefore bound p.createdAt = true →
    p ∈ page ∨ page.length = 30 ∧ ∀ p' ∈ page, newer p' p = true

def postShown (pg : Pg) (p : ChannelPost) : Json :=
  .obj [("id", uuidCol p.id), ("channel_id", uuidCol p.channelId), ("content", .str p.content),
    ("media_urls", .ofText p.mediaUrls), ("is_paid", boolCol p.isPaid),
    ("created_at", nullable (timeCol pg) p.createdAt)]

theorem page_postPage (db : Db) (ch : Uuid) (bound : Option Time) :
    Page db.post ch bound (Api.postPage ch bound db) := by
  have htotal : ∀ a b : ChannelPost, newer a b = true ∨ newer b a = true :=
    fun a b => Select.desc_total (by simpa using le_total) _ _
  have htrans : ∀ a b c : ChannelPost, newer a b = true → newer b c = true → newer a c = true :=
    fun a b c => Select.desc_trans (by simpa using fun _ _ _ => le_trans) _ _ _
  have hmem : ∀ p, p ∈ db.channelPosts.select
      (fun p => p.channelId == ch && Api.isBefore bound p.createdAt) ↔
      db.post p.id = some p ∧ p.channelId = ch ∧ Api.isBefore bound p.createdAt = true := by
    intro p
    rw [Table.mem_select, Db.post, Table.lookup_eq_some clash_post, Bool.and_eq_true, beq_iff_eq]
    exact and_congr_left (fun _ => (and_iff_left rfl).symm)
  refine ⟨?_, ?_, List.length_take_le _ _, fun p hp => ?_, fun p hp hch hb => ?_⟩
  · exact (Select.nodup_orderBy _ ((Table.nodup_rows (fun _ => by simp [Keyed.clash]) _).filter _)
      ).sublist (List.take_sublist _ _)
  · exact (Select.pairwise_orderBy htotal htrans _).sublist (List.take_sublist _ _)
  · exact (hmem p).mp (Select.mem_orderBy.mp (List.mem_of_mem_take hp))
  · exact Select.mem_take_orderBy htotal htrans 30 ((hmem p).mpr ⟨hp, hch, hb⟩)

end List

/-! ## After a run -/

theorem subscriptions_of_run (env : Env) (s : State) (as : List Action) (q : Api.Env) (u : Uuid)
    (uid : String) (hs : s.db.Integrity) (hu : PgDb.uuid uid = some u) (hq : q.first = .done) :
    ∃ rows, Api.respond env.pg q uid .myChannels (run env s as).shared.db =
        jsonResp 200 (.arr rows) ∧
      Lists rows roleCols (fun ch => roleIn env s as (ch, u)) := by
  have hrun := integrity_reach hs (reach_run env s as)
  rw [← subscription_run]
  exact lists_channels hrun hq hu

def newsId : Uuid := .repeated ⟨12, by decide⟩

/-- Alice has a channel. -/
def newsroom : Db where
  users := ⟨[{ id := Api.alice, username := "alice", email := "alice@b.cd" }],
    List.pairwise_singleton _ _⟩
  channels := ⟨[{ id := newsId, username := "news", name := "News", ownerId := some Api.alice }],
    List.pairwise_singleton _ _⟩
  channelSubscribers := ⟨[{ channelId := newsId, userId := Api.alice, role := "owner" }],
    List.pairwise_singleton _ _⟩

theorem integrity_newsroom : newsroom.Integrity := by
  have husers : Db.Integrity { newsroom with channels := .empty, channelSubscribers := .empty } :=
    Db.integrity_empty.users (fun _ hx => absurd hx List.not_mem_nil)
  have hchannels : Db.Integrity { newsroom with channelSubscribers := .empty } := by
    refine husers.channels (fun _ hx => absurd hx List.not_mem_nil) ?_
    rintro r hr k hk
    obtain rfl := List.mem_singleton.mp hr
    cases hk
    exact ⟨_, List.mem_cons_self, rfl⟩
  refine { hchannels with subscriberChannel := ?_, subscriberUser := ?_ }
  · rintro r hr k ⟨⟩
    obtain rfl := List.mem_singleton.mp hr
    exact ⟨_, List.mem_cons_self, rfl⟩
  · rintro r hr k ⟨⟩
    obtain rfl := List.mem_singleton.mp hr
    exact ⟨_, List.mem_cons_self, rfl⟩

/-- The nil id registers and makes a channel, which gets the nil id too. -/
def channelRun : List Action :=
  registerRun ++ byNil (.channel (.createChannel
    (some (.obj [("username", .str "mine"), ("name", .str "Mine")])))) :: List.replicate 7 (go 1)

/-- It subscribes to the news. -/
def newsRun : List Action :=
  channelRun ++ byNil (.channel (.subscribeChannel (utf8 (Uuid.uuidOut newsId)))) ::
    List.replicate 7 (go 2)

/-- It has both on its list. -/
theorem subscriptions_of_run_news :
    roleIn plainServer (serverOf newsroom) newsRun (newsId, .zero) = some "subscriber" ∧
      roleIn plainServer (serverOf newsroom) newsRun (.zero, .zero) = some "owner" ∧
      ∃ rows, Api.respond plainServer.pg ⟨0, true, .done, .done⟩ (Uuid.uuidOut .zero) .myChannels
          (run plainServer (serverOf newsroom) newsRun).shared.db = jsonResp 200 (.arr rows) ∧
        Lists rows roleCols
          (fun ch => roleIn plainServer (serverOf newsroom) newsRun (ch, .zero)) := by
  have hroles : roleIn plainServer (serverOf newsroom) newsRun (newsId, .zero) =
      some "subscriber" ∧
      roleIn plainServer (serverOf newsroom) newsRun (.zero, .zero) = some "owner" := by
    decide +kernel
  exact ⟨hroles.1, hroles.2, subscriptions_of_run plainServer (serverOf newsroom) newsRun
    ⟨0, true, .done, .done⟩ .zero (Uuid.uuidOut .zero) integrity_newsroom
    (PgDb.uuid_uuidOut .zero) rfl⟩

theorem posts_of_run (env : Env) (s : State) (as : List Action) (q : Api.Env) (uid : String)
    (channelId : Bytes) (before : Option Bytes) (ch : Uuid) (bound : Option Time)
    (hch : PgDb.uuidBytes channelId = some ch)
    (hbound : Api.beforeBound env.pg q.now (urlParam before) = .ok bound) (hq : q.first = .done) :
    ∃ page, Api.respond env.pg q uid (.channelPosts channelId before) (run env s as).shared.db =
        jsonResp 200 (.arr (page.map (postShown env.pg))) ∧
      Page (board env s as) ch bound page := by
  rw [← post_run]
  generalize (run env s as).shared.db = db
  refine ⟨Api.postPage ch bound db, ?_, page_postPage db ch bound⟩
  simp only [Api.respond, Api.routeGetChannelPosts, Api.selectPosts, PgDb.query, hq, hch, hbound,
    need, Api.answer, Api.arrayOf, bind, Except.bind, pure, Except.pure]
  rw [List.map_id]
  rfl

def postToMine (content : String) : Action :=
  byNil (.channel (.createPost (utf8 (Uuid.uuidOut .zero)) (some (.obj [("content", .str content)]))))

def firstId : Uuid := .repeated ⟨5, by decide⟩

def secondPost : ChannelPost :=
  { id := .repeated ⟨2, by decide⟩, channelId := .zero, authorId := some .zero, content := "two",
    createdAt := some 0 }

/-- Two posts to the new channel, and the first one is deleted. -/
def postsRun : List Action :=
  channelRun ++ postToMine "one" :: List.replicate 7 (goWith firstId 2) ++
    postToMine "two" :: List.replicate 7 (goWith secondPost.id 3) ++
    byNil (.channel (.deletePost (utf8 (Uuid.uuidOut .zero)) (utf8 (Uuid.uuidOut firstId)))) ::
      List.replicate 6 (go 4)

/-- The other one is on the first page. -/
theorem posts_of_run_news :
    board plainServer (serverOf newsroom) postsRun firstId = none ∧
      board plainServer (serverOf newsroom) postsRun secondPost.id = some secondPost ∧
      ∃ page, Api.respond plainServer.pg ⟨0, true, .done, .done⟩ (Uuid.uuidOut Api.alice)
          (.channelPosts (utf8 (Uuid.uuidOut .zero)) none)
          (run plainServer (serverOf newsroom) postsRun).shared.db =
        jsonResp 200 (.arr (page.map (postShown plainServer.pg))) ∧
        Page (board plainServer (serverOf newsroom) postsRun) .zero none page ∧
        secondPost ∈ page := by
  have hposts : board plainServer (serverOf newsroom) postsRun firstId = none ∧
      board plainServer (serverOf newsroom) postsRun secondPost.id = some secondPost := by
    decide +kernel
  have hone : Api.arrayLength (Api.respond plainServer.pg ⟨0, true, .done, .done⟩
      (Uuid.uuidOut Api.alice) (.channelPosts (utf8 (Uuid.uuidOut .zero)) none)
      (run plainServer (serverOf newsroom) postsRun).shared.db).body = 1 := by decide +kernel
  obtain ⟨page, hpage, hshown⟩ := posts_of_run plainServer (serverOf newsroom) postsRun
    ⟨0, true, .done, .done⟩ (Uuid.uuidOut Api.alice) (utf8 (Uuid.uuidOut .zero)) none .zero none
    (PgDb.uuidBytes_uuidOut .zero) rfl rfl
  refine ⟨hposts.1, hposts.2, page, hpage, hshown, ?_⟩
  rcases hshown.rest secondPost hposts.2 rfl rfl with hmem | ⟨hfull, _⟩
  · exact hmem
  · rw [hpage] at hone
    have hlength : page.length = 1 := by simpa [jsonResp, Api.arrayLength] using hone
    omega

end HttpApi

end MessengerBackend
