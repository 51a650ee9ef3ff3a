/-
  Roles in channels, over runs of the whole API.

  `create_channel` writes the owner's row in a statement of its own, and `subscribe` may come
  first; `create_post` reads a role in one statement and inserts in another.

  * `RolesSound`: an owner or admin of a channel is its `owner_id`, and so is every author.
  * `RolesKept`: a row of `channel_subscribers` stays as it was inserted.
  * `roles_of_reach`: both hold in every run, whatever fails. `OwnerInv` carries it: a thread
    that is about to write an owner's row or a post is the owner's.
-/
import MessengerBackend.Api.Subscribers

namespace MessengerBackend

namespace Db

/-- The three tables of the channels are empty. -/
def cleared (db : Db) : Db :=
  { db with channels := .empty, channelSubscribers := .empty, channelPosts := .empty }

/-- There is a channel `ch`, and this is its `owner_id`. -/
def Owned (db : Db) (ch : Uuid) (o : Option Uuid) : Prop :=
  ∃ x ∈ db.channels, x.id = ch ∧ x.ownerId = o

/-- There is one channel of an id. -/
theorem Owned.owner {db : Db} {x : Channel} {o : Option Uuid} (h : db.Owned x.id o)
    (hx : x ∈ db.channels) : x.ownerId = o := by
  obtain ⟨y, hy, hid, ho⟩ := h
  have heq : y = x := Table.eq_of_clash hy hx (by simp [Keyed.clash, hid])
  rw [← heq, ho]

end Db

namespace Api

def Elevated (s : ChannelSubscriber) : Prop := s.role = "owner" ∨ s.role = "admin"

structure RolesSound (db : Db) : Prop where
  roles : ∀ x ∈ db.channels, ∀ s ∈ db.channelSubscribers, s.channelId = x.id → Elevated s →
    x.ownerId = some s.userId
  posts : ∀ x ∈ db.channels, ∀ p ∈ db.channelPosts, p.channelId = x.id → p.authorId = x.ownerId

/-- No row is lost, and no row gets another role. -/
def RolesKept (db db' : Db) : Prop :=
  ∀ s ∈ db.channelSubscribers, s ∈ db'.channelSubscribers ∧
    ∀ s' ∈ db'.channelSubscribers, s'.channelId = s.channelId → s'.userId = s.userId →
      s'.role = s.role

/-! ## The invariant -/

/-- Who is about to write as the owner of a channel is that. -/
def Thread.Entitled (db : Db) (t : Thread) : Prop :=
  match t.point with
  | .channel (.ownChannel chanId _) =>
      ∀ ch u, PgDb.uuid chanId = some ch → PgDb.uuid t.uid = some u → db.Owned ch (some u)
  | .channel (.createPost channelId _ _) =>
      ∀ ch u, PgDb.uuidBytes channelId = some ch → PgDb.uuid t.uid = some u → db.Owned ch (some u)
  | _ => True

/-- The two tables whose rows need the owner. -/
structure RowsOwned (db : Db) : Prop where
  roles : ∀ s ∈ db.channelSubscribers, Elevated s → db.Owned s.channelId (some s.userId)
  posts : ∀ p ∈ db.channelPosts, db.Owned p.channelId p.authorId

structure OwnerInv (db : Db) (ts : List (Request × Thread)) : Prop where
  rows : RowsOwned db
  threads : ∀ j t, At ts j t → t.Entitled db

/-- Owners stay, and so do rows. -/
structure Grows (db db' : Db) : Prop where
  owned : ∀ ch o, db.Owned ch o → db'.Owned ch o
  rows : ∀ s ∈ db.channelSubscribers, s ∈ db'.channelSubscribers

/-- What a step leads to. -/
structure Lands (db db' : Db) (t : Thread) : Prop where
  grows : Grows db db'
  rows : RowsOwned db'
  entitled : t.Entitled db'

theorem Grows.refl (db : Db) : Grows db db := ⟨fun _ _ h => h, fun _ h => h⟩

theorem Thread.Entitled.mono {db db' : Db} {t : Thread} (h : t.Entitled db) (hg : Grows db db') :
    t.Entitled db' := by
  obtain ⟨uid, point⟩ := t
  cases point with
  | channel p =>
      cases p with
      | ownChannel chanId username => exact fun ch u hch hu => hg.owned ch _ (h ch u hch hu)
      | createPost channelId content isPaid => exact fun ch u hch hu => hg.owned ch _ (h ch u hch hu)
      | _ => trivial
  | _ => trivial

theorem RowsOwned.sound {db : Db} (h : RowsOwned db) : RolesSound db where
  roles x hx s hs hid he := by
    have howned := h.roles s hs he
    rw [hid] at howned
    exact howned.owner hx
  posts x hx p hp hid := by
    have howned := h.posts p hp
    rw [hid] at howned
    exact (howned.owner hx).symm

theorem Grows.rolesKept {db db' : Db} (h : Grows db db') : RolesKept db db' := by
  refine fun s hs => ⟨h.rows s hs, fun s' hs' hch hu => ?_⟩
  have heq : s' = s := Table.eq_of_clash hs' (h.rows s hs) (by simp [Keyed.clash, hch, hu])
  rw [heq]

/-- The general step of one thread. -/
theorem OwnerInv.moved {db db' : Db} {ts : List (Request × Thread)} {j : Nat} {r : Request}
    {t' : Thread} (h : OwnerInv db ts) (hl : Lands db db' t') :
    OwnerInv db' (ts.set j (r, t')) := by
  refine ⟨hl.rows, fun k t₁ hk => ?_⟩
  rcases at_moved hk with ⟨_, rfl⟩ | ⟨_, hk⟩
  · exact hl.entitled
  · exact (h.threads k t₁ hk).mono hl.grows

/-! ## The statements -/

section Statements

variable {db : Db} {uid : String}

/-- A thread that has nothing to write as an owner. -/
theorem entitled_exited (db : Db) (uid : String) (e : Exit) :
    (⟨uid, .channel (.exited e)⟩ : Thread).Entitled db := trivial

theorem entitled_createFailed (db : Db) (uid : String) (e : SqlError) :
    (⟨uid, .channel (Channels.createFailed e)⟩ : Thread).Entitled db := by
  obtain ⟨x, hx, _⟩ := failure_createFailed e
  rw [hx]
  exact entitled_exited db uid x

theorem RowsOwned.lands (h : RowsOwned db) {t : Thread} (ht : t.Entitled db) : Lands db db t :=
  ⟨.refl db, h, ht⟩

/-- A new channel has its owner, and takes none away. -/
theorem grows_insertChannel {x : Channel} {channels : Table Channel}
    (hins : db.channels.insert x = some channels) : Grows db { db with channels := channels } := by
  refine ⟨fun ch o h => ?_, fun s hs => hs⟩
  obtain ⟨y, hy, hy'⟩ := h
  exact ⟨y, (Table.mem_insert hins).mpr (Or.inl hy), hy'⟩

theorem RowsOwned.mono {db' : Db} (h : RowsOwned db) (hg : Grows db db')
    (hs : db'.channelSubscribers = db.channelSubscribers) (hp : db'.channelPosts = db.channelPosts) :
    RowsOwned db' := by
  refine ⟨fun s hs' he => ?_, fun p hp' => ?_⟩
  · rw [hs] at hs'
    exact hg.owned _ _ (h.roles s hs' he)
  · rw [hp] at hp'
    exact hg.owned _ _ (h.posts p hp')

theorem RowsOwned.insertSubscriber (h : RowsOwned db) {row : ChannelSubscriber} {db' : Db}
    (hins : Channels.insertSubscriber row db = .ok db')
    (hrow : Elevated row → db.Owned row.channelId (some row.userId)) :
    Grows db db' ∧ RowsOwned db' := by
  obtain ⟨subscribers, hsubs, _, _, rfl⟩ := Channels.insertSubscriber_ok hins
  refine ⟨⟨fun _ _ ho => ho, fun s hs => (Table.mem_insert hsubs).mpr (Or.inl hs)⟩, ?_, h.posts⟩
  intro s hs he
  rcases (Table.mem_insert hsubs).mp hs with hold | rfl
  · exact h.roles s hold he
  · exact hrow he

theorem RowsOwned.insertPost (h : RowsOwned db) {p : ChannelPost} {posts : Table ChannelPost}
    (hins : db.channelPosts.insert p = some posts) (howned : db.Owned p.channelId p.authorId) :
    Grows db { db with channelPosts := posts } ∧ RowsOwned { db with channelPosts := posts } := by
  refine ⟨⟨fun _ _ ho => ho, fun s hs => hs⟩, h.roles, ?_⟩
  intro q hq
  rcases (Table.mem_insert hins).mp hq with hold | rfl
  · exact h.posts q hold
  · exact howned

/-- Counting changes no owner. -/
theorem grows_countedUp (db : Db) (ch : Uuid) : Grows db (db.countedUp ch) := by
  refine ⟨fun c o h => ?_, fun s hs => hs⟩
  obtain ⟨x, hx, hid, ho⟩ := h
  refine ⟨_, Db.mem_countedUp.mpr ⟨x, hx, rfl⟩, ?_, ?_⟩
  · split <;> exact hid
  · split <;> exact ho

/-- Who has the role of an owner or an admin is the owner. -/
theorem RowsOwned.owned_of_role {ch u : Uuid} {role : Option String} (h : RowsOwned db)
    (hrole : role = (Channels.subscriberRow db ch u).map ChannelSubscriber.role)
    (hhigh : role = some "owner" ∨ role = some "admin") : db.Owned ch (some u) := by
  cases hrow : Channels.subscriberRow db ch u with
  | none =>
      rw [hrole, hrow] at hhigh
      rcases hhigh with hhigh | hhigh <;> cases hhigh
  | some s =>
      rw [hrole, hrow, Option.map_some, Option.some.injEq, Option.some.injEq] at hhigh
      have hpair := List.find?_some hrow
      simp only [Bool.and_eq_true, beq_iff_eq] at hpair
      have howned := h.roles s (List.mem_of_find?_eq_some hrow) hhigh
      rwa [hpair.1, hpair.2] at howned

/-- The step lemma for `Channels`. -/
theorem lands_channels {p : Channels.Point} (h : RowsOwned db)
    (ht : (⟨uid, .channel p⟩ : Thread).Entitled db) (inp : Input) :
    Lands db (Channels.step uid p inp db).1 ⟨uid, .channel (Channels.step uid p inp db).2⟩ := by
  let K : Db → Channels.Point → Prop := fun db' p' => Lands db db' ⟨uid, .channel p'⟩
  cases p with
  | createChannel username name description isPublic =>
      refine attempt_inv K (fun e => h.lands (entitled_createFailed db uid e)) (fun db' a hq => ?_)
      obtain ⟨rfl, username', name', u, channels, hu, _, hins, rfl⟩ := Channels.insertChannel_ok hq
      have hg := grows_insertChannel hins
      have hrows := h.mono hg rfl rfl
      refine ⟨⟨hg, hrows, ?_⟩, fun e => ⟨hg, hrows, entitled_createFailed _ uid e⟩⟩
      intro ch u' hch hu'
      obtain rfl : inp.freshId = ch := PgDb.eq_of_uuid_uuidOut hch
      obtain rfl : u = u' := Option.some.inj (hu.symm.trans hu')
      exact ⟨_, (Table.mem_insert hins).mpr (Or.inr rfl), rfl, rfl⟩
  | ownChannel chanId username =>
      refine attempt_inv K (fun e => h.lands (entitled_createFailed db uid e)) (fun db' a hq => ?_)
      obtain ⟨ch, u, hch, hu, hins⟩ := Channels.insertOwner_ok hq
      obtain ⟨hg, hrows⟩ := h.insertSubscriber hins (fun _ => ht ch u hch hu)
      exact ⟨⟨hg, hrows, entitled_exited _ uid _⟩,
        fun e => ⟨hg, hrows, entitled_createFailed _ uid e⟩⟩
  | subscribe channelId =>
      refine attempt_inv K (fun _ => h.lands (entitled_exited db uid _)) (fun db' a hq => ?_)
      obtain ⟨ch, u, _, _, rfl | hins⟩ := Channels.insertSubscription_ok hq
      · exact ⟨h.lands trivial, fun _ => h.lands (entitled_exited _ uid _)⟩
      · -- the default role is neither
        have hplain : ¬ Elevated { channelId := ch, userId := u } := by
          simp [Elevated]
        obtain ⟨hg, hrows⟩ := h.insertSubscriber hins (fun he => absurd he hplain)
        exact ⟨⟨hg, hrows, trivial⟩, fun _ => ⟨hg, hrows, entitled_exited _ uid _⟩⟩
  | countSubscriber channelId =>
      refine attempt_inv K (fun _ => h.lands (entitled_exited db uid _)) (fun db' a hq => ?_)
      obtain ⟨ch, _, rfl⟩ := Channels.incrementCount_ok hq
      have hg := grows_countedUp db ch
      have hrows := h.mono hg rfl rfl
      exact ⟨⟨hg, hrows, entitled_exited _ uid _⟩, fun _ => ⟨hg, hrows, entitled_exited _ uid _⟩⟩
  | readRole channelId content isPaid =>
      refine attempt_inv K (fun _ => h.lands (entitled_exited db uid _)) (fun db' role hq => ?_)
      obtain ⟨rfl, ch, u, hch, hu, hrole⟩ := Channels.selectRole_ok hq
      refine ⟨?_, fun _ => h.lands (entitled_exited _ uid _)⟩
      split
      · rename_i hhigh
        refine h.lands ?_
        intro ch' u' hch' hu'
        cases hch.symm.trans hch'
        cases hu.symm.trans hu'
        exact h.owned_of_role hrole hhigh
      · exact h.lands (entitled_exited _ uid _)
  | createPost channelId content isPaid =>
      refine attempt_inv K (fun _ => h.lands (entitled_exited db uid _)) (fun db' a hq => ?_)
      obtain ⟨ch, u, posts, hch, hu, hins, rfl⟩ := Channels.insertPost_ok hq
      obtain ⟨hg, hrows⟩ := h.insertPost hins (ht ch u hch hu)
      exact ⟨⟨hg, hrows, entitled_exited _ uid _⟩, fun _ => ⟨hg, hrows, entitled_exited _ uid _⟩⟩
  | deletePost channelId postId =>
      refine attempt_inv K (fun _ => h.lands (entitled_exited db uid _)) (fun db' a hq => ?_)
      obtain ⟨p, ch, _, _, rfl⟩ := Channels.erasePost_ok hq
      have hg : Grows db (Channels.dropPost p ch db) := ⟨fun _ _ ho => ho, fun s hs => hs⟩
      have hrows : RowsOwned (Channels.dropPost p ch db) :=
        ⟨h.roles, fun q hq => h.posts q (Table.mem_erase.mp hq).1⟩
      exact ⟨⟨hg, hrows, entitled_exited _ uid _⟩, fun _ => ⟨hg, hrows, entitled_exited _ uid _⟩⟩
  | exited e => exact h.lands (entitled_exited db uid e)

end Statements

/-! ## Runs -/

theorem entitled_of_ne_channel {t : Thread} (h : ∀ p, t.point ≠ .channel p) (db : Db) :
    t.Entitled db := by
  obtain ⟨uid, point⟩ := t
  cases point with
  | channel p => exact absurd rfl (h p)
  | _ => trivial

/-- No handler begins by writing as an owner. -/
theorem entitled_start (r : Request) (db : Db) : (start r).Entitled db := by
  obtain ⟨uid, call⟩ := r
  cases call with
  | channel c =>
      cases c with
      | createChannel body =>
          show (⟨uid, .channel (Channels.routeCreateChannel body)⟩ : Thread).Entitled db
          unfold Channels.routeCreateChannel
          split
          · trivial
          · split <;> trivial
      | subscribeChannel channelId => trivial
      | createPost channelId body =>
          show (⟨uid, .channel (Channels.routeCreatePost channelId body)⟩ : Thread).Entitled db
          unfold Channels.routeCreatePost
          split <;> trivial
      | deletePost channelId postId => trivial
  | _ => trivial

/-- The step lemma for the whole API. -/
theorem lands_step (pg : Pg) {db : Db} {t : Thread} (h : RowsOwned db) (ht : t.Entitled db)
    (inp : Input) : Lands db (step pg t inp db).1 (step pg t inp db).2.1 := by
  by_cases hchan : ∃ p, t.point = .channel p
  · obtain ⟨uid, point⟩ := t
    obtain ⟨p, rfl⟩ := hchan
    exact lands_channels h ht inp
  · have hne : ∀ p, t.point ≠ .channel p := fun p hp => hchan ⟨p, hp⟩
    obtain ⟨hchannels, hsubscribers, hposts, hnext⟩ := step_of_ne_channel pg hne inp db
    have hg : Grows db (step pg t inp db).1 := by
      refine ⟨fun ch o ho => ?_, fun s hs => ?_⟩
      · unfold Db.Owned
        rw [hchannels]
        exact ho
      · rw [hsubscribers]
        exact hs
    exact ⟨hg, h.mono hg hsubscribers hposts, entitled_of_ne_channel hnext _⟩

theorem OwnerInv.spawned {db : Db} {ts : List (Request × Thread)} (h : OwnerInv db ts)
    (r : Request) : OwnerInv db (ts ++ [(r, start r)]) := by
  refine ⟨h.rows, ?_⟩
  rintro k t ⟨r₁, hk⟩
  rcases Interleave.getElem?_spawn hk with heq | hold
  · cases heq
    exact entitled_start r db
  · exact h.threads k t ⟨r₁, hold⟩

theorem ownerInv_init (db : Db) : OwnerInv db.cleared [] := by
  refine ⟨⟨fun s hs => (nomatch hs), fun p hp => (nomatch hp)⟩, ?_⟩
  rintro j t ⟨r, hj⟩
  cases hj

section Runs

variable {pg : Pg} {c c' : Config}

/-- The run lemma: a run keeps the invariant, owners and rows. -/
theorem ownerInv_of_reach (h : OwnerInv c.shared c.threads)
    (hr : (system pg).Reach (fun _ _ => True) c c') :
    OwnerInv c'.shared c'.threads ∧ Grows c.shared c'.shared := by
  refine Interleave.System.Reach.induct
    (fun c' => OwnerInv c'.shared c'.threads ∧ Grows c.shared c'.shared) ⟨h, .refl _⟩ ?_ ?_ hr
  · intro c₁ r _ hc _
    exact ⟨hc.1.spawned r, hc.2⟩
  · intro c₁ j r t inp _ hc _ ht
    have hl := lands_step pg hc.1.rows (hc.1.threads j t ⟨r, ht⟩) inp
    refine ⟨hc.1.moved hl, fun ch o ho => ?_, fun s hs => ?_⟩
    · exact hl.grows.owned ch o (hc.2.owned ch o ho)
    · exact hl.grows.rows s (hc.2.rows s hs)

end Runs

/-- In every run of the API from empty channel tables, roles and posts are the owner's, and
    from there on no row changes. -/
theorem roles_of_reach (pg : Pg) (db : Db) (c c' : Config)
    (hr : (system pg).Reach (fun _ _ => True) (Interleave.Config.init db.cleared) c)
    (hr' : (system pg).Reach (fun _ _ => True) c c') :
    RolesSound c.shared ∧ RolesKept c.shared c'.shared := by
  obtain ⟨hinv, _⟩ := ownerInv_of_reach (ownerInv_init db) hr
  exact ⟨hinv.rows.sound, (ownerInv_of_reach hinv hr').2.rolesKept⟩

/-- Eve subscribes between the two statements of `create_channel`, and Alice's own row comes
    after. -/
theorem roles_of_reach_between :
    let c := [.spawn newsChannel, .spawn subscribeEve, go 0, go 1].foldl (system plainPg).next
      (Interleave.Config.init twoUsers.cleared)
    let c' := [go 0, go 1].foldl (system plainPg).next c
    RolesSound c.shared ∧ RolesKept c.shared c'.shared :=
  roles_of_reach plainPg twoUsers _ _ ((system plainPg).reach_foldl _ _)
    ((system plainPg).reach_foldl _ _)

end Api

end MessengerBackend
