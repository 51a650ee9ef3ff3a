/-
  Private chats as pairs of users, over runs of the whole API.

  * `PrivatePairs db ts`: every private chat that no thread is still creating has two rows in
    `chat_members`, for two distinct users, and no two of these chats have the same users.
  * `Orderly`: the condition on a step under which a run keeps it
    (`privatePairs_of_orderly`). Three points of the handlers need one. `open_direct` makes
    the chat and its rows in two statements, so the answer of the first must not be lost
    and the second must be accepted and not repeat a pair; `add_member` looks at nothing, so
    it must not give a private chat a new row.
  * `PairInv` is the invariant: besides `PrivatePairs`, what the threads between two
    statements know of the chat they have made.

  A caller who opens a chat with herself is enough to break the property (`alone_in_chat`).
-/
import MessengerBackend.Api.Authority

namespace MessengerBackend

namespace Db

/-- The users of a chat's `chat_members` rows, whether they have left or not. -/
def usersOf (db : Db) (i : Uuid) : List Uuid :=
  (db.chatMembers.select (fun m => m.chatId == i)).map ChatMember.userId

def isPrivate (db : Db) (i : Uuid) : Prop := ∃ x ∈ db.chats, x.id = i ∧ x.chatType = .priv

theorem mem_usersOf {db : Db} {i v : Uuid} :
    v ∈ db.usersOf i ↔ ∃ m ∈ db.chatMembers, m.chatId = i ∧ m.userId = v := by
  simp [usersOf, Table.mem_select, and_assoc]

theorem hasChat_iff {db : Db} {i : Uuid} : db.hasChat i = true ↔ ∃ x ∈ db.chats, x.id = i := by
  simp [hasChat, Table.mem_iff]

theorem hasChat_of_isPrivate {db : Db} {i : Uuid} (h : db.isPrivate i) : db.hasChat i = true := by
  obtain ⟨x, hx, hid, _⟩ := h
  exact hasChat_iff.mpr ⟨x, hx, hid⟩

theorem memberRow_of_not_mem {db : Db} {i v : Uuid} (h : v ∉ db.usersOf i) :
    db.memberRow i v = none := by
  unfold memberRow
  rw [List.find?_eq_none]
  intro m hm hpair
  simp only [Bool.and_eq_true, beq_iff_eq] at hpair
  exact h (mem_usersOf.mpr ⟨m, hm, hpair⟩)

/-- A new row adds its user at the end. -/
theorem usersOf_insert {db : Db} {row : ChatMember} {members : Table ChatMember}
    (h : db.chatMembers.insert row = some members) (i : Uuid) :
    ({ db with chatMembers := members } : Db).usersOf i =
      db.usersOf i ++ if row.chatId = i then [row.userId] else [] := by
  unfold usersOf Table.select
  rw [Table.insert_rows h, List.filter_append, List.map_append]
  congr 1
  by_cases hi : row.chatId = i <;> simp [hi]

/-- An UPDATE changes no key. -/
theorem usersOf_modifyMember {c v : Uuid} {f : ChatMember → ChatMember}
    (hf : ∀ a b, Keyed.clash (f a) b = Keyed.clash a b) (db : Db) (i : Uuid) :
    (Api.Chats.modifyMember c v f hf db).usersOf i = db.usersOf i := by
  have hkeys : ∀ m, (f m).chatId = m.chatId ∧ (f m).userId = m.userId := by
    intro m
    have h := hf m m
    simpa [Keyed.clash] using h
  unfold usersOf Table.select Api.Chats.modifyMember Table.modify
  simp only [List.filter_map, List.map_map]
  have hfilter : ((fun m : ChatMember => m.chatId == i) ∘
      fun a => if Api.Chats.isPair c v a then f a else a) = fun m => m.chatId == i := by
    funext m
    simp only [Function.comp_apply]
    split
    · rw [(hkeys m).1]
    · rfl
  have huser : (ChatMember.userId ∘ fun a => if Api.Chats.isPair c v a then f a else a) =
      ChatMember.userId := by
    funext m
    simp only [Function.comp_apply]
    split
    · exact (hkeys m).2
    · rfl
  rw [hfilter, huser]

/-- No chat is made, and only chats that are not private get or lose users. -/
structure Quiet (db db' : Db) : Prop where
  chats : db'.chats = db.chats
  users : ∀ i, db'.usersOf i = db.usersOf i ∨ db.hasChat i = true ∧ ¬ db.isPrivate i

theorem Quiet.refl (db : Db) : Quiet db db := ⟨rfl, fun _ => Or.inl rfl⟩

theorem quiet_modifyMember {c v : Uuid} {f : ChatMember → ChatMember}
    (hf : ∀ a b, Keyed.clash (f a) b = Keyed.clash a b) (db : Db) :
    Quiet db (Api.Chats.modifyMember c v f hf db) :=
  ⟨rfl, fun i => Or.inl (usersOf_modifyMember hf db i)⟩

/-- A new row in a chat that is not private. -/
theorem quiet_insertMember {db db' : Db} {row : ChatMember}
    (hins : Api.Chats.insertMember row db = .ok db') (hgroup : ¬ db.isPrivate row.chatId) :
    Quiet db db' := by
  obtain ⟨members, hnew, hchat, _, rfl⟩ := Api.Chats.insertMember_ok hins
  refine ⟨rfl, fun i => ?_⟩
  rw [usersOf_insert hnew]
  by_cases hi : row.chatId = i
  · exact Or.inr ⟨hi ▸ hchat, hi ▸ hgroup⟩
  · left
    rw [if_neg hi, List.append_nil]

section InsertChat

variable {db : Db} {row : Chat} {chats : Table Chat} {i : Uuid}

/-- The id of a new chat is nobody's. -/
theorem ne_of_insert_chat (hins : db.chats.insert row = some chats) (hi : db.hasChat i = true) :
    i ≠ row.id := by
  rintro rfl
  obtain ⟨x, hx, hid⟩ := hasChat_iff.mp hi
  have hclash := Table.insert_fresh hins x hx
  simp [Keyed.clash, hid] at hclash

theorem hasChat_insert (hins : db.chats.insert row = some chats) (hi : db.hasChat i = true) :
    ({ db with chats := chats } : Db).hasChat i = true := by
  obtain ⟨x, hx, hid⟩ := hasChat_iff.mp hi
  exact hasChat_iff.mpr ⟨x, (Table.mem_insert hins).mpr (Or.inl hx), hid⟩

theorem isPrivate_insert (hins : db.chats.insert row = some chats) (hi : db.hasChat i = true) :
    ({ db with chats := chats } : Db).isPrivate i ↔ db.isPrivate i := by
  constructor
  · rintro ⟨x, hx, hid, hty⟩
    rcases (Table.mem_insert hins).mp hx with hx | rfl
    · exact ⟨x, hx, hid, hty⟩
    · exact absurd hid.symm (ne_of_insert_chat hins hi)
  · rintro ⟨x, hx, hid, hty⟩
    exact ⟨x, (Table.mem_insert hins).mpr (Or.inl hx), hid, hty⟩

/-- The new chat is as private as its row. -/
theorem isPrivate_inserted (hins : db.chats.insert row = some chats) :
    ({ db with chats := chats } : Db).isPrivate row.id ↔ row.chatType = .priv := by
  constructor
  · rintro ⟨x, hx, hid, hty⟩
    rcases (Table.mem_insert hins).mp hx with hx | rfl
    · exact absurd rfl (ne_of_insert_chat hins (hasChat_iff.mpr ⟨x, hx, hid⟩))
    · exact hty
  · exact fun hty => ⟨row, (Table.mem_insert hins).mpr (Or.inr rfl), rfl, hty⟩

end InsertChat

/-- A database with nobody in a chat yet. -/
def withoutChats (db : Db) : Db := { db with chats := .empty, chatMembers := .empty }

end Db

namespace Api

/-! ## Threads that have made a chat -/

/-- The private chat that the thread has made and whose rows it inserts next. -/
def Thread.opening (t : Thread) : Option Uuid :=
  match t.point with
  | .chat (.joinDirect chatId _) => PgDb.uuid chatId
  | _ => none

/-- The group that the thread has made and is still filling. -/
def Thread.filling (t : Thread) : Option Uuid :=
  match t.point with
  | .chat (.ownGroup chatId _ _) => PgDb.uuid chatId
  | .chat (.joinGroup chatId _ _ _) => PgDb.uuid chatId
  | _ => none

/-- A request is in the middle of creating the chat. -/
def BeingCreated (ts : List (Request × Thread)) (i : Uuid) : Prop :=
  ∃ j t, At ts j t ∧ t.opening = some i

/-- The private chats that are not being created are pairs of users, one a pair. -/
structure PrivatePairs (db : Db) (ts : List (Request × Thread)) : Prop where
  pair : ∀ x ∈ db.chats, x.chatType = .priv → ¬ BeingCreated ts x.id →
    ∃ u v, u ≠ v ∧ db.usersOf x.id = [u, v]
  unique : ∀ x ∈ db.chats, ∀ y ∈ db.chats, x.chatType = .priv → y.chatType = .priv →
    ¬ BeingCreated ts x.id → ¬ BeingCreated ts y.id →
    (∀ v, v ∈ db.usersOf x.id ↔ v ∈ db.usersOf y.id) → x = y

/-! ## The condition -/

/-- The pair's INSERT takes effect and repeats no pair. -/
def Chats.NewPair (uid targetId : String) (db : Db) : Prop :=
  ∃ u v, PgDb.uuid uid = some u ∧ PgDb.uuid targetId = some v ∧ u ≠ v ∧
    db.hasUser u = true ∧ db.hasUser v = true ∧
    ∀ i, db.isPrivate i → ¬ (u ∈ db.usersOf i ∧ v ∈ db.usersOf i)

/-- On the next statement of a handler of `Chats`. -/
def Chats.Orderly (uid : String) (inp : Input) (db : Db) : Chats.Point → Prop
  | .createDirect _ => ∀ msg, inp.first ≠ .lost msg
  | .joinDirect _ targetId => inp.first.executes = true ∧ Chats.NewPair uid targetId db
  | .addMember chatId target => ∀ c v, PgDb.uuidBytes chatId = some c →
      PgDb.uuid target = some v → db.isPrivate c → db.hasUser v = true → v ∈ db.usersOf c
  | _ => True

def Orderly (c : Config) : Action → Prop
  | .spawn _ => True
  | .run j inp => ∀ r uid p, c.threads[j]? = some (r, ⟨uid, .chat p⟩) →
      Chats.Orderly uid inp c.shared p

/-! ## The invariant -/

structure PairInv (db : Db) (ts : List (Request × Thread)) : Prop where
  known : ∀ i v, v ∈ db.usersOf i → db.hasChat i = true
  opening : ∀ j t i, At ts j t → t.opening = some i → db.isPrivate i ∧ db.usersOf i = []
  sole : ∀ j j' t t' i, At ts j t → At ts j' t' → t.opening = some i → t'.opening = some i →
    j = j'
  filling : ∀ j t i, At ts j t → t.filling = some i → db.hasChat i = true ∧ ¬ db.isPrivate i
  pairs : PrivatePairs db ts

section Moves

variable {db db' : Db} {ts : List (Request × Thread)} {j : Nat} {r : Request} {t t' : Thread}

/-- Another thread stands where it stood. -/
theorem at_other {k : Nat} {t₁ : Thread} (hk : k ≠ j) (h : At ts k t₁) :
    At (ts.set j (r, t')) k t₁ := by
  obtain ⟨r₁, h⟩ := h
  exact ⟨r₁, by rw [List.getElem?_set_ne (Ne.symm hk)]; exact h⟩

/-- A chat that another thread creates is still being created. -/
theorem beingCreated_moved {i : Uuid} (ht : ts[j]? = some (r, t)) (hi : t.opening ≠ some i)
    (h : BeingCreated ts i) : BeingCreated (ts.set j (r, t')) i := by
  obtain ⟨k, t₁, hk, hopen⟩ := h
  by_cases hkj : k = j
  · obtain ⟨r₁, hk⟩ := hk
    rw [hkj, ht] at hk
    cases hk
    exact absurd hopen hi
  · exact ⟨k, t₁, at_other hkj hk, hopen⟩

theorem isPrivate_congr (h : db'.chats = db.chats) (i : Uuid) :
    db'.isPrivate i ↔ db.isPrivate i := by unfold Db.isPrivate; rw [h]

theorem hasChat_congr (h : db'.chats = db.chats) (i : Uuid) : db'.hasChat i = db.hasChat i := by
  unfold Db.hasChat; rw [h]

/-- A step that makes no chat and fills only chats that are not private. -/
theorem PairInv.quiet (h : PairInv db ts) (ht : ts[j]? = some (r, t)) (hopen : t.opening = none)
    (hopen' : t'.opening = none)
    (hfill : ∀ i, t'.filling = some i → db.hasChat i = true ∧ ¬ db.isPrivate i)
    (hquiet : db.Quiet db') : PairInv db' (ts.set j (r, t')) := by
  obtain ⟨hchats, husers⟩ := hquiet
  have hsame : ∀ i, db.isPrivate i → db'.usersOf i = db.usersOf i := by
    intro i hi
    rcases husers i with h' | ⟨_, h'⟩
    · exact h'
    · exact absurd hi h'
  have hcreated : ∀ i, ¬ BeingCreated (ts.set j (r, t')) i → ¬ BeingCreated ts i :=
    fun i hno hyes => hno (beingCreated_moved ht (by rw [hopen]; simp) hyes)
  refine ⟨?_, ?_, ?_, ?_, ?_, ?_⟩
  · intro i v hv
    rw [hasChat_congr hchats]
    rcases husers i with h' | ⟨h', _⟩
    · exact h.known i v (h' ▸ hv)
    · exact h'
  · intro k t₁ i hk hi
    rcases at_moved hk with ⟨_, rfl⟩ | ⟨_, hk⟩
    · rw [hopen'] at hi
      cases hi
    · obtain ⟨hpriv, hempty⟩ := h.opening k t₁ i hk hi
      exact ⟨(isPrivate_congr hchats i).mpr hpriv, (hsame i hpriv).trans hempty⟩
  · intro k k' t₁ t₂ i hk hk' hi hi'
    rcases at_moved hk with ⟨_, rfl⟩ | ⟨_, hk⟩
    · rw [hopen'] at hi
      cases hi
    · rcases at_moved hk' with ⟨_, rfl⟩ | ⟨_, hk'⟩
      · rw [hopen'] at hi'
        cases hi'
      · exact h.sole k k' t₁ t₂ i hk hk' hi hi'
  · intro k t₁ i hk hi
    rw [hasChat_congr hchats, isPrivate_congr hchats]
    rcases at_moved hk with ⟨_, rfl⟩ | ⟨_, hk⟩
    · exact hfill i hi
    · exact h.filling k t₁ i hk hi
  · intro x hx hpriv hno
    rw [hchats] at hx
    rw [hsame x.id ⟨x, hx, rfl, hpriv⟩]
    exact h.pairs.pair x hx hpriv (hcreated x.id hno)
  · intro x hx y hy hxp hyp hxno hyno heq
    rw [hchats] at hx hy
    rw [hsame x.id ⟨x, hx, rfl, hxp⟩, hsame y.id ⟨y, hy, rfl, hyp⟩] at heq
    exact h.pairs.unique x hx y hy hxp hyp (hcreated x.id hxno) (hcreated y.id hyno) heq

/-- A new chat: a private one is still being created, another one may be filled. -/
theorem PairInv.created (h : PairInv db ts) (ht : ts[j]? = some (r, t)) (hopen : t.opening = none)
    {row : Chat} {chats : Table Chat} (hins : db.chats.insert row = some chats)
    (hopen' : t'.opening = if row.chatType = .priv then some row.id else none)
    (hfill : ∀ i, t'.filling = some i → i = row.id ∧ row.chatType ≠ .priv) :
    PairInv { db with chats := chats } (ts.set j (r, t')) := by
  -- an old private chat keeps its state, and the new one is being created
  have hold : ∀ x ∈ chats, x.chatType = .priv → ¬ BeingCreated (ts.set j (r, t')) x.id →
      x ∈ db.chats ∧ ¬ BeingCreated ts x.id := by
    intro x hx hty hno
    rcases (Table.mem_insert hins).mp hx with hx | rfl
    · exact ⟨hx, fun hyes => hno (beingCreated_moved ht (by rw [hopen]; simp) hyes)⟩
    · refine absurd ⟨j, t', ⟨r, ?_⟩, ?_⟩ hno
      · exact List.getElem?_set_self (List.getElem?_eq_some_iff.mp ht).1
      · rw [hopen', if_pos hty]
  refine ⟨fun i v hv => Db.hasChat_insert hins (h.known i v hv), ?_, ?_, ?_, ?_, ?_⟩
  · intro k t₁ i hk hi
    rcases at_moved hk with ⟨_, rfl⟩ | ⟨_, hk⟩
    · rw [hopen'] at hi
      split at hi
      · rename_i hty
        obtain rfl := Option.some.inj hi
        refine ⟨(Db.isPrivate_inserted hins).mpr hty, ?_⟩
        refine List.eq_nil_iff_forall_not_mem.mpr (fun v hv => ?_)
        exact Db.ne_of_insert_chat hins (h.known row.id v hv) rfl
      · cases hi
    · obtain ⟨hp, hempty⟩ := h.opening k t₁ i hk hi
      exact ⟨(Db.isPrivate_insert hins (Db.hasChat_of_isPrivate hp)).mpr hp, hempty⟩
  · -- nobody else can be creating the new chat
    have hnot : ∀ k t₁ i, At ts k t₁ → t₁.opening = some i → t'.opening ≠ some i := by
      intro k t₁ i hk hi hi'
      have hi := Db.hasChat_of_isPrivate (h.opening k t₁ i hk hi).1
      rw [hopen'] at hi'
      split at hi'
      · exact Db.ne_of_insert_chat hins hi (Option.some.inj hi').symm
      · cases hi'
    intro k k' t₁ t₂ i hk hk' hi hi'
    rcases at_moved hk with ⟨hkj, hmoved⟩ | ⟨_, hstay⟩
    · rcases at_moved hk' with ⟨hkj', _⟩ | ⟨_, hstay'⟩
      · exact hkj.trans hkj'.symm
      · exact absurd (hmoved ▸ hi) (hnot k' t₂ i hstay' hi')
    · rcases at_moved hk' with ⟨_, hmoved'⟩ | ⟨_, hstay'⟩
      · exact absurd (hmoved' ▸ hi') (hnot k t₁ i hstay hi)
      · exact h.sole k k' t₁ t₂ i hstay hstay' hi hi'
  · intro k t₁ i hk hi
    rcases at_moved hk with ⟨_, rfl⟩ | ⟨_, hk⟩
    · obtain ⟨rfl, hty⟩ := hfill i hi
      refine ⟨Db.hasChat_iff.mpr ⟨row, (Table.mem_insert hins).mpr (Or.inr rfl), rfl⟩, ?_⟩
      exact fun hp => hty ((Db.isPrivate_inserted hins).mp hp)
    · obtain ⟨hc, hp⟩ := h.filling k t₁ i hk hi
      exact ⟨Db.hasChat_insert hins hc, fun hp' => hp ((Db.isPrivate_insert hins hc).mp hp')⟩
  · intro x hx hty hno
    obtain ⟨hx, hno⟩ := hold x hx hty hno
    exact h.pairs.pair x hx hty hno
  · intro x hx y hy hxp hyp hxno hyno heq
    obtain ⟨hx, hxno⟩ := hold x hx hxp hxno
    obtain ⟨hy, hyno⟩ := hold y hy hyp hyno
    exact h.pairs.unique x hx y hy hxp hyp hxno hyno heq

/-- The chat that was being created gets its two rows. -/
theorem PairInv.joined (h : PairInv db ts) (ht : ts[j]? = some (r, t)) {i u v : Uuid}
    (hopen : t.opening = some i) (hopen' : t'.opening = none) (hfill : t'.filling = none)
    (huv : u ≠ v) (hnew : ∀ k, db.isPrivate k → ¬ (u ∈ db.usersOf k ∧ v ∈ db.usersOf k))
    (hchats : db'.chats = db.chats) (husers : db'.usersOf i = [u, v])
    (hother : ∀ k, k ≠ i → db'.usersOf k = db.usersOf k) : PairInv db' (ts.set j (r, t')) := by
  obtain ⟨hpriv, hempty⟩ := h.opening j t i ⟨r, ht⟩ hopen
  have hcreated : ∀ k, k ≠ i → ¬ BeingCreated (ts.set j (r, t')) k → ¬ BeingCreated ts k := by
    intro k hk hno hyes
    refine hno (beingCreated_moved ht ?_ hyes)
    rw [hopen]
    exact fun heq => hk (Option.some.inj heq).symm
  -- no other thread was creating the chat
  have hsole : ∀ k t₁ i', At (ts.set j (r, t')) k t₁ → t₁.opening = some i' →
      At ts k t₁ ∧ i' ≠ i := by
    intro k t₁ i' hk hi'
    rcases at_moved hk with ⟨_, rfl⟩ | ⟨hkj, hk⟩
    · rw [hopen'] at hi'
      cases hi'
    · refine ⟨hk, ?_⟩
      rintro rfl
      exact hkj (h.sole k j t₁ t i' hk ⟨r, ht⟩ hi' hopen)
  -- another private chat does not have both users
  have hnone : ∀ y ∈ db.chats, y.chatType = .priv → y.id ≠ i →
      ¬ ∀ w, w ∈ ([u, v] : List Uuid) ↔ w ∈ db.usersOf y.id := by
    intro y hy hyp _ heq
    exact hnew y.id ⟨y, hy, rfl, hyp⟩ ⟨(heq u).mp (by simp), (heq v).mp (by simp)⟩
  have hid : ∀ x ∈ db.chats, ∀ y ∈ db.chats, x.id = i → y.id = i → x = y :=
    fun x hx y hy hxi hyi => Table.eq_of_clash hx hy (by simp [Keyed.clash, hxi, hyi])
  refine ⟨?_, ?_, ?_, ?_, ?_, ?_⟩
  · intro k w hw
    rw [hasChat_congr hchats]
    by_cases hk : k = i
    · exact hk ▸ Db.hasChat_of_isPrivate hpriv
    · exact h.known k w (hother k hk ▸ hw)
  · intro k t₁ i' hk hi'
    obtain ⟨hk, hne⟩ := hsole k t₁ i' hk hi'
    obtain ⟨hp, he⟩ := h.opening k t₁ i' hk hi'
    exact ⟨(isPrivate_congr hchats i').mpr hp, (hother i' hne).trans he⟩
  · intro k k' t₁ t₂ i' hk hk' hi hi'
    exact h.sole k k' t₁ t₂ i' (hsole k t₁ i' hk hi).1 (hsole k' t₂ i' hk' hi').1 hi hi'
  · intro k t₁ i' hk hi'
    rw [hasChat_congr hchats, isPrivate_congr hchats]
    rcases at_moved hk with ⟨_, rfl⟩ | ⟨_, hk⟩
    · rw [hfill] at hi'
      cases hi'
    · exact h.filling k t₁ i' hk hi'
  · intro x hx hty hno
    rw [hchats] at hx
    by_cases hxi : x.id = i
    · exact ⟨u, v, huv, hxi ▸ husers⟩
    · rw [hother x.id hxi]
      exact h.pairs.pair x hx hty (hcreated x.id hxi hno)
  · intro x hx y hy hxp hyp hxno hyno heq
    rw [hchats] at hx hy
    by_cases hxi : x.id = i
    · by_cases hyi : y.id = i
      · exact hid x hx y hy hxi hyi
      · rw [hxi, husers, hother y.id hyi] at heq
        exact absurd heq (hnone y hy hyp hyi)
    · by_cases hyi : y.id = i
      · rw [hyi, husers, hother x.id hxi] at heq
        exact absurd (fun w => (heq w).symm) (hnone x hx hxp hxi)
      · rw [hother x.id hxi, hother y.id hyi] at heq
        exact h.pairs.unique x hx y hy hxp hyp (hcreated x.id hxi hxno)
          (hcreated y.id hyi hyno) heq

end Moves

/-! ## One step -/

section Steps

variable {pg : Pg} {db : Db} {ts : List (Request × Thread)} {j : Nat} {r : Request} {uid : String}

/-- A thread at a point that fills no chat has nothing to show of one. -/
theorem not_filling {P : Uuid → Prop} (i : Uuid) (hi : (none : Option Uuid) = some i) : P i := by
  cases hi

theorem filling_nextMember {chatId name : String} {l : List Json} :
    (⟨uid, .chat (Chats.nextMember uid chatId name l)⟩ : Thread).opening = none ∧
      ∀ i, (⟨uid, .chat (Chats.nextMember uid chatId name l)⟩ : Thread).filling = some i →
        PgDb.uuid chatId = some i := by
  rcases Chats.nextMember_cases uid chatId name l with ⟨e, he⟩ | ⟨memberId, rest, hnext⟩
  · rw [he]
    exact ⟨rfl, not_filling⟩
  · rw [hnext]
    exact ⟨rfl, fun i hi => hi⟩

/-- The pair's INSERT is accepted for two different users, into a chat with no row. -/
theorem insertPair_new {chatId targetId : String} {i : Uuid} (hi : PgDb.uuid chatId = some i)
    (hpriv : db.isPrivate i) (hempty : db.usersOf i = []) (hnew : Chats.NewPair uid targetId db)
    (now : Time) : ∃ db' u v, Chats.insertPair chatId uid targetId now db = .ok (db', ()) ∧ u ≠ v ∧
      (∀ k, db.isPrivate k → ¬ (u ∈ db.usersOf k ∧ v ∈ db.usersOf k)) ∧
      db'.chats = db.chats ∧ db'.usersOf i = [u, v] ∧ ∀ k, k ≠ i → db'.usersOf k = db.usersOf k := by
  obtain ⟨u, v, hu, hv, huv, huser, hvser, hpairs⟩ := hnew
  have hchat := Db.hasChat_of_isPrivate hpriv
  obtain ⟨members, hins, hok⟩ := Chats.insertMember_accepts
    { chatId := i, userId := u, joinedAt := some now } db
    (Db.memberRow_of_not_mem (by rw [hempty]; simp)) hchat huser
  have hfirst := Db.usersOf_insert hins
  obtain ⟨members', hins', hok'⟩ := Chats.insertMember_accepts
    { chatId := i, userId := v, joinedAt := some now } { db with chatMembers := members }
    (Db.memberRow_of_not_mem (by rw [hfirst, hempty]; simpa using Ne.symm huv)) hchat hvser
  have hsecond := Db.usersOf_insert hins'
  refine ⟨{ db with chatMembers := members' }, u, v, ?_, huv, hpairs, rfl, ?_, ?_⟩
  · unfold Chats.insertPair
    rw [hi, hu, hv]
    show Chats.insertMember _ db >>= _ = _
    rw [hok]
    show Chats.insertMember _ _ >>= _ = _
    rw [hok']
    rfl
  · rw [hsecond i, hfirst i, hempty]
    simp
  · intro k hk
    rw [hsecond k, hfirst k]
    simp [Ne.symm hk]

/-- The end of a handler that has made nothing. -/
theorem PairInv.exit (h : PairInv db ts) {p : Chats.Point}
    (ht : ts[j]? = some (r, ⟨uid, .chat p⟩)) (hopen : (⟨uid, .chat p⟩ : Thread).opening = none)
    {db' : Db} (hquiet : db.Quiet db') (e : Exit) :
    PairInv db' (ts.set j (r, ⟨uid, .chat (.exited e)⟩)) :=
  h.quiet ht hopen rfl not_filling hquiet

/-- The last statement of a handler. -/
theorem PairInv.last (h : PairInv db ts) {p : Chats.Point}
    (ht : ts[j]? = some (r, ⟨uid, .chat p⟩)) (hopen : (⟨uid, .chat p⟩ : Thread).opening = none)
    {α : Type} {o : PgDb.Outcome} {q : PgDb.Stmt Db α} {e : Exit}
    (hquiet : ∀ db' a, q db = .ok (db', a) → db.Quiet db') :
    PairInv (attempt o q db (fun _ => Chats.Point.exited e) Chats.failed).1
      (ts.set j (r, ⟨uid, .chat (attempt o q db (fun _ => .exited e) Chats.failed).2⟩)) := by
  refine attempt_inv (fun db' p' => PairInv db' (ts.set j (r, ⟨uid, .chat p'⟩)))
    (fun _ => h.exit ht hopen (.refl db) _) (fun db' a hok => ?_)
  have hq := hquiet db' a hok
  exact ⟨h.exit ht hopen hq _, fun _ => h.exit ht hopen hq _⟩

/-- The pair's INSERT, on its condition. -/
theorem PairInv.joinDirect (h : PairInv db ts) {chatId targetId : String}
    (ht : ts[j]? = some (r, ⟨uid, .chat (.joinDirect chatId targetId)⟩)) {inp : Input}
    (hexec : inp.first.executes = true) (hnew : Chats.NewPair uid targetId db) :
    PairInv (Chats.step pg uid (.joinDirect chatId targetId) inp db).1
      (ts.set j (r, ⟨uid, .chat (Chats.step pg uid (.joinDirect chatId targetId) inp db).2⟩)) := by
  cases hi : PgDb.uuid chatId with
  | none =>
      refine h.last ht hi (fun db' a hq => ?_)
      obtain ⟨c, _, _, _, hc, _⟩ := Chats.insertPair_ok hq
      rw [hi] at hc
      cases hc
  | some i =>
      obtain ⟨hpriv, hempty⟩ := h.opening j _ i ⟨r, ht⟩ hi
      obtain ⟨db₁, u, v, hok, huv, hpairs, hchats, hjoined, hother⟩ :=
        insertPair_new hi hpriv hempty hnew inp.now
      have hdone : ∀ db' a, Chats.insertPair chatId uid targetId inp.now db = .ok (db', a) →
          ∀ e, PairInv db' (ts.set j (r, ⟨uid, .chat (.exited e)⟩)) := by
        intro db' a hq e
        rw [hok] at hq
        cases hq
        exact h.joined ht hi rfl rfl huv hpairs hchats hjoined hother
      refine attempt_rule (fun db' p' => PairInv db' (ts.set j (r, ⟨uid, .chat p'⟩))) ?_
        (fun db' a hq _ => hdone db' a hq _) (fun db' a msg hq _ => hdone db' a hq _)
      intro e hrefused
      obtain ⟨e', he'⟩ := hrefused hexec
      rw [hok] at he'
      cases he'

/-- A row for the next user of a group, or none, and the next one's turn. -/
theorem PairInv.nextMember (h : PairInv db ts) {p : Chats.Point} {chatId name : String}
    {rest : List Json} (ht : ts[j]? = some (r, ⟨uid, .chat p⟩))
    (hopen : (⟨uid, .chat p⟩ : Thread).opening = none)
    (hfill : (⟨uid, .chat p⟩ : Thread).filling = PgDb.uuid chatId) {db' : Db}
    (hquiet : db.Quiet db') :
    PairInv db' (ts.set j (r, ⟨uid, .chat (Chats.nextMember uid chatId name rest)⟩)) := by
  refine h.quiet ht hopen filling_nextMember.1 (fun i hi => ?_) hquiet
  exact h.filling j _ i ⟨r, ht⟩ (hfill.trans (filling_nextMember.2 i hi))

/-- On its condition `add_member` gives a private chat no new row. -/
theorem quiet_upsertMember {chatId : Bytes} {target : String} {now : Time} {db' : Db} {a : Unit}
    (hg : ∀ c v, PgDb.uuidBytes chatId = some c → PgDb.uuid target = some v → db.isPrivate c →
      db.hasUser v = true → v ∈ db.usersOf c)
    (hq : Chats.upsertMember chatId target now db = .ok (db', a)) : db.Quiet db' := by
  obtain ⟨c, v, hc, hv, ⟨_, rfl⟩ | ⟨hnone, hins⟩⟩ := Chats.upsertMember_ok hq
  · exact Db.quiet_modifyMember _ db
  · refine Db.quiet_insertMember hins (fun hpriv => ?_)
    obtain ⟨_, _, _, huser, _⟩ := Chats.insertMember_ok hins
    obtain ⟨m, hm, hpair⟩ := Db.mem_usersOf.mp (hg c v hc hv hpriv huser)
    exact List.find?_eq_none.mp hnone m hm (by simp [hpair])

/-- The step lemma for `Chats`. -/
theorem pairInv_chats {p : Chats.Point} (h : PairInv db ts)
    (ht : ts[j]? = some (r, ⟨uid, .chat p⟩)) {inp : Input} (hg : Chats.Orderly uid inp db p) :
    PairInv (Chats.step pg uid p inp db).1
      (ts.set j (r, ⟨uid, .chat (Chats.step pg uid p inp db).2⟩)) := by
  let K : Db → Chats.Point → Prop := fun db' p' => PairInv db' (ts.set j (r, ⟨uid, .chat p'⟩))
  have same := Db.Quiet.refl db
  cases p with
  | findDirect targetId =>
      refine attempt_inv K (fun _ => h.exit ht rfl same _) (fun db' found hq => ?_)
      obtain ⟨rfl, _⟩ := PgDb.reading_ok.mp hq
      refine ⟨?_, fun _ => h.exit ht rfl same _⟩
      cases found with
      | none => exact h.quiet ht rfl rfl not_filling same
      | some c => exact h.exit ht rfl same _
  | createDirect targetId =>
      refine attempt_rule K (fun _ _ => h.exit ht rfl same _) ?_ ?_
      · intro db' id hq _
        obtain ⟨rfl, u, name, chats, _, _, _, hins, rfl⟩ := Chats.insertChat_ok hq
        refine h.created ht rfl hins ?_ not_filling
        exact PgDb.uuid_uuidOut _
      · intro db' id msg _ ho
        exact absurd ho (hg msg)
  | joinDirect chatId targetId => exact h.joinDirect ht hg.1 hg.2
  | createGroup name desc members =>
      refine attempt_inv K (fun _ => h.exit ht rfl same _) (fun db' id hq => ?_)
      obtain ⟨rfl, u, name', chats, _, _, _, hins, rfl⟩ := Chats.insertChat_ok hq
      refine ⟨?_, fun _ => h.created ht rfl hins rfl not_filling⟩
      refine h.created ht rfl hins rfl (fun i hi => ⟨?_, by simp [Chats.chatRow]⟩)
      exact Option.some.inj (hi.symm.trans (PgDb.uuid_uuidOut _))
  | ownGroup chatId name members =>
      refine attempt_inv K (fun _ => h.exit ht rfl same _) (fun db' _ hq => ?_)
      obtain ⟨c, u, hc, _, hins⟩ := Chats.insertOwner_ok hq
      have hrows := Db.quiet_insertMember hins (h.filling j _ c ⟨r, ht⟩ hc).2
      exact ⟨h.nextMember ht rfl rfl hrows, fun _ => h.exit ht rfl hrows _⟩
  | joinGroup chatId name memberId rest =>
      have hnext : K db (Chats.nextMember uid chatId name rest) := h.nextMember ht rfl rfl same
      refine attempt_inv K (fun _ => hnext) (fun db' _ hq => ?_)
      obtain ⟨c, v, hc, _, rfl | hins⟩ := Chats.insertGroupMember_ok hq
      · exact ⟨hnext, fun _ => hnext⟩
      · have hrows := Db.quiet_insertMember hins (h.filling j _ c ⟨r, ht⟩ hc).2
        exact ⟨h.nextMember ht rfl rfl hrows, fun _ => h.nextMember ht rfl rfl hrows⟩
  | addMember chatId target => exact h.last ht rfl (fun db' a hq => quiet_upsertMember hg hq)
  | removeMember chatId targetUid =>
      refine h.last ht rfl (fun db' a hq => ?_)
      obtain ⟨c, v, _, _, rfl⟩ := Chats.leaveMember_ok hq
      exact Db.quiet_modifyMember _ db
  | pinMessage msgId =>
      refine h.last ht rfl (fun db' a hq => ?_)
      obtain ⟨i, _, rfl⟩ := Chats.togglePin_ok hq
      exact ⟨rfl, same.users⟩
  | reactMessage msgId emoji =>
      refine h.last ht rfl (fun db' a hq => ?_)
      cases hq
  | muteChat chatId =>
      refine h.last ht rfl (fun db' a hq => ?_)
      obtain ⟨c, u, _, _, rfl⟩ := Chats.muteMember_ok hq
      exact Db.quiet_modifyMember _ db
  | exited e => exact h.exit ht rfl same e

end Steps

/-! ## Runs -/

theorem opening_start (r : Request) :
    (start r).opening = none ∧ ∀ i, (start r).filling ≠ some i := by
  obtain ⟨uid, call⟩ := r
  cases call with
  | query r => exact ⟨rfl, fun _ h => nomatch h⟩
  | account c => exact ⟨rfl, fun _ h => nomatch h⟩
  | channel c => exact ⟨rfl, fun _ h => nomatch h⟩
  | chat c =>
      show (⟨uid, .chat (Chats.start c)⟩ : Thread).opening = none ∧
        ∀ i, (⟨uid, .chat (Chats.start c)⟩ : Thread).filling ≠ some i
      rcases Chats.start_cases c with ⟨e, he⟩ | hfirst
      · rw [he]
        exact ⟨rfl, fun _ h => nomatch h⟩
      · generalize Chats.start c = p at hfirst
        cases p with
        | joinDirect _ _ | ownGroup _ _ _ | joinGroup _ _ _ _ => cases hfirst
        | _ => exact ⟨rfl, fun _ h => nomatch h⟩

theorem opening_of_ne_chat {t : Thread} (h : ∀ p, t.point ≠ .chat p) :
    t.opening = none ∧ ∀ i, t.filling ≠ some i := by
  obtain ⟨uid, point⟩ := t
  cases point with
  | chat p => exact absurd rfl (h p)
  | _ => exact ⟨rfl, fun _ h => nomatch h⟩

/-- A new thread has made nothing. -/
theorem PairInv.spawned {db : Db} {ts : List (Request × Thread)} (h : PairInv db ts)
    (r : Request) : PairInv db (ts ++ [(r, start r)]) := by
  obtain ⟨hopen, hfill⟩ := opening_start r
  have hat : ∀ {k : Nat} {t : Thread} {i : Uuid}, At (ts ++ [(r, start r)]) k t →
      t.opening = some i ∨ t.filling = some i → At ts k t := by
    rintro k t i ⟨r₁, hk⟩ hi
    have hnew : ¬ ((start r).opening = some i ∨ (start r).filling = some i) := by
      simp [hopen, hfill i]
    exact ⟨r₁, Interleave.old_of_spawn (p := fun t : Thread => t.opening = some i ∨ t.filling = some i)
      hnew hk hi⟩
  have hcreated : ∀ i, BeingCreated ts i → BeingCreated (ts ++ [(r, start r)]) i := by
    rintro i ⟨k, t, ⟨r₁, hk⟩, hi⟩
    exact ⟨k, t, ⟨r₁, Interleave.getElem?_spawned _ hk⟩, hi⟩
  refine ⟨h.known, ?_, ?_, ?_, ?_, ?_⟩
  · exact fun k t i hk hi => h.opening k t i (hat hk (Or.inl hi)) hi
  · exact fun k k' t t' i hk hk' hi hi' =>
      h.sole k k' t t' i (hat hk (Or.inl hi)) (hat hk' (Or.inl hi')) hi hi'
  · exact fun k t i hk hi => h.filling k t i (hat hk (Or.inr hi)) hi
  · exact fun x hx hty hno => h.pairs.pair x hx hty (fun hyes => hno (hcreated x.id hyes))
  · exact fun x hx y hy hxp hyp hxno hyno heq => h.pairs.unique x hx y hy hxp hyp
      (fun hyes => hxno (hcreated x.id hyes)) (fun hyes => hyno (hcreated y.id hyes)) heq

/-- The step lemma for the whole API. -/
theorem pairInv_step {pg : Pg} {db : Db} {ts : List (Request × Thread)} {j : Nat} {r : Request}
    {t : Thread} (h : PairInv db ts) (ht : ts[j]? = some (r, t)) {inp : Input}
    (hg : ∀ p, t.point = .chat p → Chats.Orderly t.uid inp db p) :
    PairInv (step pg t inp db).1 (ts.set j (r, (step pg t inp db).2.1)) := by
  by_cases hchat : ∃ p, t.point = .chat p
  · obtain ⟨uid, point⟩ := t
    obtain ⟨p, rfl⟩ := hchat
    exact pairInv_chats h ht (hg p rfl)
  · have hne : ∀ p, t.point ≠ .chat p := fun p hp => hchat ⟨p, hp⟩
    obtain ⟨hchats, hmembers, hnext⟩ := step_of_ne_chat pg hne inp db
    refine h.quiet ht (opening_of_ne_chat hne).1 (opening_of_ne_chat hnext).1 ?_
      ⟨hchats, fun i => Or.inl ?_⟩
    · exact fun i hi => absurd hi ((opening_of_ne_chat hnext).2 i)
    · unfold Db.usersOf
      rw [hmembers]

theorem pairInv_init (db : Db) : PairInv db.withoutChats [] where
  known i v hv := by simp [Db.usersOf, Db.withoutChats, Table.select] at hv
  opening j t i hj := by obtain ⟨r, hj⟩ := hj; cases hj
  sole j j' t t' i hj := by obtain ⟨r, hj⟩ := hj; cases hj
  filling j t i hj := by obtain ⟨r, hj⟩ := hj; cases hj
  pairs := ⟨fun x hx => (nomatch hx), fun x hx => (nomatch hx)⟩

/-- In every run of the API whose steps are orderly, private chats are pairs of users, one
    chat a pair. -/
theorem privatePairs_of_orderly (pg : Pg) (db : Db) (c : Config)
    (hr : (system pg).Reach Orderly (Interleave.Config.init db.withoutChats) c) :
    PrivatePairs c.shared c.threads := by
  refine (Interleave.System.Reach.induct (fun c => PairInv c.shared c.threads)
    (pairInv_init db) ?_ ?_ hr).pairs
  · intro c r _ h _
    exact h.spawned r
  · intro c j r t inp _ h hg ht
    refine pairInv_step h ht (fun p hp => ?_)
    obtain ⟨uid, point⟩ := t
    cases hp
    exact hg r uid p ht

/-! ## Two runs -/

/-- `POST /api/chats/direct` by Alice. -/
def openDirect (target : Uuid) : Request :=
  ⟨Uuid.uuidOut alice,
    .chat (.openDirect (some (.obj [("targetUserId", .str (Uuid.uuidOut target))])))⟩

def go (j : Nat) : Action := .run j ⟨⟨0, true, .done, .done⟩, secretChat⟩

/-- Alice and Eve, and no chat. -/
def twoUsers : Db := registered "eve" eve (registered "alice" alice {})

/-- Alice opens a chat with Eve. -/
theorem privatePairs_of_orderly_eve :
    let c := [.spawn (openDirect eve), go 0, go 0, go 0].foldl (system plainPg).next
      (Interleave.Config.init twoUsers.withoutChats)
    PrivatePairs c.shared c.threads := by
  refine privatePairs_of_orderly plainPg twoUsers _ (Interleave.System.Reach.foldl _ _ .refl ?_)
  refine ⟨trivial, ?_, ?_, ?_, trivial⟩
  · rintro r uid p hp
    cases hp
    trivial
  · rintro r uid p hp
    cases hp
    exact fun _ h => nomatch h
  · rintro r uid p hp
    cases hp
    refine ⟨rfl, alice, eve, by decide, by decide, by decide, by decide, by decide, ?_⟩
    rintro i _ ⟨hu, _⟩
    obtain ⟨m, hm, _⟩ := Db.mem_usersOf.mp hu
    cases hm

/-- Alice opens a chat with herself: the second INSERT is refused, and the chat stays. -/
theorem alone_in_chat :
    let c := [.spawn (openDirect alice), go 0, go 0, go 0].foldl (system plainPg).next
      (Interleave.Config.init twoUsers.withoutChats)
    ¬ PrivatePairs c.shared c.threads := by
  intro c hpairs
  -- one evaluation of the run
  have hend : (∀ x ∈ c.threads, x.2.opening = none) ∧
      ∃ x ∈ c.shared.chats.rows, x.chatType = .priv ∧ c.shared.usersOf x.id = [] := by
    decide
  obtain ⟨hdone, x, hx, hty, hempty⟩ := hend
  obtain ⟨u, v, _, hpair⟩ := hpairs.pair x hx hty (by
    rintro ⟨j, t, ⟨r, hj⟩, hopen⟩
    rw [hdone (r, t) (List.mem_of_getElem? hj)] at hopen
    cases hopen)
  rw [hempty] at hpair
  cases hpair

end Api

end MessengerBackend
