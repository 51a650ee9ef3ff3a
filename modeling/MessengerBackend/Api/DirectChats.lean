/-
  What `open_direct` gives, after any sequence of completed requests.

  Its SELECT joins `chat_members` twice. It looks neither at `left_at` nor at other rows of the
  chat, and does not notice when caller and target are one.

  * `DirectChat`: the chat is private, its active members are exactly the two users, and both
    can read it.
  * `directChat_iff_of_steady`: if nobody is removed from a private chat and nobody joins a full
    one, `open_direct` answers with such a chat exactly if the target is not the caller. Without
    the condition the other user may have left (`opened_without_eve`).
-/
import MessengerBackend.Api.Subscribers
import MessengerBackend.Lib.Runs

namespace MessengerBackend

/-- An id in a path is the id. -/
theorem PgDb.uuidBytes_uuidOut (i : Uuid) : PgDb.uuidBytes (utf8 (Uuid.uuidOut i)) = some i := by
  have hnul : ∀ c ∈ (Uuid.uuidOut i).toList, c ≠ '\x00' := by
    rw [show (Uuid.uuidOut i).toList = Uuid.outBytes 16 i.digits from String.toList_ofList]
    exact Uuid.outBytes_ne_nul 16 i.digits
  unfold PgDb.uuidBytes
  rw [PgDb.text_utf8 hnul, Option.bind_some, Uuid.uuidIn_uuidOut]

namespace Api

/-! ## Completed requests -/

structure Completed where
  request : Request
  inputs : List Input

/-- The database after a request that nothing comes between; `none` if it is not over yet. -/
def complete (pg : Pg) (db : Db) (e : Completed) : Option Db :=
  if ((system pg).alone e.request e.inputs db).2.finished then
    some ((system pg).alone e.request e.inputs db).1
  else none

/-- Nobody is removed from a private chat, and nobody is added to one that has two rows. -/
def Chats.Steady (db : Db) : Chats.Point → Prop
  | .addMember chatId target => ∀ c v, PgDb.uuidBytes chatId = some c →
      PgDb.uuid target = some v → db.isPrivate c → v ∈ db.usersOf c ∨ (db.usersOf c).length < 2
  | .removeMember chatId targetUid => ∀ c v, PgDb.uuidBytes chatId = some c →
      PgDb.uuidBytes targetUid = some v → db.isPrivate c → v ∉ db.usersOf c
  | _ => True

def Steady (db : Db) (e : Completed) : Prop :=
  ∀ p, (start e.request).point = .chat p → Chats.Steady db p

/-- The chat of two users: both are in it, nobody else is, and `get_messages` answers them. -/
structure DirectChat (pg : Pg) (db : Db) (c : String) (u v : Uuid) : Prop where
  distinct : u ≠ v
  members : ∃ i, c = Uuid.uuidOut i ∧ db.isPrivate i ∧
    ∀ w, db.activeMember i w = true ↔ w = u ∨ w = v
  messages : ∀ w uid env, w = u ∨ w = v → PgDb.uuid uid = some w → env.first = .done →
    env.second = .done → (routeGetMessages pg env uid (utf8 c) none db).status = 200

/-- `open_direct` of `uid` for `target` answers 200 or 201 with this id. -/
def Answers (pg : Pg) (db : Db) (uid target : String) (inps : List Input) (c : String)
    (db' : Db) : Prop :=
  ∃ j status, j.valueString "targetUserId" "" = .ok target ∧ (status = 200 ∨ status = 201) ∧
    (system pg).alone ⟨uid, .chat (.openDirect (some j))⟩ inps db =
      (db', ⟨uid, .chat (Chats.respond status (.obj [("id", .str c)]))⟩)

/-! ## The invariant -/

/-- In a private chat are at most two users, and nobody has left. -/
structure Direct (db : Db) : Prop where
  known : ∀ i v, v ∈ db.usersOf i → db.hasChat i = true
  small : ∀ i, db.isPrivate i → (db.usersOf i).length ≤ 2
  active : ∀ m ∈ db.chatMembers, db.isPrivate m.chatId → m.leftAt = none

/-- And what a thread that runs alone knows of the chat it has made. -/
structure DirectInv (db : Db) (t : Thread) : Prop where
  direct : Direct db
  opening : ∀ i, t.opening = some i → db.isPrivate i ∧ db.usersOf i = []
  filling : ∀ i, t.filling = some i → db.hasChat i = true ∧ ¬ db.isPrivate i
  steady : ∀ p, t.point = .chat p → Chats.Steady db p

section Moves

variable {db db' : Db} {row : ChatMember}

theorem Direct.quiet (h : Direct db) (hq : db.Quiet db')
    (hactive : ∀ m ∈ db'.chatMembers, db.isPrivate m.chatId → m.leftAt = none) : Direct db' := by
  refine ⟨fun i v hv => ?_, fun i hi => ?_, fun m hm hp => ?_⟩
  · rw [hasChat_congr hq.chats]
    rcases hq.users i with hsame | ⟨hchat, _⟩
    · exact h.known i v (hsame ▸ hv)
    · exact hchat
  · rw [isPrivate_congr hq.chats] at hi
    rcases hq.users i with hsame | ⟨_, hno⟩
    · exact hsame ▸ h.small i hi
    · exact absurd hi hno
  · exact hactive m hm ((isPrivate_congr hq.chats m.chatId).mp hp)

/-- A new chat is empty. -/
theorem Direct.created (h : Direct db) {x : Chat} {chats : Table Chat}
    (hins : db.chats.insert x = some chats) :
    Direct { db with chats := chats } ∧ db.usersOf x.id = [] := by
  have hempty : db.usersOf x.id = [] := by
    refine List.eq_nil_iff_forall_not_mem.mpr (fun v hv => ?_)
    exact Db.ne_of_insert_chat hins (h.known x.id v hv) rfl
  refine ⟨⟨fun i v hv => Db.hasChat_insert hins (h.known i v hv), fun i hi => ?_, fun m hm hp => ?_⟩,
    hempty⟩
  · show (db.usersOf i).length ≤ 2
    by_cases hx : i = x.id
    · rw [hx, hempty]
      exact Nat.zero_le 2
    · obtain ⟨y, hy, hid, hty⟩ := hi
      rcases (Table.mem_insert hins).mp hy with hy | rfl
      · exact h.small i ⟨y, hy, hid, hty⟩
      · exact absurd hid.symm hx
  · have hthere := h.known m.chatId m.userId (Db.mem_usersOf.mpr ⟨m, hm, rfl, rfl⟩)
    exact h.active m hm ((Db.isPrivate_insert hins hthere).mp hp)

/-- A new row, in a chat that is not private or has room for it. -/
theorem Direct.inserted (h : Direct db) (hins : Chats.insertMember row db = .ok db')
    (hroom : db.isPrivate row.chatId → (db.usersOf row.chatId).length < 2)
    (hleft : row.leftAt = none) : Direct db' := by
  obtain ⟨members, hnew, hchat, _, rfl⟩ := Chats.insertMember_ok hins
  have husers := Db.usersOf_insert hnew
  refine ⟨fun i v hv => ?_, fun i hi => ?_, fun m hm hp => ?_⟩
  · rw [husers i] at hv
    rcases List.mem_append.mp hv with hv | hv
    · exact h.known i v hv
    · split at hv
      · rename_i hid
        exact hid ▸ hchat
      · cases hv
  · rw [husers i]
    by_cases hid : row.chatId = i
    · subst hid
      have := hroom hi
      simp only [if_true, List.length_append, List.length_singleton]
      omega
    · rw [if_neg hid, List.append_nil]
      exact h.small i hi
  · rcases (Table.mem_insert hnew).mp hm with hm | rfl
    · exact h.active m hm hp
    · exact hleft

/-- An UPDATE of a pair's row. -/
theorem Direct.modified (h : Direct db) {c v : Uuid} {f : ChatMember → ChatMember}
    (hf : ∀ a b, Keyed.clash (f a) b = Keyed.clash a b)
    (hleft : ∀ m ∈ db.chatMembers, Chats.isPair c v m = true → db.isPrivate c → m.leftAt = none →
      (f m).leftAt = none) : Direct (Chats.modifyMember c v f hf db) := by
  refine h.quiet (Db.quiet_modifyMember hf db) (fun m' hm' hp => ?_)
  obtain ⟨m, hm, rfl⟩ := (Table.mem_modify hf).mp hm'
  have hkey : (f m).chatId = m.chatId := by
    have hclash := hf m m
    simp only [Keyed.clash, beq_self_eq_true, Bool.and_self, Bool.and_eq_true, beq_iff_eq] at hclash
    exact hclash.1
  by_cases hpair : Chats.isPair c v m = true
  · rw [if_pos hpair] at hp ⊢
    rw [hkey] at hp
    have hc : m.chatId = c := by
      simp only [Chats.isPair, Bool.and_eq_true, beq_iff_eq] at hpair
      exact hpair.1
    exact hleft m hm hpair (hc ▸ hp) (h.active m hm hp)
  · rw [if_neg hpair] at hp ⊢
    exact h.active m hm hp

/-- A thread that has answered. -/
theorem Direct.exit (h : Direct db) (uid : String) (e : Exit) :
    DirectInv db ⟨uid, .chat (.exited e)⟩ := by
  refine ⟨h, fun i hi => (nomatch hi), fun i hi => (nomatch hi), fun p hp => ?_⟩
  cases hp
  trivial

end Moves

/-! ## One step -/

section Steps

variable {pg : Pg} {db : Db} {uid : String}

/-- The last statement of a handler. -/
theorem Direct.last (h : Direct db) {α : Type} {o : PgDb.Outcome} {q : PgDb.Stmt Db α} {e : Exit}
    (hq : ∀ db' a, q db = .ok (db', a) → Direct db') :
    DirectInv (attempt o q db (fun _ => Chats.Point.exited e) Chats.failed).1
      ⟨uid, .chat (attempt o q db (fun _ => .exited e) Chats.failed).2⟩ :=
  attempt_inv (fun db' p' => DirectInv db' ⟨uid, .chat p'⟩) (fun _ => h.exit uid _)
    (fun db' a hok => ⟨(hq db' a hok).exit uid _, fun _ => (hq db' a hok).exit uid _⟩)

/-- The next turn of the loop over a group's members. -/
theorem DirectInv.nextMember {chatId name : String} {rest : List Json} (h : Direct db)
    (hfill : ∀ i, PgDb.uuid chatId = some i → db.hasChat i = true ∧ ¬ db.isPrivate i) :
    DirectInv db ⟨uid, .chat (Chats.nextMember uid chatId name rest)⟩ := by
  rcases Chats.nextMember_cases uid chatId name rest with ⟨e, he⟩ | ⟨memberId, rest', hnext⟩
  · rw [he]
    exact h.exit uid e
  · rw [hnext]
    refine ⟨h, fun i hi => (nomatch hi), hfill, fun p hp => ?_⟩
    cases hp
    trivial

/-- A row for a group leaves it one. -/
theorem filling_inserted {db' : Db} {row : ChatMember} (hins : Chats.insertMember row db = .ok db')
    {i : Uuid} (h : db.hasChat i = true ∧ ¬ db.isPrivate i) :
    db'.hasChat i = true ∧ ¬ db'.isPrivate i := by
  obtain ⟨members, _, _, _, rfl⟩ := Chats.insertMember_ok hins
  exact h

/-- The pair's INSERT fills the chat that is being opened. -/
theorem Direct.joined (h : Direct db) {chatId targetId : String} {now : Time} {db' : Db} {a : Unit}
    (hopen : ∀ i, PgDb.uuid chatId = some i → db.isPrivate i ∧ db.usersOf i = [])
    (hq : Chats.insertPair chatId uid targetId now db = .ok (db', a)) : Direct db' := by
  obtain ⟨c, u, v, db₁, hc, _, _, hfirst, hsecond⟩ := Chats.insertPair_ok hq
  have hempty := (hopen c hc).2
  have hdirect : Direct db₁ := h.inserted hfirst (fun _ => by
    show (db.usersOf c).length < 2
    rw [hempty]
    exact Nat.zero_lt_two) rfl
  refine hdirect.inserted hsecond (fun _ => ?_) rfl
  obtain ⟨members, hnew, _, _, rfl⟩ := Chats.insertMember_ok hfirst
  show (Db.usersOf _ c).length < 2
  rw [Db.usersOf_insert hnew, hempty, if_pos rfl]
  exact Nat.one_lt_two

/-- The step lemma for `Chats`. -/
theorem directInv_chats {p : Chats.Point} (h : DirectInv db ⟨uid, .chat p⟩) (inp : Input) :
    DirectInv (Chats.step pg uid p inp db).1 ⟨uid, .chat (Chats.step pg uid p inp db).2⟩ := by
  let K : Db → Chats.Point → Prop := fun db' p' => DirectInv db' ⟨uid, .chat p'⟩
  have hd := h.direct
  have plain : ∀ {db' : Db} {p' : Chats.Point}, Direct db' →
      (⟨uid, .chat p'⟩ : Thread).opening = none → (⟨uid, .chat p'⟩ : Thread).filling = none →
      Chats.Steady db' p' → K db' p' := by
    intro db' p' hd' hopen hfill hsteady
    refine ⟨hd', fun i hi => ?_, fun i hi => ?_, fun q hq => ?_⟩
    · cases hopen.symm.trans hi
    · cases hfill.symm.trans hi
    · cases hq
      exact hsteady
  cases p with
  | findDirect targetId =>
      refine attempt_inv K (fun _ => hd.exit uid _) (fun db' found hq => ?_)
      obtain ⟨rfl, _⟩ := PgDb.reading_ok.mp hq
      refine ⟨?_, fun _ => hd.exit uid _⟩
      cases found with
      | none => exact plain hd rfl rfl trivial
      | some c => exact hd.exit uid _
  | createDirect targetId =>
      refine attempt_inv K (fun _ => hd.exit uid _) (fun db' id hq => ?_)
      obtain ⟨rfl, u, name, chats, _, _, _, hins, rfl⟩ := Chats.insertChat_ok hq
      obtain ⟨hd', hempty⟩ := hd.created hins
      refine ⟨⟨hd', fun i hi => ?_, fun i hi => (by cases hi), fun q hq => ?_⟩, fun _ => hd'.exit uid _⟩
      · obtain rfl : inp.freshId = i := PgDb.eq_of_uuid_uuidOut hi
        exact ⟨(Db.isPrivate_inserted hins).mpr rfl, hempty⟩
      · cases hq
        trivial
  | joinDirect chatId targetId => exact hd.last (fun db' a hq => hd.joined h.opening hq)
  | createGroup name desc members =>
      refine attempt_inv K (fun _ => hd.exit uid _) (fun db' id hq => ?_)
      obtain ⟨rfl, u, name', chats, _, _, _, hins, rfl⟩ := Chats.insertChat_ok hq
      obtain ⟨hd', _⟩ := hd.created hins
      refine ⟨⟨hd', fun i hi => (by cases hi), fun i hi => ?_, fun q hq => ?_⟩, fun _ => hd'.exit uid _⟩
      · obtain rfl : inp.freshId = i := PgDb.eq_of_uuid_uuidOut hi
        refine ⟨Db.hasChat_iff.mpr ⟨_, (Table.mem_insert hins).mpr (Or.inr rfl), rfl⟩, fun hp => ?_⟩
        cases (Db.isPrivate_inserted hins).mp hp
      · cases hq
        trivial
  | ownGroup chatId name members =>
      refine attempt_inv K (fun _ => hd.exit uid _) (fun db' _ hq => ?_)
      obtain ⟨c, u, hc, _, hins⟩ := Chats.insertOwner_ok hq
      have hd' := hd.inserted hins (fun hp => absurd hp (h.filling c hc).2) rfl
      exact ⟨.nextMember hd' (fun i hi => filling_inserted hins (h.filling i hi)),
        fun _ => hd'.exit uid _⟩
  | joinGroup chatId name memberId rest =>
      have hnext : K db (Chats.nextMember uid chatId name rest) := .nextMember hd h.filling
      refine attempt_inv K (fun _ => hnext) (fun db' _ hq => ?_)
      obtain ⟨c, v, hc, _, rfl | hins⟩ := Chats.insertGroupMember_ok hq
      · exact ⟨hnext, fun _ => hnext⟩
      · have hd' := hd.inserted hins (fun hp => absurd hp (h.filling c hc).2) rfl
        have hnext' : K db' (Chats.nextMember uid chatId name rest) :=
          .nextMember hd' (fun i hi => filling_inserted hins (h.filling i hi))
        exact ⟨hnext', fun _ => hnext'⟩
  | addMember chatId target =>
      refine hd.last (fun db' a hq => ?_)
      obtain ⟨c, v, hc, hv, ⟨_, rfl⟩ | ⟨hnone, hins⟩⟩ := Chats.upsertMember_ok hq
      · exact hd.modified _ (fun _ _ _ _ _ => rfl)
      · refine hd.inserted hins (fun hp => ?_) rfl
        refine (h.steady _ rfl c v hc hv hp).resolve_left (fun hmem => ?_)
        obtain ⟨m, hm, hpair⟩ := Db.mem_usersOf.mp hmem
        exact List.find?_eq_none.mp hnone m hm (by simp [hpair])
  | removeMember chatId targetUid =>
      refine hd.last (fun db' a hq => ?_)
      obtain ⟨c, v, hc, hv, rfl⟩ := Chats.leaveMember_ok hq
      refine hd.modified _ (fun m hm hpair hp _ => ?_)
      simp only [Chats.isPair, Bool.and_eq_true, beq_iff_eq] at hpair
      exact absurd (Db.mem_usersOf.mpr ⟨m, hm, hpair⟩) (h.steady _ rfl c v hc hv hp)
  | pinMessage msgId =>
      refine hd.last (fun db' a hq => ?_)
      obtain ⟨i, _, rfl⟩ := Chats.togglePin_ok hq
      exact ⟨hd.known, hd.small, hd.active⟩
  | reactMessage msgId emoji => exact hd.last (fun db' a hq => (by cases hq))
  | muteChat chatId =>
      refine hd.last (fun db' a hq => ?_)
      obtain ⟨c, u, _, _, rfl⟩ := Chats.muteMember_ok hq
      exact hd.modified _ (fun _ _ _ _ hleft => hleft)
  | exited e => exact hd.exit uid e

/-- The step lemma for a request that runs alone. -/
theorem directInv_step {t : Thread} (h : DirectInv db t) (inp : Input) :
    DirectInv (step pg t inp db).1 (step pg t inp db).2.1 := by
  by_cases hchat : ∃ p, t.point = .chat p
  · obtain ⟨uid, point⟩ := t
    obtain ⟨p, rfl⟩ := hchat
    exact directInv_chats h inp
  · have hne : ∀ p, t.point ≠ .chat p := fun p hp => hchat ⟨p, hp⟩
    obtain ⟨hchats, hmembers, hnext⟩ := step_of_ne_chat pg hne inp db
    obtain ⟨hopen, hfill⟩ := opening_of_ne_chat hnext
    refine ⟨?_, fun i hi => (nomatch hopen.symm.trans hi), fun i hi => absurd hi (hfill i),
      fun p hp => absurd hp (hnext p)⟩
    refine h.direct.quiet ⟨hchats, fun i => Or.inl ?_⟩ (fun m hm hp => ?_)
    · unfold Db.usersOf
      rw [hmembers]
    · rw [hmembers] at hm
      exact h.direct.active m hm hp

end Steps

/-! ## Sequences of requests -/

theorem direct_init (db : Db) : Direct db.withoutChats where
  known i v hv := by simp [Db.usersOf, Db.withoutChats, Table.select] at hv
  small i _ := by simp [Db.usersOf, Db.withoutChats, Table.select]
  active m hm := nomatch hm

theorem directInv_start {db : Db} {e : Completed} (h : Direct db) (hs : Steady db e) :
    DirectInv db (start e.request) := by
  obtain ⟨hopen, hfill⟩ := opening_start e.request
  exact ⟨h, fun i hi => (nomatch hopen.symm.trans hi), fun i hi => absurd hi (hfill i), hs⟩

theorem direct_complete {pg : Pg} {db db' : Db} {e : Completed} (h : Direct db) (hs : Steady db e)
    (hc : complete pg db e = some db') : Direct db' := by
  have hinv := (system pg).alone_inv DirectInv (directInv_start h hs)
    (fun _ _ inp hk => directInv_step hk inp) e.inputs
  unfold complete at hc
  split at hc
  · cases hc
    exact hinv.direct
  · cases hc

/-- The run lemma. -/
theorem direct_of_reach {pg : Pg} {db₀ db : Db}
    (hr : Runs.Reach (complete pg) Steady db₀.withoutChats db) : Direct db :=
  hr.invariant Direct (direct_init db₀) (fun _ _ _ h hs hc => direct_complete h hs hc)

/-! ## What `open_direct` answers -/

/-- A chat that is found has a row for each of the two. -/
theorem selectDirect_some {uid target : String} {db db' : Db} {x : Chat}
    (h : Chats.selectDirect uid target db = .ok (db', some x)) {u v : Uuid}
    (hu : PgDb.uuid uid = some u) (hv : PgDb.uuid target = some v) :
    db.isPrivate x.id ∧ u ∈ db.usersOf x.id ∧ v ∈ db.usersOf x.id := by
  obtain ⟨_, hx⟩ := PgDb.reading_ok.mp h
  rw [hu, hv] at hx
  have hhead := Except.ok.inj hx
  obtain ⟨⟨⟨x', m⟩, m'⟩, hfound, rfl⟩ := Option.map_eq_some_iff.mp hhead
  obtain ⟨hboth, hty⟩ := List.mem_filter.mp (List.mem_of_head? hfound)
  obtain ⟨hfirst, hm', hsecond⟩ := Select.mem_join.mp hboth
  obtain ⟨hx', hm, hon⟩ := Select.mem_join.mp hfirst
  simp only [Bool.and_eq_true, beq_iff_eq] at hty hon hsecond
  exact ⟨⟨x', hx', rfl, hty⟩, Db.mem_usersOf.mpr ⟨m, hm, hon⟩, Db.mem_usersOf.mpr ⟨m', hm', hsecond⟩⟩

/-- Where `open_direct` stands, and what it answers with 200 or 201. -/
def Answering (db : Db) (u v : Uuid) (target : String) : Chats.Point → Prop
  | .findDirect t => t = target
  | .createDirect t => t = target
  | .joinDirect chatId t => t = target ∧ ∃ i, chatId = Uuid.uuidOut i
  | .exited (.response r) => r.status = 200 ∨ r.status = 201 →
      ∃ i, r.body = .obj [("id", .str (Uuid.uuidOut i))] ∧ db.isPrivate i ∧
        u ∈ db.usersOf i ∧ v ∈ db.usersOf i
  | .exited .exception => True
  | _ => False

theorem answering_failed (db : Db) (u v : Uuid) (target : String) (e : SqlError) :
    Answering db u v target (Chats.failed e) := by
  intro h
  rcases h with h | h <;> cases h

/-- The step lemma for `open_direct`. -/
theorem answering_step {pg : Pg} {db : Db} {uid target : String} {u v : Uuid}
    (hu : PgDb.uuid uid = some u) (hv : PgDb.uuid target = some v) {p : Chats.Point}
    (hinv : DirectInv db ⟨uid, .chat p⟩) (h : Answering db u v target p) (inp : Input) :
    Answering (Chats.step pg uid p inp db).1 u v target (Chats.step pg uid p inp db).2 := by
  let K : Db → Chats.Point → Prop := fun db' p' => Answering db' u v target p'
  cases p with
  | findDirect t =>
      obtain rfl : t = target := h
      refine attempt_inv K (fun e => answering_failed db u v t e) (fun db' found hq => ?_)
      obtain ⟨rfl, _⟩ := PgDb.reading_ok.mp hq
      refine ⟨?_, fun e => answering_failed _ u v t e⟩
      cases found with
      | none => exact rfl
      | some x => exact fun _ => ⟨x.id, rfl, selectDirect_some hq hu hv⟩
  | createDirect t =>
      refine attempt_inv K (fun e => answering_failed db u v target e) (fun db' id hq => ?_)
      exact ⟨⟨h, id, rfl⟩, fun e => answering_failed _ u v target e⟩
  | joinDirect chatId t =>
      obtain ⟨rfl, i, rfl⟩ := h
      refine attempt_inv K (fun e => answering_failed db u v t e) (fun db' a hq => ?_)
      refine ⟨fun _ => ⟨i, rfl, ?_⟩, fun e => answering_failed _ u v t e⟩
      obtain ⟨c, u', v', db₁, hc, hu', hv', hfirst, hsecond⟩ := Chats.insertPair_ok hq
      obtain rfl : i = c := PgDb.eq_of_uuid_uuidOut hc
      obtain rfl : u = u' := Option.some.inj (hu.symm.trans hu')
      obtain rfl : v = v' := Option.some.inj (hv.symm.trans hv')
      obtain ⟨members, hnew, _, _, rfl⟩ := Chats.insertMember_ok hfirst
      obtain ⟨members', hnew', _, _, rfl⟩ := Chats.insertMember_ok hsecond
      refine ⟨(hinv.opening i (PgDb.uuid_uuidOut i)).1, ?_, ?_⟩
      · rw [Db.usersOf_insert hnew', Db.usersOf_insert hnew]
        simp
      · rw [Db.usersOf_insert hnew', Db.usersOf_insert hnew]
        simp
  | exited e => exact h
  | _ => exact h.elim

/-- Two users of a small chat are all its users. -/
theorem mem_pair {l : List Uuid} {u v : Uuid} (hlen : l.length ≤ 2) (huv : u ≠ v) (hu : u ∈ l)
    (hv : v ∈ l) (w : Uuid) : w ∈ l ↔ w = u ∨ w = v := by
  match l, hlen with
  | [], _ => cases hu
  | [a], _ =>
      rw [List.mem_singleton] at hu hv
      exact absurd (hu.trans hv.symm) huv
  | [a, b], _ =>
      simp only [List.mem_cons, List.not_mem_nil, or_false] at hu hv ⊢
      rcases hu with rfl | rfl
      · rcases hv with rfl | rfl
        · exact absurd rfl huv
        · exact Iff.rfl
      · rcases hv with rfl | rfl
        · exact or_comm
        · exact absurd rfl huv

/-- In a private chat every user is active. -/
theorem Direct.activeMember_iff {db : Db} (h : Direct db) {i : Uuid} (hp : db.isPrivate i)
    (w : Uuid) : db.activeMember i w = true ↔ w ∈ db.usersOf i := by
  rw [Db.mem_usersOf]
  unfold Db.activeMember
  rw [List.any_eq_true]
  constructor
  · rintro ⟨m, hm, hpair⟩
    simp only [Bool.and_eq_true, beq_iff_eq] at hpair
    exact ⟨m, hm, hpair.1⟩
  · rintro ⟨m, hm, hc, hw⟩
    refine ⟨m, hm, ?_⟩
    have hleft := h.active m hm (hc ▸ hp)
    simp [hc, hw, hleft]

/-- `get_messages` answers an active member. -/
theorem routeGetMessages_member {pg : Pg} {db : Db} {i w : Uuid} {uid : String} {env : Env}
    (hact : db.activeMember i w = true) (hw : PgDb.uuid uid = some w) (hfirst : env.first = .done)
    (hsecond : env.second = .done) :
    (routeGetMessages pg env uid (utf8 (Uuid.uuidOut i)) none db).status = 200 := by
  have hpage : ∃ rows, selectMessages pg env.now (utf8 (Uuid.uuidOut i)) (Sql.urlParam none)
      db = .ok rows := by
    unfold selectMessages
    rw [PgDb.uuidBytes_uuidOut]
    exact ⟨_, rfl⟩
  obtain ⟨mem, hmember, hsome⟩ :=
    selectMembership_of_member (PgDb.uuidBytes_uuidOut i) hw hact
  obtain ⟨rows, hpage⟩ := hpage
  unfold routeGetMessages
  rw [hfirst, hsecond]
  simp only [PgDb.query, hmember, hpage, answer, hsome, Bool.false_eq_true, if_false]
  rfl

/-- `open_direct` begins with its SELECT, or refuses. -/
theorem start_openDirect {j : Json} {target : String}
    (h : j.valueString "targetUserId" "" = .ok target) :
    Chats.start (.openDirect (some j)) = .findDirect target ∨
      Chats.start (.openDirect (some j)) = Chats.refuse 400 "targetUserId required" := by
  show Chats.routeOpenDirect (some j) = _ ∨ Chats.routeOpenDirect (some j) = _
  unfold Chats.routeOpenDirect Chats.withField withBody
  simp only [h]
  split
  · exact Or.inr rfl
  · exact Or.inl rfl

/-- After requests that are steady, `open_direct` gives the chat of caller and target exactly if
    these are two. -/
theorem directChat_iff_of_steady (pg : Pg) (db₀ db db' : Db) (uid target c : String) (u v : Uuid)
    (inps : List Input) (hr : Runs.Reach (complete pg) Steady db₀.withoutChats db)
    (hu : PgDb.uuid uid = some u) (hv : PgDb.uuid target = some v)
    (ha : Answers pg db uid target inps c db') : DirectChat pg db' c u v ↔ u ≠ v := by
  refine ⟨fun h => h.distinct, fun huv => ?_⟩
  obtain ⟨j, status, hj, hstatus, halone⟩ := ha
  have hstart : DirectInv db (start ⟨uid, .chat (.openDirect (some j))⟩) ∧
      ∃ p, start ⟨uid, .chat (.openDirect (some j))⟩ = ⟨uid, .chat p⟩ ∧
        Answering db u v target p := by
    refine ⟨directInv_start (e := ⟨_, inps⟩) (direct_of_reach hr) (fun p hp => ?_), _, rfl, ?_⟩
    · cases hp
      rcases start_openDirect hj with heq | heq <;> rw [heq] <;> trivial
    · rcases start_openDirect hj with heq | heq <;> rw [heq]
      · exact rfl
      · intro h
        rcases h with h | h <;> cases h
  have hend := (system pg).alone_inv
    (fun db t => DirectInv db t ∧ ∃ p, t = ⟨uid, .chat p⟩ ∧ Answering db u v target p) hstart
    (fun db₁ t inp h => by
      obtain ⟨hinv, p, rfl, hopen⟩ := h
      exact ⟨directInv_step hinv inp, _, rfl, answering_step hu hv hinv hopen inp⟩) inps
  rw [halone] at hend
  obtain ⟨hinv, p, hp, hopen⟩ := hend
  cases hp
  obtain ⟨i, hbody, hpriv, hui, hvi⟩ := hopen hstatus
  have hc : c = Uuid.uuidOut i := by
    cases hbody
    rfl
  have hact : ∀ w, db'.activeMember i w = true ↔ w = u ∨ w = v := fun w =>
    (hinv.direct.activeMember_iff hpriv w).trans (mem_pair (hinv.direct.small i hpriv) huv hui hvi w)
  refine ⟨huv, ⟨i, hc, hpriv, hact⟩, fun w wid env hw hwid hfirst hsecond => ?_⟩
  rw [hc]
  exact routeGetMessages_member ((hact w).mpr hw) hwid hfirst hsecond

/-! ## Two sequences -/

/-- A statement that is executed and answered; a new chat gets this id. -/
def executed : Input := ⟨⟨0, true, .done, .done⟩, secretChat⟩

def openedEve : Completed := ⟨openDirect eve, List.replicate 3 executed⟩

/-- `DELETE /api/chats/11111111111111111111111111111111/members/…` with Eve's id, by Alice. -/
def removedEve : Completed :=
  ⟨⟨Uuid.uuidOut alice, .chat (.removeMember (List.replicate 32 49) (utf8 (Uuid.uuidOut eve)))⟩,
    [executed]⟩

theorem steady_openedEve (db : Db) : Steady db openedEve := by
  intro p hp
  cases hp
  trivial

/-- Alice opens her chat with Eve a second time. -/
theorem directChat_iff_of_steady_again : ∃ db db',
    complete plainPg twoUsers.withoutChats openedEve = some db ∧
      (DirectChat plainPg db' (Uuid.uuidOut secretChat) alice eve ↔ alice ≠ eve) ∧
      Answers plainPg db (Uuid.uuidOut alice) (Uuid.uuidOut eve) [executed]
        (Uuid.uuidOut secretChat) db' := by
  have hcomplete : complete plainPg twoUsers.withoutChats openedEve = some
      ((system plainPg).alone openedEve.request openedEve.inputs twoUsers.withoutChats).1 := rfl
  have hanswer : Answers plainPg
      ((system plainPg).alone openedEve.request openedEve.inputs twoUsers.withoutChats).1
      (Uuid.uuidOut alice) (Uuid.uuidOut eve) [executed] (Uuid.uuidOut secretChat)
      ((system plainPg).alone openedEve.request openedEve.inputs twoUsers.withoutChats).1 :=
    ⟨.obj [("targetUserId", .str (Uuid.uuidOut eve))], 200, rfl, Or.inl rfl, rfl⟩
  exact ⟨_, _, hcomplete, directChat_iff_of_steady plainPg twoUsers _ _ _ _ _ alice eve _
    (.next openedEve .refl (steady_openedEve _) hcomplete) (PgDb.uuid_uuidOut alice)
    (PgDb.uuid_uuidOut eve) hanswer, hanswer⟩

/-- Alice removes Eve and opens the chat again: it is given, and Eve is not in it. -/
theorem opened_without_eve : ∃ db db',
    Runs.run (complete plainPg) twoUsers.withoutChats [openedEve, removedEve] = some db ∧
      Answers plainPg db (Uuid.uuidOut alice) (Uuid.uuidOut eve) [executed]
        (Uuid.uuidOut secretChat) db' ∧
      ¬ DirectChat plainPg db' (Uuid.uuidOut secretChat) alice eve := by
  refine ⟨_, _, rfl, ⟨.obj [("targetUserId", .str (Uuid.uuidOut eve))], 200, rfl, Or.inl rfl, rfl⟩,
    fun h => ?_⟩
  obtain ⟨i, hi, _, hmembers⟩ := h.members
  have hact := (hmembers eve).mpr (Or.inr rfl)
  obtain rfl : secretChat = i := by
    have huuid := PgDb.uuid_uuidOut secretChat
    rw [hi, PgDb.uuid_uuidOut i] at huuid
    exact (Option.some.inj huuid).symm
  revert hact
  decide

end Api

end MessengerBackend
