/-
  What a caller must be before its request changes something that is not its own.

  * `Authority u db db'`: every change from `db` to `db'` that needs an active membership or
    a channel role is covered by one that `u` has in `db`.
  * `Permitted u db call`: the exact condition under which all runs of `call` have it
    (`authorized_iff`). It says something about four handlers only. `add_member`,
    `remove_member` and `delete_post` have no test of the caller at all, and neither has
    `pin`; the others are always permitted: a new chat belongs to nobody yet, `create_post`
    reads the role first, and the statement of `react` never gets past the parser.
  * `Bounded` is the invariant of a run: what the handler has changed so far, at each point.

  The state is any database. `uninvited` is a run from empty tables.
-/
import MessengerBackend.Api.Server
import MessengerBackend.Api.Confidentiality
import MessengerBackend.Auth.OtpSteps

namespace MessengerBackend

namespace Db

/-- The `is_pinned` column of a message. -/
def pinState (db : Db) (i : Uuid) : Option (Option Bool) :=
  (db.messages.lookup Message.id i).map Message.isPinned

/-- `u` has role owner or admin in `ch`. -/
def mayPost (db : Db) (ch u : Uuid) : Bool :=
  (Api.Channels.subscriberRow db ch u).any (fun s => s.role == "owner" || s.role == "admin")

end Db

namespace Api

structure Authority (u : Uuid) (db db' : Db) : Prop where
  member : ∀ c v, db.hasChat c = true → v ≠ u → db'.memberRow c v ≠ db.memberRow c v →
    db.activeMember c u = true
  join : ∀ c, db.hasChat c = true → db'.activeMember c u = true → db.activeMember c u = true
  pin : ∀ m ∈ db.messages, db'.pinState m.id ≠ db.pinState m.id →
    db.activeMember m.chatId u = true
  reaction : ∀ m ∈ db.messages,
    db'.reactions.select (fun r => r.messageId == m.id) ≠
      db.reactions.select (fun r => r.messageId == m.id) → db.activeMember m.chatId u = true
  post : ∀ ch, db'.channelPosts.select (fun p => p.channelId == ch) ≠
    db.channelPosts.select (fun p => p.channelId == ch) → db.mayPost ch u = true

/-- Every run of the call by `u`, whatever becomes of its statements, has authority for what
    it changes. -/
def Authorized (pg : Pg) (u : Uuid) (db : Db) (call : Call) : Prop :=
  ∀ (uid : String) (inps : List Input), PgDb.uuid uid = some u →
    Authority u db ((system pg).alone ⟨uid, call⟩ inps db).1

/-! ## The condition -/

/-- On a handler of `Chats`, at the point where its first statement runs. -/
def Chats.Permitted (u : Uuid) (db : Db) : Chats.Point → Prop
  | .addMember chatId target => ∀ c v, PgDb.uuidBytes chatId = some c →
      PgDb.uuid target = some v → db.hasChat c = true →
      db.activeMember c u = true ∨ db.activeMember c v = true ∨
        db.memberRow c v = none ∧ db.hasUser v = false
  | .removeMember chatId targetUid => ∀ c v, PgDb.uuidBytes chatId = some c →
      PgDb.uuidBytes targetUid = some v → db.hasChat c = true →
      db.activeMember c u = true ∨ v = u ∨ db.memberRow c v = none
  | .pinMessage msgId => ∀ m ∈ db.messages, PgDb.uuidBytes msgId = some m.id →
      m.isPinned ≠ none → db.activeMember m.chatId u = true
  | _ => True

/-- On a handler of `Channels`, likewise. -/
def Channels.Permitted (u : Uuid) (db : Db) : Channels.Point → Prop
  | .deletePost channelId postId => ∀ p ∈ db.channelPosts, PgDb.uuidBytes postId = some p.id →
      PgDb.uuidBytes channelId = some p.channelId → db.mayPost p.channelId u = true
  | _ => True

def Permitted (u : Uuid) (db : Db) : Call → Prop
  | .chat c => Chats.Permitted u db (Chats.start c)
  | .channel c => Channels.Permitted u db (Channels.start c)
  | _ => True

/-! ## Authority from a frame -/

section Frame

variable {u : Uuid} {db db' : Db}

theorem Authority.of_frame
    (hmem : ∀ c v, db.hasChat c = true → db'.memberRow c v = db.memberRow c v)
    (hmsg : db'.messages = db.messages) (hreact : db'.reactions = db.reactions)
    (hpost : db'.channelPosts = db.channelPosts) : Authority u db db' where
  member c v hc _ hne := absurd (hmem c v hc) hne
  join c hc hact := by
    rw [Db.activeMember_eq] at hact ⊢
    rw [← hmem c u hc]
    exact hact
  pin m _ hne := absurd (by unfold Db.pinState; rw [hmsg]) hne
  reaction m _ hne := absurd (by rw [hreact]) hne
  post ch hne := absurd (by rw [hpost]) hne

theorem Authority.refl (u : Uuid) (db : Db) : Authority u db db :=
  .of_frame (fun _ _ _ => rfl) rfl rfl rfl

/-- A statement that changes the row of one pair. -/
theorem Authority.of_pair {c v : Uuid}
    (hmem : ∀ c' v', ¬ (c' = c ∧ v' = v) → db'.memberRow c' v' = db.memberRow c' v')
    (hother : db.hasChat c = true → v ≠ u → db'.memberRow c v ≠ db.memberRow c v →
      db.activeMember c u = true)
    (hown : db.hasChat c = true → v = u → db'.activeMember c u = true →
      db.activeMember c u = true)
    (hmsg : db'.messages = db.messages) (hreact : db'.reactions = db.reactions)
    (hpost : db'.channelPosts = db.channelPosts) : Authority u db db' := by
  have hrest : Authority u db { db' with chatMembers := db.chatMembers } :=
    .of_frame (fun _ _ _ => rfl) hmsg hreact hpost
  refine ⟨?_, ?_, hrest.pin, hrest.reaction, hrest.post⟩
  · intro c' v' hc' hv' hne
    by_cases hp : c' = c ∧ v' = v
    · obtain ⟨rfl, rfl⟩ := hp
      exact hother hc' hv' hne
    · exact absurd (hmem c' v' hp) hne
  · intro c' hc' hact
    by_cases hp : c' = c ∧ u = v
    · obtain ⟨rfl, rfl⟩ := hp
      exact hown hc' rfl hact
    · rw [Db.activeMember_eq] at hact ⊢
      rw [← hmem c' u hp]
      exact hact

end Frame

/-! ## The statements on existing chats -/

section Statements

variable {u : Uuid} {db db' : Db} {a : Unit}

/-- The target's row becomes active, or is new. -/
theorem authority_upsertMember {chatId : Bytes} {target : String} {now : Time}
    (hp : Chats.Permitted u db (.addMember chatId target))
    (h : Chats.upsertMember chatId target now db = .ok (db', a)) : Authority u db db' := by
  obtain ⟨c, v, hc, hv, ⟨hrow, rfl⟩ | ⟨hrow, hins⟩⟩ := Chats.upsertMember_ok h
  · have hmem := Chats.memberRow_modifyMember (c := c) (v := v)
      (f := fun m => { m with leftAt := none }) (fun _ _ => rfl) db
    -- an active row is as it was
    have hsame : db.activeMember c v = true → (db.memberRow c v).map
        (fun m => { m with leftAt := none }) = db.memberRow c v := by
      rw [Db.activeMember_eq]
      cases db.memberRow c v with
      | none => intro _; rfl
      | some m =>
          intro hact
          have hnull : m.leftAt = none := by simpa using hact
          rw [Option.map_some, ← hnull]
    refine .of_pair (c := c) (v := v) ?_ ?_ ?_ rfl rfl rfl
    · intro c' v' hne
      rw [hmem, if_neg hne]
    · intro hchat _ hne
      rcases hp c v hc hv hchat with hu | hact | ⟨hnone, _⟩
      · exact hu
      · rw [hmem, if_pos ⟨rfl, rfl⟩] at hne
        exact absurd (hsame hact) hne
      · rw [hnone] at hrow
        cases hrow
    · intro hchat hvu _
      rcases hp c v hc hv hchat with hu | hact | ⟨hnone, _⟩
      · exact hu
      · exact hvu ▸ hact
      · rw [hnone] at hrow
        cases hrow
  · obtain ⟨members, hnew, hchat, huser, rfl⟩ := Chats.insertMember_ok hins
    have hact : db.activeMember c u = true := by
      rcases hp c v hc hv hchat with hu | hact | ⟨_, hnone⟩
      · exact hu
      · rw [Db.activeMember_eq, hrow] at hact
        cases hact
      · rw [hnone] at huser
        cases huser
    refine .of_pair (c := c) (v := v) ?_ (fun _ _ _ => hact) (fun _ _ _ => hact) rfl rfl rfl
    intro c' v' hne
    rw [Chats.memberRow_insert hnew, if_neg]
    intro hpair
    simp only [Chats.isPair, Bool.and_eq_true, beq_iff_eq] at hpair
    exact hne ⟨hpair.1.symm, hpair.2.symm⟩

theorem authority_leaveMember {chatId targetUid : Bytes} {now : Time}
    (hp : Chats.Permitted u db (.removeMember chatId targetUid))
    (h : Chats.leaveMember chatId targetUid now db = .ok (db', a)) : Authority u db db' := by
  obtain ⟨c, v, hc, hv, rfl⟩ := Chats.leaveMember_ok h
  have hmem := Chats.memberRow_modifyMember (c := c) (v := v)
    (f := fun m => { m with leftAt := some now }) (fun _ _ => rfl) db
  refine .of_pair (c := c) (v := v) ?_ ?_ ?_ rfl rfl rfl
  · intro c' v' hne
    rw [hmem, if_neg hne]
  · intro hchat hvu hne
    rcases hp c v hc hv hchat with hu | hown | hnone
    · exact hu
    · exact absurd hown hvu
    · rw [hmem, if_pos ⟨rfl, rfl⟩, hnone] at hne
      exact absurd rfl hne
  · intro _ hvu hact
    -- who has left is not active
    rw [Db.activeMember_eq, hmem, if_pos ⟨rfl, hvu.symm⟩, Option.any_map] at hact
    cases hrow : db.memberRow c u <;> rw [hrow] at hact <;> cases hact

/-- The caller's own row, and not its `left_at`. -/
theorem authority_muteMember {pg : Pg} {chatId : Bytes} {uid : String} {now : Time}
    (hu : PgDb.uuid uid = some u) (h : Chats.muteMember pg chatId uid now db = .ok (db', a)) :
    Authority u db db' := by
  obtain ⟨c, u', _, hu', rfl⟩ := Chats.muteMember_ok h
  cases hu.symm.trans hu'
  have hmem := Chats.memberRow_modifyMember (c := c) (v := u)
    (f := fun m => { m with mutedUntil := Chats.toggledMute pg now m.mutedUntil })
    (fun _ _ => rfl) db
  refine .of_pair (c := c) (v := u) ?_ (fun _ hne _ => absurd rfl hne) ?_ rfl rfl rfl
  · intro c' v' hne
    rw [hmem, if_neg hne]
  · intro _ _ hact
    rw [Db.activeMember_eq, hmem, if_pos ⟨rfl, rfl⟩, Option.any_map] at hact
    rw [Db.activeMember_eq]
    exact hact

/-- Pinning writes the pin state of one message, unless it is NULL. -/
theorem pinState_togglePin (i j : Uuid) :
    (Chats.flipPinOf i db).pinState j =
      if j = i then (db.pinState j).map (fun p => p.map (!·)) else db.pinState j := by
  unfold Db.pinState Chats.flipPinOf
  rw [Table.lookup_modify Chats.clash_flipPin (fun _ => rfl)]
  split
  · rw [Option.map_map, Option.map_map]
    rfl
  · rfl

theorem pinState_of_mem {m : Message} (hm : m ∈ db.messages) :
    db.pinState m.id = some m.isPinned := by
  unfold Db.pinState
  rw [Table.lookup_of_mem (fun _ _ => rfl) hm]
  rfl

theorem authority_togglePin {msgId : Bytes} (hp : Chats.Permitted u db (.pinMessage msgId))
    (h : Chats.togglePin msgId db = .ok (db', a)) : Authority u db db' := by
  obtain ⟨i, hi, rfl⟩ := Chats.togglePin_ok h
  have hrest : Authority u db db := .refl u db
  refine ⟨hrest.member, hrest.join, ?_, hrest.reaction, hrest.post⟩
  intro m hm hne
  rw [pinState_togglePin, pinState_of_mem hm] at hne
  by_cases hid : m.id = i
  · refine hp m hm (hid ▸ hi) ?_
    intro hnull
    simp [hnull] at hne
  · simp [hid] at hne

theorem authority_insertPost {channelId : Bytes} {content uid : String} {isPaid : Bool}
    {id : Uuid} {now : Time}
    (hp : ∀ ch, PgDb.uuidBytes channelId = some ch → db.mayPost ch u = true)
    (h : Channels.insertPost channelId content isPaid uid id now db = .ok (db', a)) :
    Authority u db db' := by
  obtain ⟨ch, u', posts, hch, _, hins, rfl⟩ := Channels.insertPost_ok h
  have hrest : Authority u db db := .refl u db
  refine ⟨hrest.member, hrest.join, hrest.pin, hrest.reaction, ?_⟩
  intro ch' hne
  by_cases heq : ch' = ch
  · exact hp ch' (heq ▸ hch)
  · refine absurd (Table.select_insert_of_not hins ?_) hne
    simpa [Channels.postRow] using Ne.symm heq

theorem authority_erasePost {channelId postId : Bytes}
    (hp : Channels.Permitted u db (.deletePost channelId postId))
    (h : Channels.erasePost channelId postId db = .ok (db', a)) : Authority u db db' := by
  obtain ⟨i, ch, hi, hch, rfl⟩ := Channels.erasePost_ok h
  have hrest : Authority u db db := .refl u db
  refine ⟨hrest.member, hrest.join, hrest.pin, hrest.reaction, ?_⟩
  intro ch' hne
  by_contra hmay
  apply hne
  apply Table.select_erase_of_disjoint
  intro p hmem hsel
  rw [Bool.eq_false_iff]
  intro herased
  simp only [Bool.and_eq_true, beq_iff_eq] at herased hsel
  exact hmay (hsel ▸ hp p hmem (herased.1 ▸ hi) (herased.2 ▸ hch))

end Statements

/-! ## The statements on a new chat -/

/-- Since `db₀` the handler has made the chat with the id `chatId`, and filled no other. -/
structure Opened (db₀ db : Db) (chatId : String) : Prop where
  fresh : ∀ c, PgDb.uuid chatId = some c → db₀.hasChat c = false
  rows : ∀ c v, db₀.hasChat c = true → db.memberRow c v = db₀.memberRow c v
  messages : db.messages = db₀.messages
  reactions : db.reactions = db₀.reactions
  posts : db.channelPosts = db₀.channelPosts

theorem Opened.authority {u : Uuid} {db₀ db : Db} {chatId : String} (h : Opened db₀ db chatId) :
    Authority u db₀ db :=
  .of_frame h.rows h.messages h.reactions h.posts

theorem opened_insertChat {chatType : ChatType} {naming : Option (String × String)} {uid : String}
    {id : Uuid} {now : Time} {db db' : Db} {a : Uuid}
    (h : Chats.insertChat chatType naming uid id now db = .ok (db', a)) :
    Opened db db' (Uuid.uuidOut a) := by
  obtain ⟨rfl, u, name, chats, _, _, _, hins, rfl⟩ := Chats.insertChat_ok h
  refine ⟨?_, fun _ _ _ => rfl, rfl, rfl, rfl⟩
  intro c hc
  rw [PgDb.uuid_uuidOut] at hc
  cases hc
  rw [Db.hasChat, List.any_eq_false]
  intro x hx hid
  have hclash := Table.insert_fresh hins x hx
  rw [beq_iff_eq] at hid
  simp [Keyed.clash, Chats.chatRow, hid] at hclash

theorem Opened.insertMember {db₀ db db' : Db} {chatId : String} {row : ChatMember}
    (h : Opened db₀ db chatId) (hrow : PgDb.uuid chatId = some row.chatId)
    (hins : Chats.insertMember row db = .ok db') : Opened db₀ db' chatId := by
  obtain ⟨members, hnew, _, _, rfl⟩ := Chats.insertMember_ok hins
  refine ⟨h.fresh, ?_, h.messages, h.reactions, h.posts⟩
  intro c v hc
  rw [Chats.memberRow_insert hnew, if_neg, h.rows c v hc]
  intro hpair
  simp only [Chats.isPair, Bool.and_eq_true, beq_iff_eq] at hpair
  have hfresh := h.fresh row.chatId hrow
  rw [hpair.1, hc] at hfresh
  cases hfresh

/-! ## Runs of the handlers -/

/-- What a handler of `Chats` has changed since `db₀` when it stands at a point. -/
def Chats.Bounded (u : Uuid) (db₀ db : Db) : Chats.Point → Prop
  | .joinDirect chatId _ => Opened db₀ db chatId
  | .ownGroup chatId _ _ => Opened db₀ db chatId
  | .joinGroup chatId _ _ _ => Opened db₀ db chatId
  | .exited _ => Authority u db₀ db
  | p => db = db₀ ∧ Chats.Permitted u db₀ p

/-- The same for `Channels`. -/
def Channels.Bounded (u : Uuid) (db₀ db : Db) : Channels.Point → Prop
  | .readRole _ _ _ => db = db₀
  | .createPost channelId _ _ =>
      db = db₀ ∧ ∀ ch, PgDb.uuidBytes channelId = some ch → db₀.mayPost ch u = true
  | .deletePost channelId postId =>
      db = db₀ ∧ Channels.Permitted u db₀ (.deletePost channelId postId)
  | .exited _ => Authority u db₀ db
  | _ => ∃ channels subscribers,
      db = { db₀ with channels := channels, channelSubscribers := subscribers }

section Runs

variable {u : Uuid} {uid : String} {db₀ db : Db}

theorem chats_bounded_start {c : Chats.Call} (h : Chats.Permitted u db (Chats.start c)) :
    Chats.Bounded u db db (Chats.start c) := by
  rcases Chats.start_cases c with ⟨e, he⟩ | hfirst
  · rw [he]
    exact .refl u db
  · generalize Chats.start c = p at h hfirst ⊢
    cases p with
    | joinDirect _ _ | ownGroup _ _ _ | joinGroup _ _ _ _ | exited _ => cases hfirst
    | _ => exact ⟨rfl, h⟩

theorem bounded_nextMember {chatId : String} (h : Opened db₀ db chatId) (name : String)
    (l : List Json) : Chats.Bounded u db₀ db (Chats.nextMember uid chatId name l) := by
  rcases Chats.nextMember_cases uid chatId name l with ⟨e, he⟩ | ⟨memberId, rest, hnext⟩
  · rw [he]
    exact h.authority
  · rw [hnext]
    exact h

/-- The last statement of a handler. -/
theorem chats_bounded_last {α : Type} {o : PgDb.Outcome} {q : PgDb.Stmt Db α} {e : Exit}
    (h : ∀ db' a, q db = .ok (db', a) → Authority u db db') :
    Chats.Bounded u db (attempt o q db (fun _ => .exited e) Chats.failed).1
      (attempt o q db (fun _ => .exited e) Chats.failed).2 := by
  refine attempt_inv (Chats.Bounded u db) (fun _ => .refl u db) (fun db' a hq => ?_)
  exact ⟨h db' a hq, fun _ => h db' a hq⟩

/-- The step lemma. -/
theorem chats_bounded_step {pg : Pg} {p : Chats.Point} (hu : PgDb.uuid uid = some u)
    (hb : Chats.Bounded u db₀ db p) (inp : Input) :
    Chats.Bounded u db₀ (Chats.step pg uid p inp db).1 (Chats.step pg uid p inp db).2 := by
  cases p with
  | findDirect targetId =>
      obtain ⟨rfl, _⟩ := hb
      refine attempt_inv (Chats.Bounded u db) (fun _ => .refl u db) (fun db' found h => ?_)
      obtain ⟨rfl, _⟩ := PgDb.reading_ok.mp h
      refine ⟨?_, fun _ => .refl u _⟩
      cases found with
      | none => exact ⟨rfl, trivial⟩
      | some c => exact .refl u _
  | createDirect targetId =>
      obtain ⟨rfl, _⟩ := hb
      refine attempt_inv (Chats.Bounded u db) (fun _ => .refl u db) (fun db' id h => ?_)
      exact ⟨opened_insertChat h, fun _ => (opened_insertChat h).authority⟩
  | joinDirect chatId targetId =>
      refine attempt_inv (Chats.Bounded u db₀) (fun _ => Opened.authority hb) (fun db' _ h => ?_)
      obtain ⟨c, u', v, db₁, hc, _, _, hfirst, hsecond⟩ := Chats.insertPair_ok h
      have hopen := (Opened.insertMember hb hc hfirst).insertMember hc hsecond
      exact ⟨hopen.authority, fun _ => hopen.authority⟩
  | createGroup name desc members =>
      obtain ⟨rfl, _⟩ := hb
      refine attempt_inv (Chats.Bounded u db) (fun _ => .refl u db) (fun db' id h => ?_)
      exact ⟨opened_insertChat h, fun _ => (opened_insertChat h).authority⟩
  | ownGroup chatId name members =>
      refine attempt_inv (Chats.Bounded u db₀) (fun _ => Opened.authority hb) (fun db' _ h => ?_)
      obtain ⟨c, u', hc, _, hins⟩ := Chats.insertOwner_ok h
      have hopen := Opened.insertMember hb hc hins
      exact ⟨bounded_nextMember hopen name members, fun _ => hopen.authority⟩
  | joinGroup chatId name memberId rest =>
      refine attempt_inv (Chats.Bounded u db₀) (fun _ => bounded_nextMember hb name rest)
        (fun db' _ h => ?_)
      obtain ⟨c, v, hc, _, hrow⟩ := Chats.insertGroupMember_ok h
      have hopen : Opened db₀ db' chatId := by
        rcases hrow with rfl | hins
        · exact hb
        · exact Opened.insertMember hb hc hins
      exact ⟨bounded_nextMember hopen name rest, fun _ => bounded_nextMember hopen name rest⟩
  | addMember chatId target =>
      obtain ⟨rfl, hp⟩ := hb
      exact chats_bounded_last (fun _ _ h => authority_upsertMember hp h)
  | removeMember chatId targetUid =>
      obtain ⟨rfl, hp⟩ := hb
      exact chats_bounded_last (fun _ _ h => authority_leaveMember hp h)
  | pinMessage msgId =>
      obtain ⟨rfl, hp⟩ := hb
      exact chats_bounded_last (fun _ _ h => authority_togglePin hp h)
  | reactMessage msgId emoji =>
      obtain ⟨rfl, _⟩ := hb
      exact chats_bounded_last (fun _ _ h => nomatch h)
  | muteChat chatId =>
      obtain ⟨rfl, _⟩ := hb
      exact chats_bounded_last (fun _ _ h => authority_muteMember hu h)
  | exited e => exact hb

theorem channels_bounded_start {c : Channels.Call}
    (h : Channels.Permitted u db (Channels.start c)) :
    Channels.Bounded u db db (Channels.start c) := by
  cases c with
  | createChannel body =>
      show Channels.Bounded u db db (Channels.routeCreateChannel body)
      unfold Channels.routeCreateChannel
      split
      · exact .refl u db
      · split
        · exact .refl u db
        · exact ⟨db.channels, db.channelSubscribers, rfl⟩
  | subscribeChannel channelId => exact ⟨db.channels, db.channelSubscribers, rfl⟩
  | createPost channelId body =>
      show Channels.Bounded u db db (Channels.routeCreatePost channelId body)
      unfold Channels.routeCreatePost
      split
      · exact .refl u db
      · rfl
  | deletePost channelId postId => exact ⟨rfl, h⟩

/-- Channels and subscribers are nothing that needs authority. -/
theorem authority_channels (channels : Table Channel) (subscribers : Table ChannelSubscriber) :
    Authority u db { db with channels := channels, channelSubscribers := subscribers } :=
  .of_frame (fun _ _ _ => rfl) rfl rfl rfl

/-- The last statement of a handler. -/
theorem channels_bounded_last {α : Type} {o : PgDb.Outcome} {q : PgDb.Stmt Db α} {e : Exit}
    (h : ∀ db' a, q db = .ok (db', a) → Authority u db db') :
    Channels.Bounded u db (attempt o q db (fun _ => .exited e) Channels.failed).1
      (attempt o q db (fun _ => .exited e) Channels.failed).2 := by
  refine attempt_inv (Channels.Bounded u db) (fun _ => .refl u db) (fun db' a hq => ?_)
  exact ⟨h db' a hq, fun _ => h db' a hq⟩

/-- The step lemma. -/
theorem channels_bounded_step {p : Channels.Point} (hu : PgDb.uuid uid = some u)
    (hb : Channels.Bounded u db₀ db p) (inp : Input) :
    Channels.Bounded u db₀ (Channels.step uid p inp db).1 (Channels.step uid p inp db).2 := by
  -- both ends of a catch block that looks into the message
  have hfailed : ∀ {db : Db} (e : SqlError), Authority u db₀ db →
      Channels.Bounded u db₀ db (Channels.createFailed e) := by
    intro db e h
    unfold Channels.createFailed
    split <;> exact h
  cases p with
  | createChannel username name description isPublic =>
      obtain ⟨channels, subscribers, rfl⟩ := hb
      refine attempt_inv (Channels.Bounded u db₀)
        (fun e => hfailed e (authority_channels channels subscribers)) (fun db' id h => ?_)
      obtain ⟨_, _, _, _, channels', _, _, _, rfl⟩ := Channels.insertChannel_ok h
      exact ⟨⟨channels', subscribers, rfl⟩,
        fun e => hfailed e (authority_channels channels' subscribers)⟩
  | ownChannel chanId username =>
      obtain ⟨channels, subscribers, rfl⟩ := hb
      refine attempt_inv (Channels.Bounded u db₀)
        (fun e => hfailed e (authority_channels channels subscribers)) (fun db' _ h => ?_)
      obtain ⟨ch, u', _, _, hins⟩ := Channels.insertOwner_ok h
      obtain ⟨subscribers', _, _, _, rfl⟩ := Channels.insertSubscriber_ok hins
      exact ⟨authority_channels channels subscribers',
        fun e => hfailed e (authority_channels channels subscribers')⟩
  | subscribe channelId =>
      obtain ⟨channels, subscribers, rfl⟩ := hb
      refine attempt_inv (Channels.Bounded u db₀)
        (fun _ => authority_channels channels subscribers) (fun db' _ h => ?_)
      obtain ⟨ch, u', _, _, rfl | hins⟩ := Channels.insertSubscription_ok h
      · exact ⟨⟨channels, subscribers, rfl⟩, fun _ => authority_channels channels subscribers⟩
      · obtain ⟨subscribers', _, _, _, rfl⟩ := Channels.insertSubscriber_ok hins
        exact ⟨⟨channels, subscribers', rfl⟩, fun _ => authority_channels channels subscribers'⟩
  | countSubscriber channelId =>
      obtain ⟨channels, subscribers, rfl⟩ := hb
      refine attempt_inv (Channels.Bounded u db₀)
        (fun _ => authority_channels channels subscribers) (fun db' _ h => ?_)
      obtain ⟨ch, _, rfl⟩ := Channels.incrementCount_ok h
      exact ⟨authority_channels _ subscribers, fun _ => authority_channels _ subscribers⟩
  | readRole channelId content isPaid =>
      obtain rfl : db = db₀ := hb
      refine attempt_inv (Channels.Bounded u db) (fun _ => .refl u db) (fun db' role h => ?_)
      obtain ⟨rfl, ch, u', hch, hu', rfl⟩ := Channels.selectRole_ok h
      cases hu.symm.trans hu'
      refine ⟨?_, fun _ => .refl u _⟩
      split
      · rename_i hrole
        refine ⟨rfl, fun ch' hch' => ?_⟩
        cases hch.symm.trans hch'
        unfold Db.mayPost
        cases hrow : Channels.subscriberRow db' ch u with
        | none => simp [hrow] at hrole
        | some s => simpa [hrow] using hrole
      · exact .refl u _
  | createPost channelId content isPaid =>
      obtain ⟨rfl, hp⟩ := hb
      exact channels_bounded_last (fun _ _ h => authority_insertPost hp h)
  | deletePost channelId postId =>
      obtain ⟨rfl, hp⟩ := hb
      exact channels_bounded_last (fun _ _ h => authority_erasePost hp h)
  | exited e => exact hb

end Runs

/-- The invariant of a lone request of `u` that started at `db₀`. -/
def Bounded (u : Uuid) (db₀ db : Db) (t : Thread) : Prop :=
  PgDb.uuid t.uid = some u ∧
    match t.point with
    | .query _ => db = db₀
    | .answered _ => db = db₀
    | .account _ => ∃ users contacts, db = { db₀ with users := users, contacts := contacts }
    | .chat p => Chats.Bounded u db₀ db p
    | .channel p => Channels.Bounded u db₀ db p

/-- At every point of a run the caller has had authority for what was changed. -/
theorem Bounded.authority {u : Uuid} {db₀ db : Db} {t : Thread} (h : Bounded u db₀ db t) :
    Authority u db₀ db := by
  obtain ⟨uid, point⟩ := t
  obtain ⟨_, h⟩ := h
  cases point with
  | query r => cases h; exact .refl u _
  | answered r => cases h; exact .refl u _
  | account p =>
      obtain ⟨users, contacts, rfl⟩ := h
      exact .of_frame (fun _ _ _ => rfl) rfl rfl rfl
  | chat p =>
      cases p with
      | joinDirect _ _ | ownGroup _ _ _ | joinGroup _ _ _ _ => exact Opened.authority h
      | exited e => exact h
      | _ => obtain ⟨rfl, _⟩ := h; exact .refl u db
  | channel p =>
      cases p with
      | readRole _ _ _ => cases h; exact .refl u _
      | createPost _ _ _ => obtain ⟨rfl, _⟩ := h; exact .refl u db
      | deletePost _ _ => obtain ⟨rfl, _⟩ := h; exact .refl u db
      | exited e => exact h
      | _ =>
          obtain ⟨channels, subscribers, rfl⟩ := h
          exact authority_channels channels subscribers

theorem bounded_start {u : Uuid} {uid : String} {db : Db} {call : Call}
    (hu : PgDb.uuid uid = some u) (h : Permitted u db call) :
    Bounded u db db (start ⟨uid, call⟩) := by
  refine ⟨hu, ?_⟩
  cases call with
  | query r => rfl
  | account c => exact ⟨db.users, db.contacts, rfl⟩
  | chat c => exact chats_bounded_start h
  | channel c => exact channels_bounded_start h

theorem bounded_step {pg : Pg} {u : Uuid} {db₀ db : Db} {t : Thread} (h : Bounded u db₀ db t)
    (inp : Input) : Bounded u db₀ (step pg t inp db).1 (step pg t inp db).2.1 := by
  obtain ⟨uid, point⟩ := t
  obtain ⟨hu, h⟩ := h
  refine ⟨?_, ?_⟩
  · cases point <;> exact hu
  · cases point with
    | query r => exact h
    | answered r => exact h
    | account p =>
        obtain ⟨users, contacts, rfl⟩ := h
        obtain ⟨users', contacts', hstep⟩ := Accounts.step_writes uid p inp
          { db₀ with users := users, contacts := contacts }
        exact ⟨users', contacts', hstep⟩
    | chat p => exact chats_bounded_step hu h inp
    | channel p => exact channels_bounded_step hu h inp

theorem authorized_of_permitted (pg : Pg) {u : Uuid} {db : Db} {call : Call}
    (h : Permitted u db call) : Authorized pg u db call := by
  intro uid inps hu
  have hinv := (system pg).alone_inv (Bounded u db) (bounded_start hu h)
    (fun _ _ inp hb => bounded_step hb inp) inps
  exact hinv.authority

/-! ## Requests that are not permitted -/

section Refuted

variable {pg : Pg} {u : Uuid} {db : Db}

/-- A statement that the database executes and answers. -/
def answered (now : Time) : Input := ⟨⟨now, true, .done, .done⟩, .zero⟩

theorem permitted_addMember {chatId : Bytes} {target : String}
    (h : Authority u db (Chats.step pg (Uuid.uuidOut u) (.addMember chatId target)
      (answered 0) db).1) : Chats.Permitted u db (.addMember chatId target) := by
  intro c v hc hv hchat
  by_contra hno
  obtain ⟨hu, hrest⟩ := not_or.mp hno
  obtain ⟨hv', hrow⟩ := not_or.mp hrest
  have huser : db.memberRow c v = none → db.hasUser v = true := by
    intro hnone
    by_contra hmissing
    exact hrow ⟨hnone, by simpa using hmissing⟩
  obtain ⟨db', hok, hact⟩ := Chats.upsertMember_accepts hc hv hchat huser 0
  have hstep : (Chats.step pg (Uuid.uuidOut u) (.addMember chatId target) (answered 0) db).1 =
      db' := congrArg Prod.fst (attempt_done hok _ _)
  rw [hstep] at h
  by_cases hvu : v = u
  · exact hu (h.join c hchat (hvu ▸ hact))
  · refine hu (h.member c v hchat hvu ?_)
    intro heq
    rw [Db.activeMember_eq, heq, ← Db.activeMember_eq] at hact
    exact hv' hact

theorem permitted_removeMember {chatId targetUid : Bytes}
    (h : ∀ now, Authority u db (Chats.step pg (Uuid.uuidOut u) (.removeMember chatId targetUid)
      (answered now) db).1) : Chats.Permitted u db (.removeMember chatId targetUid) := by
  intro c v hc hv hchat
  by_contra hno
  obtain ⟨hu, hrest⟩ := not_or.mp hno
  obtain ⟨hvu, hrow⟩ := not_or.mp hrest
  obtain ⟨m, hm⟩ := Option.ne_none_iff_exists'.mp hrow
  -- a clock that does not show the time of an earlier leave
  let now : Time := m.leftAt.getD 0 + 1
  have hok : Chats.leaveMember chatId targetUid now db = .ok
      (Chats.modifyMember c v (fun m => { m with leftAt := some now }) (fun _ _ => rfl) db,
        ()) := by
    unfold Chats.leaveMember
    rw [hc, hv]
    rfl
  have hstep : (Chats.step pg (Uuid.uuidOut u) (.removeMember chatId targetUid) (answered now)
      db).1 = Chats.modifyMember c v (fun m => { m with leftAt := some now }) (fun _ _ => rfl) db :=
    congrArg Prod.fst (attempt_done hok _ _)
  have hnow := h now
  rw [hstep] at hnow
  refine hu (hnow.member c v hchat hvu ?_)
  rw [Chats.memberRow_modifyMember, if_pos ⟨rfl, rfl⟩, hm]
  intro heq
  have hleft : some now = m.leftAt := congrArg ChatMember.leftAt (Option.some.inj heq)
  have hget : now = m.leftAt.getD 0 := by rw [← hleft]; rfl
  have hlater : m.leftAt.getD 0 < now := Int.lt_succ _
  exact absurd hget (Ne.symm (Int.ne_of_lt hlater))

theorem permitted_pinMessage {msgId : Bytes}
    (h : Authority u db (Chats.step pg (Uuid.uuidOut u) (.pinMessage msgId) (answered 0) db).1) :
    Chats.Permitted u db (.pinMessage msgId) := by
  intro m hm hid hpin
  have hok : Chats.togglePin msgId db = .ok (Chats.flipPinOf m.id db, ()) := by
    unfold Chats.togglePin
    rw [hid]
    rfl
  have hstep : (Chats.step pg (Uuid.uuidOut u) (.pinMessage msgId) (answered 0) db).1 =
      Chats.flipPinOf m.id db := congrArg Prod.fst (attempt_done hok _ _)
  rw [hstep] at h
  refine h.pin m hm ?_
  rw [pinState_togglePin, if_pos rfl, pinState_of_mem hm]
  cases hp : m.isPinned with
  | none => exact absurd hp hpin
  | some b => cases b <;> simp

theorem permitted_deletePost {channelId postId : Bytes}
    (h : Authority u db (Channels.step (Uuid.uuidOut u) (.deletePost channelId postId)
      (answered 0) db).1) : Channels.Permitted u db (.deletePost channelId postId) := by
  intro p hp hid hch
  have hok : Channels.erasePost channelId postId db =
      .ok (Channels.dropPost p.id p.channelId db, ()) := by
    unfold Channels.erasePost
    rw [hid, hch]
    rfl
  have hstep : (Channels.step (Uuid.uuidOut u) (.deletePost channelId postId) (answered 0) db).1 =
      Channels.dropPost p.id p.channelId db := congrArg Prod.fst (attempt_done hok _ _)
  rw [hstep] at h
  refine h.post p.channelId ?_
  intro heq
  -- the post was there and is not any more
  have hmem : p ∈ db.channelPosts.select (fun r => r.channelId == p.channelId) :=
    Table.mem_select.mpr ⟨hp, by simp⟩
  rw [← heq] at hmem
  have hgone := (Table.mem_erase.mp (Table.mem_select.mp hmem).1).2
  simp at hgone

end Refuted

theorem permitted_of_authorized {pg : Pg} {u : Uuid} {db : Db} {call : Call}
    (h : Authorized pg u db call) : Permitted u db call := by
  -- one undisturbed step is enough to see what is wrong
  have hone : ∀ now, Authority u db
      (step pg (start ⟨Uuid.uuidOut u, call⟩) (answered now) db).1 :=
    fun now => h (Uuid.uuidOut u) [answered now] (PgDb.uuid_uuidOut u)
  cases call with
  | query r => trivial
  | account c => trivial
  | chat c =>
      show Chats.Permitted u db (Chats.start c)
      have hstep : ∀ now, Authority u db
          (Chats.step pg (Uuid.uuidOut u) (Chats.start c) (answered now) db).1 := hone
      generalize Chats.start c = p at hstep ⊢
      cases p with
      | addMember chatId target => exact permitted_addMember (hstep 0)
      | removeMember chatId targetUid => exact permitted_removeMember hstep
      | pinMessage msgId => exact permitted_pinMessage (hstep 0)
      | _ => trivial
  | channel c =>
      show Channels.Permitted u db (Channels.start c)
      have hstep : Authority u db
          (Channels.step (Uuid.uuidOut u) (Channels.start c) (answered 0) db).1 := hone 0
      generalize Channels.start c = p at hstep ⊢
      cases p with
      | deletePost channelId postId => exact permitted_deletePost hstep
      | _ => trivial

/-- A request has authority for all it changes, in every run, if and only if it is
    permitted. -/
theorem authorized_iff (pg : Pg) (u : Uuid) (db : Db) (call : Call) :
    Authorized pg u db call ↔ Permitted u db call :=
  ⟨permitted_of_authorized, authorized_of_permitted pg⟩

/-! ## A run from empty tables -/

def alice : Uuid := .repeated ⟨10, by decide⟩

/-- `POST /api/auth/register`, undisturbed. -/
def registered (username : String) (id : Uuid) (db : Db) : Db :=
  ((Otp.system Otp.plainHelpers).alone
    (.register (some (.obj [("email", .str (username ++ "@b.cd")), ("username", .str username)]))
      "key") (List.replicate 3 ⟨.done, 0, id⟩) ⟨db, 0⟩).1.db

/-- Alice and Eve register, and Alice makes a group. -/
def aliceGroup : Db :=
  ((system plainPg).alone
    ⟨Uuid.uuidOut alice, .chat (.createGroup (some (.obj [("name", .str "club")])))⟩
    (List.replicate 2 ⟨⟨0, true, .done, .done⟩, secretChat⟩)
    (registered "eve" eve (registered "alice" alice {}))).1

/-- `POST /api/chats/11111111111111111111111111111111/members` with Eve's own id. -/
def joinUninvited : Call :=
  .chat (.addMember (List.replicate 32 49)
    (some (.obj [("userId", .str (Uuid.uuidOut eve))])))

/-- Eve makes herself a member of Alice's group. -/
theorem uninvited : ¬ Authorized plainPg eve aliceGroup joinUninvited := by
  intro h
  have hjoin := (h (Uuid.uuidOut eve) [answered 0] (PgDb.uuid_uuidOut eve)).join secretChat
    (by decide) (by decide +kernel)
  exact absurd hjoin (by decide)

end Api

end MessengerBackend
