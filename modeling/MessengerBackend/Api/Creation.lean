/-
  What a creation that fails leaves behind.

  `open_direct`, `create_group`, `create_channel` and `subscribe` run several statements, each
  committed by itself, and answer an error as soon as one of them fails. `TraceFree` is one
  run of one request: if it did not end in 2xx, the four tables it writes are as before.

  * `Clean`: the condition on a step. The answer of the INSERT that makes the chat or the
    channel is not lost; every statement after it is accepted and answered, but for the row
    of a further group member, whose failure is swallowed; the next id of `memberIds` is a
    string. `subscribe` writes first of all, so that its first statement may be lost only if
    it has nothing to add, and its second may then fail too.
  * `traceFree_iff`: a run is trace-free if and only if each of its steps is clean.

  The state before the request is any database.
-/
import MessengerBackend.Api.PrivateChats

namespace MessengerBackend.Api

open PgDb (Stmt Outcome)

/-- The four requests. -/
inductive Creation where
  | openDirect (body : Option Json)
  | createGroup (body : Option Json)
  | createChannel (body : Option Json)
  | subscribeChannel (channelId : Bytes)

def Creation.call : Creation → Call
  | .openDirect body => .chat (.openDirect body)
  | .createGroup body => .chat (.createGroup body)
  | .createChannel body => .channel (.createChannel body)
  | .subscribeChannel channelId => .channel (.subscribeChannel channelId)

/-- The tables that these requests write. -/
structure SameCreated (db db' : Db) : Prop where
  chats : db'.chats = db.chats
  chatMembers : db'.chatMembers = db.chatMembers
  channels : db'.channels = db.channels
  channelSubscribers : db'.channelSubscribers = db.channelSubscribers

theorem SameCreated.refl (db : Db) : SameCreated db db := ⟨rfl, rfl, rfl, rfl⟩

/-- The handler has ended. -/
def Thread.exit (t : Thread) : Option Exit :=
  match t.point with
  | .chat (.exited e) => some e
  | .channel (.exited e) => some e
  | _ => none

/-- If the request of `uid` has ended, and not in success, the tables are as before. -/
def TraceFree (pg : Pg) (uid : String) (db : Db) (r : Creation) (inps : List Input) : Prop :=
  ∀ e, ((system pg).alone ⟨uid, r.call⟩ inps db).2.exit = some e → e.success = false →
    SameCreated db ((system pg).alone ⟨uid, r.call⟩ inps db).1

/-! ## The condition -/

/-- The database accepts the statement. -/
def Accepts {α : Type} (q : Stmt Db α) (db : Db) : Prop := ∃ x, q db = .ok x

/-- The statement is not one that takes effect with its answer lost. -/
def NotLost {α : Type} (o : Outcome) (q : Stmt Db α) (db : Db) : Prop :=
  ∀ msg, o = .lost msg → ¬ Accepts q db

/-- The statement takes effect and is answered. -/
def Answered {α : Type} (o : Outcome) (q : Stmt Db α) (db : Db) : Prop :=
  o = .done ∧ Accepts q db

/-- Up to the next id that is not the caller's, `memberIds` are strings. -/
def Texts (uid : String) : List Json → Prop
  | [] => True
  | mid :: rest =>
      match mid.getString with
      | .error _ => False
      | .ok memberId => memberId = uid → Texts uid rest

def Chats.Clean (uid : String) (inp : Input) (db : Db) : Chats.Point → Prop
  | .createDirect _ => NotLost inp.first (insertChat .priv none uid inp.freshId inp.now) db
  | .joinDirect chatId targetId =>
      Answered inp.first (insertPair chatId uid targetId inp.now) db
  | .createGroup name desc _ =>
      NotLost inp.first (insertChat .group (some (name, desc)) uid inp.freshId inp.now) db
  | .ownGroup chatId _ members =>
      Answered inp.first (insertOwner chatId uid inp.now) db ∧ Texts uid members
  | .joinGroup _ _ _ rest => Texts uid rest
  | _ => True

/-- The caller has a row in the channel. -/
def Channels.Subscribed (uid : String) (db : Db) (channelId : Bytes) : Prop :=
  ∃ ch u, PgDb.uuidBytes channelId = some ch ∧ PgDb.uuid uid = some u ∧
    (subscriberRow db ch u).isSome = true

/-- `db₀` is the state before the request. -/
def Channels.Clean (uid : String) (inp : Input) (db₀ db : Db) : Channels.Point → Prop
  | .createChannel username name description isPublic => NotLost inp.first
      (insertChannel username name description isPublic uid inp.freshId) db
  | .ownChannel chanId _ => Answered inp.first (insertOwner chanId uid) db
  | .subscribe channelId => Channels.Subscribed uid db channelId ∨
      NotLost inp.first (insertSubscription channelId uid) db
  | .countSubscriber channelId => Answered inp.first (incrementCount channelId) db ∨
      Channels.Subscribed uid db₀ channelId ∧
        ((∃ ch, PgDb.uuidBytes channelId = some ch ∧ db.hasChannel ch = true) →
          NotLost inp.first (incrementCount channelId) db)
  | _ => True

def Clean (db₀ : Db) (x : Db × Thread) (inp : Input) : Prop :=
  match x.2.point with
  | .chat p => Chats.Clean x.2.uid inp x.1 p
  | .channel p => Channels.Clean x.2.uid inp db₀ x.1 p
  | _ => True

/-! ## A statement under its condition -/

/-- `a` if the condition holds, else `b`. -/
def Split (c a b : Prop) : Prop := (c → a) ∧ (¬ c → b)

section Statements

variable {α L : Type} {o : Outcome} {q : Stmt Db α} {db : Db} {ok : α → L} {failed : SqlError → L}
  {K B : Db → L → Prop}

/-- The first statement that writes: only a lost answer does harm. -/
theorem split_first (hidle : ∀ e, K db (failed e))
    (hdone : ∀ db' a, q db = .ok (db', a) → K db' (ok a))
    (hlost : ∀ db' a, q db = .ok (db', a) → ∀ e, B db' (failed e)) :
    Split (NotLost o q db) (K (attempt o q db ok failed).1 (attempt o q db ok failed).2)
      (B (attempt o q db ok failed).1 (attempt o q db ok failed).2) := by
  refine attempt_rule (fun db' p => Split (NotLost o q db) (K db' p) (B db' p)) ?_ ?_ ?_
  · intro e hrefused
    refine ⟨fun _ => hidle e, fun hno => absurd ?_ hno⟩
    rintro msg ho ⟨x, hx⟩
    obtain ⟨e', he'⟩ := hrefused (by rw [ho]; rfl)
    rw [hx] at he'
    cases he'
  · intro db' a hq ho
    exact ⟨fun _ => hdone db' a hq, fun hno => absurd (fun msg h => nomatch ho.symm.trans h) hno⟩
  · intro db' a msg hq ho
    exact ⟨fun hyes => absurd ⟨_, hq⟩ (hyes msg ho), fun _ => hlost db' a hq _⟩

variable (ok failed) in
/-- A later statement: it has to take effect and be answered. -/
theorem split_later (hidle : ∀ e, B db (failed e))
    (hdone : ∀ db' a, q db = .ok (db', a) → K db' (ok a))
    (hlost : ∀ db' a, q db = .ok (db', a) → ∀ e, B db' (failed e)) :
    Split (Answered o q db) (K (attempt o q db ok failed).1 (attempt o q db ok failed).2)
      (B (attempt o q db ok failed).1 (attempt o q db ok failed).2) := by
  refine attempt_rule (fun db' p => Split (Answered o q db) (K db' p) (B db' p)) ?_ ?_ ?_
  · intro e hrefused
    refine ⟨?_, fun _ => hidle e⟩
    rintro ⟨ho, x, hx⟩
    obtain ⟨e', he'⟩ := hrefused (by rw [ho]; rfl)
    rw [hx] at he'
    cases he'
  · intro db' a hq ho
    exact ⟨fun _ => hdone db' a hq, fun hno => absurd ⟨ho, _, hq⟩ hno⟩
  · intro db' a msg hq ho
    exact ⟨fun hyes => (nomatch hyes.1.symm.trans ho), fun _ => hlost db' a hq _⟩

end Statements

theorem Split.congr {c c' a b : Prop} (hc : c ↔ c') (h : Split c a b) : Split c' a b :=
  ⟨fun h' => h.1 (hc.mpr h'), fun h' => h.2 (fun hc' => h' (hc.mp hc'))⟩

/-! ## The invariant -/

/-- The end of a handler: a failure has changed nothing. -/
def Settled (db₀ db : Db) (e : Exit) : Prop := e.success = false → SameCreated db₀ db

/-- The end of a handler that failed and left something. -/
def Traced (db₀ db : Db) (e : Exit) : Prop := e.success = false ∧ ¬ SameCreated db₀ db

def Chats.Kept (db₀ db : Db) : Chats.Point → Prop
  | .findDirect _ | .createDirect _ | .createGroup _ _ _ => db = db₀
  | .joinDirect _ _ | .ownGroup _ _ _ | .joinGroup _ _ _ _ => db.chats ≠ db₀.chats
  | .exited e => Settled db₀ db e
  | _ => False

def Chats.Spoiled (db₀ db : Db) : Chats.Point → Prop
  | .exited e => Traced db₀ db e
  | _ => False

def Channels.Kept (uid : String) (db₀ db : Db) : Channels.Point → Prop
  | .createChannel _ _ _ _ | .subscribe _ => db = db₀
  | .ownChannel _ _ => db.channels ≠ db₀.channels
  | .countSubscriber channelId => Split (Channels.Subscribed uid db₀ channelId) (db = db₀)
      (db.channelSubscribers ≠ db₀.channelSubscribers)
  | .exited e => Settled db₀ db e
  | _ => False

def Channels.Spoiled (db₀ db : Db) : Channels.Point → Prop
  | .exited e => Traced db₀ db e
  | _ => False

/-- Where a run of clean steps stands. -/
def Kept (db₀ : Db) (x : Db × Thread) : Prop :=
  match x.2.point with
  | .chat p => Chats.Kept db₀ x.1 p
  | .channel p => Channels.Kept x.2.uid db₀ x.1 p
  | _ => False

/-- Where a run with another step ends. -/
def Spoiled (db₀ : Db) (x : Db × Thread) : Prop :=
  match x.2.point with
  | .chat p => Chats.Spoiled db₀ x.1 p
  | .channel p => Channels.Spoiled db₀ x.1 p
  | _ => False

/-! ## Chats -/

section Chats

variable {pg : Pg} {uid : String} {db₀ db : Db}

/-- The chat of the handler is not in the state before. -/
theorem traced_of_chats (h : db.chats ≠ db₀.chats) {e : Exit} (he : e.success = false) :
    Traced db₀ db e := ⟨he, fun hsame => h hsame.chats⟩

theorem chats_ne_of_insertChat {ty : ChatType} {naming : Option (String × String)} {id a : Uuid}
    {now : Time} {db' : Db} (h : Chats.insertChat ty naming uid id now db = .ok (db', a)) :
    db'.chats ≠ db.chats := by
  obtain ⟨_, _, _, chats, _, _, _, hins, rfl⟩ := Chats.insertChat_ok h
  intro heq
  have hlen := congrArg (fun t : Table Chat => t.rows.length) heq
  simp only [Table.insert_rows hins, List.length_append, List.length_singleton] at hlen
  omega

theorem insertMember_chats {row : ChatMember} {db' : Db}
    (h : Chats.insertMember row db = .ok db') : db'.chats = db.chats := by
  obtain ⟨_, _, _, _, rfl⟩ := Chats.insertMember_ok h
  rfl

/-- The loop over `memberIds` goes on, or ends in 201, up to the first that is no string. -/
theorem split_nextMember (h : db.chats ≠ db₀.chats) (chatId name : String) (l : List Json) :
    Split (Texts uid l) (Chats.Kept db₀ db (Chats.nextMember uid chatId name l))
      (Chats.Spoiled db₀ db (Chats.nextMember uid chatId name l)) := by
  induction l with
  | nil => exact ⟨fun _ hfail => (nomatch hfail), fun hno => absurd trivial hno⟩
  | cons mid rest ih =>
      unfold Texts Chats.nextMember
      cases mid.getString with
      | error _ => exact ⟨fun hno => hno.elim, fun _ => traced_of_chats h rfl⟩
      | ok memberId =>
          dsimp only
          by_cases hself : memberId = uid
          · rw [if_pos hself]
            exact ih.congr ⟨fun h' _ => h', fun h' => h' hself⟩
          · rw [if_neg hself]
            exact ⟨fun _ => h, fun hno => absurd (fun hyes => absurd hyes hself) hno⟩

/-- The step lemma for `Chats`. -/
theorem chats_split {p : Chats.Point} (h : Chats.Kept db₀ db p) (inp : Input) :
    Split (Chats.Clean uid inp db p)
      (Chats.Kept db₀ (Chats.step pg uid p inp db).1 (Chats.step pg uid p inp db).2)
      (Chats.Spoiled db₀ (Chats.step pg uid p inp db).1 (Chats.step pg uid p inp db).2) := by
  cases p with
  | findDirect targetId =>
      obtain rfl : db = db₀ := h
      refine ⟨fun _ => ?_, fun hno => absurd trivial hno⟩
      refine attempt_inv (Chats.Kept db) (fun _ _ => .refl db) (fun db' found hq => ?_)
      obtain ⟨rfl, _⟩ := PgDb.reading_ok.mp hq
      refine ⟨?_, fun _ _ => .refl _⟩
      cases found with
      | none => rfl
      | some c => exact fun hfail => nomatch hfail
  | createDirect targetId =>
      obtain rfl : db = db₀ := h
      exact split_first (K := Chats.Kept db) (fun _ _ => .refl db)
        (fun _ _ hq => chats_ne_of_insertChat hq)
        (fun _ _ hq _ => traced_of_chats (chats_ne_of_insertChat hq) rfl)
  | joinDirect chatId targetId =>
      refine split_later _ _ (K := Chats.Kept db₀) (fun _ => traced_of_chats h rfl)
        (fun _ _ _ hfail => (nomatch hfail)) (fun db' _ hq _ => traced_of_chats ?_ rfl)
      obtain ⟨_, _, _, db₁, _, _, _, hfirst, hsecond⟩ := Chats.insertPair_ok hq
      rw [insertMember_chats hsecond, insertMember_chats hfirst]
      exact h
  | createGroup name desc members =>
      obtain rfl : db = db₀ := h
      exact split_first (K := Chats.Kept db) (fun _ _ => .refl db)
        (fun _ _ hq => chats_ne_of_insertChat hq)
        (fun _ _ hq _ => traced_of_chats (chats_ne_of_insertChat hq) rfl)
  | ownGroup chatId name members =>
      have hmore : ∀ db' a, Chats.insertOwner chatId uid inp.now db = .ok (db', a) →
          db'.chats ≠ db₀.chats := by
        intro db' a hq
        obtain ⟨_, _, _, _, hins⟩ := Chats.insertOwner_ok hq
        rw [insertMember_chats hins]
        exact h
      have hsplit := split_later (fun _ => Chats.nextMember uid chatId name members) Chats.failed
        (o := inp.first) (q := Chats.insertOwner chatId uid inp.now)
        (K := fun db' p => Split (Texts uid members) (Chats.Kept db₀ db' p)
          (Chats.Spoiled db₀ db' p)) (B := Chats.Spoiled db₀)
        (fun _ => traced_of_chats h rfl)
        (fun db' a hq => split_nextMember (hmore db' a hq) chatId name members)
        (fun db' a hq _ => traced_of_chats (hmore db' a hq) rfl)
      refine ⟨fun hc => (hsplit.1 hc.1).1 hc.2, fun hno => ?_⟩
      by_cases hans : Answered inp.first (Chats.insertOwner chatId uid inp.now) db
      · exact (hsplit.1 hans).2 (fun htexts => hno ⟨hans, htexts⟩)
      · exact hsplit.2 hans
  | joinGroup chatId name memberId rest =>
      refine attempt_inv (fun db' p => Split (Texts uid rest) (Chats.Kept db₀ db' p)
        (Chats.Spoiled db₀ db' p)) (fun _ => split_nextMember h chatId name rest) (fun db' _ hq => ?_)
      have hmore : db'.chats ≠ db₀.chats := by
        obtain ⟨_, _, _, _, rfl | hins⟩ := Chats.insertGroupMember_ok hq
        · exact h
        · rw [insertMember_chats hins]
          exact h
      exact ⟨split_nextMember hmore chatId name rest,
        fun _ => split_nextMember hmore chatId name rest⟩
  | exited e => exact ⟨fun _ => h, fun hno => absurd trivial hno⟩
  | _ => exact h.elim

end Chats

/-! ## Channels -/

section Channels

variable {uid : String} {db₀ db : Db}

theorem failure_createFailed (e : SqlError) :
    ∃ x, Channels.createFailed e = .exited x ∧ x.success = false := by
  unfold Channels.createFailed
  split <;> exact ⟨_, rfl, rfl⟩

theorem channels_ne_of_insertChannel {username name description : String} {isPublic : Bool}
    {id a : Uuid} {db' : Db}
    (h : Channels.insertChannel username name description isPublic uid id db = .ok (db', a)) :
    db'.channels ≠ db.channels := by
  obtain ⟨_, _, _, _, channels, _, _, hins, rfl⟩ := Channels.insertChannel_ok h
  intro heq
  have hlen := congrArg (fun t : Table Channel => t.rows.length) heq
  simp only [Table.insert_rows hins, List.length_append, List.length_singleton] at hlen
  omega

theorem subscribers_ne_of_insertSubscriber {row : ChannelSubscriber} {db' : Db}
    (h : Channels.insertSubscriber row db = .ok db') :
    db'.channelSubscribers ≠ db.channelSubscribers := by
  obtain ⟨subscribers, hins, _, _, rfl⟩ := Channels.insertSubscriber_ok h
  intro heq
  have hlen := congrArg (fun t : Table ChannelSubscriber => t.rows.length) heq
  simp only [Table.insert_rows hins, List.length_append, List.length_singleton] at hlen
  omega

/-- Subscribing adds a row or, if there is one, changes nothing. -/
theorem subscribed_split {channelId : Bytes} {db' : Db} {a : Unit}
    (h : Channels.insertSubscription channelId uid db = .ok (db', a)) :
    Split (Channels.Subscribed uid db channelId) (db' = db)
      (db'.channelSubscribers ≠ db.channelSubscribers) := by
  unfold Channels.insertSubscription at h
  obtain ⟨ch, hch, h⟩ := Except.bind_ok.mp h
  obtain ⟨u, hu, h⟩ := Except.bind_ok.mp h
  have hch := PgDb.need_ok.mp hch
  have hu := PgDb.need_ok.mp hu
  cases hrow : Channels.subscriberRow db ch u with
  | some s =>
      simp only [hrow] at h
      cases h
      exact ⟨fun _ => rfl, fun hno => absurd ⟨ch, u, hch, hu, by rw [hrow]; rfl⟩ hno⟩
  | none =>
      simp only [hrow] at h
      obtain ⟨db₁, hins, h⟩ := Except.bind_ok.mp h
      cases h
      refine ⟨?_, fun _ => subscribers_ne_of_insertSubscriber hins⟩
      rintro ⟨ch', u', hch', hu', hsome⟩
      cases hch.symm.trans hch'
      cases hu.symm.trans hu'
      rw [hrow] at hsome
      cases hsome

/-- Counting changes a channel that is there, and nothing else. -/
theorem incrementCount_channels {channelId : Bytes} {db' : Db} {a : Unit}
    (h : Channels.incrementCount channelId db = .ok (db', a)) :
    db'.channelSubscribers = db.channelSubscribers ∧
      Split (∃ ch, PgDb.uuidBytes channelId = some ch ∧ db.hasChannel ch = true)
        (db'.channels ≠ db.channels) (db' = db) := by
  obtain ⟨ch, hch, rfl⟩ := Channels.incrementCount_ok h
  refine ⟨rfl, ?_, ?_⟩
  · rintro ⟨ch', hch', hthere⟩ heq
    cases hch.symm.trans hch'
    obtain ⟨x, hx, hid⟩ := List.any_eq_true.mp hthere
    -- the counted row would still be there, next to itself with another count
    have hnew : Channels.countUp x ∈ db.channels.modify (fun c => c.id == ch) Channels.countUp
        Channels.clash_countUp := (Table.mem_modify _).mpr ⟨x, hx, by rw [if_pos hid]⟩
    have heq : db.channels.modify (fun c => c.id == ch) Channels.countUp Channels.clash_countUp =
        db.channels := heq
    rw [heq] at hnew
    have hsame := Table.eq_of_clash hnew hx (by simp [Keyed.clash, Channels.countUp])
    have hcount := congrArg Channel.subscriberCount hsame
    simp only [Channels.countUp] at hcount
    omega
  · intro hno
    have hrows : db.channels.modify (fun c => c.id == ch) Channels.countUp Channels.clash_countUp =
        db.channels := by
      apply Table.ext
      show db.channels.rows.map _ = db.channels.rows
      conv_rhs => rw [← List.map_id db.channels.rows]
      refine List.map_congr_left (fun x hx => ?_)
      rw [if_neg, id]
      exact fun hid => hno ⟨ch, hch, List.any_eq_true.mpr ⟨x, hx, hid⟩⟩
    rw [hrows]

/-- The second statement of `subscribe`. -/
theorem countSubscriber_split {channelId : Bytes}
    (h : Split (Channels.Subscribed uid db₀ channelId) (db = db₀)
      (db.channelSubscribers ≠ db₀.channelSubscribers)) (inp : Input) :
    Split (Channels.Clean uid inp db₀ db (.countSubscriber channelId))
      (Channels.Kept uid db₀ (Channels.step uid (.countSubscriber channelId) inp db).1
        (Channels.step uid (.countSubscriber channelId) inp db).2)
      (Channels.Spoiled db₀ (Channels.step uid (.countSubscriber channelId) inp db).1
        (Channels.step uid (.countSubscriber channelId) inp db).2) := by
  refine attempt_rule (fun db' p => Split (Channels.Clean uid inp db₀ db (.countSubscriber channelId))
    (Channels.Kept uid db₀ db' p) (Channels.Spoiled db₀ db' p)) ?_ ?_ ?_
  · -- refused or not executed: harmless if there was a row
    intro e hrefused
    have hno : ¬ Accepts (Channels.incrementCount channelId) db ∨ inp.first.executes = false := by
      by_cases hexec : inp.first.executes = true
      · left
        rintro ⟨x, hx⟩
        obtain ⟨e', he'⟩ := hrefused hexec
        rw [hx] at he'
        cases he'
      · exact Or.inr (by simpa using hexec)
    have hnot : ¬ Answered inp.first (Channels.incrementCount channelId) db := by
      rintro ⟨ho, hacc⟩
      rcases hno with hno | hexec
      · exact hno hacc
      · rw [ho] at hexec
        cases hexec
    constructor
    · rintro (hans | ⟨hsub, _⟩)
      · exact absurd hans hnot
      · obtain rfl := h.1 hsub
        exact fun _ => .refl _
    · intro hdirty
      by_cases hsub : Channels.Subscribed uid db₀ channelId
      · refine absurd (Or.inr ⟨hsub, fun _ msg ho hacc => ?_⟩) hdirty
        rcases hno with hno | hexec
        · exact hno hacc
        · rw [ho] at hexec
          cases hexec
      · exact ⟨rfl, fun hsame => h.2 hsub hsame.channelSubscribers⟩
  · intro db' a hq ho
    exact ⟨fun _ hfail => (nomatch hfail), fun hno => absurd (Or.inl ⟨ho, _, hq⟩) hno⟩
  · -- counted with the answer lost
    intro db' a msg hq ho
    have hnot : ¬ Answered inp.first (Channels.incrementCount channelId) db :=
      fun hans => nomatch hans.1.symm.trans ho
    obtain ⟨hsubs, hchan⟩ := incrementCount_channels hq
    constructor
    · rintro (hans | ⟨hsub, hlost⟩)
      · exact absurd hans hnot
      · obtain rfl := h.1 hsub
        have hgone := hchan.2 (fun hthere => hlost hthere msg ho ⟨_, hq⟩)
        rw [hgone]
        exact fun _ => .refl _
    · intro hdirty
      refine ⟨rfl, fun hsame => ?_⟩
      by_cases hsub : Channels.Subscribed uid db₀ channelId
      · obtain rfl := h.1 hsub
        refine hdirty (Or.inr ⟨hsub, fun hthere => ?_⟩)
        exact absurd hsame.channels (hchan.1 hthere)
      · exact h.2 hsub (hsubs.symm.trans hsame.channelSubscribers)

/-- The step lemma for `Channels`. -/
theorem channels_split {p : Channels.Point} (h : Channels.Kept uid db₀ db p) (inp : Input) :
    Split (Channels.Clean uid inp db₀ db p)
      (Channels.Kept uid db₀ (Channels.step uid p inp db).1 (Channels.step uid p inp db).2)
      (Channels.Spoiled db₀ (Channels.step uid p inp db).1 (Channels.step uid p inp db).2) := by
  have hkept : ∀ {db : Db} (e : SqlError), SameCreated db₀ db →
      Channels.Kept uid db₀ db (Channels.createFailed e) := by
    intro db e hsame
    obtain ⟨x, hx, _⟩ := failure_createFailed e
    rw [hx]
    exact fun _ => hsame
  have hspoiled : ∀ {db : Db} (e : SqlError), db.channels ≠ db₀.channels →
      Channels.Spoiled db₀ db (Channels.createFailed e) := by
    intro db e hne
    obtain ⟨x, hx, hfail⟩ := failure_createFailed e
    rw [hx]
    exact ⟨hfail, fun hsame => hne hsame.channels⟩
  cases p with
  | createChannel username name description isPublic =>
      obtain rfl : db = db₀ := h
      exact split_first (K := Channels.Kept uid db) (fun e => hkept e (.refl db))
        (fun _ _ hq => channels_ne_of_insertChannel hq)
        (fun _ _ hq e => hspoiled e (channels_ne_of_insertChannel hq))
  | ownChannel chanId username =>
      refine split_later _ _ (K := Channels.Kept uid db₀) (fun e => hspoiled e h)
        (fun _ _ _ hfail => (nomatch hfail)) (fun db' _ hq e => hspoiled e ?_)
      obtain ⟨_, _, _, _, hins⟩ := Channels.insertOwner_ok hq
      obtain ⟨_, _, _, _, rfl⟩ := Channels.insertSubscriber_ok hins
      exact h
  | subscribe channelId =>
      obtain rfl : db = db₀ := h
      refine attempt_rule (fun db' p => Split (Channels.Clean uid inp db db (.subscribe channelId))
        (Channels.Kept uid db db' p) (Channels.Spoiled db db' p)) ?_ ?_ ?_
      · intro e hrefused
        refine ⟨fun _ _ => .refl db, fun hno => absurd (Or.inr ?_) hno⟩
        rintro msg ho ⟨x, hx⟩
        obtain ⟨e', he'⟩ := hrefused (by rw [ho]; rfl)
        rw [hx] at he'
        cases he'
      · intro db' a hq ho
        refine ⟨fun _ => subscribed_split hq, fun hno => absurd (Or.inr ?_) hno⟩
        exact fun msg hlost => nomatch ho.symm.trans hlost
      · intro db' a msg hq ho
        constructor
        · rintro (hsub | hnot)
          · rw [(subscribed_split hq).1 hsub]
            exact fun _ => .refl db
          · exact absurd ⟨_, hq⟩ (hnot msg ho)
        · intro hno
          refine ⟨rfl, fun hsame => ?_⟩
          exact (subscribed_split hq).2 (fun hsub => hno (Or.inl hsub)) hsame.channelSubscribers
  | countSubscriber channelId => exact countSubscriber_split h inp
  | exited e => exact ⟨fun _ => h, fun hno => absurd trivial hno⟩
  | _ => exact h.elim

end Channels

/-! ## Runs -/

theorem kept_start (uid : String) (db : Db) (r : Creation) :
    Kept db (db, start ⟨uid, r.call⟩) := by
  cases r with
  | openDirect body =>
      show Chats.Kept db db (Chats.routeOpenDirect body)
      unfold Chats.routeOpenDirect Chats.withField
      split
      · exact fun _ => .refl db
      · split
        · exact fun _ => .refl db
        · rfl
  | createGroup body =>
      show Chats.Kept db db (Chats.routeCreateGroup body)
      unfold Chats.routeCreateGroup
      split
      · exact fun _ => .refl db
      · split
        · exact fun _ => .refl db
        · rfl
  | createChannel body =>
      show Channels.Kept uid db db (Channels.routeCreateChannel body)
      unfold Channels.routeCreateChannel
      split
      · exact fun _ => .refl db
      · split
        · exact fun _ => .refl db
        · rfl
  | subscribeChannel channelId => rfl

/-- The step lemma. -/
theorem kept_split {pg : Pg} {db₀ : Db} {x : Db × Thread} (h : Kept db₀ x) (inp : Input) :
    Split (Clean db₀ x inp) (Kept db₀ ((system pg).solo x inp))
      (Spoiled db₀ ((system pg).solo x inp)) := by
  obtain ⟨db, uid, point⟩ := x
  cases point with
  | chat p => exact chats_split h inp
  | channel p => exact channels_split h inp
  | _ => exact h.elim

/-- Nothing happens after the end. -/
theorem spoiled_stays {pg : Pg} {db₀ : Db} {x : Db × Thread} (h : Spoiled db₀ x) (inp : Input) :
    Spoiled db₀ ((system pg).solo x inp) := by
  obtain ⟨db, uid, point⟩ := x
  cases point with
  | chat p =>
      cases p with
      | exited e => exact h
      | _ => exact h.elim
  | channel p =>
      cases p with
      | exited e => exact h
      | _ => exact h.elim
  | _ => exact h.elim

theorem Kept.settled {db₀ : Db} {x : Db × Thread} (h : Kept db₀ x) {e : Exit}
    (he : x.2.exit = some e) : Settled db₀ x.1 e := by
  obtain ⟨db, uid, point⟩ := x
  cases point with
  | chat p =>
      cases p with
      | exited e' => cases he; exact h
      | _ => cases he
  | channel p =>
      cases p with
      | exited e' => cases he; exact h
      | _ => cases he
  | _ => cases he

theorem Spoiled.traced {db₀ : Db} {x : Db × Thread} (h : Spoiled db₀ x) :
    ∃ e, x.2.exit = some e ∧ Traced db₀ x.1 e := by
  obtain ⟨db, uid, point⟩ := x
  cases point with
  | chat p =>
      cases p with
      | exited e => exact ⟨e, rfl, h⟩
      | _ => exact h.elim
  | channel p =>
      cases p with
      | exited e => exact ⟨e, rfl, h⟩
      | _ => exact h.elim
  | _ => exact h.elim

/-- A run of a request that creates something is trace-free if and only if each of its steps
    is clean. -/
theorem traceFree_iff (pg : Pg) (uid : String) (db : Db) (r : Creation) (inps : List Input) :
    TraceFree pg uid db r inps ↔
      (system pg).AloneMeets (Clean db) (db, start ⟨uid, r.call⟩) inps := by
  rcases (system pg).alone_split (P := Clean db) (fun _ inp hk => (kept_split hk inp).1)
    (fun _ inp hk => (kept_split hk inp).2) (fun _ inp hb => spoiled_stays hb inp) inps
    (db, start ⟨uid, r.call⟩) (kept_start uid db r) with ⟨hmeets, hkept⟩ | ⟨hnot, hspoiled⟩
  · exact ⟨fun _ => hmeets, fun _ e he hfail => hkept.settled he hfail⟩
  · refine ⟨fun hfree => ?_, fun hyes => absurd hyes hnot⟩
    obtain ⟨e, he, hfail, htrace⟩ := hspoiled.traced
    exact absurd (hfree e he hfail) htrace

/-- `POST /api/chats/direct` by Alice with her own id. -/
def directAlice : Creation :=
  .openDirect (some (.obj [("targetUserId", .str (Uuid.uuidOut alice))]))

/-- Three statements, all of them answered. -/
def directTurns : List Input := List.replicate 3 ⟨⟨0, true, .done, .done⟩, secretChat⟩

/-- What comes of them. -/
def directRun : Db × Thread :=
  (system plainPg).alone ⟨Uuid.uuidOut alice, directAlice.call⟩ directTurns twoUsers

/-- The answer is 500, and there is a private chat without members. -/
theorem chat_left_behind :
    directRun.2.exit = some (.response serverError) ∧
      (∃ c ∈ directRun.1.chats.rows, c.id = secretChat ∧ c ∉ twoUsers.chats.rows ∧
        ∀ m ∈ directRun.1.chatMembers.rows, m.chatId ≠ c.id) ∧
      ¬ TraceFree plainPg (Uuid.uuidOut alice) twoUsers directAlice directTurns := by
  have hexit : directRun.2.exit = some (.response serverError) := rfl
  have hmore : directRun.1.chats ≠ twoUsers.chats := by decide
  exact ⟨hexit, by decide, fun hfree => hmore (hfree _ hexit rfl).chats⟩

end MessengerBackend.Api
