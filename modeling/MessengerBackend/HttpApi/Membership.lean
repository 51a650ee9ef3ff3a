/-
  The life of a membership, in every run of the whole server.

  Six statements write `chat_members`, of five handlers and any number of threads. To the row
  of one pair of a chat and a user they are the four transitions of a small machine, `Change`:
  joining, when there is no row, and coming back, leaving and muting, when there is one.

  * `changes`: which transitions a statement makes, by what is checked in the database.
  * `roster_step`, `changes_runs`: the statements are runs of that machine, at their pairs.
  * `membership_of_run`: so the row of any pair is what `settle` makes of its own history: the
    row it first had, `left_at` from the last departure or return, and `muted_until` from the
    mutes. Who is added again is the member from before, with role and mute.
-/
import MessengerBackend.HttpApi.Effects

namespace MessengerBackend

open PgDb (Stmt need need_ok)
open Interleave (Runs keyed eventsAt)
open Except (bind_ok)

/-! ## The machine of one pair -/

inductive Change where
  | join (row : ChatMember)
  | back
  | leave (t : Time)
  | mute (now : Time)
deriving DecidableEq

namespace Change

def allowed (row : Option ChatMember) : Change → Prop
  | .join _ => row = none
  | _ => row.isSome = true

def on (pg : Pg) (row : Option ChatMember) : Change → Option ChatMember
  | .join m => some m
  | .back => row.map (fun m => { m with leftAt := none })
  | .leave t => row.map (fun m => { m with leftAt := some t })
  | .mute now =>
      row.map (fun m => { m with mutedUntil := Api.Chats.toggledMute pg now m.mutedUntil })

/-! What a change is about. -/

def joined : Change → Option ChatMember
  | .join m => some m
  | _ => none

def leftAt : Change → Option (Option Time)
  | .back => some none
  | .leave t => some (some t)
  | _ => none

def muted : Change → Option Time
  | .mute now => some now
  | _ => none

end Change

/-- The row that a history leaves. -/
def settle (pg : Pg) (row : Option ChatMember) (cs : List Change) : Option ChatMember :=
  (row.or (cs.findSome? Change.joined)).map (fun m =>
    { m with
      leftAt := (cs.filterMap Change.leftAt).getLast?.getD m.leftAt
      mutedUntil := (cs.filterMap Change.muted).foldl
        (fun t now => Api.Chats.toggledMute pg now t) m.mutedUntil })

theorem settle_nil (pg : Pg) (row : Option ChatMember) : settle pg row [] = row := by
  cases row <;> rfl

/-- The machine settles as its history says. -/
theorem foldl_change (pg : Pg) (cs : List Change) :
    ∀ row, Runs Change.allowed (Change.on pg) row cs → cs.foldl (Change.on pg) row = settle pg row cs := by
  induction cs with
  | nil => exact fun row _ => (settle_nil pg row).symm
  | cons c cs ih =>
      rintro row ⟨hok, hrest⟩
      rw [List.foldl_cons, ih _ hrest]
      cases c with
      | join m =>
          obtain rfl : row = none := hok
          rfl
      | back =>
          obtain ⟨m, rfl⟩ := Option.isSome_iff_exists.mp hok
          simp [settle, Change.on, Change.leftAt, Change.muted, List.filterMap_cons, List.getLast?_cons]
      | leave t =>
          obtain ⟨m, rfl⟩ := Option.isSome_iff_exists.mp hok
          simp [settle, Change.on, Change.leftAt, Change.muted, List.filterMap_cons, List.getLast?_cons]
      | mute now =>
          obtain ⟨m, rfl⟩ := Option.isSome_iff_exists.mp hok
          simp [settle, Change.on, Change.leftAt, Change.muted, List.filterMap_cons]

/-! ## What the statements change -/

/-- The rows of all pairs. -/
def Db.roster (db : Db) (k : Uuid × Uuid) : Option ChatMember := db.memberRow k.1 k.2

abbrev MemberEvent := (Uuid × Uuid) × Change

/-- A transition of a pair's machine, on all of them. -/
abbrev onRoster (pg : Pg) : (Uuid × Uuid → Option ChatMember) → MemberEvent →
    Uuid × Uuid → Option ChatMember := keyed (Change.on pg)

abbrev RosterRuns (pg : Pg) : (Uuid × Uuid → Option ChatMember) → List MemberEvent → Prop :=
  Runs (fun m e => Change.allowed (m e.1) e.2) (onRoster pg)

namespace Api.Chats

/-- The pair has no row, and chat and user exist. -/
def canJoin (row : ChatMember) (db : Db) : Bool :=
  (db.memberRow row.chatId row.userId).isNone && db.hasChat row.chatId && db.hasUser row.userId

def joining (row : ChatMember) (db : Db) : List MemberEvent :=
  if canJoin row db then [((row.chatId, row.userId), .join row)] else []

/-- An UPDATE of a pair needs its row. -/
def touching (c v : Uuid) (ch : Change) (db : Db) : List MemberEvent :=
  if (db.memberRow c v).isSome then [((c, v), ch)] else []

/-- Two rows of one statement: both or none. -/
def pairing (c u v : Uuid) (now : Time) (db : Db) : List MemberEvent :=
  let first : ChatMember := { chatId := c, userId := u, joinedAt := some now }
  let second : ChatMember := { chatId := c, userId := v, joinedAt := some now }
  if u ≠ v && canJoin first db && canJoin second db then joining first db ++ joining second db
  else []

/-- An id that does not parse is an error of the statement. -/
def forPair (c v : Option Uuid) (changes : Uuid → Uuid → List MemberEvent) : List MemberEvent :=
  match c, v with
  | some c, some v => changes c v
  | _, _ => []

/-- The statement at a point, by what it changes in the database. -/
def memberChanges (uid : String) (now : Time) (db : Db) : Point → List MemberEvent
  | .joinDirect chatId targetId =>
      forPair (PgDb.uuid chatId) (PgDb.uuid uid) (fun c u =>
        (PgDb.uuid targetId).elim [] (fun v => pairing c u v now db))
  | .ownGroup chatId _ _ =>
      forPair (PgDb.uuid chatId) (PgDb.uuid uid) (fun c u => joining
        { chatId := c, userId := u, role := "owner", canAdmin := true, joinedAt := some now } db)
  | .joinGroup chatId _ memberId _ =>
      forPair (PgDb.uuid chatId) (PgDb.uuid memberId) (fun c v =>
        joining { chatId := c, userId := v, joinedAt := some now } db)
  | .addMember chatId target =>
      forPair (PgDb.uuidBytes chatId) (PgDb.uuid target) (fun c v =>
        touching c v .back db ++ joining { chatId := c, userId := v, joinedAt := some now } db)
  | .removeMember chatId targetUid =>
      forPair (PgDb.uuidBytes chatId) (PgDb.uuidBytes targetUid) (fun c v =>
        touching c v (.leave now) db)
  | .muteChat chatId =>
      forPair (PgDb.uuidBytes chatId) (PgDb.uuid uid) (fun c u => touching c u (.mute now) db)
  | _ => []

/-! The two shapes. -/

theorem insertMember_iff {row : ChatMember} {db : Db} :
    canJoin row db = true ↔ ∃ db', insertMember row db = .ok db' := by
  unfold canJoin
  rw [Bool.and_eq_true, Bool.and_eq_true, Option.isNone_iff_eq_none]
  constructor
  · rintro ⟨⟨hrow, hchat⟩, huser⟩
    obtain ⟨members, _, hok⟩ := insertMember_accepts row db hrow hchat huser
    exact ⟨_, hok⟩
  · rintro ⟨db', h⟩
    obtain ⟨members, hins, hchat, huser, _⟩ := insertMember_ok h
    refine ⟨⟨List.find?_eq_none.mpr (fun m hm hpair => ?_), hchat⟩, huser⟩
    have hfresh := Table.insert_fresh hins m hm
    rw [Keyed.symm] at hfresh
    exact Bool.false_ne_true (hfresh.symm.trans hpair)

theorem joining_of_error {row : ChatMember} {db : Db} {e : SqlError}
    (h : insertMember row db = .error e) : joining row db = [] := by
  unfold joining
  refine if_neg (fun hjoin => ?_)
  obtain ⟨db', hok⟩ := insertMember_iff.mp hjoin
  rw [h] at hok
  cases hok

theorem roster_insertMember (pg : Pg) {row : ChatMember} {db db' : Db}
    (h : insertMember row db = .ok db') :
    db'.roster = (joining row db).foldl (onRoster pg) db.roster := by
  obtain ⟨members, hins, _, _, rfl⟩ := insertMember_ok h
  rw [joining, if_pos (insertMember_iff.mpr ⟨_, h⟩), List.foldl_cons, List.foldl_nil]
  funext k
  show Db.memberRow { db with chatMembers := members } k.1 k.2 = _
  rw [memberRow_insert hins]
  by_cases hk : k = (row.chatId, row.userId)
  · subst hk
    rw [if_pos (by simp [isPair])]
    exact (Interleave.keyed_self (Change.on pg) db.roster ((row.chatId, row.userId), .join row)).symm
  · have hpair : ¬ isPair k.1 k.2 row = true := by
      simp only [isPair, Bool.and_eq_true, beq_iff_eq]
      rintro ⟨hc, hv⟩
      exact hk (Prod.ext hc.symm hv.symm)
    rw [if_neg hpair]
    exact (Interleave.keyed_of_ne (e := ((row.chatId, row.userId), Change.join row)) hk
      (Change.on pg) db.roster).symm

theorem roster_modifyMember (pg : Pg) {c v : Uuid} {f : ChatMember → ChatMember}
    (hf : ∀ a b, Keyed.clash (f a) b = Keyed.clash a b) {ch : Change}
    (hon : ∀ row, ch.on pg row = row.map f) (db : Db) :
    (modifyMember c v f hf db).roster = (touching c v ch db).foldl (onRoster pg) db.roster := by
  funext k
  show (modifyMember c v f hf db).memberRow k.1 k.2 = _
  rw [memberRow_modifyMember]
  unfold touching
  by_cases hrow : (db.memberRow c v).isSome = true
  · rw [if_pos hrow, List.foldl_cons, List.foldl_nil]
    by_cases hk : k = (c, v)
    · subst hk
      rw [if_pos ⟨rfl, rfl⟩, ← hon]
      exact (Interleave.keyed_self (Change.on pg) db.roster ((c, v), ch)).symm
    · rw [if_neg (fun h => hk (Prod.ext h.1 h.2))]
      exact (Interleave.keyed_of_ne (e := ((c, v), ch)) hk (Change.on pg) db.roster).symm
  · rw [if_neg hrow, List.foldl_nil]
    split
    · rename_i hk
      rw [Option.not_isSome_iff_eq_none] at hrow
      show _ = db.memberRow k.1 k.2
      rw [hk.1, hk.2, hrow]
      rfl
    · rfl

theorem runs_joining (pg : Pg) (row : ChatMember) (db : Db) :
    RosterRuns pg db.roster (joining row db) := by
  unfold joining
  split
  · rename_i hjoin
    have hnone : db.memberRow row.chatId row.userId = none := by
      simp only [canJoin, Bool.and_eq_true, Option.isNone_iff_eq_none] at hjoin
      exact hjoin.1.1
    exact ⟨hnone, trivial⟩
  · trivial

theorem runs_touching (pg : Pg) {c v : Uuid} {ch : Change} (hch : ch.joined = none) (db : Db) :
    RosterRuns pg db.roster (touching c v ch db) := by
  unfold touching
  split
  · rename_i hrow
    refine ⟨?_, trivial⟩
    cases ch with
    | join m => cases hch
    | _ => exact hrow
  · trivial

/-! `open_direct` -/

theorem canJoin_second {row : ChatMember} (row' : ChatMember) {db db' : Db} (hne : row.userId ≠ row'.userId)
    (h : insertMember row db = .ok db') : canJoin row' db' = canJoin row' db := by
  obtain ⟨members, hins, _, _, rfl⟩ := insertMember_ok h
  unfold canJoin
  rw [memberRow_insert hins]
  have hpair : ¬ isPair row'.chatId row'.userId row = true := by
    simp only [isPair, Bool.and_eq_true, beq_iff_eq]
    exact fun h => hne h.2
  rw [if_neg hpair]
  rfl

/-- The rows of a pair, if their statement is accepted, are both new, and of two users. -/
theorem pairing_of_ok {c u v : Uuid} {now : Time} {db db₁ db₂ : Db}
    (hfirst : insertMember { chatId := c, userId := u, joinedAt := some now } db = .ok db₁)
    (hsecond : insertMember { chatId := c, userId := v, joinedAt := some now } db₁ = .ok db₂) :
    u ≠ v ∧ pairing c u v now db =
      joining { chatId := c, userId := u, joinedAt := some now } db ++
        joining { chatId := c, userId := v, joinedAt := some now } db₁ := by
  have hne : u ≠ v := by
    rintro rfl
    obtain ⟨members, hins, _, _, rfl⟩ := insertMember_ok hfirst
    have hnew := insertMember_iff.mpr ⟨_, hsecond⟩
    unfold canJoin at hnew
    rw [memberRow_insert hins, if_pos (by simp [isPair])] at hnew
    cases hnew
  have hjoin := canJoin_second
    { chatId := c, userId := v, joinedAt := some now } hne hfirst
  have hcond := insertMember_iff.mpr ⟨_, hfirst⟩
  have hcond' := hjoin.symm.trans (insertMember_iff.mpr ⟨_, hsecond⟩)
  refine ⟨hne, ?_⟩
  unfold pairing
  simp only [ne_eq, hne, not_false_eq_true, decide_true, hcond, hcond', Bool.and_self, if_true]
  unfold joining
  rw [hjoin]

theorem pairing_of_refused {c u v : Uuid} {now : Time} {db : Db}
    (h : ∀ db₁ db₂, insertMember { chatId := c, userId := u, joinedAt := some now } db = .ok db₁ →
      insertMember { chatId := c, userId := v, joinedAt := some now } db₁ = .ok db₂ → False) :
    pairing c u v now db = [] := by
  unfold pairing
  refine if_neg (fun hcond => ?_)
  simp only [Bool.and_eq_true, decide_eq_true_eq] at hcond
  obtain ⟨⟨hne, hfirst⟩, hsecond⟩ := hcond
  obtain ⟨db₁, hok⟩ := insertMember_iff.mp hfirst
  rw [← canJoin_second { chatId := c, userId := v, joinedAt := some now } hne hok]
    at hsecond
  obtain ⟨db₂, hok'⟩ := insertMember_iff.mp hsecond
  exact h db₁ db₂ hok hok'

theorem runs_pairing (pg : Pg) (c u v : Uuid) (now : Time) (db : Db) :
    RosterRuns pg db.roster (pairing c u v now db) := by
  by_cases h : ∃ db₁ db₂,
      insertMember { chatId := c, userId := u, joinedAt := some now } db = .ok db₁ ∧
      insertMember { chatId := c, userId := v, joinedAt := some now } db₁ = .ok db₂
  · obtain ⟨db₁, db₂, hfirst, hsecond⟩ := h
    rw [(pairing_of_ok hfirst hsecond).2]
    refine (Interleave.runs_append _ _ _).mpr ⟨runs_joining pg _ db, ?_⟩
    rw [← roster_insertMember pg hfirst]
    exact runs_joining pg _ db₁
  · rw [pairing_of_refused (fun db₁ db₂ hfirst hsecond => h ⟨db₁, db₂, hfirst, hsecond⟩)]
    trivial

/-! ## The handlers -/

theorem runs_forPair {pg : Pg} {m : Uuid × Uuid → Option ChatMember} {c v : Option Uuid}
    {changes : Uuid → Uuid → List MemberEvent} (h : ∀ c v, RosterRuns pg m (changes c v)) :
    RosterRuns pg m (forPair c v changes) := by
  unfold forPair
  split
  · exact h _ _
  · trivial

theorem forPair_eq_nil {c v : Option Uuid} {changes : Uuid → Uuid → List MemberEvent}
    (h : ∀ c' v', c = some c' → v = some v' → changes c' v' = []) : forPair c v changes = [] := by
  unfold forPair
  split
  · exact h _ _ rfl rfl
  · rfl

/-- Coming back and joining exclude each other. -/
theorem runs_upsert (pg : Pg) (c v : Uuid) (now : Time) (db : Db) :
    RosterRuns pg db.roster
      (touching c v .back db ++ joining { chatId := c, userId := v, joinedAt := some now } db) := by
  cases hrow : db.memberRow c v with
  | none =>
      have hno : touching c v .back db = [] := by unfold touching; rw [hrow]; rfl
      rw [hno]
      exact runs_joining pg _ db
  | some m =>
      have hno : joining { chatId := c, userId := v, joinedAt := some now } db = [] := by
        unfold joining canJoin
        rw [hrow]
        rfl
      rw [hno, List.append_nil]
      exact runs_touching pg rfl db

/-- What a statement changes is a run of the machine. -/
theorem runs_memberChanges (pg : Pg) (uid : String) (now : Time) (db : Db) (p : Point) :
    RosterRuns pg db.roster (memberChanges uid now db p) := by
  cases p with
  | joinDirect chatId targetId =>
      refine runs_forPair (fun c u => ?_)
      cases PgDb.uuid targetId with
      | none => trivial
      | some v => exact runs_pairing pg c u v now db
  | ownGroup chatId name members => exact runs_forPair (fun c u => runs_joining pg _ db)
  | joinGroup chatId name memberId rest => exact runs_forPair (fun c v => runs_joining pg _ db)
  | addMember chatId target => exact runs_forPair (fun c v => runs_upsert pg c v now db)
  | removeMember chatId targetUid => exact runs_forPair (fun c v => runs_touching pg rfl db)
  | muteChat chatId => exact runs_forPair (fun c u => runs_touching pg rfl db)
  | _ => trivial

/-- A statement changes the roster as `es` says, and a refused one by nothing. -/
structure Follows {α : Type} (pg : Pg) (q : Stmt Db α) (db : Db) (es : List MemberEvent) : Prop where
  accepted : ∀ db' a, q db = .ok (db', a) → db'.roster = es.foldl (onRoster pg) db.roster
  refused : ∀ e, q db = .error e → es = []

section Statements

variable (pg : Pg) (uid : String) (now : Time) (db : Db)

theorem follows_insertPair (chatId targetId : String) :
    Follows pg (insertPair chatId uid targetId now) db
      (memberChanges uid now db (.joinDirect chatId targetId)) where
  accepted db' a h := by
    obtain ⟨c, u, v, db₁, hc, hu, hv, hfirst, hsecond⟩ := insertPair_ok h
    simp only [memberChanges, forPair, hc, hu, hv, Option.elim, (pairing_of_ok hfirst hsecond).2]
    rw [List.foldl_append, ← roster_insertMember pg hfirst, roster_insertMember pg hsecond]
  refused e h := by
    refine forPair_eq_nil (fun c u hc hu => ?_)
    cases hv : PgDb.uuid targetId with
    | none => rfl
    | some v =>
        refine pairing_of_refused (fun db₁ db₂ hfirst hsecond => ?_)
        simp only [insertPair, hc, hu, hv, need, bind, Except.bind, hfirst, hsecond] at h
        cases h

theorem follows_insertOwner (chatId name : String) (members : List Json) :
    Follows pg (insertOwner chatId uid now) db
      (memberChanges uid now db (.ownGroup chatId name members)) where
  accepted db' a h := by
    obtain ⟨c, u, hc, hu, hins⟩ := insertOwner_ok h
    simp only [memberChanges, forPair, hc, hu]
    exact roster_insertMember pg hins
  refused e h := by
    refine forPair_eq_nil (fun c u hc hu => ?_)
    simp only [insertOwner, hc, hu, need, bind, Except.bind] at h
    split at h
    · rename_i hins
      exact joining_of_error hins
    · cases h

theorem follows_insertGroupMember (chatId name memberId : String) (rest : List Json) :
    Follows pg (insertGroupMember chatId memberId now) db
      (memberChanges uid now db (.joinGroup chatId name memberId rest)) where
  accepted db' a h := by
    obtain ⟨c, hc, h⟩ := bind_ok.mp h
    obtain ⟨v, hv, h⟩ := bind_ok.mp h
    simp only [memberChanges, forPair, need_ok.mp hc, need_ok.mp hv]
    split at h
    · rename_i m hrow
      cases h
      unfold joining canJoin
      rw [hrow]
      rfl
    · obtain ⟨db₁, hins, h⟩ := bind_ok.mp h
      cases h
      exact roster_insertMember pg hins
  refused e h := by
    refine forPair_eq_nil (fun c v hc hv => ?_)
    simp only [insertGroupMember, hc, hv, need, bind, Except.bind] at h
    split at h
    · cases h
    · split at h
      · rename_i hins
        exact joining_of_error hins
      · cases h

theorem follows_upsertMember (chatId : Bytes) (target : String) :
    Follows pg (upsertMember chatId target now) db
      (memberChanges uid now db (.addMember chatId target)) where
  accepted db' a h := by
    obtain ⟨c, v, hc, hv, ⟨hrow, rfl⟩ | ⟨hrow, hins⟩⟩ := upsertMember_ok h
    · simp only [memberChanges, forPair, hc, hv]
      have hno : joining { chatId := c, userId := v, joinedAt := some now } db = [] := by
        obtain ⟨m, hm⟩ := Option.isSome_iff_exists.mp hrow
        unfold joining canJoin
        rw [hm]
        rfl
      rw [hno, List.append_nil]
      exact roster_modifyMember pg _ (fun _ => rfl) db
    · simp only [memberChanges, forPair, hc, hv]
      have hno : touching c v .back db = [] := by unfold touching; rw [hrow]; rfl
      rw [hno, List.nil_append]
      exact roster_insertMember pg hins
  refused e h := by
    refine forPair_eq_nil (fun c v hc hv => ?_)
    simp only [upsertMember, hc, hv, need, bind, Except.bind] at h
    split at h
    · cases h
    · rename_i hrow
      split at h
      · rename_i hins
        unfold touching
        rw [joining_of_error hins, hrow]
        rfl
      · cases h

theorem follows_leaveMember (chatId targetUid : Bytes) :
    Follows pg (leaveMember chatId targetUid now) db
      (memberChanges uid now db (.removeMember chatId targetUid)) where
  accepted db' a h := by
    obtain ⟨c, v, hc, hv, rfl⟩ := leaveMember_ok h
    simp only [memberChanges, forPair, hc, hv]
    exact roster_modifyMember pg _ (fun _ => rfl) db
  refused e h := by
    refine forPair_eq_nil (fun c v hc hv => ?_)
    simp only [leaveMember, hc, hv, need, bind, Except.bind] at h
    cases h

theorem follows_muteMember (chatId : Bytes) :
    Follows pg (muteMember pg chatId uid now) db
      (memberChanges uid now db (.muteChat chatId)) where
  accepted db' a h := by
    obtain ⟨c, u, hc, hu, rfl⟩ := muteMember_ok h
    simp only [memberChanges, forPair, hc, hu]
    exact roster_modifyMember pg _ (fun _ => rfl) db
  refused e h := by
    refine forPair_eq_nil (fun c u hc hu => ?_)
    simp only [muteMember, hc, hu, need, bind, Except.bind] at h
    cases h

end Statements

/-- The changes of a step: none, if its statement is not executed. -/
def changesOf (uid : String) (p : Point) (inp : Input) (db : Db) : List MemberEvent :=
  if inp.first.executes then memberChanges uid inp.now db p else []

/-- The step lemma of the handlers of chats. -/
theorem roster_step (pg : Pg) (uid : String) (p : Point) (inp : Input) (db : Db) :
    (step pg uid p inp db).1.roster = (changesOf uid p inp db).foldl (onRoster pg) db.roster := by
  have follow : ∀ {α : Type} {q : Stmt Db α} {ok : α → Point} {failed : SqlError → Point},
      Follows pg q db (memberChanges uid inp.now db p) →
      (attempt inp.first q db ok failed).1.roster =
        (changesOf uid p inp db).foldl (onRoster pg) db.roster :=
    fun h => attempt_replays Db.roster h.accepted h.refused
  have same : ∀ {α : Type} {q : Stmt Db α} {ok : α → Point} {failed : SqlError → Point},
      memberChanges uid inp.now db p = [] →
      (∀ db' a, q db = .ok (db', a) → db'.roster = db.roster) →
      (attempt inp.first q db ok failed).1.roster =
        (changesOf uid p inp db).foldl (onRoster pg) db.roster :=
    fun hnone hq => follow (hnone ▸ ⟨hq, fun _ _ => rfl⟩)
  cases p with
  | joinDirect chatId targetId => exact follow (follows_insertPair pg uid inp.now db _ _)
  | ownGroup chatId name members => exact follow (follows_insertOwner pg uid inp.now db _ _ _)
  | joinGroup chatId name memberId rest =>
      exact follow (follows_insertGroupMember pg uid inp.now db _ _ _ _)
  | addMember chatId target => exact follow (follows_upsertMember pg uid inp.now db _ _)
  | removeMember chatId targetUid => exact follow (follows_leaveMember pg uid inp.now db _ _)
  | muteChat chatId => exact follow (follows_muteMember pg uid inp.now db _)
  | findDirect targetId =>
      refine same rfl (fun db' a h => ?_)
      obtain ⟨rfl, _⟩ := PgDb.reading_ok.mp h
      rfl
  | createDirect targetId =>
      refine same rfl (fun db' a h => ?_)
      obtain ⟨_, _, _, _, _, _, _, _, rfl⟩ := insertChat_ok h
      rfl
  | createGroup name desc members =>
      refine same rfl (fun db' a h => ?_)
      obtain ⟨_, _, _, _, _, _, _, _, rfl⟩ := insertChat_ok h
      rfl
  | pinMessage msgId =>
      refine same rfl (fun db' a h => ?_)
      obtain ⟨_, _, rfl⟩ := togglePin_ok h
      rfl
  | reactMessage msgId emoji => exact same rfl (fun _ _ h => nomatch h)
  | exited e =>
      show db.roster = (changesOf uid (.exited e) inp db).foldl (onRoster pg) db.roster
      unfold changesOf
      split <;> rfl

end Api.Chats

namespace HttpApi

def memberChanges (t : Api.Thread) (inp : Api.Input) (db : Db) : List MemberEvent :=
  match t.point with
  | .chat p => Api.Chats.changesOf t.uid p inp db
  | _ => []

theorem roster_of_step (pg : Pg) (t : Api.Thread) (inp : Api.Input) (db : Db) :
    (Api.step pg t inp db).1.roster =
      (memberChanges t inp db).foldl (onRoster pg) db.roster := by
  obtain ⟨uid, point⟩ := t
  cases point with
  | query r => rfl
  | answered r => rfl
  | chat p => exact Api.Chats.roster_step pg uid p inp db
  | account p =>
      obtain ⟨users, contacts, hdb⟩ := Api.Accounts.step_writes uid p inp db
      exact (congrArg Db.roster hdb :)
  | channel p =>
      obtain ⟨channels, subscribers, posts, hdb⟩ := Api.Channels.step_writes uid p inp db
      exact (congrArg Db.roster hdb :)

theorem runs_of_step (pg : Pg) (t : Api.Thread) (inp : Api.Input) (db : Db) :
    RosterRuns pg db.roster (memberChanges t inp db) := by
  obtain ⟨uid, point⟩ := t
  cases point with
  | chat p =>
      show RosterRuns pg db.roster (Api.Chats.changesOf uid p inp db)
      unfold Api.Chats.changesOf
      split
      · exact Api.Chats.runs_memberChanges pg uid inp.now db p
      · trivial
  | _ => trivial

/-- The history of the pair. -/
def membershipLog (env : Env) (s : State) (as : List Action) (c v : Uuid) : List Change :=
  eventsAt (c, v) (log memberChanges env s as)

/-- All rows at once, as the machine leaves them. -/
theorem roster_run (env : Env) (s : State) (as : List Action) :
    (run env s as).shared.db.roster = fun k =>
      settle env.pg (s.db.roster k) (eventsAt k (log memberChanges env s as)) := by
  have hview : (run env s as).shared.db.roster =
      (log memberChanges env s as).foldl (onRoster env.pg) s.db.roster :=
    view_run Db.roster (fun _ _ _ => rfl) (roster_of_step env.pg) s as
  have hruns : RosterRuns env.pg s.db.roster (log memberChanges env s as) :=
    log_runs Db.roster (fun _ _ _ => rfl) (roster_of_step env.pg) (runs_of_step env.pg)
      s as
  funext k
  rw [hview, Interleave.foldl_keyed, foldl_change env.pg _ _ (Interleave.runs_keyed k _ _ hruns)]

/-- The row of a pair after a run is what its own history settles to. -/
theorem membership_of_run (env : Env) (s : State) (as : List Action) (c v : Uuid) :
    (run env s as).shared.db.memberRow c v =
      settle env.pg (s.db.memberRow c v) (membershipLog env s as c v) :=
  congrFun (roster_run env s as) (c, v)

end HttpApi

end MessengerBackend
