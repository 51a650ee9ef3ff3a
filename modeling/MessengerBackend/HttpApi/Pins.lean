/-
  The messages after a run of the whole server.

  No route of the API writes a message, and one changes any: `pin` flips its pin. So the table
  after a run is the one before, with a pin flipped where the requests for that message were
  odd in number (`messages_of_run`): twice is not at all, whoever asked, and in whatever order
  the statements came. What counts is the statement, not the answer: a request whose answer
  was lost has flipped the pin. A pin that is NULL stays NULL.
-/
import MessengerBackend.HttpApi.Effects

namespace MessengerBackend

open PgDb (Outcome Stmt need)
namespace Api.Chats

/-- The message whose pin a step flips, if there is one with the id. -/
def pins : Point → Input → List Uuid
  | .pinMessage msgId, inp => if inp.first.executes then (PgDb.uuidBytes msgId).toList else []
  | _, _ => []

/-- The messages after their pins were flipped in turn. -/
def flipPins (ms : List Message) (i : Uuid) : List Message :=
  ms.map (fun m => if m.id == i then flipPin m else m)

theorem messages_step (pg : Pg) (uid : String) (p : Point) (inp : Input) (db : Db) :
    (step pg uid p inp db).1.messages.rows = (pins p inp).foldl flipPins db.messages.rows := by
  have same : ∀ {α : Type} {o : Outcome} {q : Stmt Db α} {ok : α → Point}
      {failed : SqlError → Point}, (∀ db' a, q db = .ok (db', a) → db'.messages = db.messages) →
      (attempt o q db ok failed).1.messages.rows = db.messages.rows :=
    fun h => congrArg Table.rows (attempt_inv (fun db' _ => db'.messages = db.messages)
      (fun _ => rfl) (fun db' a hq => ⟨h db' a hq, fun _ => h db' a hq⟩))
  have member : ∀ {row : ChatMember} {db db' : Db}, insertMember row db = .ok db' →
      db'.messages = db.messages := by
    intro row db db' h
    obtain ⟨_, _, _, _, rfl⟩ := insertMember_ok h
    rfl
  cases p with
  | pinMessage msgId =>
      refine attempt_replays (fun db => db.messages.rows) (fun db' a h => ?_) (fun e h => ?_)
      · obtain ⟨i, hi, rfl⟩ := togglePin_ok h
        rw [hi]
        rfl
      · cases hi : PgDb.uuidBytes msgId with
        | none => rfl
        | some i =>
            simp only [togglePin, hi, need, bind, Except.bind] at h
            cases h
  | findDirect targetId =>
      refine same (fun db' a h => ?_)
      obtain ⟨rfl, _⟩ := PgDb.reading_ok.mp h
      rfl
  | createDirect targetId =>
      refine same (fun db' a h => ?_)
      obtain ⟨_, _, _, _, _, _, _, _, rfl⟩ := insertChat_ok h
      rfl
  | joinDirect chatId targetId =>
      refine same (fun db' a h => ?_)
      obtain ⟨_, _, _, _, _, _, _, hfirst, hsecond⟩ := insertPair_ok h
      exact (member hsecond).trans (member hfirst)
  | createGroup name desc members =>
      refine same (fun db' a h => ?_)
      obtain ⟨_, _, _, _, _, _, _, _, rfl⟩ := insertChat_ok h
      rfl
  | ownGroup chatId name members =>
      refine same (fun db' a h => ?_)
      obtain ⟨_, _, _, _, hins⟩ := insertOwner_ok h
      exact member hins
  | joinGroup chatId name memberId rest =>
      refine same (fun db' a h => ?_)
      obtain ⟨_, _, _, _, rfl | hins⟩ := insertGroupMember_ok h
      · rfl
      · exact member hins
  | addMember chatId target =>
      refine same (fun db' a h => ?_)
      obtain ⟨_, _, _, _, ⟨_, rfl⟩ | ⟨_, hins⟩⟩ := upsertMember_ok h
      · rfl
      · exact member hins
  | removeMember chatId targetUid =>
      refine same (fun db' a h => ?_)
      obtain ⟨_, _, _, _, rfl⟩ := leaveMember_ok h
      rfl
  | reactMessage msgId emoji =>
      refine same ?_
      rintro _ _ ⟨⟩
  | muteChat chatId =>
      refine same (fun db' a h => ?_)
      obtain ⟨_, _, _, _, rfl⟩ := muteMember_ok h
      rfl
  | exited e => rfl

end Api.Chats

/-- A message with its pin flipped, or not. -/
def Message.pinned (m : Message) (odd : Bool) : Message :=
  { m with isPinned := m.isPinned.map (· ^^ odd) }

namespace HttpApi

def pins (t : Api.Thread) (inp : Api.Input) (_ : Db) : List Uuid :=
  match t.point with
  | .chat p => Api.Chats.pins p inp
  | _ => []

theorem messages_of_step (pg : Pg) (t : Api.Thread) (inp : Api.Input) (db : Db) :
    (Api.step pg t inp db).1.messages.rows =
      (pins t inp db).foldl Api.Chats.flipPins db.messages.rows := by
  obtain ⟨uid, point⟩ := t
  cases point with
  | query r => rfl
  | answered r => rfl
  | chat p => exact Api.Chats.messages_step pg uid p inp db
  | account p =>
      obtain ⟨users, contacts, hdb⟩ := Api.Accounts.step_writes uid p inp db
      exact (congrArg (fun db : Db => db.messages.rows) hdb :)
  | channel p =>
      obtain ⟨channels, subscribers, posts, hdb⟩ := Api.Channels.step_writes uid p inp db
      exact (congrArg (fun db : Db => db.messages.rows) hdb :)

theorem odd_succ (n : Nat) : decide ((n + 1) % 2 = 1) = !decide (n % 2 = 1) := by
  rcases Nat.mod_two_eq_zero_or_one n with h | h
  · have hodd : (n + 1) % 2 = 1 := by omega
    simp [h, hodd]
  · have heven : (n + 1) % 2 = 0 := by omega
    simp [h, heven]

/-- Flips in turn come down to their parity. -/
theorem foldl_flipPins (is : List Uuid) (ms : List Message) :
    is.foldl Api.Chats.flipPins ms = ms.map (fun m => m.pinned (decide (is.count m.id % 2 = 1))) := by
  induction is using List.reverseRecOn with
  | nil => simp [Message.pinned]
  | append_singleton is i ih =>
      rw [List.foldl_concat, ih, Api.Chats.flipPins, List.map_map]
      refine List.map_congr_left (fun m _ => ?_)
      show (if m.id == i then Api.Chats.flipPin (m.pinned _) else m.pinned _) = _
      rw [List.count_append, List.count_singleton]
      by_cases hi : i = m.id
      · subst hi
        rw [if_pos (beq_self_eq_true _), if_pos (beq_self_eq_true _), odd_succ]
        unfold Api.Chats.flipPin Message.pinned
        rw [Option.map_map]
        cases m.isPinned <;> simp
      · rw [if_neg (by simpa using Ne.symm hi), if_neg (by simpa using hi), Nat.add_zero]

/-- The pin statements of a run, by their messages. -/
def pinLog (env : Env) (s : State) (as : List Action) : List Uuid := log pins env s as

theorem messages_of_run (env : Env) (s : State) (as : List Action) :
    (run env s as).shared.db.messages.rows =
      s.db.messages.rows.map (fun m => m.pinned (decide ((pinLog env s as).count m.id % 2 = 1))) := by
  rw [view_run (fun db => db.messages.rows) (fun _ _ _ => rfl) (messages_of_step env.pg) s as]
  exact foldl_flipPins _ _

end HttpApi

end MessengerBackend
