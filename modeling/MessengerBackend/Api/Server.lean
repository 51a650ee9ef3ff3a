/-
  All authenticated requests of the API as one system of concurrent threads.

  A thread carries the caller that `authenticate_request` returned. A GET is a single step:
  its statements only read. Not here: the authentication endpoints, which have a system of
  their own, and `authenticate_request` itself.
-/
import MessengerBackend.Api.Accounts
import MessengerBackend.Api.Chats
import MessengerBackend.Api.Channels

namespace MessengerBackend.Api

inductive Call where
  | query (r : GetRequest)
  | account (c : Accounts.Call)
  | chat (c : Chats.Call)
  | channel (c : Channels.Call)

structure Request where
  uid : String
  call : Call

inductive Point where
  | query (r : GetRequest)
  | answered (r : Response)
  | account (p : Accounts.Point)
  | chat (p : Chats.Point)
  | channel (p : Channels.Point)

structure Thread where
  uid : String
  point : Point

def start (r : Request) : Thread where
  uid := r.uid
  point := match r.call with
    | .query r => .query r
    | .account c => .account (Accounts.start r.uid c)
    | .chat c => .chat (Chats.start c)
    | .channel c => .channel (Channels.start c)

/-- One step of a handler, at the point type of the server. -/
def lift {P : Type} (uid : String) (wrap : P → Point) (x : Db × P) : Db × Thread × List Empty :=
  (x.1, ⟨uid, wrap x.2⟩, [])

def step (pg : Pg) (t : Thread) (inp : Input) (db : Db) : Db × Thread × List Empty :=
  match t.point with
  | .query r => (db, ⟨t.uid, .answered (respond pg inp.toEnv t.uid r db)⟩, [])
  | .answered r => (db, ⟨t.uid, .answered r⟩, [])
  | .account p => lift t.uid .account (Accounts.step t.uid p inp db)
  | .chat p => lift t.uid .chat (Chats.step pg t.uid p inp db)
  | .channel p => lift t.uid .channel (Channels.step t.uid p inp db)

def system (pg : Pg) : Interleave.System Request Thread Db Input Empty where
  start := start
  step := step pg

abbrev Config := Interleave.Config Request Thread Db Empty
abbrev Action := Interleave.Action Request Input

/-- A handler that is none of `Chats` leaves `chats` and `chat_members` alone. -/
theorem step_of_ne_chat (pg : Pg) {t : Thread} (h : ∀ p, t.point ≠ .chat p) (inp : Input)
    (db : Db) : (step pg t inp db).1.chats = db.chats ∧
      (step pg t inp db).1.chatMembers = db.chatMembers ∧
      ∀ p, (step pg t inp db).2.1.point ≠ .chat p := by
  obtain ⟨uid, point⟩ := t
  cases point with
  | query r => exact ⟨rfl, rfl, fun _ h => nomatch h⟩
  | answered r => exact ⟨rfl, rfl, fun _ h => nomatch h⟩
  | account p =>
      obtain ⟨users, contacts, hdb⟩ := Accounts.step_writes uid p inp db
      refine ⟨?_, ?_, fun _ h => nomatch h⟩
      · exact (congrArg Db.chats hdb :)
      · exact (congrArg Db.chatMembers hdb :)
  | channel p =>
      obtain ⟨channels, subscribers, posts, hdb⟩ := Channels.step_writes uid p inp db
      refine ⟨?_, ?_, fun _ h => nomatch h⟩
      · exact (congrArg Db.chats hdb :)
      · exact (congrArg Db.chatMembers hdb :)
  | chat p => exact absurd rfl (h p)

/-- A handler that is none of `Channels` leaves its three tables alone. -/
theorem step_of_ne_channel (pg : Pg) {t : Thread} (h : ∀ p, t.point ≠ .channel p) (inp : Input)
    (db : Db) : (step pg t inp db).1.channels = db.channels ∧
      (step pg t inp db).1.channelSubscribers = db.channelSubscribers ∧
      (step pg t inp db).1.channelPosts = db.channelPosts ∧
      ∀ p, (step pg t inp db).2.1.point ≠ .channel p := by
  obtain ⟨uid, point⟩ := t
  cases point with
  | query r => exact ⟨rfl, rfl, rfl, fun _ h => nomatch h⟩
  | answered r => exact ⟨rfl, rfl, rfl, fun _ h => nomatch h⟩
  | account p =>
      obtain ⟨users, contacts, hdb⟩ := Accounts.step_writes uid p inp db
      refine ⟨?_, ?_, ?_, fun _ h => nomatch h⟩
      · exact (congrArg Db.channels hdb :)
      · exact (congrArg Db.channelSubscribers hdb :)
      · exact (congrArg Db.channelPosts hdb :)
  | chat p =>
      obtain ⟨chats, members, messages, hdb⟩ := Chats.step_writes pg uid p inp db
      refine ⟨?_, ?_, ?_, fun _ h => nomatch h⟩
      · exact (congrArg Db.channels hdb :)
      · exact (congrArg Db.channelSubscribers hdb :)
      · exact (congrArg Db.channelPosts hdb :)
  | channel p => exact absurd rfl (h p)

/-! ## Threads in a configuration -/

/-- Thread `j` stands at `t`. -/
def At (ts : List (Request × Thread)) (j : Nat) (t : Thread) : Prop := ∃ r, ts[j]? = some (r, t)

/-- After thread `j` moved to `t'`, a thread is that one or another one where it was. -/
theorem at_moved {ts : List (Request × Thread)} {j k : Nat} {r : Request} {t' t₁ : Thread}
    (h : At (ts.set j (r, t')) k t₁) : (k = j ∧ t₁ = t') ∨ (k ≠ j ∧ At ts k t₁) := by
  obtain ⟨r₁, h⟩ := h
  rcases Interleave.getElem?_moved h with ⟨hk, heq⟩ | ⟨hk, hold⟩
  · exact Or.inl ⟨hk, congrArg Prod.snd heq⟩
  · exact Or.inr ⟨hk, r₁, hold⟩

end MessengerBackend.Api
