/-
  What stays, from any moment of a run of the whole server to any later one.

  No route removes a user, a chat, a membership, a message, a reaction, a channel or a
  subscription, and most of what such a row says can never be changed again: an account keeps
  everything but its five profile columns, a membership its role and its first `joined_at`,
  a message all but its pin, a channel all but its count, which only grows. Messages and
  reactions are not even created here.

  * `Db.Continues db db'`: `db'` has all of that from `db`.
  * `continues_of_run`: the databases of two moments of one run stand in it.

  Contacts, channel posts and OTP codes are the rows that requests delete; they are not in it.
-/
import MessengerBackend.HttpApi.Effects
import MessengerBackend.Lib.Reference

namespace MessengerBackend

open Table (Kept)

/-- What no request changes in a membership. -/
def ChatMember.lasting (m : ChatMember) : ChatMember := { m with leftAt := none, mutedUntil := none }

/-- What no request changes in a message. -/
def Message.lasting (m : Message) : Message := { m with isPinned := none }

/-- What no request changes in a channel. -/
def Channel.lasting (c : Channel) : Channel := { c with subscriberCount := 0 }

namespace Db

structure Continues (db db' : Db) : Prop where
  users : Kept (fun x x' => Api.Accounts.others x' = Api.Accounts.others x) db.users db'.users
  chats : Kept Eq db.chats db'.chats
  members : Kept (fun m m' => m'.lasting = m.lasting) db.chatMembers db'.chatMembers
  messages : db'.messages.rows.map Message.lasting = db.messages.rows.map Message.lasting
  deliveries : db'.messageDelivery = db.messageDelivery
  reactions : db'.reactions = db.reactions
  channels : Kept (fun c c' => c'.lasting = c.lasting ∧ c.subscriberCount ≤ c'.subscriberCount)
    db.channels db'.channels
  subscribers : Kept Eq db.channelSubscribers db'.channelSubscribers

theorem Continues.refl (db : Db) : Continues db db where
  users x hx := ⟨x, hx, rfl⟩
  chats c hc := ⟨c, hc, rfl⟩
  members m hm := ⟨m, hm, rfl⟩
  messages := rfl
  deliveries := rfl
  reactions := rfl
  channels c hc := ⟨c, hc, rfl, le_refl _⟩
  subscribers s hs := ⟨s, hs, rfl⟩

theorem Continues.trans {a b d : Db} (hab : Continues a b) (hbd : Continues b d) :
    Continues a d where
  users := hab.users.trans (fun _ _ _ h h' => h'.trans h) hbd.users
  chats := hab.chats.trans (fun _ _ _ h h' => h.trans h') hbd.chats
  members := hab.members.trans (fun _ _ _ h h' => h'.trans h) hbd.members
  messages := hbd.messages.trans hab.messages
  deliveries := hbd.deliveries.trans hab.deliveries
  reactions := hbd.reactions.trans hab.reactions
  channels := hab.channels.trans
    (fun _ _ _ h h' => ⟨h'.1.trans h.1, le_trans h.2 h'.2⟩) hbd.channels
  subscribers := hab.subscribers.trans (fun _ _ _ h h' => h.trans h') hbd.subscribers

theorem continues_modifyMember (c v : Uuid) {f : ChatMember → ChatMember}
    (hf : ∀ a b, Keyed.clash (f a) b = Keyed.clash a b) (hlasting : ∀ a, (f a).lasting = a.lasting)
    (db : Db) : Continues db (Api.Chats.modifyMember c v f hf db) :=
  { Continues.refl db with members := Kept.modify hf (fun _ => rfl) hlasting }

theorem continues_flipPinOf (i : Uuid) (db : Db) : Continues db (Api.Chats.flipPinOf i db) := by
  refine { Continues.refl db with messages := ?_ }
  show (db.messages.rows.map _).map Message.lasting = _
  rw [List.map_map]
  refine List.map_congr_left (fun m _ => ?_)
  show Message.lasting (if m.id == i then Api.Chats.flipPin m else m) = m.lasting
  split <;> rfl

end Db

open Db

/-- The step lemma. -/
theorem Api.Effect.continues {pg : Pg} {uid : String} {now : Time} {db db' : Db}
    (he : Effect pg uid now db db') : Continues db db' := by
  cases he with
  | @profile x x' users _ hx hothers hupd =>
      refine { Continues.refl db with users := Kept.update (fun _ => rfl) (fun y hy hp => ?_) hupd }
      have heq : y = x := Table.eq_of_clash hy hx (by simp [Keyed.clash, eq_of_beq hp])
      rw [heq, hothers]
  | newContact _ _ _ _ _ => exact { Continues.refl db with }
  | renameContact _ => exact { Continues.refl db with }
  | dropContact _ => exact { Continues.refl db with }
  | chat _ _ _ hins => exact { Continues.refl db with chats := Kept.insert (fun _ => rfl) hins }
  | member _ hins _ _ =>
      exact { Continues.refl db with members := Kept.insert (fun _ => rfl) hins }
  | leftAt c v t =>
      exact continues_modifyMember c v (f := fun m => { m with leftAt := t }) (fun _ _ => rfl)
        (fun _ => rfl) db
  | mute c _ =>
      exact continues_modifyMember c _
        (f := fun m => { m with mutedUntil := Chats.toggledMute pg now m.mutedUntil })
        (fun _ _ => rfl) (fun _ => rfl) db
  | pin i => exact continues_flipPinOf i db
  | channel _ _ _ hins =>
      exact { Continues.refl db with channels := Kept.insert (fun _ => ⟨rfl, le_refl _⟩) hins }
  | subscriber _ hins _ _ =>
      exact { Continues.refl db with subscribers := Kept.insert (fun _ => rfl) hins }
  | count ch =>
      refine { Continues.refl db with
        channels := Kept.modify (f := Channels.countUp) Channels.clash_countUp
          (fun _ => ⟨rfl, le_refl _⟩) (fun c => ⟨rfl, ?_⟩) }
      show c.subscriberCount ≤ c.subscriberCount + 1
      omega
  | post _ _ _ _ _ => exact { Continues.refl db with }
  | dropPost p ch => exact { Continues.refl db with }

namespace HttpApi

/-- From any moment of a run to any later one. -/
theorem continues_of_run (env : Env) (s : State) (as bs : List Action) :
    Continues (run env s as).shared.db (run env s (as ++ bs)).shared.db := by
  have hreach : (system env).Reach (fun _ _ => True) (run env s as) (run env s (as ++ bs)) := by
    unfold run
    rw [List.foldl_append]
    exact (system env).reach_foldl _ bs
  refine database_related Continues (fun _ => True) Continues.refl (fun _ _ _ => Continues.trans)
    ?_ ?_ (fun _ _ _ _ _ _ _ => trivial) (fun _ _ _ _ _ he => he.continues) (owning_run env s as)
    hreach
  · exact fun db u users hins =>
      { Continues.refl db with users := Kept.insert (fun _ => rfl) hins }
  · exact fun db codes => { Continues.refl db with }

end HttpApi

end MessengerBackend
