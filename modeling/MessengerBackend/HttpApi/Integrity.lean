/-
  The foreign keys of the schema, in every state of every run of the whole server.

  A handler checks the row it inserts, in the statement that inserts it; whether the row it
  points to is still there when the next request comes depends on all the other statements.
  None of them takes a user, a chat, a message or a channel away or changes its id.

  * `Db.Integrity`: every REFERENCES clause of `run_migrations`.
  * `integrity_reach`: it holds in every state that is reached from one that has it, whatever
    fails and in whatever order the requests run.
-/
import MessengerBackend.Api.Subscribers
import MessengerBackend.HttpApi.Effects
import MessengerBackend.Lib.Reference

namespace MessengerBackend

open Table (References Kept)

namespace Db

structure Integrity (db : Db) : Prop where
  chatCreator : References db.chats Chat.createdBy db.users User.id
  memberChat : References db.chatMembers (fun m => some m.chatId) db.chats Chat.id
  memberUser : References db.chatMembers (fun m => some m.userId) db.users User.id
  messageChat : References db.messages (fun m => some m.chatId) db.chats Chat.id
  messageSender : References db.messages Message.senderId db.users User.id
  messageReply : References db.messages Message.replyToId db.messages Message.id
  deliveryMessage : References db.messageDelivery (fun d => some d.messageId) db.messages Message.id
  deliveryUser : References db.messageDelivery (fun d => some d.recipientId) db.users User.id
  reactionMessage : References db.reactions (fun r => some r.messageId) db.messages Message.id
  reactionUser : References db.reactions (fun r => some r.userId) db.users User.id
  contactOwner : References db.contacts (fun c => some c.userId) db.users User.id
  contactUser : References db.contacts (fun c => some c.contactId) db.users User.id
  channelOwner : References db.channels Channel.ownerId db.users User.id
  subscriberChannel : References db.channelSubscribers (fun s => some s.channelId) db.channels
    Channel.id
  subscriberUser : References db.channelSubscribers (fun s => some s.userId) db.users User.id
  postChannel : References db.channelPosts (fun p => some p.channelId) db.channels Channel.id
  postAuthor : References db.channelPosts ChannelPost.authorId db.users User.id

theorem integrity_empty : Integrity {} where
  chatCreator := References.empty _ _ _
  memberChat := References.empty _ _ _
  memberUser := References.empty _ _ _
  messageChat := References.empty _ _ _
  messageSender := References.empty _ _ _
  messageReply := References.empty _ _ _
  deliveryMessage := References.empty _ _ _
  deliveryUser := References.empty _ _ _
  reactionMessage := References.empty _ _ _
  reactionUser := References.empty _ _ _
  contactOwner := References.empty _ _ _
  contactUser := References.empty _ _ _
  channelOwner := References.empty _ _ _
  subscriberChannel := References.empty _ _ _
  subscriberUser := References.empty _ _ _
  postChannel := References.empty _ _ _
  postAuthor := References.empty _ _ _

/-! ## What a foreign key needs of a statement -/

theorem hasUser_iff {db : Db} {u : Uuid} : db.hasUser u = true ↔ ∃ x ∈ db.users, x.id = u := by
  simp [hasUser, Table.mem_iff]

/-- The ids are still there. -/
abbrev SameIds {α : Type} [Keyed α] (key : α → Uuid) (t t' : Table α) : Prop :=
  Kept (fun a b => key b = key a) t t'

namespace Integrity

variable {db : Db} (h : db.Integrity)

include h

/-- A statement on `users` that keeps the ids. -/
theorem users {users : Table User} (hk : SameIds User.id db.users users) :
    Integrity { db with users := users } where
  chatCreator := h.chatCreator.target hk
  memberChat := h.memberChat
  memberUser := h.memberUser.target hk
  messageChat := h.messageChat
  messageSender := h.messageSender.target hk
  messageReply := h.messageReply
  deliveryMessage := h.deliveryMessage
  deliveryUser := h.deliveryUser.target hk
  reactionMessage := h.reactionMessage
  reactionUser := h.reactionUser.target hk
  contactOwner := h.contactOwner.target hk
  contactUser := h.contactUser.target hk
  channelOwner := h.channelOwner.target hk
  subscriberChannel := h.subscriberChannel
  subscriberUser := h.subscriberUser.target hk
  postChannel := h.postChannel
  postAuthor := h.postAuthor.target hk

/-- A new chat. -/
theorem chats {row : Chat} {chats : Table Chat} (hins : db.chats.insert row = some chats)
    (hcreator : ∀ u, row.createdBy = some u → db.hasUser u = true) :
    Integrity { db with chats := chats } :=
  have hk : SameIds Chat.id db.chats chats := Kept.insert (fun _ => rfl) hins
  { h with
    chatCreator := h.chatCreator.insert hins (fun u hu => hasUser_iff.mp (hcreator u hu))
    memberChat := h.memberChat.target hk
    messageChat := h.messageChat.target hk }

theorem members {members : Table ChatMember}
    (hchat : References members (fun m => some m.chatId) db.chats Chat.id)
    (huser : References members (fun m => some m.userId) db.users User.id) :
    Integrity { db with chatMembers := members } :=
  { h with memberChat := hchat, memberUser := huser }

/-- An UPDATE of the row of a pair. -/
theorem modifyMember (c v : Uuid) {f : ChatMember → ChatMember}
    (hf : ∀ a b, Keyed.clash (f a) b = Keyed.clash a b) (hchat : ∀ a, (f a).chatId = a.chatId)
    (huser : ∀ a, (f a).userId = a.userId) : Integrity (Api.Chats.modifyMember c v f hf db) :=
  h.members (h.memberChat.modify hf (fun a => congrArg some (hchat a)))
    (h.memberUser.modify hf (fun a => congrArg some (huser a)))

theorem contacts {contacts : Table Contact}
    (howner : References contacts (fun c => some c.userId) db.users User.id)
    (huser : References contacts (fun c => some c.contactId) db.users User.id) :
    Integrity { db with contacts := contacts } :=
  { h with contactOwner := howner, contactUser := huser }

/-- A statement on `messages` that changes no key. -/
theorem messages {p : Message → Bool} {f : Message → Message}
    (hf : ∀ a b, Keyed.clash (f a) b = Keyed.clash a b) (hid : ∀ a, (f a).id = a.id)
    (hchat : ∀ a, (f a).chatId = a.chatId) (hsender : ∀ a, (f a).senderId = a.senderId)
    (hreply : ∀ a, (f a).replyToId = a.replyToId) :
    Integrity { db with messages := db.messages.modify p f hf } :=
  have hk : SameIds Message.id db.messages (db.messages.modify p f hf) :=
    Kept.modify hf (fun _ => rfl) hid
  { h with
    messageChat := h.messageChat.modify hf (fun a => congrArg some (hchat a))
    messageSender := h.messageSender.modify hf hsender
    messageReply := (h.messageReply.modify hf hreply).target hk
    deliveryMessage := h.deliveryMessage.target hk
    reactionMessage := h.reactionMessage.target hk }

/-- A statement on `channels` that keeps the ids. -/
theorem channels {channels : Table Channel} (hk : SameIds Channel.id db.channels channels)
    (howner : References channels Channel.ownerId db.users User.id) :
    Integrity { db with channels := channels } :=
  { h with
    channelOwner := howner
    subscriberChannel := h.subscriberChannel.target hk
    postChannel := h.postChannel.target hk }

end Integrity

end Db

namespace Api

open Db

/-- The step lemma. -/
theorem Effect.integrity {pg : Pg} {uid : String} {now : Time} {db db' : Db}
    (he : Effect pg uid now db db') (h : db.Integrity) : db'.Integrity := by
  have user : ∀ {u : Uuid}, db.hasUser u = true → ∀ k, some u = some k → ∃ x ∈ db.users, x.id = k := by
    rintro u hu k ⟨⟩
    exact hasUser_iff.mp hu
  cases he with
  | @profile x x' users _ hx hothers hupd =>
      refine h.users (Kept.update (fun _ => rfl) (fun y _ hp => ?_) hupd)
      have hid : x'.id = x.id := (congrArg User.id hothers :)
      have hy : y.id = x.id := by simpa using hp
      exact hid.trans hy.symm
  | newContact _ _ hins howner huser =>
      exact h.contacts (h.contactOwner.insert hins (user howner)) (h.contactUser.insert hins (user huser))
  | renameContact _ =>
      exact h.contacts (h.contactOwner.modify _ (fun _ => rfl)) (h.contactUser.modify _ (fun _ => rfl))
  | dropContact _ => exact h.contacts (h.contactOwner.erase _) (h.contactUser.erase _)
  | chat _ hcreator huser hins =>
      refine h.chats hins (fun u hu => ?_)
      cases hcreator.symm.trans hu
      exact huser
  | member _ hins hchat huser =>
      refine h.members (h.memberChat.insert hins ?_) (h.memberUser.insert hins (user huser))
      rintro k ⟨⟩
      exact hasChat_iff.mp hchat
  | leftAt c v t => exact h.modifyMember c v _ (fun _ => rfl) (fun _ => rfl)
  | mute c _ => exact h.modifyMember c _ _ (fun _ => rfl) (fun _ => rfl)
  | pin i => exact h.messages _ (fun _ => rfl) (fun _ => rfl) (fun _ => rfl) (fun _ => rfl)
  | channel _ howner huser hins =>
      refine h.channels (Kept.insert (fun _ => rfl) hins) (h.channelOwner.insert hins ?_)
      rw [howner]
      exact user huser
  | subscriber _ hins hch huser =>
      refine { h with
        subscriberChannel := h.subscriberChannel.insert hins ?_
        subscriberUser := h.subscriberUser.insert hins (user huser) }
      rintro k ⟨⟩
      exact hasChannel_iff.mp hch
  | count ch =>
      exact h.channels (Kept.modify _ (fun _ => rfl) (fun _ => rfl))
        (h.channelOwner.modify _ (fun _ => rfl))
  | post _ hauthor hins hch huser =>
      refine { h with
        postChannel := h.postChannel.insert hins ?_
        postAuthor := h.postAuthor.insert hins ?_ }
      · rintro k ⟨⟩
        exact hasChannel_iff.mp hch
      · rw [hauthor]
        exact user huser
  | dropPost p ch =>
      exact { h with postChannel := h.postChannel.erase _, postAuthor := h.postAuthor.erase _ }

end Api

namespace HttpApi

open Db

theorem integrity_reach {env : Env} {P : Config → Action → Prop} {s : State} {c : Config}
    (h : s.db.Integrity) (hr : (system env).Reach P (Interleave.Config.init s) c) :
    c.shared.db.Integrity := by
  refine database_related (fun db db' => db.Integrity → db'.Integrity) (fun _ => True)
    (fun _ h => h) (fun _ _ _ hab hbd h => hbd (hab h)) ?_ ?_ (fun _ _ _ _ _ _ _ => trivial)
    (fun _ _ _ _ _ he h => he.integrity h) (Interleave.each_nil _) hr h
  · exact fun db u users hins h => h.users (Kept.insert (fun _ => rfl) hins)
  · exact fun db codes h => { h with }

end HttpApi

end MessengerBackend
