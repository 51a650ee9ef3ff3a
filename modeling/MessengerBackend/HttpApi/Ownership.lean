/-
  What is a user's own: nobody else's request changes it, in any run of the whole server.

  `Db.Untouched u db db'` compares what `u` alone is to decide: the profile, the contacts, the
  mutes, the subscriptions and the chats in the name of `u` are the same, its channels are the
  same up to their counts, and a post in its name is an old one. Others do write next to it, and
  into the same tables: they put `u` into chats and out of them, count the subscribers of its
  channels and delete its posts.

  `untouched_of_unverified`: this holds of the two ends of a run in which no token was verified
  as `u`, in whatever spelling of the id.
-/
import MessengerBackend.HttpApi.Mediation
import MessengerBackend.HttpApi.Permanence

namespace MessengerBackend

namespace Db

structure Untouched (u : Uuid) (db db' : Db) : Prop where
  profile : ∀ x ∈ db.users, x.id = u → x ∈ db'.users
  contacts : db'.contacts.select (fun c => c.userId == u) =
    db.contacts.select (fun c => c.userId == u)
  mutes : ∀ c, (db'.memberRow c u).bind ChatMember.mutedUntil =
    (db.memberRow c u).bind ChatMember.mutedUntil
  subscriptions : db'.channelSubscribers.select (fun s => s.userId == u) =
    db.channelSubscribers.select (fun s => s.userId == u)
  chats : db'.chats.select (fun c => c.createdBy == some u) =
    db.chats.select (fun c => c.createdBy == some u)
  channels : (db'.channels.select (fun c => c.ownerId == some u)).map Channel.lasting =
    (db.channels.select (fun c => c.ownerId == some u)).map Channel.lasting
  posts : ∀ p ∈ db'.channelPosts, p.authorId = some u → p ∈ db.channelPosts

theorem Untouched.refl (u : Uuid) (db : Db) : Untouched u db db where
  profile _ hx _ := hx
  contacts := rfl
  mutes _ := rfl
  subscriptions := rfl
  chats := rfl
  channels := rfl
  posts _ hp _ := hp

theorem Untouched.trans {u : Uuid} {a b d : Db} (hab : Untouched u a b) (hbd : Untouched u b d) :
    Untouched u a d where
  profile x hx hu := hbd.profile x (hab.profile x hx hu) hu
  contacts := hbd.contacts.trans hab.contacts
  mutes c := (hbd.mutes c).trans (hab.mutes c)
  subscriptions := hbd.subscriptions.trans hab.subscriptions
  chats := hbd.chats.trans hab.chats
  channels := hbd.channels.trans hab.channels
  posts p hp hu := hab.posts p (hbd.posts p hp hu) hu

/-- An UPDATE of a pair that keeps the mute, or of another user's pair. -/
theorem untouched_modifyMember {u : Uuid} (c v : Uuid) {f : ChatMember → ChatMember}
    (hf : ∀ a b, Keyed.clash (f a) b = Keyed.clash a b)
    (h : v ≠ u ∨ ∀ m, (f m).mutedUntil = m.mutedUntil) (db : Db) :
    Untouched u db (Api.Chats.modifyMember c v f hf db) := by
  refine { Untouched.refl u db with mutes := fun c' => ?_ }
  rw [Api.Chats.memberRow_modifyMember]
  split
  · rename_i hpair
    rcases h with hv | hmute
    · exact absurd hpair.2.symm hv
    · cases db.memberRow c' u with
      | none => rfl
      | some m => exact hmute m
  · rfl

/-- A new row of a pair: there was no mute, and there is none. -/
theorem untouched_insertMember (u : Uuid) {db : Db} {row : ChatMember}
    {members : Table ChatMember} (hmute : row.mutedUntil = none)
    (hins : db.chatMembers.insert row = some members) :
    Untouched u db { db with chatMembers := members } := by
  refine { Untouched.refl u db with mutes := fun c => ?_ }
  rw [Api.Chats.memberRow_insert hins]
  split
  · rename_i hpair
    have hnone : db.memberRow c u = none := by
      refine List.find?_eq_none.mpr (fun m hm hmp => ?_)
      have hfresh := Table.insert_fresh hins m hm
      simp only [Api.Chats.isPair, Bool.and_eq_true, beq_iff_eq] at hpair hmp
      simp [Keyed.clash, hpair, hmp] at hfresh
    rw [hnone]
    exact hmute
  · rfl

end Db

open Db

/-- The step lemma: an effect of somebody else. -/
theorem Api.Effect.untouched {pg : Pg} {uid : String} {now : Time} {db db' : Db} {u : Uuid}
    (he : Effect pg uid now db db') (hu : PgDb.uuid uid ≠ some u) : Untouched u db db' := by
  have other : ∀ {v : Uuid}, PgDb.uuid uid = some v → v ≠ u := by
    rintro v hv rfl
    exact hu hv
  cases he with
  | @profile x x' users hid hx hothers hupd =>
      refine { Untouched.refl u db with profile := fun y hy hyu => ?_ }
      refine (Table.mem_update hupd).mpr ⟨y, hy, if_neg ?_⟩
      rw [beq_iff_eq, hyu]
      exact (other hid).symm
  | newContact hid _ hins _ _ =>
      refine { Untouched.refl u db with contacts := Table.select_insert_of_not hins ?_ }
      simpa using other hid
  | @renameContact row hid =>
      refine { Untouched.refl u db with
        contacts := Table.select_modify_of_disjoint (f := Accounts.rename row.nickname)
          (fun _ _ => rfl) (fun _ => rfl) (fun c hc => ?_) }
      have hrow : row.userId = c.userId := by
        simp only [Keyed.clash, Bool.and_eq_true, beq_iff_eq] at hc
        exact hc.1
      rw [← hrow]
      simpa using other hid
  | dropContact hid =>
      refine { Untouched.refl u db with
        contacts := Table.select_erase_of_disjoint (fun c _ hc => ?_) }
      have hown : c.userId = u := by simpa using hc
      rw [hown]
      simp [Ne.symm (other hid)]
  | chat hid hcreator _ hins =>
      refine { Untouched.refl u db with chats := Table.select_insert_of_not hins ?_ }
      rw [hcreator]
      simpa using other hid
  | member hmute hins _ _ => exact untouched_insertMember u hmute hins
  | leftAt c v t =>
      exact untouched_modifyMember c v (f := fun m => { m with leftAt := t }) (fun _ _ => rfl)
        (Or.inr (fun _ => rfl)) db
  | mute c hid =>
      exact untouched_modifyMember c _
        (f := fun m => { m with mutedUntil := Chats.toggledMute pg now m.mutedUntil })
        (fun _ _ => rfl) (Or.inl (other hid)) db
  | pin i => exact { Untouched.refl u db with }
  | channel hid howner _ hins =>
      refine { Untouched.refl u db with
        channels := congrArg (List.map Channel.lasting) (Table.select_insert_of_not hins ?_) }
      rw [howner]
      simpa using other hid
  | subscriber hid hins _ _ =>
      refine { Untouched.refl u db with subscriptions := Table.select_insert_of_not hins ?_ }
      simpa using other hid
  | count ch =>
      refine { Untouched.refl u db with channels := ?_ }
      unfold Table.select Table.modify
      rw [List.filter_map, List.map_map]
      have howner : ∀ c : Channel,
          (if c.id == ch then Channels.countUp c else c).ownerId = c.ownerId := by
        intro c
        split <;> rfl
      have hfilter : db.channels.rows.filter ((fun c => c.ownerId == some u) ∘
          fun c => if c.id == ch then Channels.countUp c else c) =
          db.channels.rows.filter (fun c => c.ownerId == some u) :=
        List.filter_congr (fun c _ => by rw [Function.comp_apply, howner])
      rw [hfilter]
      refine List.map_congr_left (fun c _ => ?_)
      show (if c.id == ch then Channels.countUp c else c).lasting = c.lasting
      split <;> rfl
  | post hid hauthor hins _ _ =>
      refine { Untouched.refl u db with posts := fun p hp hpu => ?_ }
      rcases (Table.mem_insert hins).mp hp with hold | rfl
      · exact hold
      · exact absurd (Option.some.inj (hauthor.symm.trans hpu)) (other hid)
  | dropPost p ch =>
      exact { Untouched.refl u db with posts := fun q hq _ => (Table.mem_erase.mp hq).1 }

namespace HttpApi

/-- A token was verified as `u`, in some spelling of the id. -/
def Obs.isFor (u : Uuid) : Obs → Bool
  | .verified uid _ => PgDb.uuid uid == some u
  | _ => false

def NeverVerified (u : Uuid) (tr : List (Nat × Obs)) : Prop := ∀ o ∈ tr, o.2.isFor u = false

instance (u : Uuid) (tr : List (Nat × Obs)) : Decidable (NeverVerified u tr) :=
  inferInstanceAs (Decidable (∀ o ∈ tr, o.2.isFor u = false))

theorem untouched_of_unverified (env : Env) (s : State) (as : List Action) (u : Uuid)
    (h : NeverVerified u (run env s as).trace) : Untouched u s.db (run env s as).shared.db := by
  induction as using List.reverseRecOn with
  | nil => exact Untouched.refl u s.db
  | append_singleton as a ih =>
      have hnext : run env s (as ++ [a]) = (system env).next (run env s as) a := by
        unfold run
        rw [List.foldl_concat]
      have hs := sound_run env s as
      rw [hnext] at h ⊢
      generalize run env s as = c at h ih hs ⊢
      cases a with
      | spawn r => exact ih h
      | run i inp =>
          cases hi : c.threads[i]? with
          | none =>
              rw [(system env).next_run_none hi] at h ⊢
              exact ih h
          | some x =>
              obtain ⟨r, l⟩ := x
              rw [(system env).next_run hi] at h ⊢
              have hbefore : NeverVerified u c.trace :=
                fun o ho => h o (List.mem_append_left _ ho)
              refine (ih hbefore).trans ?_
              rcases (hs.fits i r l hi).caller with hsame | ⟨hown, hv⟩
              · exact hsame inp c.shared ▸ Untouched.refl u c.shared.db
              · refine database_step (Untouched u) (Untouched.refl u) (fun _ _ _ => Untouched.trans)
                  ?_ (fun db codes => { Untouched.refl u db with }) hown inp c.shared ?_
                · exact fun db x users hins => { Untouched.refl u db with
                    profile := fun y hy _ => (Table.mem_insert hins).mpr (Or.inl hy) }
                · intro t ht db db' he
                  obtain ⟨authHeader, _, now, hmem, _⟩ := hv t ht
                  exact he.untouched (by simpa [Obs.isFor] using hbefore _ hmem)

def aliceAlone : Db where
  users := ⟨[{ id := Api.alice, username := "alice", email := "alice@home.cd" }],
    List.pairwise_singleton _ _⟩

/-- Somebody else registers. -/
theorem untouched_of_unverified_alice :
    Untouched Api.alice (serverOf aliceAlone).db
        (run plainServer (serverOf aliceAlone) registerRun).shared.db ∧
      (run plainServer (serverOf aliceAlone) registerRun).shared.db.users.rows.length = 2 :=
  ⟨untouched_of_unverified plainServer (serverOf aliceAlone) registerRun Api.alice
    (by decide +kernel), by decide +kernel⟩

end HttpApi

end MessengerBackend
