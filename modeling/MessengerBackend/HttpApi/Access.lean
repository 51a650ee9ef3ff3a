/-
  Who is in a chat, after any run of the whole server: one answer, at every route.

  `present` is the active row of a pair as its own history leaves it (HttpApi/Membership). The
  list of members shows exactly those rows, to any caller; the chat and its messages open to
  exactly those users and to nobody else; and the chat is on the list of chats of exactly those
  users: `access_of_run`.
-/
import MessengerBackend.HttpApi.Contacts
import MessengerBackend.HttpApi.Membership

namespace MessengerBackend.HttpApi

open Api

/-- The row of `v` in `c`, if `v` is in it. -/
def present (env : Env) (s : State) (as : List Action) (c v : Uuid) : Option ChatMember :=
  (settle env.pg (s.db.memberRow c v) (membershipLog env s as c v)).filter (fun m => m.leftAt.isNone)

theorem activeRow_run (env : Env) (s : State) (as : List Action) (c v : Uuid) :
    activeRow (run env s as).shared.db c v = present env s as c v :=
  congrArg (Option.filter _) (congrFun (roster_run env s as) (c, v))

section Gate

variable {pg : Pg} {db : Db} {c u : Uuid} {chatId : Bytes} {uid : String} {q : Api.Env}

/-- A route behind the membership check. -/
theorem status_gated (hq : q.first = .done) (hc : PgDb.uuidBytes chatId = some c)
    (hu : PgDb.uuid uid = some u) (k : Response) :
    (answer (PgDb.query q.first (selectMembership chatId uid) db) fun mem =>
      if mem.isEmpty then errorResp 403 "Not a member" else k).status =
        if db.activeMember c u then k.status else 403 := by
  cases hm : db.activeMember c u with
  | false =>
      simp only [PgDb.query, hq, selectMembership_eq_nil hc hu hm, answer]
      rfl
  | true =>
      obtain ⟨mem, hmem, hne⟩ := selectMembership_of_member hc hu hm
      simp only [PgDb.query, hq, hmem, answer, hne, Bool.false_eq_true, if_false, if_true]

theorem status_chatInfo (hs : db.Integrity) (hq : q.first = .done) (hq' : q.second = .done)
    (hc : PgDb.uuidBytes chatId = some c) (hu : PgDb.uuid uid = some u) :
    (respond pg q uid (.chatInfo chatId) db).status = if db.activeMember c u then 200 else 403 := by
  refine (status_gated hq hc hu _).trans ?_
  split
  · rename_i hm
    obtain ⟨x, hx, hid⟩ := exists_chat hs hm
    have hfound : x ∈ db.chats.select (fun y => y.id == c) := Table.mem_select.mpr ⟨hx, by simpa⟩
    simp only [PgDb.query, hq', selectChat, hc, PgDb.need, bind, Except.bind, pure, Except.pure,
      answer]
    cases hsel : db.chats.select (fun y => y.id == c) with
    | nil => rw [hsel] at hfound; cases hfound
    | cons y rest => rfl
  · rfl

theorem status_messages (hq : q.first = .done) (hq' : q.second = .done)
    (hc : PgDb.uuidBytes chatId = some c) (hu : PgDb.uuid uid = some u) {before : Option Bytes}
    {b : Option Time} (hb : beforeBound pg q.now (Sql.urlParam before) = .ok b) :
    (respond pg q uid (.messages chatId before) db).status =
      if db.activeMember c u then 200 else 403 := by
  refine (status_gated hq hc hu _).trans ?_
  simp only [PgDb.query, hq', selectMessages, hc, hb, PgDb.need, bind, Except.bind, pure,
    Except.pure, answer]
  rfl

end Gate

/-- Each route by the history of its pair. -/
theorem access_of_run (env : Env) (s : State) (as : List Action) (q : Api.Env) (chatId : Bytes)
    (c : Uuid) (hs : s.db.Integrity) (hq : q.first = .done) (hq' : q.second = .done)
    (hc : PgDb.uuidBytes chatId = some c) :
    (∀ uid, ∃ rows, respond env.pg q uid (.members chatId) (run env s as).shared.db =
        jsonResp 200 (.arr rows) ∧ Lists rows (memberCols env.pg) (present env s as c)) ∧
      ∀ uid u, PgDb.uuid uid = some u →
        (respond env.pg q uid (.chatInfo chatId) (run env s as).shared.db).status =
            (if (present env s as c u).isSome then 200 else 403) ∧
          (∀ before b, beforeBound env.pg q.now (Sql.urlParam before) = .ok b →
            (respond env.pg q uid (.messages chatId before) (run env s as).shared.db).status =
              if (present env s as c u).isSome then 200 else 403) ∧
          (FewChats (run env s as).shared.db u →
            ∃ rows m, respond env.pg q uid .chats (run env s as).shared.db =
                jsonResp 200 (.arr rows) ∧ Lists rows chatCols m ∧
                ∀ c, (m c).isSome = (present env s as c u).isSome) := by
  have hrun := integrity_reach hs (reach_run env s as)
  have hrow : activeRow (run env s as).shared.db = present env s as :=
    funext (fun c => funext (activeRow_run env s as c))
  rw [← hrow]
  generalize (run env s as).shared.db = db at hrun ⊢
  refine ⟨lists_members hrun hq hc, fun uid u hu => ?_⟩
  rw [isSome_activeRow]
  refine ⟨status_chatInfo hrun hq hq' hc hu,
    fun before b hb => status_messages hq hq' hc hu hb, fun hfew => ?_⟩
  obtain ⟨rows, hrows, hlists⟩ : ∃ rows, Api.respond env.pg q uid .chats db =
      jsonResp 200 (.arr rows) ∧ Lists rows chatCols (chatOf db u) := lists_chats hq hu hfew
  exact ⟨rows, _, hrows, hlists, fun c =>
    (isSome_chatOf hrun c u).trans (isSome_activeRow db c u).symm⟩

/-- Alice in a chat without Bob. -/
def club : Db :=
  { friends with
    chats := ⟨[{ id := secretChat, chatType := .group }], List.pairwise_singleton _ _⟩
    chatMembers := ⟨[{ chatId := secretChat, userId := alice }], List.pairwise_singleton _ _⟩ }

theorem integrity_club : club.Integrity := by
  have hins : friends.chats.insert { id := secretChat, chatType := .group } =
      some ⟨[{ id := secretChat, chatType := .group }], List.pairwise_singleton _ _⟩ := rfl
  have hchat : Db.Integrity { friends with
      chats := ⟨[{ id := secretChat, chatType := .group }], List.pairwise_singleton _ _⟩ } :=
    integrity_friends.chats hins (fun _ h => nomatch h)
  refine hchat.members ?_ ?_
  · rintro m hm k ⟨⟩
    obtain rfl := List.mem_singleton.mp hm
    exact ⟨_, List.mem_cons_self, rfl⟩
  · rintro m hm k ⟨⟩
    obtain rfl := List.mem_singleton.mp hm
    exact ⟨_, List.mem_cons_self, rfl⟩

/-- The nil id registers, adds Bob to it and removes Alice, side by side. -/
def clubRun : List Action :=
  registerRun ++
    [byNil (.chat (.addMember (utf8 (Uuid.uuidOut secretChat))
      (some (.obj [("userId", .str (Uuid.uuidOut bob))])))),
    byNil (.chat (.removeMember (utf8 (Uuid.uuidOut secretChat)) (utf8 (Uuid.uuidOut alice))))] ++
    (List.range 6).flatMap (fun _ => [go 1, go 2])

/-- The chat opens to Bob and no longer to Alice. -/
theorem access_of_run_club :
    (respond plainServer.pg ⟨0, true, .done, .done⟩ (Uuid.uuidOut bob)
        (.chatInfo (utf8 (Uuid.uuidOut secretChat)))
        (run plainServer (serverOf club) clubRun).shared.db).status = 200 ∧
      (respond plainServer.pg ⟨0, true, .done, .done⟩ (Uuid.uuidOut alice)
        (.chatInfo (utf8 (Uuid.uuidOut secretChat)))
        (run plainServer (serverOf club) clubRun).shared.db).status = 403 := by
  have h := (access_of_run plainServer (serverOf club) clubRun ⟨0, true, .done, .done⟩
    (utf8 (Uuid.uuidOut secretChat)) secretChat integrity_club rfl rfl
    (PgDb.uuidBytes_uuidOut secretChat)).2
  have hbob := (h (Uuid.uuidOut bob) bob (PgDb.uuid_uuidOut bob)).1
  have halice := (h (Uuid.uuidOut alice) alice (PgDb.uuid_uuidOut alice)).1
  have hpresent : (present plainServer (serverOf club) clubRun secretChat bob).isSome = true ∧
      (present plainServer (serverOf club) clubRun secretChat alice).isSome = false := by
    decide +kernel
  obtain ⟨hin, hout⟩ := hpresent
  rw [hin, if_pos rfl] at hbob
  rw [hout, if_neg Bool.false_ne_true] at halice
  exact ⟨hbob, halice⟩

end MessengerBackend.HttpApi
