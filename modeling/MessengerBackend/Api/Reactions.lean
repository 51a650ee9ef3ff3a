/-
  What becomes of reactions.

  `POST …/react` is meant to toggle: its INSERT has an ON CONFLICT clause with the action
  `DO DELETE`, so that a second request would take the row away again. PostgreSQL knows DO
  NOTHING and DO UPDATE only and does not parse the statement. Every request fails, whatever
  is stored, and `reactions` stays as it is (`standing_of_reach`); so no run with a request
  toggles anything (`toggled_iff`).
-/
import Mathlib.Data.Bool.AllAny
import MessengerBackend.Api.Creation

namespace MessengerBackend.Api

/-! ## The property -/

/-- The row that a request asks for. -/
def reactionOf (r : Request) : Option Reaction :=
  match r.call with
  | .chat (.reactMessage _ msgId (some j)) =>
      match PgDb.uuidBytes msgId, PgDb.uuid r.uid, j.valueString "emoji" "" with
      | some m, some u, .ok emoji => some ⟨m, u, emoji⟩
      | _, _, _ => none
  | _ => none

/-- A reaction of an existing user to an existing message, with an emoji that the column
    takes. -/
structure Reacts (db : Db) (r : Request) (x : Reaction) : Prop where
  asked : reactionOf r = some x
  message : db.messages.rows.any (·.id == x.messageId) = true
  user : db.hasUser x.userId = true
  nonempty : x.emoji ≠ ""
  short : x.emoji.length ≤ 10

/-- Only reactions are requested. -/
def ReactsOnly (db : Db) (_ : Config) : Action → Prop
  | .spawn r => ∃ x, Reacts db r x
  | .run _ _ => True

/-- How many requests ask for `x`. -/
def requests (c : Config) (x : Reaction) : Nat :=
  c.threads.countP (fun p => reactionOf p.1 == some x)

/-- What the requests of `c` should have made of `before`. -/
structure Toggled (before : Db) (c : Config) : Prop where
  answered : ∀ p ∈ c.threads, ∃ body, p.2.exit = some (.response (jsonResp 200 body))
  parity : ∀ x, x ∉ before.reactions → (x ∈ c.shared.reactions ↔ requests c x % 2 = 1)
  others : ∀ x, requests c x = 0 → (x ∈ c.shared.reactions ↔ x ∈ before.reactions)

/-! ## One request -/

/-- Where a reaction stands: before its statement, or at its failure. -/
def Standing (t : Thread) : Prop :=
  (∃ msgId emoji, t.point = .chat (.reactMessage msgId emoji)) ∨
    t.point = .chat (.exited (.response serverError))

theorem start_reacts {db : Db} {r : Request} {x : Reaction} (h : Reacts db r x) :
    ∃ msgId, start r = ⟨r.uid, .chat (.reactMessage msgId x.emoji)⟩ := by
  obtain ⟨hasked, _, _, hne, _⟩ := h
  obtain ⟨uid, call⟩ := r
  unfold reactionOf at hasked
  split at hasked
  · rename_i msgId j hcall
    cases hcall
    split at hasked
    · rename_i m u emoji _ _ hemoji
      cases hasked
      refine ⟨msgId, ?_⟩
      show Thread.mk uid (.chat (Chats.routeReactMessage msgId (some j))) = _
      unfold Chats.routeReactMessage Chats.withField withBody
      dsimp only
      rw [hemoji]
      exact congrArg (Thread.mk uid ∘ Point.chat) (if_neg hne)
    · cases hasked
  · cases hasked

/-- The step lemma: the statement fails, with no effect. -/
theorem standing_step (pg : Pg) {t : Thread} (h : Standing t) (inp : Input) (db : Db) :
    (step pg t inp db).1 = db ∧
      (step pg t inp db).2.1.point = .chat (.exited (.response serverError)) := by
  obtain ⟨uid, point⟩ := t
  rcases h with ⟨msgId, emoji, hp⟩ | hp
  · cases hp
    have hrefused : Chats.insertReaction msgId uid emoji db = .error .syntaxError := rfl
    have hstep : attempt inp.first (Chats.insertReaction msgId uid emoji) db
        (fun _ => Chats.respond 200 okBody) Chats.failed = (db, .exited (.response serverError)) :=
      attempt_refused hrefused (fun _ => rfl)
    exact ⟨congrArg Prod.fst hstep, congrArg (fun x : Db × Chats.Point => Point.chat x.2) hstep⟩
  · cases hp
    exact ⟨rfl, rfl⟩

/-! ## All requests -/

/-- The run lemma: the tables are as before, and no request stands anywhere else. -/
theorem standing_of_reach (pg : Pg) {db : Db} {c : Config}
    (hr : (system pg).Reach (ReactsOnly db) (Interleave.Config.init db) c) :
    c.shared = db ∧ ∀ (i : Nat) (r : Request) (t : Thread), c.threads[i]? = some (r, t) →
      Standing t := by
  refine Interleave.System.Reach.induct
    (fun c => c.shared = db ∧ ∀ (i : Nat) (r : Request) (t : Thread),
      c.threads[i]? = some (r, t) → Standing t) ⟨rfl, ?_⟩ ?_ ?_ hr
  · intro i r t hi
    cases hi
  · rintro c r _ ⟨hdb, hall⟩ ⟨x, hx⟩
    refine ⟨hdb, Interleave.each_spawned hall ?_⟩
    obtain ⟨msgId, hstart⟩ := start_reacts hx
    exact Or.inl ⟨msgId, x.emoji, congrArg Thread.point hstart⟩
  · rintro c i r t inp _ ⟨hdb, hall⟩ _ ht
    obtain ⟨hsame, hpoint⟩ := standing_step pg (hall i r t ht) inp c.shared
    exact ⟨hsame.trans hdb, Interleave.each_moved hall (fun _ _ h => h) (Or.inr hpoint)⟩

/-- A request that has ended was answered 500. -/
theorem no_request_of_toggled (pg : Pg) {db : Db} {c : Config}
    (hr : (system pg).Reach (ReactsOnly db) (Interleave.Config.init db) c)
    (hdone : ∀ p ∈ c.threads, p.2.exit.isSome = true) (h : Toggled db c) : c.threads = [] := by
  rw [List.eq_nil_iff_forall_not_mem]
  rintro ⟨r, t⟩ hp
  obtain ⟨i, hi⟩ := List.getElem?_of_mem hp
  obtain ⟨body, hbody⟩ := h.answered (r, t) hp
  have hended := hdone (r, t) hp
  unfold Thread.exit at hbody hended
  rcases (standing_of_reach pg hr).2 i r t hi with ⟨msgId, emoji, hpoint⟩ | hpoint
  · simp only [hpoint] at hended
    cases hended
  · simp only [hpoint, Option.some.injEq, Exit.response.injEq] at hbody
    have hstatus : (500 : Nat) = 200 := congrArg Response.status hbody
    cases hstatus

/-- A run of reactions whose requests have all ended toggles them if and only if there is no
    request in it. -/
theorem toggled_iff (pg : Pg) (db : Db) (c : Config)
    (hr : (system pg).Reach (ReactsOnly db) (Interleave.Config.init db) c)
    (hdone : ∀ p ∈ c.threads, p.2.exit.isSome = true) : Toggled db c ↔ c.threads = [] := by
  refine ⟨no_request_of_toggled pg hr hdone, fun hnone => ?_⟩
  obtain ⟨hdb, _⟩ := standing_of_reach pg hr
  have hzero : ∀ x, requests c x = 0 := fun x => by rw [requests, hnone]; rfl
  refine ⟨?_, ?_, ?_⟩
  · intro p hp
    rw [hnone] at hp
    cases hp
  · intro x hx
    rw [hdb, hzero]
    exact ⟨fun hmem => absurd hmem hx, fun h => by cases h⟩
  · intro x _
    rw [hdb]

/-! ## One run -/

/-- Alice, and a message to her own group. -/
def aliceMessage : Db :=
  { aliceGroup with messages := ⟨[⟨eve, secretChat, some alice, none, "hi", some "text",
      some false, some false, some false, some 0⟩], List.pairwise_singleton _ _⟩ }

/-- `POST` to the path of the message, by Alice; the chat id in it is not read. -/
def thumbsUp : Request :=
  ⟨Uuid.uuidOut alice, .chat (.reactMessage [] (List.replicate 32 48)
    (some (.obj [("emoji", .str "+1")])))⟩

theorem thumbsUp_reacts : Reacts aliceMessage thumbsUp ⟨eve, alice, "+1"⟩ where
  asked := by decide
  message := by decide
  user := by decide
  nonempty := by decide
  short := by decide

/-- Alice's request, and its statement. -/
def thumbsUpRun : Config :=
  [.spawn thumbsUp, go 0].foldl (system plainPg).next (Interleave.Config.init aliceMessage)

theorem thumbsUp_reach : (system plainPg).Reach (ReactsOnly aliceMessage)
    (Interleave.Config.init aliceMessage) thumbsUpRun :=
  Interleave.System.Reach.foldl _ _ .refl ⟨⟨_, thumbsUp_reacts⟩, trivial, trivial⟩

/-- One reaction to one message. -/
theorem toggled_iff_thumbsUp : ¬ Toggled aliceMessage thumbsUpRun := fun h => List.cons_ne_nil _ _
  ((toggled_iff plainPg aliceMessage thumbsUpRun thumbsUp_reach (by decide)).mp h)

/-- The answer to it is 500, and it is not stored. -/
theorem reaction_refused :
    (system plainPg).Reach (ReactsOnly aliceMessage) (Interleave.Config.init aliceMessage)
      thumbsUpRun ∧
    thumbsUpRun.threads.map (fun p => p.2.exit) = [some (.response serverError)] ∧
    thumbsUpRun.shared.reactions.rows = [] ∧ ¬ Toggled aliceMessage thumbsUpRun := by
  refine ⟨thumbsUp_reach, rfl, by decide, fun htoggled => ?_⟩
  exact List.cons_ne_nil _ _ (no_request_of_toggled plainPg thumbsUp_reach (by decide) htoggled)

end MessengerBackend.Api
