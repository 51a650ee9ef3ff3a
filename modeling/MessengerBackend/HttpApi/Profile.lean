/-
  The profile columns over whole runs.

  `profile db (u, c)` is what user `u` has in column `c`. A registration writes all columns of
  the new user, an executed `PATCH /api/auth/me` those that its body gives (`Update.texts`, cut
  at the VARCHAR), and no other statement of the server writes one. So the columns are
  independent: two updates of one user that run side by side lose nothing of each other unless
  both give the column, and then the one executed last stays (`profileAfter`).

  * `profile_of_run`: `GET /api/auth/me` and `GET /api/auth/users/<id>` show these values.

  An account that is marked as deleted has no profile here; no route marks one.
-/
import MessengerBackend.Api.Profile
import MessengerBackend.HttpApi.Answers
import MessengerBackend.HttpApi.Bearer
import MessengerBackend.HttpApi.Effects

namespace MessengerBackend

open PgDb (Stmt cstr need need_ok)
open Interleave (write lastWrite)
open Except (bind_ok)
open Api.Accounts (Column Update updateUser fields asked TextFields)

/-! ## The map -/

/-- WHERE id = … AND is_deleted = false. -/
def accountOf (u : Uuid) (x : User) : Bool := x.id == u && x.isDeleted == some false

def Db.account (db : Db) (u : Uuid) : Option User := (db.users.select (accountOf u)).head?

/-- The text in a column, which may be NULL, if there is an account. -/
def Db.profile (db : Db) (k : Uuid × Column) : Option (Option String) :=
  (db.account k.1).map k.2.get

/-- A user and a column, with what it holds from then on. -/
abbrev ProfileWrite := (Uuid × Column) × Option (Option String)

section Account

variable {db : Db} {u : Uuid}

theorem select_account (db : Db) (u : Uuid) :
    db.users.select (accountOf u) = (db.account u).toList := by
  have hone : (db.users.select (accountOf u)).length ≤ 1 := by
    refine Table.length_select_le_one (fun x y hx hy => ?_)
    simp only [accountOf, Bool.and_eq_true, beq_iff_eq] at hx hy
    simp [Keyed.clash, hx.1, hy.1]
  unfold Db.account
  generalize db.users.select (accountOf u) = xs at hone ⊢
  cases xs with
  | nil => rfl
  | cons x rest =>
      rw [List.length_cons] at hone
      rw [List.eq_nil_of_length_eq_zero (l := rest) (by omega)]
      rfl

theorem account_eq_some {x : User} :
    db.account u = some x ↔ x ∈ db.users ∧ x.id = u ∧ x.isDeleted = some false := by
  have hmem : x ∈ (db.account u).toList ↔ db.account u = some x := by
    rw [Option.mem_toList]
  rw [← hmem, ← select_account, Table.mem_select, accountOf, Bool.and_eq_true, beq_iff_eq,
    beq_iff_eq]

/-- A new account. -/
theorem account_insert {x : User} {users : Table User} (hx : x.isDeleted = some false)
    (hins : db.users.insert x = some users) (k : Uuid) :
    Db.account { db with users := users } k = if k = x.id then some x else db.account k := by
  ext y
  rw [account_eq_some, Table.mem_insert hins]
  split
  · rename_i hk
    subst hk
    rw [Option.some.injEq]
    constructor
    · rintro ⟨hold | rfl, hid, _⟩
      · have hfresh := Table.insert_fresh hins y hold
        simp [Keyed.clash, hid] at hfresh
      · rfl
    · rintro rfl
      exact ⟨Or.inr rfl, rfl, hx⟩
  · rename_i hk
    rw [account_eq_some]
    constructor
    · rintro ⟨hold | rfl, hid, hdel⟩
      · exact ⟨hold, hid, hdel⟩
      · exact absurd hid.symm hk
    · exact fun h => ⟨Or.inl h.1, h.2⟩

/-- An UPDATE of the row of `u`, deleted or not. -/
theorem account_update {x x' : User} {users : Table User} (hx : x ∈ db.users) (hid : x.id = u)
    (hid' : x'.id = x.id) (hdel : x'.isDeleted = x.isDeleted)
    (hupd : db.users.update (fun y => y.id == u) (fun _ => x') = some users) (k : Uuid) :
    Db.account { db with users := users } k =
      if k = u then (db.account u).map (fun _ => x') else db.account k := by
  have hmem : ∀ y, y ∈ users ↔ y = x' ∨ y ∈ db.users ∧ y.id ≠ u := by
    intro y
    rw [Table.mem_update hupd]
    constructor
    · rintro ⟨a, ha, rfl⟩
      by_cases hau : a.id = u
      · exact Or.inl (if_pos (by simpa using hau))
      · rw [if_neg (by simpa using hau)]
        exact Or.inr ⟨ha, hau⟩
    · rintro (rfl | ⟨hy, hyu⟩)
      · exact ⟨x, hx, if_pos (by simpa using hid)⟩
      · exact ⟨y, hy, if_neg (by simpa using hyu)⟩
  ext y
  rw [account_eq_some, hmem]
  split
  · rename_i hk
    subst hk
    rw [Option.map_eq_some_iff]
    constructor
    · rintro ⟨rfl | ⟨_, hne⟩, hyid, hydel⟩
      · exact ⟨x, account_eq_some.mpr ⟨hx, hid, hdel ▸ hydel⟩, rfl⟩
      · exact absurd hyid hne
    · rintro ⟨a, ha, rfl⟩
      obtain ⟨hau, haid, hadel⟩ := account_eq_some.mp ha
      obtain rfl : a = x := HttpApi.user_unique hau hx (haid.trans hid.symm)
      exact ⟨Or.inl rfl, hid'.trans hid, hdel.trans hadel⟩
  · rename_i hk
    rw [account_eq_some]
    constructor
    · rintro ⟨rfl | ⟨hy, _⟩, hyid, hydel⟩
      · exact absurd (hyid.symm.trans (hid'.trans hid)) hk
      · exact ⟨hy, hyid, hydel⟩
    · rintro ⟨hy, hyid, hydel⟩
      exact ⟨Or.inr ⟨hy, fun h => hk (hyid.symm.trans h)⟩, hyid, hydel⟩

end Account

/-- Writing columns of one user. -/
theorem foldl_columns {u : Uuid} (v : Column → Option (Option String)) (cs : List Column) :
    ∀ (m : Uuid × Column → Option (Option String)) (k : Uuid × Column),
      (cs.map (fun c => ((u, c), v c))).foldl write m k =
        if k.1 = u ∧ k.2 ∈ cs then v k.2 else m k := by
  induction cs with
  | nil => exact fun m k => (if_neg (fun h => absurd h.2 List.not_mem_nil)).symm
  | cons c cs ih =>
      rintro m ⟨k, c'⟩
      rw [List.map_cons, List.foldl_cons, ih]
      by_cases hlater : k = u ∧ c' ∈ cs
      · rw [if_pos hlater, if_pos ⟨hlater.1, List.mem_cons_of_mem c hlater.2⟩]
      · rw [if_neg hlater]
        by_cases hc : k = u ∧ c' = c
        · obtain ⟨rfl, rfl⟩ := hc
          rw [if_pos ⟨rfl, List.mem_cons_self⟩, Interleave.write_self]
        · have hne : (k, c') ≠ (u, c) := fun h => hc (Prod.mk.inj h)
          rw [Interleave.write_of_ne hne, if_neg]
          rintro ⟨hk, hmem⟩
          rcases List.mem_cons.mp hmem with rfl | hmem
          · exact hc ⟨hk, rfl⟩
          · exact hlater ⟨hk, hmem⟩

namespace Api.Accounts

/-! ## The UPDATE -/

/-- What VARCHAR(n) leaves of an accepted text. -/
def Column.cut (c : Column) (s : String) : String :=
  match c.limit with
  | none => s
  | some n => String.ofList (s.toList.take n)

/-- The id of the WHERE clause. -/
def Update.target (u : Update) : Option Uuid := (u.param u.idx).toOption.bind Uuid.uuidIn

/-- The columns of the SET clause, each with the text it gets. -/
def Update.texts (u : Update) : List (Column × String) :=
  u.parts.filterMap (fun part =>
    (u.param part.2).toOption.map (fun s => (part.1, part.1.cut s)))

def putAll (as : List (Column × String)) (x : User) : User :=
  as.foldl (fun x p => p.1.put p.2 x) x

/-- A statement that fails writes nothing, nor does one that meets no account. -/
def updates (u : Update) (db : Db) : List ProfileWrite :=
  match u.target with
  | some id =>
      if (db.account id).isSome && (updateUser u db).isOk then
        u.texts.map (fun p => ((id, p.1), some (some p.2)))
      else []
  | none => []

theorem varchar_cut {n : Nat} {s t : String} (h : PgDb.varchar n s = .ok t) :
    t = String.ofList (s.toList.take n) := by
  unfold PgDb.varchar at h
  split at h
  · rename_i hshort
    cases h
    rw [List.take_of_length_le (String.length_toList ▸ hshort), String.ofList_toList]
  · split at h
    · cases h
      rfl
    · cases h

theorem set_cut {c : Column} {s : String} {x x' : User} (h : c.set s x = .ok x') :
    x' = c.put (c.cut s) x := by
  cases c with
  | displayName =>
      obtain ⟨t, ht, rfl⟩ := Except.map_eq_ok.mp h
      exact congrArg (Column.displayName.put · x) (varchar_cut ht)
  | bio =>
      cases h
      rfl
  | avatarUrl =>
      cases h
      rfl
  | statusText =>
      obtain ⟨t, ht, rfl⟩ := Except.map_eq_ok.mp h
      exact congrArg (Column.statusText.put · x) (varchar_cut ht)
  | phoneNumber =>
      obtain ⟨t, ht, rfl⟩ := Except.map_eq_ok.mp h
      exact congrArg (Column.phoneNumber.put · x) (varchar_cut ht)

theorem apply_texts {u : Update} {x x' : User} (h : u.apply x = .ok x') :
    x' = putAll u.texts x := by
  have key : ∀ (parts : List (Column × Nat)) (x : User), parts.foldlM (fun x part => do
      let s ← u.param part.2
      part.1.set s x) x = .ok x' → x' = putAll (parts.filterMap (fun part =>
        (u.param part.2).toOption.map (fun s => (part.1, part.1.cut s)))) x := by
    intro parts
    induction parts with
    | nil =>
        intro x h
        cases h
        rfl
    | cons part parts ih =>
        intro x h
        rw [List.foldlM_cons] at h
        obtain ⟨x₁, hset, h⟩ := bind_ok.mp h
        obtain ⟨s, hs, hset⟩ := bind_ok.mp hset
        obtain rfl := set_cut hset
        rw [ih _ h, List.filterMap_cons, hs]
        rfl
  exact key u.parts x h

theorem others_putAll (as : List (Column × String)) : ∀ x, others (putAll as x) = others x := by
  induction as with
  | nil => exact fun x => rfl
  | cons p as ih => exact fun x => (ih _).trans (others_put p.1 p.2 x)

/-- The writes of the SET clause are what it does to the row. -/
theorem foldl_texts {id : Uuid} (as : List (Column × String)) :
    ∀ (m : Uuid × Column → Option (Option String)) (x : User),
      (∀ c, m (id, c) = some (c.get x)) → ∀ k,
      (as.map (fun p => ((id, p.1), some (some p.2)))).foldl write m k =
        if k.1 = id then some (k.2.get (putAll as x)) else m k := by
  induction as with
  | nil =>
      rintro m x hm ⟨k, c⟩
      by_cases hk : k = id
      · subst hk
        rw [if_pos rfl]
        exact hm c
      · rw [if_neg hk]
        rfl
  | cons p as ih =>
      rintro m x hm ⟨k, c⟩
      rw [List.map_cons, List.foldl_cons, ih _ (p.1.put p.2 x)]
      · by_cases hk : k = id
        · rw [if_pos hk, if_pos hk]
          rfl
        · have hne : (k, c) ≠ (id, p.1) := fun h => hk (Prod.mk.inj h).1
          rw [if_neg hk, if_neg hk, Interleave.write_of_ne hne]
      · intro c'
        rw [get_put]
        by_cases hc : c' = p.1
        · rw [if_pos hc, hc, Interleave.write_self]
        · have hne : (id, c') ≠ (id, p.1) := fun h => hc (Prod.mk.inj h).2
          rw [if_neg hc, Interleave.write_of_ne hne, hm]

theorem target_of_ok {u : Update} {id : Uuid}
    (h : (u.param u.idx).bind (fun s => need .invalidUuid (Uuid.uuidIn s)) = .ok id) :
    u.target = some id := by
  unfold Update.target
  cases hparam : u.param u.idx with
  | error e =>
      rw [hparam] at h
      cases h
  | ok s =>
      rw [hparam] at h
      exact need_ok.mp h

/-- The row is written, and the account with it unless it is deleted. -/
theorem profile_update {u : Update} {db : Db} {id : Uuid} {x x' : User} {users : Table User}
    (hx : x ∈ db.users) (hid : x.id = id) (happly : u.apply x = .ok x')
    (hupd : db.users.update (fun y => y.id == id) (fun _ => x') = some users) :
    Db.profile { db with users := users } =
      (if (db.account id).isSome then u.texts.map (fun p => ((id, p.1), some (some p.2)))
        else []).foldl write db.profile := by
  have hrow := apply_texts happly
  have hrest : others x' = others x := by rw [hrow, others_putAll]
  have hid' : x'.id = x.id := (congrArg User.id hrest :)
  have hdel : x'.isDeleted = x.isDeleted := (congrArg User.isDeleted hrest :)
  funext k
  rw [Db.profile, account_update hx hid hid' hdel hupd]
  cases hacc : db.account id with
  | none =>
      show Option.map k.2.get (if k.1 = id then none else db.account k.1) = db.profile k
      rw [Db.profile]
      split
      · rename_i hk
        rw [hk, hacc]
      · rfl
  | some y =>
      obtain ⟨hy, hyid, _⟩ := account_eq_some.mp hacc
      obtain rfl : y = x := HttpApi.user_unique hy hx (hyid.trans hid.symm)
      show _ = (u.texts.map (fun p => ((id, p.1), some (some p.2)))).foldl write db.profile k
      rw [foldl_texts u.texts db.profile y (fun c => by rw [Db.profile, hacc]; rfl), ← hrow]
      split <;> rfl

theorem profile_updateUser {u : Update} {db db' : Db} {a : Unit}
    (h : updateUser u db = .ok (db', a)) :
    db'.profile = (updates u db).foldl write db.profile := by
  have hok : (updateUser u db).isOk = true := by
    rw [h]
    rfl
  unfold updateUser at h
  obtain ⟨id, hid, h⟩ := bind_ok.mp h
  simp only [updates, target_of_ok hid, hok, Bool.and_true]
  split at h
  · rename_i hnone
    cases h
    have hgone : ¬ (db.account id).isSome = true := by
      rw [Option.isSome_iff_exists]
      rintro ⟨x, hx⟩
      obtain ⟨hmem, hxid, _⟩ := account_eq_some.mp hx
      exact absurd (by simpa using hxid) (List.find?_eq_none.mp hnone x hmem)
    rw [if_neg hgone]
    rfl
  · rename_i x hfind
    have hxid : x.id = id := by simpa using List.find?_some hfind
    obtain ⟨x', happly, h⟩ := bind_ok.mp h
    split at h
    · cases h
    · rename_i users hupd
      cases h
      exact profile_update (List.mem_of_find?_eq_some hfind) hxid happly hupd

theorem updates_of_error {u : Update} {db : Db} {e : SqlError} (h : updateUser u db = .error e) :
    updates u db = [] := by
  have hfailed : (updateUser u db).isOk = false := by
    rw [h]
    rfl
  unfold updates
  split
  · rw [hfailed, Bool.and_false]
    rfl
  · rfl

def profileWrites : Point → Input → Db → List ProfileWrite
  | .updateMe u, inp, db => if inp.first.executes then updates u db else []
  | _, _, _ => []

theorem profile_step (uid : String) (p : Point) (inp : Input) (db : Db) :
    (step uid p inp db).1.profile = (profileWrites p inp db).foldl write db.profile := by
  cases p with
  | updateMe u =>
      exact attempt_replays Db.profile (fun _ _ h => profile_updateUser h)
        (fun _ h => updates_of_error h)
  | addContact contactId nickname =>
      refine attempt_inv (fun db' _ => db'.profile = db.profile) (fun _ => rfl) (fun db' a h => ?_)
      obtain ⟨contacts, rfl⟩ := upsertContact_ok h
      exact ⟨rfl, fun _ => rfl⟩
  | removeContact contactId =>
      refine attempt_inv (fun db' _ => db'.profile = db.profile) (fun _ => rfl) (fun db' a h => ?_)
      obtain ⟨contacts, rfl⟩ := eraseContact_ok h
      exact ⟨rfl, fun _ => rfl⟩
  | exited e => rfl

theorem texts_forUser {as : List (Column × String)} (uid : String)
    (hnul : ∀ p ∈ as, cstr p.2 = p.2) :
    (Update.forUser as uid).target = PgDb.uuid uid ∧
      (Update.forUser as uid).texts = as.map (fun p => (p.1, p.1.cut p.2)) := by
  constructor
  · have hparams : (Update.forUser as uid).params = as.map Prod.snd ++ uid :: [] := rfl
    have hlast := param_of hparams
    rw [List.length_map] at hlast
    have hidx : (Update.forUser as uid).param (Update.forUser as uid).idx = .ok (cstr uid) := hlast
    unfold Update.target
    rw [hidx]
    rfl
  · have key : ∀ (as : List (Column × String)) (pre rest : List String) (u : Update),
        u.params = pre ++ (as.map Prod.snd ++ rest) → (∀ p ∈ as, cstr p.2 = p.2) →
        ((as.map Prod.fst).zipIdx (pre.length + 1)).filterMap (fun part =>
          (u.param part.2).toOption.map (fun s => (part.1, part.1.cut s))) =
        as.map (fun p => (p.1, p.1.cut p.2)) := by
      intro as
      induction as with
      | nil => intro _ _ _ _ _; rfl
      | cons p as ih =>
          intro pre rest u hparams hnul
          have hp : u.param (pre.length + 1) = .ok p.2 := by
            rw [param_of hparams, hnul p List.mem_cons_self]
          have htail : u.params = (pre ++ [p.2]) ++ (as.map Prod.snd ++ rest) := by
            rw [hparams, List.append_assoc]
            rfl
          have hrest := ih (pre ++ [p.2]) rest u htail (fun q hq => hnul q (List.mem_cons_of_mem _ hq))
          rw [List.length_append, List.length_singleton] at hrest
          rw [List.map_cons, List.map_cons, List.zipIdx_cons, List.filterMap_cons, hp, hrest]
          rfl
    exact key as [] [uid] (Update.forUser as uid) rfl hnul

/-- The UPDATE of a request is about the caller, and the columns that the body gives. -/
theorem texts_of_request {uid : String} {j : Json} {u : Update} (h : TextFields j)
    (hu : start uid (.updateMe (some j)) = .updateMe u) :
    u.target = PgDb.uuid uid ∧ u.texts = (asked j).map (fun p => (p.1, p.1.cut p.2)) := by
  have hstart : start uid (.updateMe (some j)) = _ := routeUpdateMe_ok uid h
  rw [hstart] at hu
  split at hu
  · cases hu
  · cases hu
    exact texts_forUser uid (cstr_asked h)

end Api.Accounts

/-! ## Registrations -/

/-- A new user has all columns. -/
def registrations (obs : List Otp.Obs) : List ProfileWrite :=
  obs.flatMap fun
    | .inserted x => (fields.map Prod.fst).map (fun c => ((x.id, c), some (c.get x)))
    | _ => []

theorem mem_columns (c : Column) : c ∈ fields.map Prod.fst := by
  cases c <;> decide

theorem profile_insert {db : Db} {x : User} {users : Table User} (hx : x.isDeleted = some false)
    (hins : db.users.insert x = some users) :
    Db.profile { db with users := users } =
      ((fields.map Prod.fst).map (fun c => ((x.id, c), some (c.get x)))).foldl write db.profile := by
  funext k
  rw [foldl_columns, Db.profile, account_insert hx hins]
  by_cases hk : k.1 = x.id
  · rw [if_pos hk, if_pos ⟨hk, mem_columns k.2⟩]
    rfl
  · rw [if_neg hk, if_neg (fun h => hk h.1)]
    rfl

theorem profile_moves {h : Otp.Helpers} {inp : Otp.Input} {s s' : Otp.State} {l l' : Otp.Thread}
    {obs : List Otp.Obs} (hm : Otp.Moves h inp s l s' l' obs) :
    s'.db.profile = (registrations obs).foldl write s.db.profile := by
  cases hm with
  | @enrolled f x users e obs _ hrow hins hobs =>
      have hlast : registrations obs = [] := by
        rcases hobs with rfl | rfl <;> rfl
      have hnew : registrations (.inserted x :: obs) =
          (fields.map Prod.fst).map (fun c => ((x.id, c), some (c.get x))) ++ registrations obs := rfl
      have hx : x.isDeleted = some false := by
        unfold Otp.userRow at hrow
        obtain ⟨_, _, hrow⟩ := bind_ok.mp hrow
        obtain ⟨_, _, hrow⟩ := bind_ok.mp hrow
        obtain ⟨_, _, hrow⟩ := bind_ok.mp hrow
        obtain ⟨_, _, hrow⟩ := bind_ok.mp hrow
        cases hrow
        rfl
      rw [hnew, hlast, List.append_nil]
      exact profile_insert hx hins
  | _ => rfl

namespace HttpApi

/-! ## The map after a run -/

/-- What a step writes to the profiles. -/
def profileWrites (env : Env) : Thread → Input → State → List ProfileWrite
  | .auth t, inp, s =>
      registrations (Otp.step env.helpers t (inp.otpInput s.now) s.otp).2.2
  | .serving ⟨_, .account p⟩, inp, s => Api.Accounts.profileWrites p (inp.apiInput s.now) s.db
  | _, _, _ => []

theorem profile_of_step (env : Env) (l : Thread) (inp : Input) (s : State) :
    (step env l inp s).1.db.profile = (profileWrites env l inp s).foldl write s.db.profile := by
  cases l with
  | auth t =>
      exact profile_moves (Otp.moves_step env.helpers
        (inp.otpInput s.now) s.otp t)
  | serving t =>
      obtain ⟨uid, point⟩ := t
      show (Api.step env.pg ⟨uid, point⟩ (inp.apiInput s.now) s.db).1.profile = _
      cases point with
      | query r => rfl
      | answered r => rfl
      | account p => exact Api.Accounts.profile_step uid p _ s.db
      | chat p =>
          obtain ⟨chats, members, messages, hdb⟩ :=
            Api.Chats.step_writes env.pg uid p (inp.apiInput s.now) s.db
          exact (congrArg Db.profile hdb :)
      | channel p =>
          obtain ⟨channels, subscribers, posts, hdb⟩ :=
            Api.Channels.step_writes uid p (inp.apiInput s.now) s.db
          exact (congrArg Db.profile hdb :)
  | storing token userId t => exact congrArg Db.profile (db_stepStoring env token userId t inp s)
  | authenticating p call => rfl
  | refused r => rfl
  | background => rfl
  | stuck => rfl

/-- What the last write of the column left, or the start. -/
def profileAfter (env : Env) (s : State) (as : List Action) (k : Uuid × Column) :
    Option (Option String) :=
  (lastWrite k ((system env).log (profileWrites env) (Interleave.Config.init s) as)).getD
    (s.db.profile k)

theorem profile_run (env : Env) (s : State) (as : List Action) :
    (run env s as).shared.db.profile = profileAfter env s as := by
  have hlog := (system env).log_replays (K := fun _ _ => True) (fun s => s.db.profile)
    (fun _ => trivial) (fun _ _ _ _ _ => trivial)
    (fun _ l inp s _ => profile_of_step env l inp s) as (Interleave.Config.init s)
    (Interleave.each_nil _)
  funext k
  exact (congrFun hlog k).trans (Interleave.foldl_write _ _ k)

/-! ## The answers -/

/-- The columns with their texts under the keys, or nobody is there. -/
def Shows (r : Response) (keys : List (Column × String)) (m : Column → Option (Option String)) :
    Prop :=
  (r = errorResp 404 "User not found" ∧ ∀ c, m c = none) ∨
    ∃ row, r = jsonResp 200 row ∧
      ∀ f ∈ keys, ∃ t, m f.1 = some t ∧ row.find f.2 = some (.ofText t)

/-- Of another user. -/
def publicFields : List (Column × String) :=
  [(.displayName, "displayName"), (.avatarUrl, "avatarUrl"), (.bio, "bio")]

section Answers

variable {pg : Pg} {db : Db} {q : Api.Env} {u : Uuid}

theorem shows_account {keys : List (Column × String)} (row : User → Json) {r : Response}
    (hnone : db.account u = none → r = errorResp 404 "User not found")
    (hsome : ∀ x, db.account u = some x → r = jsonResp 200 (row x))
    (hrow : ∀ x, ∀ f ∈ keys, (row x).find f.2 = some (.ofText (f.1.get x))) :
    Shows r keys (fun c => db.profile (u, c)) := by
  cases hacc : db.account u with
  | none =>
      refine Or.inl ⟨hnone hacc, fun c => ?_⟩
      show (db.account u).map c.get = none
      rw [hacc]
      rfl
  | some x =>
      refine Or.inr ⟨row x, hsome x hacc, fun f hf => ⟨f.1.get x, ?_, hrow x f hf⟩⟩
      show (db.account u).map f.1.get = some (f.1.get x)
      rw [hacc]
      rfl

def meShown (pg : Pg) (x : User) : Json :=
  Api.pick [("id", "id"), ("username", "username"), ("email", "email"), ("phone", "phone_number"),
    ("displayName", "display_name"), ("avatarUrl", "avatar_url"), ("bio", "bio"),
    ("status", "status"), ("statusText", "status_text"), ("createdAt", "created_at")]
    (Api.columns ["id", "username", "email", "phone_number", "display_name", "avatar_url", "bio",
      "status", "status_text", "created_at"] (Api.userColumns pg x))

theorem shows_me (hq : q.first = .done) {uid : String} (hu : PgDb.uuid uid = some u) :
    Shows (Api.respond pg q uid .me db) fields (fun c => db.profile (u, c)) := by
  have hsel : db.users.select (fun x => x.id == u && x.isDeleted == some false) =
      (db.account u).toList := select_account db u
  refine shows_account (meShown pg) (fun hacc => ?_) (fun x hacc => ?_) (fun x f hf => ?_)
  · simp only [Api.respond, Api.routeGetMe, Api.selectMe, PgDb.query, hq, hu, need, Api.answer, bind,
      Except.bind, pure, Except.pure, hsel, hacc]
    rfl
  · simp only [Api.respond, Api.routeGetMe, Api.selectMe, PgDb.query, hq, hu, need, Api.answer, bind,
      Except.bind, pure, Except.pure, hsel, hacc]
    rfl
  · simp only [fields, List.mem_cons, List.not_mem_nil, or_false] at hf
    rcases hf with rfl | rfl | rfl | rfl | rfl <;> rfl

def userShown (pg : Pg) (x : User) : Json :=
  Api.pick [("id", "id"), ("username", "username"), ("displayName", "display_name"),
    ("avatarUrl", "avatar_url"), ("bio", "bio"), ("status", "status")]
    (Api.columns ["id", "username", "display_name", "avatar_url", "bio", "status"]
      (Api.userColumns pg x))

theorem shows_user (hq : q.first = .done) {id : Bytes} (hu : PgDb.uuidBytes id = some u)
    (uid : String) :
    Shows (Api.respond pg q uid (.user id) db) publicFields (fun c => db.profile (u, c)) := by
  have hsel : db.users.select (fun x => x.id == u && x.isDeleted == some false) =
      (db.account u).toList := select_account db u
  refine shows_account (userShown pg) (fun hacc => ?_) (fun x hacc => ?_) (fun x f hf => ?_)
  · simp only [Api.respond, Api.routeGetUser, Api.selectUser, PgDb.query, hq, hu, need, Api.answer,
      bind, Except.bind, pure, Except.pure, hsel, hacc]
    rfl
  · simp only [Api.respond, Api.routeGetUser, Api.selectUser, PgDb.query, hq, hu, need, Api.answer,
      bind, Except.bind, pure, Except.pure, hsel, hacc]
    rfl
  · simp only [publicFields, List.mem_cons, List.not_mem_nil, or_false] at hf
    rcases hf with rfl | rfl | rfl <;> rfl

end Answers

/-- The two routes that show a profile, after any run, and what a request to change it writes. -/
theorem profile_of_run (env : Env) (s : State) (as : List Action) (q : Api.Env) (uid : String)
    (hq : q.first = .done) :
    (∀ u, PgDb.uuid uid = some u →
      Shows (Api.respond env.pg q uid .me (run env s as).shared.db) fields
        (fun c => profileAfter env s as (u, c))) ∧
      (∀ id u, PgDb.uuidBytes id = some u →
        Shows (Api.respond env.pg q uid (.user id) (run env s as).shared.db) publicFields
          (fun c => profileAfter env s as (u, c))) ∧
      ∀ j x, TextFields j → Api.Accounts.start uid (.updateMe (some j)) = .updateMe x →
        x.target = PgDb.uuid uid ∧ x.texts = (asked j).map (fun p => (p.1, p.1.cut p.2)) := by
  rw [← profile_run]
  exact ⟨fun u hu => shows_me hq hu, fun id u hu => shows_user hq hu uid,
    fun j x hj hx => Api.Accounts.texts_of_request hj hx⟩

/-- The PATCH of one field by the nil id. -/
def patch (field text : String) : Action :=
  byNil (.account (.updateMe (some (.obj [(field, .str text)]))))

/-- It registers, and two of its updates run side by side. -/
def patchRun : List Action :=
  registerRun ++ [patch "bio" "b", patch "displayName" "d", go 1, go 1, go 1, go 1, go 1, go 2, go 2,
    go 2, go 2, go 2, go 2, go 1]

/-- Both are there. -/
theorem profile_of_run_patch : ∃ row,
    Api.respond plainServer.pg ⟨0, true, .done, .done⟩ (Uuid.uuidOut .zero) .me
        (run plainServer (serverOf {}) patchRun).shared.db = jsonResp 200 row ∧
      row.find "bio" = some (.str "b") ∧ row.find "displayName" = some (.str "d") := by
  have hwrites : profileAfter plainServer (serverOf {}) patchRun (.zero, .bio) = some (some "b") ∧
      profileAfter plainServer (serverOf {}) patchRun (.zero, .displayName) = some (some "d") := by
    decide +kernel
  obtain ⟨hbio, hname⟩ := hwrites
  rcases (profile_of_run plainServer (serverOf {}) patchRun ⟨0, true, .done, .done⟩
    (Uuid.uuidOut .zero) rfl).1 .zero (PgDb.uuid_uuidOut .zero) with ⟨_, hnone⟩ | ⟨row, hrow, hkeys⟩
  · exact absurd (hbio.symm.trans (hnone .bio)) nofun
  · refine ⟨row, hrow, ?_, ?_⟩
    · obtain ⟨t, ht, hfind⟩ := hkeys (.bio, "bio") (by decide)
      cases hbio.symm.trans ht
      exact hfind
    · obtain ⟨t, ht, hfind⟩ := hkeys (.displayName, "displayName") (by decide)
      cases hname.symm.trans ht
      exact hfind

end HttpApi

end MessengerBackend
