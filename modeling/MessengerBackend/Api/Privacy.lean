/-
  What a GET request tells about the private columns of other users: e-mail, phone number,
  password hash and salt, status text, public key, verification and date of registration, and
  about the OTP codes.

  * `User.visible`: an account without them. Two databases that differ only there, and not for
    the caller, are `SameFor` the caller.
  * `Discreet pg r`: the request `r` answers the same in any two such databases.
  * `discreet_or_phone`: every request is, but a search by phone number, which says that some
    account has the number, and which.

  A join does not see the columns (`Select.orderBy_join_map`), and neither does what a route
  shows of a user.
-/
import MessengerBackend.Api.Queries

namespace MessengerBackend

/-- The account without its private columns. -/
def User.visible (x : User) : User :=
  { x with
    email := "", phoneNumber := none, passwordHash := "", passwordSalt := "", statusText := none
    publicKey := "", isVerified := none, createdAt := none }

namespace Api

open PgDb (need query query_congr)
open Select (join orderBy orderBy_join_map)
open Sql

/-- The accounts are the same to whom they belong, and to the others without private columns. -/
def SameUsers (own : Option Uuid) (xs ys : List User) : Prop :=
  List.Forall₂ (fun x y => x.visible = y.visible ∧ (own = some x.id → x = y)) xs ys

def SameFor (uid : String) (db db' : Db) : Prop :=
  SameUsers (PgDb.uuid uid) db.users.rows db'.users.rows ∧
    db' = { db with users := db'.users, otpCodes := db'.otpCodes }

def Discreet (pg : Pg) (r : GetRequest) : Prop :=
  ∀ (env : Env) (uid : String) (db db' : Db), SameFor uid db db' →
    respond pg env uid r db = respond pg env uid r db'

/-! ## Accounts without private columns -/

section Users

variable {own : Option Uuid} {xs ys : List User}

theorem map_visible (h : SameUsers own xs ys) : xs.map User.visible = ys.map User.visible := by
  induction h with
  | nil => rfl
  | cons hxy _ ih => rw [List.map_cons, List.map_cons, hxy.1, ih]

/-- A clause on visible columns, and a row of them. -/
theorem map_filter_visible {γ : Type} {p : User → Bool} {f : User → γ}
    (h : xs.map User.visible = ys.map User.visible) (hp : ∀ x, p x.visible = p x)
    (hf : ∀ x, f x.visible = f x) : (xs.filter p).map f = (ys.filter p).map f := by
  have hsame : ∀ l : List User, (l.filter p).map f = ((l.map User.visible).filter p).map f := by
    intro l
    have hp' : p ∘ User.visible = p := funext hp
    have hf' : f ∘ User.visible = f := funext hf
    rw [List.filter_map, hp', List.map_map, hf']
  rw [hsame xs, hsame ys, h]

/-- A clause on the caller's id. -/
theorem filter_own {p : User → Bool} (h : SameUsers own xs ys)
    (hp : ∀ x, p x = true → own = some x.id) (hvis : ∀ x, p x.visible = p x) :
    xs.filter p = ys.filter p := by
  induction h with
  | nil => rfl
  | @cons x y xs ys hxy _ ih =>
      have hsame : p x = p y := by rw [← hvis x, hxy.1, hvis y]
      by_cases hx : p x = true
      · rw [List.filter_cons_of_pos hx, List.filter_cons_of_pos (hsame ▸ hx), ih, hxy.2 (hp x hx)]
      · rw [List.filter_cons_of_neg hx, List.filter_cons_of_neg (hsame ▸ hx), ih]

/-- A sorted join with the accounts, of which only visible columns are read. -/
theorem map_join_visible {α γ : Type} {on : α → User → Bool} {w : α × User → Bool}
    {le : α × User → α × User → Bool} {f : α × User → γ}
    (h : xs.map User.visible = ys.map User.visible) (hon : ∀ a x, on a x.visible = on a x)
    (hw : ∀ p : α × User, w (p.1, p.2.visible) = w p)
    (hle : ∀ p p' : α × User, le (p.1, p.2.visible) (p'.1, p'.2.visible) = le p p')
    (hf : ∀ p : α × User, f (p.1, p.2.visible) = f p) (as : List α) :
    (orderBy le ((join on as xs).filter w)).map f = (orderBy le ((join on as ys).filter w)).map f := by
  have hsame : ∀ l : List User, (orderBy le ((join on as l).filter w)).map f =
      (orderBy le ((join on as (l.map User.visible)).filter w)).map f := by
    intro l
    have hf' : f ∘ Prod.map id User.visible = f := funext hf
    rw [orderBy_join_map hon hw hle, List.map_map, hf']
  rw [hsame xs, hsame ys, h]

end Users

/-! ## The handlers -/

section Handlers

variable {pg : Pg} {env : Env} {uid : String} {db : Db} {users : Table User} {codes : Table OtpCode}

/-- A part of the columns of an account that are visible. -/
def publicColumns : List String :=
  ["id", "username", "display_name", "avatar_url", "bio", "status"]

theorem columns_visible {names : List String} (h : ∀ n ∈ names, n ∈ publicColumns) (x : User) :
    columns names (userColumns pg x.visible) = columns names (userColumns pg x) := by
  have hno : ∀ n, n ∉ publicColumns → names.contains n = false := by
    intro n hn
    rw [List.contains_eq_mem, decide_eq_false_iff_not]
    exact fun hmem => hn (h n hmem)
  have hmail := hno "email" (by decide)
  have hphone := hno "phone_number" (by decide)
  have htext := hno "status_text" (by decide)
  have htime := hno "created_at" (by decide)
  simp only [columns, userColumns, User.visible, List.filter_cons, hmail, hphone, htext, htime,
    Bool.false_eq_true, if_false]

theorem selectMe_same (h : SameUsers (PgDb.uuid uid) db.users.rows users.rows) :
    selectMe pg uid { db with users := users, otpCodes := codes } = selectMe pg uid db := by
  unfold selectMe
  cases hid : PgDb.uuid uid with
  | none => rfl
  | some id =>
      rw [hid] at h
      have hsel : users.select (fun u => u.id == id && u.isDeleted == some false) =
          db.users.select (fun u => u.id == id && u.isDeleted == some false) := by
        refine (filter_own h (fun x hx => ?_) (fun _ => rfl)).symm
        simp only [Bool.and_eq_true, beq_iff_eq] at hx
        rw [hx.1]
      show Except.ok ((users.select _).map _) = Except.ok ((db.users.select _).map _)
      rw [hsel]

theorem selectUsersLike_same (h : db.users.rows.map User.visible = users.rows.map User.visible)
    {names : List String} (hnames : ∀ n ∈ names, n ∈ publicColumns) (q : Bytes) :
    selectUsersLike pg names q uid { db with users := users, otpCodes := codes } =
      selectUsersLike pg names q uid db := by
  unfold selectUsersLike usersLike
  cases PgDb.text (likeBytes q) with
  | none => rfl
  | some like =>
      cases PgDb.uuid uid with
      | none => rfl
      | some id =>
          show Except.ok (((users.select _).take 20).map _) =
            Except.ok (((db.users.select _).take 20).map _)
          rw [List.map_take, List.map_take]
          congr 2
          exact (map_filter_visible h (fun _ => rfl) (columns_visible hnames)).symm

theorem selectUser_same (h : db.users.rows.map User.visible = users.rows.map User.visible)
    (userId : Bytes) :
    selectUser pg userId { db with users := users, otpCodes := codes } = selectUser pg userId db := by
  unfold selectUser
  cases PgDb.uuidBytes userId with
  | none => rfl
  | some id =>
      show Except.ok ((users.select _).map _) = Except.ok ((db.users.select _).map _)
      congr 1
      exact (map_filter_visible h (fun _ => rfl) (columns_visible (by decide))).symm

theorem selectMessages_same (h : db.users.rows.map User.visible = users.rows.map User.visible)
    (now : Time) (chatId before : Bytes) :
    selectMessages pg now chatId before { db with users := users, otpCodes := codes } =
      selectMessages pg now chatId before db := by
  unfold selectMessages
  cases PgDb.uuidBytes chatId with
  | none => rfl
  | some c =>
      cases beforeBound pg now before with
      | error e => rfl
      | ok bound =>
          show Except.ok ((messagePage c bound { db with users := users, otpCodes := codes }).map _) =
            Except.ok ((messagePage c bound db).map _)
          unfold messagePage
          rw [List.map_take, List.map_take]
          congr 2
          exact (map_join_visible h (fun _ _ => rfl) (fun _ => rfl) (fun _ _ => rfl) (fun _ => rfl) _).symm

theorem selectMembers_same (h : db.users.rows.map User.visible = users.rows.map User.visible)
    (chatId : Bytes) : selectMembers pg chatId { db with users := users, otpCodes := codes } =
      selectMembers pg chatId db := by
  unfold selectMembers
  cases PgDb.uuidBytes chatId with
  | none => rfl
  | some c =>
      show Except.ok (List.map _ (orderBy _ (List.filter _ (join _ _ users.rows)))) =
        Except.ok (List.map _ (orderBy _ (List.filter _ (join _ _ db.users.rows))))
      congr 1
      exact (map_join_visible h (fun _ _ => rfl) (fun _ => rfl) (fun _ _ => rfl) (fun _ => rfl) _).symm

theorem selectContacts_same (h : db.users.rows.map User.visible = users.rows.map User.visible) :
    selectContacts pg uid { db with users := users, otpCodes := codes } = selectContacts pg uid db := by
  unfold selectContacts
  cases PgDb.uuid uid with
  | none => rfl
  | some id =>
      show Except.ok (List.map _ (orderBy _ (List.filter _ (join _ _ users.rows)))) =
        Except.ok (List.map _ (orderBy _ (List.filter _ (join _ _ db.users.rows))))
      congr 1
      exact (map_join_visible h (fun _ _ => rfl) (fun _ => rfl) (fun _ _ => rfl) (fun _ => rfl) _).symm

end Handlers

theorem discreet_or_phone (pg : Pg) (r : GetRequest) :
    Discreet pg r ∨ ∃ phone, r = .findByPhone phone := by
  have keep : (∀ env uid (db : Db) users codes, SameUsers (PgDb.uuid uid) db.users.rows users.rows →
      respond pg env uid r { db with users := users, otpCodes := codes } = respond pg env uid r db) →
      Discreet pg r := by
    rintro h env uid db db' ⟨husers, hdb⟩
    rw [hdb]
    exact (h env uid db db'.users db'.otpCodes husers).symm
  cases r with
  | findByPhone phone => exact Or.inr ⟨phone, rfl⟩
  | me =>
      refine Or.inl (keep fun env uid db users codes h => ?_)
      show routeGetMe pg env uid _ = routeGetMe pg env uid db
      unfold routeGetMe
      rw [query_congr (selectMe_same h)]
  | searchUsers q =>
      refine Or.inl (keep fun env uid db users codes h => ?_)
      show routeSearchUsers pg env uid q _ = routeSearchUsers pg env uid q db
      unfold routeSearchUsers
      rw [query_congr (selectUsersLike_same (map_visible h) (by decide) (urlParam q))]
  | user userId =>
      refine Or.inl (keep fun env uid db users codes h => ?_)
      show routeGetUser pg env userId _ = routeGetUser pg env userId db
      unfold routeGetUser
      rw [query_congr (selectUser_same (map_visible h) userId)]
  | chatSearchUsers q =>
      refine Or.inl (keep fun env uid db users codes h => ?_)
      show routeChatSearchUsers pg env uid q _ = routeChatSearchUsers pg env uid q db
      unfold routeChatSearchUsers
      rw [query_congr (selectUsersLike_same (map_visible h) (by decide) (urlParam q))]
  | messages chatId before =>
      refine Or.inl (keep fun env uid db users codes h => ?_)
      show routeGetMessages pg env uid chatId before _ = routeGetMessages pg env uid chatId before db
      unfold routeGetMessages
      rw [query_congr (selectMessages_same (map_visible h) env.now chatId (urlParam before))]
      rfl
  | members chatId =>
      refine Or.inl (keep fun env uid db users codes h => ?_)
      show routeGetMembers pg env chatId _ = routeGetMembers pg env chatId db
      unfold routeGetMembers
      rw [query_congr (selectMembers_same (map_visible h) chatId)]
  | contacts =>
      refine Or.inl (keep fun env uid db users codes h => ?_)
      show routeGetContacts pg env uid _ = routeGetContacts pg env uid db
      unfold routeGetContacts
      rw [query_congr (selectContacts_same (map_visible h))]
  | _ => exact Or.inl (keep fun _ _ _ _ _ _ => rfl)

end Api

end MessengerBackend
