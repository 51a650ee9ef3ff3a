/-
  `PATCH /api/auth/me`: the statement that is built and what it writes.

  The handler adds an assignment `column = $i` and a parameter for each field that is there,
  and then the caller's id, in one pass. `Update.sql` is the text; it is made of column names
  and numbers only.

  * `routeUpdateMe_ok`: over fields that are absent, null or a string the pass gives the
    `Update` of the given fields, and no other point.
  * `placeholders_sql`: the text has the placeholders $1..$n, each once, n the number of
    parameters.
  * `updateUser_writes`: what the UPDATE does to the caller's row (`Written`), and to nothing
    else.

  A text that is longer than its VARCHAR column by blanks only is stored cut, and a 500 may
  hide an UPDATE whose answer was lost; so the request does not always do as it was asked
  (`profile_not_as_asked`).
-/
import Mathlib.Data.Bool.AllAny
import MessengerBackend.Api.PrivateChats

namespace MessengerBackend.Api.Accounts

open PgDb (Stmt Outcome cstr varchar need need_ok)
open Except (bind_ok map_eq_ok)

/-! ## The text of the statement -/

def Column.name : Column → String
  | .displayName => "display_name"
  | .bio => "bio"
  | .avatarUrl => "avatar_url"
  | .statusText => "status_text"
  | .phoneNumber => "phone_number"

/-- `col + " = $" + std::to_string(idx)` -/
def assignment (part : Column × Nat) : String := part.1.name ++ " = $" ++ toString part.2

def Update.sql (u : Update) : String :=
  "UPDATE users SET " ++ ", ".intercalate (u.parts.map assignment) ++ " WHERE id = $" ++
    toString u.idx

/-- The numbers of the placeholders in a statement, in order. -/
def placeholders : List Char → List Nat
  | [] => []
  | c :: cs =>
      if c = '$' then Nat.ofDigitChars 10 (cs.takeWhile Char.isDigit) 0 :: placeholders cs
      else placeholders cs

theorem placeholders_append {xs : List Char} (h : ∀ c ∈ xs, c ≠ '$') (ys : List Char) :
    placeholders (xs ++ ys) = placeholders ys := by
  induction xs with
  | nil => rfl
  | cons x xs ih =>
      rw [List.cons_append, placeholders, if_neg (h x List.mem_cons_self)]
      exact ih (fun c hc => h c (List.mem_cons_of_mem _ hc))

/-- What follows a number does not go on with it. -/
def EndsNumber (ys : List Char) : Prop := ys.takeWhile Char.isDigit = []

/-- `$n` -/
theorem placeholders_number (n : Nat) {ys : List Char} (h : EndsNumber ys) :
    placeholders ('$' :: (n.repr.toList ++ ys)) = n :: placeholders ys := by
  have hdigit : ∀ c ∈ n.repr.toList, c.isDigit = true := by
    intro c hc
    rw [Nat.toList_repr] at hc
    exact Nat.isDigit_of_mem_toDigits (by decide) (by decide) hc
  have hne : ∀ c ∈ n.repr.toList, c ≠ '$' := by
    rintro c hc rfl
    exact absurd (hdigit _ hc) (by decide)
  rw [placeholders, if_pos rfl, placeholders_append hne, List.takeWhile_append_of_pos hdigit, h,
    List.append_nil, Nat.toList_repr, Nat.ofDigitChars_ten_toDigits]

theorem dollar_notMem_name (c : Column) : ∀ x ∈ (c.name ++ " = ").toList, x ≠ '$' := by
  cases c <;> exact List.all_iff_forall_prop.mp (by decide)

theorem placeholders_assignment (part : Column × Nat) {ys : List Char} (h : EndsNumber ys) :
    placeholders ((assignment part).toList ++ ys) = part.2 :: placeholders ys := by
  have htext : (assignment part).toList ++ ys =
      (part.1.name ++ " = ").toList ++ '$' :: (part.2.repr.toList ++ ys) := by
    unfold assignment
    simp [String.toList_append]
  rw [htext, placeholders_append (dollar_notMem_name part.1), placeholders_number part.2 h]

theorem placeholders_parts (parts : List (Column × Nat)) {ys : List Char} (h : EndsNumber ys) :
    placeholders ((", ".intercalate (parts.map assignment)).toList ++ ys) =
      parts.map Prod.snd ++ placeholders ys := by
  induction parts with
  | nil => rfl
  | cons part parts ih =>
      cases parts with
      | nil =>
          rw [List.map_singleton, String.intercalate_singleton, placeholders_assignment part h]
          rfl
      | cons next rest =>
          rw [List.map_cons, List.map_cons, String.intercalate_cons_cons, String.toList_append,
            String.toList_append, List.append_assoc, List.append_assoc,
            placeholders_assignment part (by rfl)]
          rw [List.map_cons] at ih
          have hsep : ∀ c ∈ ", ".toList, c ≠ '$' := List.all_iff_forall_prop.mp (by decide)
          rw [placeholders_append hsep, ih]
          rfl

theorem placeholders_sql (u : Update) :
    placeholders u.sql.toList = u.parts.map Prod.snd ++ [u.idx] := by
  have hhead : ∀ c ∈ "UPDATE users SET ".toList, c ≠ '$' :=
    List.all_iff_forall_prop.mp (by decide)
  have hwhere : ∀ c ∈ " WHERE id = ".toList, c ≠ '$' := List.all_iff_forall_prop.mp (by decide)
  have htext : u.sql.toList = "UPDATE users SET ".toList ++
      ((", ".intercalate (u.parts.map assignment)).toList ++
        (" WHERE id = ".toList ++ '$' :: (u.idx.repr.toList ++ []))) := by
    unfold Update.sql
    simp [String.toList_append]
  rw [htext, placeholders_append hhead, placeholders_parts _ (by rfl),
    placeholders_append hwhere, placeholders_number u.idx (by rfl)]
  rfl

/-! ## The pass over the fields -/

/-- Every field is absent, null or a text. -/
def TextFields (j : Json) : Prop :=
  ∀ f ∈ fields, j.find f.2 = none ∨ j.find f.2 = some .null ∨
    ∃ s, j.find f.2 = some (.str s) ∧ ∀ c ∈ s.toList, c ≠ '\x00'

/-- The column and the text of a field, if it is one. -/
def given (j : Json) (field : Column × String) : Option (Column × String) :=
  match j.find field.2 with
  | some (.str s) => some (field.1, s)
  | _ => none

/-- What the body asks for. -/
def asked (j : Json) : List (Column × String) := fields.filterMap (given j)

/-- The vectors for a list of columns with their texts. -/
def Update.of (as : List (Column × String)) : Update where
  parts := (as.map Prod.fst).zipIdx 1
  params := as.map Prod.snd
  idx := as.length + 1

/-- The UPDATE that sets them for the caller. -/
def Update.forUser (as : List (Column × String)) (uid : String) : Update :=
  { Update.of as with params := as.map Prod.snd ++ [uid] }

/-- The same text for the same columns, whatever the values. -/
def profileSql (columns : List Column) : String :=
  ({ parts := columns.zipIdx 1, params := [], idx := columns.length + 1 } : Update).sql

theorem sql_forUser (as : List (Column × String)) (uid : String) :
    (Update.forUser as uid).sql = profileSql (as.map Prod.fst) := by
  unfold profileSql
  rw [List.length_map]
  rfl

/-- The placeholders are $1..$n, and $n is the caller's id. -/
theorem placeholders_forUser (as : List (Column × String)) (uid : String) :
    placeholders (Update.forUser as uid).sql.toList =
      List.range' 1 (Update.forUser as uid).params.length := by
  rw [placeholders_sql]
  show ((as.map Prod.fst).zipIdx 1).map Prod.snd ++ [as.length + 1] =
    List.range' 1 (as.map Prod.snd ++ [uid]).length
  rw [List.zipIdx_map_snd, List.length_map, List.length_append, List.length_map,
    List.length_singleton, List.range'_concat, Nat.one_mul, Nat.add_comm 1]

/-- One call of `add_field`. -/
theorem addField_of {j : Json} {as : List (Column × String)} {f : Column × String}
    (h : j.find f.2 = none ∨ j.find f.2 = some .null ∨ ∃ s, j.find f.2 = some (.str s)) :
    addField j (Update.of as) f = .ok (Update.of (as ++ (given j f).toList)) := by
  unfold addField given
  rcases h with h | h | ⟨s, h⟩
  · simp [h]
  · simp [h]
  · simp [h, Json.getString, bind, Except.bind, pure, Except.pure, Update.of, List.zipIdx_append,
      Nat.add_comm]

/-- All calls of it. -/
theorem foldlM_addField {j : Json} {fs : List (Column × String)}
    (h : ∀ f ∈ fs, j.find f.2 = none ∨ j.find f.2 = some .null ∨ ∃ s, j.find f.2 = some (.str s))
    (as : List (Column × String)) :
    fs.foldlM (addField j) (Update.of as) = .ok (Update.of (as ++ fs.filterMap (given j))) := by
  induction fs generalizing as with
  | nil =>
      rw [List.filterMap_nil, List.append_nil]
      rfl
  | cons f fs ih =>
      rw [List.foldlM_cons, addField_of (h f List.mem_cons_self)]
      show fs.foldlM (addField j) _ = _
      rw [ih (fun f' hf' => h f' (List.mem_cons_of_mem _ hf')), List.append_assoc]
      congr 3
      rw [List.filterMap_cons]
      cases given j f <;> rfl

theorem routeUpdateMe_ok (uid : String) {j : Json} (h : TextFields j) :
    routeUpdateMe uid (some j) =
      if asked j = [] then refuse 400 "Nothing to update"
      else .updateMe (Update.forUser (asked j) uid) := by
  have hpass : fields.foldlM (addField j) ⟨[], [], 1⟩ = .ok (Update.of (asked j)) := by
    refine foldlM_addField (fun f hf => ?_) []
    rcases h f hf with h | h | ⟨s, hs, _⟩
    · exact Or.inl h
    · exact Or.inr (Or.inl h)
    · exact Or.inr (Or.inr ⟨s, hs⟩)
  unfold routeUpdateMe withBody
  simp only [hpass]
  have hparts : (Update.of (asked j)).parts = [] ↔ asked j = [] := by
    show ((asked j).map Prod.fst).zipIdx 1 = [] ↔ _
    rw [List.zipIdx_eq_nil_iff, List.map_eq_nil_iff]
  simp only [hparts]
  rfl

/-- Each column is asked for at most once. -/
theorem nodup_asked (j : Json) : ((asked j).map Prod.fst).Nodup := by
  have hsub : ∀ fs : List (Column × String),
      ((fs.filterMap (given j)).map Prod.fst).Sublist (fs.map Prod.fst) := by
    intro fs
    induction fs with
    | nil => exact List.Sublist.slnil
    | cons f fs ih =>
        rw [List.filterMap_cons]
        cases hg : given j f with
        | none => exact ih.cons _
        | some p =>
            have hp : p.1 = f.1 := by
              unfold given at hg
              split at hg
              · cases hg
                rfl
              · cases hg
            rw [List.map_cons, List.map_cons, hp]
            exact ih.cons_cons _
  exact (hsub fields).nodup (by decide)

/-- A text that is asked for has no NUL. -/
theorem cstr_asked {j : Json} (h : TextFields j) : ∀ p ∈ asked j, cstr p.2 = p.2 := by
  intro p hp
  obtain ⟨f, hf, hg⟩ := List.mem_filterMap.mp hp
  unfold given at hg
  split at hg
  · rename_i s hs
    cases hg
    rcases h f hf with h | h | ⟨s', hs', hnul⟩
    · rw [h] at hs
      cases hs
    · rw [h] at hs
      cases hs
    · rw [hs] at hs'
      cases hs'
      exact PgDb.cstr_of_forall hnul
  · cases hg

/-! ## The row -/

/-- The n of a `VARCHAR(n)` column. -/
def Column.limit : Column → Option Nat
  | .displayName => some 100
  | .bio => none
  | .avatarUrl => none
  | .statusText => some 255
  | .phoneNumber => some 20

def Column.get : Column → User → Option String
  | .displayName, x => x.displayName
  | .bio, x => x.bio
  | .avatarUrl, x => x.avatarUrl
  | .statusText, x => x.statusText
  | .phoneNumber, x => x.phoneNumber

def Column.put : Column → String → User → User
  | .displayName, t, x => { x with displayName := some t }
  | .bio, t, x => { x with bio := some t }
  | .avatarUrl, t, x => { x with avatarUrl := some t }
  | .statusText, t, x => { x with statusText := some t }
  | .phoneNumber, t, x => { x with phoneNumber := some t }

theorem get_put (c c' : Column) (t : String) (x : User) :
    c'.get (c.put t x) = if c' = c then some t else c'.get x := by
  cases c <;> cases c' <;> rfl

/-- The columns that `update_me` never sets. -/
def others (x : User) : User :=
  { x with displayName := none, bio := none, avatarUrl := none, statusText := none,
           phoneNumber := none }

theorem others_put (c : Column) (t : String) (x : User) : others (c.put t x) = others x := by
  cases c <;> rfl

/-- What a column holds of a text: the text, or what is left of it without an excess of
    blanks. -/
def Stored (limit : Option Nat) (s t : String) : Prop :=
  t = s ∨ ∃ n, limit = some n ∧ n < s.length ∧ (∀ c ∈ s.toList.drop n, c = ' ') ∧
    t.toList = s.toList.take n

/-- `x'` is `x` with the texts in their columns. -/
structure Written (as : List (Column × String)) (x x' : User) : Prop where
  given : ∀ p ∈ as, ∃ t, Stored p.1.limit p.2 t ∧ p.1.get x' = some t
  kept : ∀ c, c ∉ as.map Prod.fst → c.get x' = c.get x
  rest : others x' = others x

theorem varchar_stored {n : Nat} {s t : String} (h : varchar n s = .ok t) :
    Stored (some n) s t := by
  unfold varchar at h
  split at h
  · cases h
    exact Or.inl rfl
  · rename_i hlong
    split at h
    · rename_i hblank
      cases h
      refine Or.inr ⟨n, rfl, by omega, fun c hc => ?_, String.toList_ofList⟩
      simpa using List.all_eq_true.mp hblank c hc
    · cases h

/-- One assignment of the SET clause. -/
theorem set_ok {c : Column} {s : String} {x x' : User} (h : c.set s x = .ok x') :
    ∃ t, Stored c.limit s t ∧ x' = c.put t x := by
  cases c with
  | displayName =>
      obtain ⟨t, ht, rfl⟩ := map_eq_ok.mp h
      exact ⟨t, varchar_stored ht, rfl⟩
  | bio =>
      cases h
      exact ⟨s, Or.inl rfl, rfl⟩
  | avatarUrl =>
      cases h
      exact ⟨s, Or.inl rfl, rfl⟩
  | statusText =>
      obtain ⟨t, ht, rfl⟩ := map_eq_ok.mp h
      exact ⟨t, varchar_stored ht, rfl⟩
  | phoneNumber =>
      obtain ⟨t, ht, rfl⟩ := map_eq_ok.mp h
      exact ⟨t, varchar_stored ht, rfl⟩

/-- All of them, in different columns. -/
theorem foldlM_set {as : List (Column × String)} (hnodup : (as.map Prod.fst).Nodup)
    {x x' : User} (h : as.foldlM (fun x p => p.1.set p.2 x) x = .ok x') : Written as x x' := by
  induction as generalizing x with
  | nil =>
      cases h
      exact ⟨fun p hp => (by cases hp), fun _ _ => rfl, rfl⟩
  | cons p as ih =>
      rw [List.foldlM_cons] at h
      obtain ⟨x₁, hset, h⟩ := bind_ok.mp h
      obtain ⟨hnew, hnodup⟩ := List.nodup_cons.mp hnodup
      obtain ⟨t, hstored, rfl⟩ := set_ok hset
      have hw := ih hnodup h
      refine ⟨?_, ?_, hw.rest.trans (others_put p.1 t x)⟩
      · intro q hq
        rcases List.mem_cons.mp hq with rfl | hq
        · exact ⟨t, hstored, by rw [hw.kept _ hnew, get_put, if_pos rfl]⟩
        · exact hw.given q hq
      · intro c hc
        rw [List.map_cons, List.mem_cons, not_or] at hc
        rw [hw.kept c hc.2, get_put, if_neg hc.1]

/-- The parameter behind those of `pre`. -/
theorem param_of {u : Update} {pre : List String} {s : String} {rest : List String}
    (h : u.params = pre ++ s :: rest) : u.param (pre.length + 1) = .ok (cstr s) := by
  unfold Update.param
  rw [h]
  simp

/-- Looking the parameters up by number pairs each column with its own text. -/
theorem foldlM_param {u : Update} (as : List (Column × String)) :
    ∀ (pre rest : List String) (x : User), u.params = pre ++ (as.map Prod.snd ++ rest) →
      (∀ p ∈ as, cstr p.2 = p.2) →
      ((as.map Prod.fst).zipIdx (pre.length + 1)).foldlM (fun x part => do
        let s ← u.param part.2
        part.1.set s x) x = as.foldlM (fun x p => p.1.set p.2 x) x := by
  induction as with
  | nil => intro _ _ _ _ _; rfl
  | cons p as ih =>
      intro pre rest x hparams hnul
      have hp : u.param (pre.length + 1) = .ok p.2 := by
        rw [param_of hparams, hnul p List.mem_cons_self]
      have htail : u.params = (pre ++ [p.2]) ++ (as.map Prod.snd ++ rest) := by
        rw [hparams, List.append_assoc]
        rfl
      rw [List.map_cons, List.zipIdx_cons, List.foldlM_cons, List.foldlM_cons, hp]
      show p.1.set p.2 x >>= _ = p.1.set p.2 x >>= _
      cases p.1.set p.2 x with
      | error e => rfl
      | ok x₁ =>
          have := ih (pre ++ [p.2]) rest x₁ htail (fun q hq => hnul q (List.mem_cons_of_mem _ hq))
          rw [List.length_append, List.length_singleton] at this
          exact this

theorem apply_forUser {as : List (Column × String)} (uid : String)
    (hnul : ∀ p ∈ as, cstr p.2 = p.2) (x : User) :
    (Update.forUser as uid).apply x = as.foldlM (fun x p => p.1.set p.2 x) x :=
  foldlM_param (u := Update.forUser as uid) as [] [uid] x rfl hnul

/-! ## The statement -/

/-- The rows of the user `id` have the texts in their columns, and nothing else changed. -/
structure ProfileWritten (as : List (Column × String)) (id : Uuid) (db db' : Db) : Prop where
  rows : ∃ f : User → User, db'.users.rows = db.users.rows.map f ∧
    (∀ x ∈ db.users, x.id = id → Written as x (f x)) ∧ ∀ x ∈ db.users, x.id ≠ id → f x = x
  tables : db' = { db with users := db'.users }

theorem updateUser_writes {as : List (Column × String)} {uid : String} {db db' : Db} {a : Unit}
    (hnodup : (as.map Prod.fst).Nodup) (hnul : ∀ p ∈ as, cstr p.2 = p.2)
    (h : updateUser (Update.forUser as uid) db = .ok (db', a)) :
    ∃ id, PgDb.uuid uid = some id ∧ ProfileWritten as id db db' := by
  have hlast : (Update.forUser as uid).param (Update.forUser as uid).idx = .ok (cstr uid) := by
    have hparams : (Update.forUser as uid).params = as.map Prod.snd ++ uid :: [] := rfl
    have hparam := param_of hparams
    rwa [List.length_map] at hparam
  unfold updateUser at h
  obtain ⟨id, hid, h⟩ := bind_ok.mp h
  rw [hlast] at hid
  have hid : PgDb.uuid uid = some id := need_ok.mp hid
  refine ⟨id, hid, ?_⟩
  split at h
  · rename_i hnone
    cases h
    refine ⟨⟨fun x => x, by simp, fun x hx heq => ?_, fun _ _ _ => rfl⟩, rfl⟩
    exact absurd (by simpa using heq) (List.find?_eq_none.mp hnone x hx)
  · rename_i x hfind
    have hx := List.mem_of_find?_eq_some hfind
    have hxid : x.id = id := by simpa using List.find?_some hfind
    obtain ⟨x', happly, h⟩ := bind_ok.mp h
    rw [apply_forUser uid hnul] at happly
    split at h
    · cases h
    · rename_i users hupdate
      cases h
      unfold Table.update at hupdate
      split at hupdate
      · cases hupdate
        refine ⟨⟨_, rfl, fun y hy hyid => ?_, fun y _ hyid => ?_⟩, rfl⟩
        · have hsame : y = x := Table.eq_of_clash hy hx (by simp [Keyed.clash, hxid, hyid])
          subst hsame
          dsimp only
          rw [if_pos (by simpa using hyid)]
          exact foldlM_set hnodup happly
        · dsimp only
          rw [if_neg (by simpa using hyid)]
      · cases hupdate

/-- An UPDATE of any columns keeps the id of the row. -/
theorem id_of_apply {u : Update} {x x' : User} (h : u.apply x = .ok x') : x'.id = x.id := by
  have key : ∀ (parts : List (Column × Nat)) (x : User), parts.foldlM (fun x part => do
      let s ← u.param part.2
      part.1.set s x) x = .ok x' → x'.id = x.id := by
    intro parts
    induction parts with
    | nil =>
        intro x h
        cases h
        rfl
    | cons part parts ih =>
        intro x h
        rw [List.foldlM_cons] at h
        obtain ⟨x₁, hset, h⟩ := bind_ok.mp h
        obtain ⟨s, _, hset⟩ := bind_ok.mp hset
        obtain ⟨t, _, rfl⟩ := set_ok hset
        exact (ih _ h).trans (congrArg User.id (others_put part.1 t x) :)
  exact key u.parts x h

/-- The users are the same ones. -/
theorem ids_of_updateUser {u : Update} {db db' : Db} {a : Unit}
    (h : updateUser u db = .ok (db', a)) :
    db'.users.rows.map User.id = db.users.rows.map User.id := by
  unfold updateUser at h
  obtain ⟨id, _, h⟩ := bind_ok.mp h
  split at h
  · cases h
    rfl
  · rename_i x hfind
    have hxid : x.id = id := by simpa using List.find?_some hfind
    obtain ⟨x', happly, h⟩ := bind_ok.mp h
    have hid : x'.id = id := (id_of_apply happly).trans hxid
    split at h
    · cases h
    · rename_i users hupdate
      cases h
      unfold Table.update at hupdate
      split at hupdate
      · cases hupdate
        show (db.users.rows.map _).map User.id = _
        rw [List.map_map]
        refine List.map_congr_left (fun y _ => ?_)
        rw [Function.comp_apply]
        split
        · rename_i hy
          rw [hid]
          exact (beq_iff_eq.mp hy).symm
        · rfl
      · cases hupdate

/-! ## The request -/

def answer200 : Point := respond 200 okBody

def answer500 : Point := .exited (.response serverError)

/-- What the request does in the state `db`: it is answered 200 and the UPDATE took effect, or
    500, and then it did not, unless the answer to it was lost. -/
structure Effect (as : List (Column × String)) (uid : String) (inp : Input) (db : Db)
    (x : Db × Point) : Prop where
  answered : x.2 = answer200 ∨ x.2 = answer500
  written : x.2 = answer200 → ∃ id, PgDb.uuid uid = some id ∧ ProfileWritten as id db x.1
  refused : x.2 = answer500 → x.1 = db ∨ ∃ msg id, inp.first = .lost msg ∧
    PgDb.uuid uid = some id ∧ ProfileWritten as id db x.1

theorem answer200_ne : answer200 ≠ answer500 := by
  intro h
  have hresponse := Exit.response.inj (Point.exited.inj h)
  have hstatus : (200 : Nat) = 500 := congrArg Response.status hresponse
  cases hstatus

theorem effect_step {as : List (Column × String)} (hnodup : (as.map Prod.fst).Nodup)
    (hnul : ∀ p ∈ as, cstr p.2 = p.2) (uid : String) (inp : Input) (db : Db) :
    Effect as uid inp db (step uid (.updateMe (Update.forUser as uid)) inp db) := by
  refine attempt_rule (fun db' p => Effect as uid inp db (db', p)) ?_ ?_ ?_
  · intro e _
    exact ⟨Or.inr rfl, fun h => absurd h.symm answer200_ne, fun _ => Or.inl rfl⟩
  · intro db' a h _
    exact ⟨Or.inl rfl, fun _ => updateUser_writes hnodup hnul h,
      fun h => absurd h answer200_ne⟩
  · intro db' a msg h ho
    obtain ⟨id, hid, hw⟩ := updateUser_writes hnodup hnul h
    exact ⟨Or.inr rfl, fun h => absurd h.symm answer200_ne,
      fun _ => Or.inr ⟨msg, id, ho, hid, hw⟩⟩

/-- A body without a text is answered 400 before any statement. Any other makes one UPDATE,
    whose text depends on which fields are given and not on their values, whose placeholders
    are $1..$n, bound to the values in order and then to the caller's id; it writes the given
    texts into the caller's row, and nothing else. -/
theorem updateMe_writes (uid : String) (j : Json) (h : TextFields j) :
    (asked j = [] ∧ start uid (.updateMe (some j)) = refuse 400 "Nothing to update") ∨
      (asked j ≠ [] ∧ ∃ u, start uid (.updateMe (some j)) = .updateMe u ∧
        u.sql = profileSql ((asked j).map Prod.fst) ∧
        placeholders u.sql.toList = List.range' 1 u.params.length ∧
        u.params = (asked j).map Prod.snd ++ [uid] ∧
        ∀ inp db, Effect (asked j) uid inp db (step uid (.updateMe u) inp db)) := by
  have hstart : start uid (.updateMe (some j)) = _ := routeUpdateMe_ok uid h
  by_cases hnone : asked j = []
  · rw [if_pos hnone] at hstart
    exact Or.inl ⟨hnone, hstart⟩
  · rw [if_neg hnone] at hstart
    exact Or.inr ⟨hnone, _, hstart, sql_forUser _ uid, placeholders_forUser _ uid, rfl,
      fun inp db => effect_step (nodup_asked j) (cstr_asked h) uid inp db⟩

/-- What was asked for, as it was asked: after a 200 the columns hold the given texts. -/
def WrittenAsGiven (uid : String) (j : Json) (x : Db × Point) : Prop :=
  x.2 = answer200 → ∀ id, PgDb.uuid uid = some id →
    ∀ y ∈ x.1.users, y.id = id → ∀ p ∈ asked j, p.1.get y = some p.2

/-- And after a 500 no row is changed. -/
def UnchangedOn500 (db : Db) (x : Db × Point) : Prop := x.2 = answer500 → x.1.users = db.users

def aliceOnly : Db := registered "alice" alice {}

def aliceId : String := Uuid.uuidOut alice

/-- Two of the five columns, in the order of the body. -/
def named : Json := .obj [("bio", .str "Hi"), ("displayName", .str "Alice")]

theorem named_textFields : TextFields named := by
  intro f hf
  simp only [fields, List.mem_cons, List.not_mem_nil, or_false] at hf
  rcases hf with rfl | rfl | rfl | rfl | rfl
  · exact Or.inr (Or.inr ⟨"Alice", rfl, List.all_iff_forall_prop.mp (by decide)⟩)
  · exact Or.inr (Or.inr ⟨"Hi", rfl, List.all_iff_forall_prop.mp (by decide)⟩)
  all_goals exact Or.inl rfl

def namedColumns : List (Column × String) := [(.displayName, "Alice"), (.bio, "Hi")]

theorem asked_named : asked named = namedColumns := by decide

/-- Alice gives herself a name and a text. -/
theorem updateMe_writes_named :
    ∃ u, start aliceId (.updateMe (some named)) = .updateMe u ∧
      u.sql = "UPDATE users SET display_name = $1, bio = $2 WHERE id = $3" ∧
      u.params = ["Alice", "Hi", aliceId] ∧
      ∀ inp, Effect namedColumns aliceId inp aliceOnly (step aliceId (.updateMe u) inp aliceOnly) := by
  rcases updateMe_writes aliceId named named_textFields with
    ⟨hnone, _⟩ | ⟨_, u, hu, hsql, _, hparams, heffect⟩
  · cases hnone
  · rw [asked_named] at hsql hparams heffect
    exact ⟨u, hu, hsql.trans (by decide), hparams, fun inp => heffect inp aliceOnly⟩

/-- A number of 21 blanks. -/
def blankPhone : Json := .obj [("phone", .str "                     ")]

theorem blankPhone_textFields : TextFields blankPhone := by
  intro f hf
  simp only [fields, List.mem_cons, List.not_mem_nil, or_false] at hf
  rcases hf with rfl | rfl | rfl | rfl | rfl
  case inr.inr.inr.inr => exact Or.inr (Or.inr ⟨_, rfl, List.all_iff_forall_prop.mp (by decide)⟩)
  all_goals exact Or.inl rfl

def blankPhones : List (Column × String) := [(.phoneNumber, "                     ")]

/-- Alice asks for it, and the UPDATE is answered. -/
def blankRun : Db × Point :=
  step aliceId (.updateMe (Update.forUser blankPhones aliceId))
    ⟨⟨0, true, .done, .done⟩, secretChat⟩ aliceOnly

theorem asked_blankPhone : asked blankPhone = blankPhones := by decide

theorem start_blankPhone : start aliceId (.updateMe (some blankPhone)) =
    .updateMe (Update.forUser blankPhones aliceId) := by
  rw [← asked_blankPhone]
  exact (routeUpdateMe_ok aliceId blankPhone_textFields).trans
    (if_neg (by rw [asked_blankPhone]; exact List.cons_ne_nil _ _))

/-- The answer is 200, since the table changed. -/
theorem blankRun_cut : blankRun.2 = answer200 ∧ ∃ y ∈ blankRun.1.users.rows, y.id = alice ∧
    y.phoneNumber ≠ some "                     " := by
  have hrun : blankRun.1.users ≠ aliceOnly.users ∧ ∃ y ∈ blankRun.1.users.rows, y.id = alice ∧
      y.phoneNumber ≠ some "                     " := by decide
  refine ⟨?_, hrun.2⟩
  have heffect : Effect blankPhones aliceId ⟨⟨0, true, .done, .done⟩, secretChat⟩ aliceOnly
      blankRun := effect_step (by decide) (by decide) aliceId _ aliceOnly
  rcases heffect.answered with h | h
  · exact h
  · rcases heffect.refused h with hsame | ⟨_, _, hlost, _⟩
    · exact absurd (congrArg Db.users hsame) hrun.1
    · cases hlost

/-- The UPDATE of the name takes effect, and the answer to it is lost. -/
def lostRun : Db × Point :=
  step aliceId (.updateMe (Update.forUser namedColumns aliceId))
    ⟨⟨0, true, .lost "connection reset", .done⟩, secretChat⟩ aliceOnly

/-- Of 21 blanks 20 are stored; and a name is stored whose answer is lost. -/
theorem profile_not_as_asked :
    (TextFields blankPhone ∧
      start aliceId (.updateMe (some blankPhone)) =
        .updateMe (Update.forUser blankPhones aliceId) ∧
      blankRun.2 = answer200 ∧ ¬ WrittenAsGiven aliceId blankPhone blankRun) ∧
    TextFields named ∧
      start aliceId (.updateMe (some named)) = .updateMe (Update.forUser namedColumns aliceId) ∧
      lostRun.2 = answer500 ∧ ¬ UnchangedOn500 aliceOnly lostRun := by
  obtain ⟨h200, y, hy, hyid, hne⟩ := blankRun_cut
  have hmore : lostRun.1.users ≠ aliceOnly.users := by decide
  refine ⟨⟨blankPhone_textFields, start_blankPhone, h200, fun hwritten => ?_⟩, named_textFields,
    ?_, rfl, fun hsame => hmore (hsame rfl)⟩
  · have hcolumns := hwritten h200 alice (PgDb.uuid_uuidOut alice) y hy hyid
    rw [asked_blankPhone] at hcolumns
    exact hne (hcolumns _ List.mem_cons_self)
  · rw [← asked_named]
    exact (routeUpdateMe_ok aliceId named_textFields).trans
      (if_neg (by rw [asked_named]; exact List.cons_ne_nil _ _))

end MessengerBackend.Api.Accounts
