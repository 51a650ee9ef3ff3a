/-
  `HttpApi::run_migrations`: the tables that the server makes for itself.

  A `Catalog` is what the database has: extensions, and relations by name. The script is the
  source's, statement by statement (`migrations`). Each is of the kind `… IF NOT EXISTS`, and is
  committed on its own; the first exception ends the run. `Fate` is what becomes of a
  statement outside the catalog, and the process may end between any two.

  * `migrated_of_runs`: after any number of runs that were cut off anywhere, one that goes
    through leaves what it would have left without them, and it goes through if nothing
    outside fails and the relations that were there before are of use (`Fits`). Nothing
    that was there is dropped or redefined.

  Not here: the names of constraints and the indexes behind them, and the handlers that run
  next to it.
-/
import MessengerBackend.Lib.Assoc
import MessengerBackend.Lib.Script

namespace MessengerBackend.Migrations

open Script (Fate Statement)

/-! ## The catalog -/

structure Column where
  name : String
  type : String
  notNull : Bool := false
  default : Option String := none
deriving DecidableEq

/-- ON DELETE. -/
inductive OnDelete where
  | cascade
  | setNull
deriving DecidableEq

structure Reference where
  column : String
  target : String
  targetColumn : String
  onDelete : OnDelete
deriving DecidableEq

structure TableDef where
  columns : List Column
  primaryKey : String
  unique : List (List String) := []
  references : List Reference := []
  checks : List String := []
deriving DecidableEq

inductive Relation where
  | table (t : TableDef)
  | index (table : String) (columns : List String)
  /-- A view, a sequence, …. -/
  | other
deriving DecidableEq

structure Catalog where
  extensions : List String
  relations : Assoc String Relation

def TableDef.hasColumn (t : TableDef) (name : String) : Bool := t.columns.any (·.name == name)

def TableDef.typeOf (t : TableDef) (name : String) : Option String :=
  (t.columns.find? (·.name == name)).map Column.type

/-- What a REFERENCES clause needs of the column that it points to. -/
def TableDef.isKey (t : TableDef) (name : String) (type : Option String) : Bool :=
  (t.primaryKey == name || t.unique.contains [name]) && type.any (fun ty => t.typeOf name == some ty)

def TableDef.extend (t : TableDef) (more : List Column) : TableDef :=
  { t with columns := t.columns ++ more }

def Relation.extend (more : List Column) : Relation → Relation
  | .table t => .table (t.extend more)
  | r => r

def Catalog.add (c : Catalog) (name : String) (r : Relation) : Catalog :=
  { c with relations := AList.insert name r c.relations }

/-! ## The statements -/

inductive Ddl where
  | createExtension (name : String)
  | createTable (name : String) (t : TableDef)
  | createIndex (name table : String) (columns : List String)
  | addColumn (table : String) (column : Column)

/-- A table that has to be there, and what it has to have. -/
abbrev Demand := String × (TableDef → Bool)

def Catalog.meets (c : Catalog) (d : Demand) : Bool :=
  match c.relations.lookup d.1 with
  | some (.table t) => d.2 t
  | _ => false

def Ddl.demands : Ddl → List Demand
  | .createExtension _ => []
  | .createTable _ t =>
      t.references.map (fun r => (r.target, fun u => u.isKey r.targetColumn (t.typeOf r.column)))
  | .createIndex _ table columns => [(table, fun t => columns.all t.hasColumn)]
  | .addColumn table _ => [(table, fun _ => true)]

/-- The function is the extension's. -/
def TableDef.usesUuid (t : TableDef) : Bool :=
  t.columns.any (·.default == some "uuid_generate_v4()")

/-- A table may refer to itself. -/
def Ddl.apply : Ddl → Statement Catalog
  | .createExtension name, c =>
      some (if name ∈ c.extensions then c else { c with extensions := c.extensions ++ [name] })
  | .createTable name t, c =>
      if (c.relations.lookup name).isSome then some c
      else if (!t.usesUuid || c.extensions.contains "uuid-ossp") &&
          (createTable name t).demands.all (c.add name (.table t)).meets then
        some (c.add name (.table t))
      else none
  | .createIndex name table columns, c =>
      -- the table and its columns are looked at first
      if (createIndex name table columns).demands.all c.meets then
        if (c.relations.lookup name).isSome then some c
        else some (c.add name (.index table columns))
      else none
  | .addColumn table column, c =>
      match c.relations.lookup table with
      | some (.table t) =>
          some (if t.hasColumn column.name then c else c.add table (.table (t.extend [column])))
      | _ => none

/-! ## The script -/

def nullable (name type : String) : Column := ⟨name, type, false, none⟩

def defaulting (name type value : String) : Column := ⟨name, type, false, some value⟩

def required (name type : String) : Column := ⟨name, type, true, none⟩

def requiredDefaulting (name type value : String) : Column := ⟨name, type, true, some value⟩

/-- `id UUID PRIMARY KEY DEFAULT uuid_generate_v4()` -/
def idColumn : Column := requiredDefaulting "id" "UUID" "uuid_generate_v4()"

def timestamp : String := "TIMESTAMP WITH TIME ZONE"

def createdAt : Column := defaulting "created_at" timestamp "CURRENT_TIMESTAMP"

def updatedAt : Column := defaulting "updated_at" timestamp "CURRENT_TIMESTAMP"

def cascades (column target : String) : Reference := ⟨column, target, "id", .cascade⟩

def setsNull (column target : String) : Reference := ⟨column, target, "id", .setNull⟩

def users : TableDef where
  columns := [idColumn, required "username" "VARCHAR(255)", required "email" "VARCHAR(255)",
    nullable "phone_number" "VARCHAR(20)", requiredDefaulting "password_hash" "VARCHAR(255)" "",
    requiredDefaulting "password_salt" "VARCHAR(255)" "", nullable "first_name" "VARCHAR(100)",
    nullable "last_name" "VARCHAR(100)", nullable "display_name" "VARCHAR(100)",
    nullable "status_text" "VARCHAR(255)", nullable "avatar_url" "TEXT", nullable "bio" "TEXT",
    defaulting "status" "VARCHAR(50)" "offline", requiredDefaulting "public_key" "TEXT" "",
    nullable "public_key_signature" "TEXT",
    defaulting "encryption_algorithm" "VARCHAR(50)" "chacha20poly1305",
    defaulting "two_factor_enabled" "BOOLEAN" "false", nullable "two_factor_secret" "VARCHAR(255)",
    defaulting "is_verified" "BOOLEAN" "false", defaulting "is_blocked" "BOOLEAN" "false",
    defaulting "is_deleted" "BOOLEAN" "false", createdAt, updatedAt,
    nullable "last_seen" timestamp]
  primaryKey := "id"
  unique := [["username"], ["email"], ["phone_number"]]

def otpCodes : TableDef where
  columns := [required "email" "VARCHAR(255)", required "code_hash" "VARCHAR(128)",
    requiredDefaulting "attempts" "INT" "0", required "expires_at" timestamp, createdAt]
  primaryKey := "email"

def chats : TableDef where
  columns := [idColumn, required "chat_type" "VARCHAR(20)", nullable "name" "VARCHAR(255)",
    nullable "description" "TEXT", nullable "avatar_url" "TEXT", nullable "created_by" "UUID",
    createdAt, updatedAt]
  primaryKey := "id"
  references := [setsNull "created_by" "users"]
  checks := ["chat_type IN ('private', 'group', 'channel')"]

def chatMembers : TableDef where
  columns := [idColumn, required "chat_id" "UUID", required "user_id" "UUID",
    requiredDefaulting "role" "VARCHAR(20)" "member",
    requiredDefaulting "can_admin" "BOOLEAN" "false",
    defaulting "joined_at" timestamp "CURRENT_TIMESTAMP", nullable "left_at" timestamp,
    nullable "muted_until" timestamp]
  primaryKey := "id"
  unique := [["chat_id", "user_id"]]
  references := [cascades "chat_id" "chats", cascades "user_id" "users"]

def messages : TableDef where
  columns := [idColumn, required "chat_id" "UUID", nullable "sender_id" "UUID",
    nullable "reply_to_id" "UUID", required "content" "TEXT",
    defaulting "content_type" "VARCHAR(20)" "text", defaulting "is_edited" "BOOLEAN" "false",
    defaulting "is_pinned" "BOOLEAN" "false", defaulting "is_deleted" "BOOLEAN" "false",
    createdAt, updatedAt]
  primaryKey := "id"
  references := [cascades "chat_id" "chats", setsNull "sender_id" "users",
    setsNull "reply_to_id" "messages"]

def messageDelivery : TableDef where
  columns := [idColumn, required "message_id" "UUID", required "recipient_id" "UUID",
    defaulting "status" "VARCHAR(20)" "sent", nullable "delivered_at" timestamp,
    nullable "read_at" timestamp]
  primaryKey := "id"
  unique := [["message_id", "recipient_id"]]
  references := [cascades "message_id" "messages", cascades "recipient_id" "users"]

def reactions : TableDef where
  columns := [idColumn, required "message_id" "UUID", required "user_id" "UUID",
    required "emoji" "VARCHAR(10)", createdAt]
  primaryKey := "id"
  unique := [["message_id", "user_id", "emoji"]]
  references := [cascades "message_id" "messages", cascades "user_id" "users"]

def contacts : TableDef where
  columns := [idColumn, required "user_id" "UUID", required "contact_id" "UUID",
    nullable "nickname" "VARCHAR(255)", defaulting "is_favorite" "BOOLEAN" "false",
    defaulting "is_blocked" "BOOLEAN" "false", createdAt]
  primaryKey := "id"
  unique := [["user_id", "contact_id"]]
  references := [cascades "user_id" "users", cascades "contact_id" "users"]

def channels : TableDef where
  columns := [idColumn, required "username" "VARCHAR(64)", required "name" "VARCHAR(255)",
    nullable "description" "TEXT", nullable "avatar_url" "TEXT",
    requiredDefaulting "is_public" "BOOLEAN" "true",
    requiredDefaulting "subscriber_count" "INT" "0", nullable "owner_id" "UUID", createdAt,
    updatedAt]
  primaryKey := "id"
  unique := [["username"]]
  references := [setsNull "owner_id" "users"]

def channelSubscribers : TableDef where
  columns := [idColumn, required "channel_id" "UUID", required "user_id" "UUID",
    requiredDefaulting "role" "VARCHAR(32)" "subscriber",
    defaulting "joined_at" timestamp "CURRENT_TIMESTAMP"]
  primaryKey := "id"
  unique := [["channel_id", "user_id"]]
  references := [cascades "channel_id" "channels", cascades "user_id" "users"]

def channelPosts : TableDef where
  columns := [idColumn, required "channel_id" "UUID", nullable "author_id" "UUID",
    required "content" "TEXT", defaulting "media_urls" "TEXT[]" "\x7b\x7d",
    requiredDefaulting "is_paid" "BOOLEAN" "false", createdAt]
  primaryKey := "id"
  references := [cascades "channel_id" "channels", setsNull "author_id" "users"]

def migrations : List Ddl :=
  [.createExtension "pgcrypto", .createExtension "uuid-ossp", .createTable "users" users,
   .createIndex "idx_users_username" "users" ["username"],
   .createIndex "idx_users_email" "users" ["email"],
   .createIndex "idx_users_status" "users" ["status"], .createTable "otp_codes" otpCodes,
   .addColumn "users" (nullable "display_name" "VARCHAR(100)"),
   .addColumn "users" (nullable "status_text" "VARCHAR(255)"), .createTable "chats" chats,
   .createTable "chat_members" chatMembers, .createTable "messages" messages,
   .createTable "message_delivery" messageDelivery, .createTable "reactions" reactions,
   .createTable "contacts" contacts, .createTable "channels" channels,
   .createTable "channel_subscribers" channelSubscribers, .createTable "channel_posts" channelPosts]

/-- With the catalog after it, and whether "Auto-migration complete." is printed. -/
def runMigrations (connected : Bool) (fates : List Fate) (c : Catalog) : Catalog × Bool :=
  if connected then Script.run (migrations.map Ddl.apply) fates c else (c, false)

/-! ## What is added -/

section Extend

variable {t : TableDef} {more : List Column}

theorem hasColumn_extend {name : String} (h : t.hasColumn name = true) :
    (t.extend more).hasColumn name = true := by
  rw [TableDef.hasColumn, TableDef.extend, List.any_append, Bool.or_eq_true]
  exact Or.inl h

theorem typeOf_extend {name ty : String} (h : t.typeOf name = some ty) :
    (t.extend more).typeOf name = some ty := by
  obtain ⟨c, hc, rfl⟩ := Option.map_eq_some_iff.mp h
  rw [TableDef.typeOf, TableDef.extend, List.find?_append, hc]
  rfl

theorem isKey_extend {name : String} {type : Option String} (h : t.isKey name type = true) :
    (t.extend more).isKey name type = true := by
  rw [TableDef.isKey, Bool.and_eq_true] at h ⊢
  refine ⟨h.1, ?_⟩
  obtain ⟨ty, rfl, hty⟩ := (Option.any_eq_true _ _).mp h.2
  exact (Option.any_eq_true _ _).mpr ⟨ty, rfl, beq_iff_eq.mpr (typeOf_extend (beq_iff_eq.mp hty))⟩

/-- A wider table is as good. -/
theorem demand_extend {st : Ddl} {d : Demand} (hd : d ∈ st.demands) (h : d.2 t = true) :
    d.2 (t.extend more) = true := by
  cases st with
  | createExtension name => cases hd
  | createTable name u =>
      obtain ⟨r, _, rfl⟩ := List.mem_map.mp hd
      exact isKey_extend h
  | createIndex name table columns =>
      obtain rfl := List.mem_singleton.mp hd
      exact List.all_eq_true.mpr (fun c hc => hasColumn_extend (List.all_eq_true.mp h c hc))
  | addColumn table column =>
      obtain rfl := List.mem_singleton.mp hd
      rfl

end Extend

theorem extend_nil (r : Relation) : r.extend [] = r := by
  cases r with
  | table t =>
      rw [Relation.extend, TableDef.extend, List.append_nil]
  | _ => rfl

theorem extend_append (r : Relation) (xs ys : List Column) :
    (r.extend xs).extend ys = r.extend (xs ++ ys) := by
  cases r with
  | table t =>
      show Relation.table ((t.extend xs).extend ys) = .table (t.extend (xs ++ ys))
      rw [TableDef.extend, TableDef.extend, TableDef.extend, List.append_assoc]
  | _ => rfl

/-- Nothing is gone; a table may have more columns. -/
structure Grown (c d : Catalog) : Prop where
  extensions : ∀ e ∈ c.extensions, e ∈ d.extensions
  relations : ∀ n r, c.relations.lookup n = some r → ∃ more, d.relations.lookup n = some (r.extend more)

instance : Preorder Catalog where
  le := Grown
  le_refl c := ⟨fun _ h => h, fun n r h => ⟨[], by rw [extend_nil]; exact h⟩⟩
  le_trans c d e hcd hde := by
    refine ⟨fun x hx => hde.extensions x (hcd.extensions x hx), fun n r h => ?_⟩
    obtain ⟨xs, hd⟩ := hcd.relations n r h
    obtain ⟨ys, he⟩ := hde.relations n _ hd
    exact ⟨xs ++ ys, by rw [← extend_append]; exact he⟩

section Grown

variable {c d : Catalog} {n : String}

theorem lookup_add (c : Catalog) (n : String) (r : Relation) (k : String) :
    (c.add n r).relations.lookup k = if k = n then some r else c.relations.lookup k :=
  Assoc.lookup_insert c.relations n r k

theorem le_add (h : c.relations.lookup n = none) (r : Relation) : c ≤ c.add n r := by
  refine ⟨fun _ he => he, fun k r' hk => ⟨[], ?_⟩⟩
  have hne : k ≠ n := by
    rintro rfl
    rw [h] at hk
    cases hk
  rw [lookup_add, if_neg hne, extend_nil]
  exact hk

theorem le_addColumn {t : TableDef} (h : c.relations.lookup n = some (.table t))
    (more : List Column) : c ≤ c.add n (.table (t.extend more)) := by
  refine ⟨fun _ he => he, fun k r hk => ?_⟩
  by_cases hkn : k = n
  · subst hkn
    rw [h] at hk
    cases hk
    exact ⟨more, by rw [lookup_add, if_pos rfl]; rfl⟩
  · exact ⟨[], by rw [lookup_add, if_neg hkn, extend_nil]; exact hk⟩

theorem table_of_meets {x : Demand} (h : c.meets x = true) :
    ∃ t, c.relations.lookup x.1 = some (.table t) ∧ x.2 t = true := by
  unfold Catalog.meets at h
  split at h
  · exact ⟨_, ‹_›, h⟩
  · cases h

theorem meets_of_table {x : Demand} {t : TableDef} (h : c.relations.lookup x.1 = some (.table t))
    (hx : x.2 t = true) : c.meets x = true := by
  unfold Catalog.meets
  rw [h]
  exact hx

theorem meets_mono {st : Ddl} {x : Demand} (hx : x ∈ st.demands) (hcd : c ≤ d)
    (h : c.meets x = true) : d.meets x = true := by
  obtain ⟨t, ht, hxt⟩ := table_of_meets h
  obtain ⟨more, hd⟩ := hcd.relations _ _ ht
  exact meets_of_table hd (demand_extend hx hxt)

theorem isSome_mono (hcd : c ≤ d) (h : (c.relations.lookup n).isSome = true) :
    (d.relations.lookup n).isSome = true := by
  obtain ⟨r, hr⟩ := Option.isSome_iff_exists.mp h
  obtain ⟨more, hd⟩ := hcd.relations n r hr
  rw [hd]
  rfl

end Grown

/-! ## The statements may be repeated -/

/-- The relations that are there afterwards. -/
def Ddl.creates : Ddl → List String
  | .createTable name _ => [name]
  | .createIndex name _ _ => [name]
  | _ => []

section Statement

variable {c c' d : Catalog}

theorem apply_createTable {name : String} {t : TableDef}
    (h : (Ddl.createTable name t).apply c = some c') :
    (c' = c ∧ (c.relations.lookup name).isSome = true) ∨
      (c.relations.lookup name = none ∧ c' = c.add name (.table t)) := by
  simp only [Ddl.apply] at h
  split at h
  · cases h
    exact Or.inl ⟨rfl, ‹_›⟩
  · rename_i hnone
    split at h
    · cases h
      exact Or.inr ⟨by simpa using hnone, rfl⟩
    · cases h

theorem apply_createIndex {name table : String} {columns : List String}
    (h : (Ddl.createIndex name table columns).apply c = some c') :
    (Ddl.createIndex name table columns).demands.all c.meets = true ∧
      ((c' = c ∧ (c.relations.lookup name).isSome = true) ∨
        (c.relations.lookup name = none ∧ c' = c.add name (.index table columns))) := by
  simp only [Ddl.apply] at h
  split at h
  · rename_i hmeets
    refine ⟨hmeets, ?_⟩
    split at h
    · cases h
      exact Or.inl ⟨rfl, ‹_›⟩
    · rename_i hnone
      cases h
      exact Or.inr ⟨by simpa using hnone, rfl⟩
  · cases h

theorem apply_addColumn {table : String} {column : Column}
    (h : (Ddl.addColumn table column).apply c = some c') :
    ∃ t, c.relations.lookup table = some (.table t) ∧
      ((c' = c ∧ t.hasColumn column.name = true) ∨ c' = c.add table (.table (t.extend [column]))) := by
  simp only [Ddl.apply] at h
  split at h
  · rename_i t ht
    cases h
    refine ⟨t, ht, ?_⟩
    split
    · exact Or.inl ⟨rfl, ‹_›⟩
    · exact Or.inr rfl
  · cases h

theorem apply_adds {st : Ddl} (h : st.apply c = some c') : c ≤ c' := by
  cases st with
  | createExtension name =>
      cases h
      split
      · exact le_refl c
      · refine ⟨fun e he => List.mem_append_left _ he, fun n r hn => ⟨[], ?_⟩⟩
        rw [extend_nil]
        exact hn
  | createTable name t =>
      rcases apply_createTable h with ⟨rfl, _⟩ | ⟨hnone, rfl⟩
      · exact le_refl _
      · exact le_add hnone _
  | createIndex name table columns =>
      rcases (apply_createIndex h).2 with ⟨rfl, _⟩ | ⟨hnone, rfl⟩
      · exact le_refl _
      · exact le_add hnone _
  | addColumn table column =>
      obtain ⟨t, ht, ⟨rfl, _⟩ | rfl⟩ := apply_addColumn h
      · exact le_refl _
      · exact le_addColumn ht _

theorem isSome_creates {st : Ddl} (h : st.apply c = some c') :
    ∀ n ∈ st.creates, (c'.relations.lookup n).isSome = true := by
  intro n hn
  cases st with
  | createTable name t =>
      obtain rfl := List.mem_singleton.mp hn
      rcases apply_createTable h with ⟨rfl, hsome⟩ | ⟨_, rfl⟩
      · exact hsome
      · rw [lookup_add, if_pos rfl]
        rfl
  | createIndex name table columns =>
      obtain rfl := List.mem_singleton.mp hn
      rcases (apply_createIndex h).2 with ⟨rfl, hsome⟩ | ⟨_, rfl⟩
      · exact hsome
      · rw [lookup_add, if_pos rfl]
        rfl
  | createExtension name => cases hn
  | addColumn table column => cases hn

theorem apply_stays {st : Ddl} (h : st.apply c = some c') (hd : c' ≤ d) : st.apply d = some d := by
  have hcreates := isSome_creates h
  have hadds := apply_adds h
  cases st with
  | createExtension name =>
      have hname : name ∈ d.extensions := by
        refine hd.extensions name ?_
        cases h
        split
        · assumption
        · exact List.mem_append_right _ List.mem_cons_self
      simp only [Ddl.apply, if_pos hname]
  | createTable name t =>
      have hsome := isSome_mono hd (hcreates name List.mem_cons_self)
      simp only [Ddl.apply, hsome, if_true]
  | createIndex name table columns =>
      have hsome := isSome_mono hd (hcreates name List.mem_cons_self)
      have hmeets : (Ddl.createIndex name table columns).demands.all d.meets = true :=
        List.all_eq_true.mpr (fun x hx => meets_mono hx (le_trans hadds hd)
          (List.all_eq_true.mp (apply_createIndex h).1 x hx))
      simp only [Ddl.apply, hmeets, hsome, if_true]
  | addColumn table column =>
      have hcolumn : ∃ u, c'.relations.lookup table = some (.table u) ∧
          u.hasColumn column.name = true := by
        obtain ⟨t, ht, ⟨rfl, hhas⟩ | rfl⟩ := apply_addColumn h
        · exact ⟨t, ht, hhas⟩
        · refine ⟨t.extend [column], by rw [lookup_add, if_pos rfl], ?_⟩
          simp [TableDef.hasColumn, TableDef.extend]
      obtain ⟨u, hu, hhas⟩ := hcolumn
      obtain ⟨more, hmore⟩ := hd.relations table _ hu
      have hmore : d.relations.lookup table = some (.table (u.extend more)) := hmore
      simp only [Ddl.apply, hmore, hasColumn_extend hhas, if_true]

theorem guarded_apply (st : Ddl) : Script.Guarded st.apply :=
  ⟨fun _ _ h => apply_adds h, fun _ _ _ h hd => apply_stays h hd⟩

theorem guarded_script (script : List Ddl) : ∀ f ∈ script.map Ddl.apply, Script.Guarded f := by
  intro f hf
  obtain ⟨st, _, rfl⟩ := List.mem_map.mp hf
  exact guarded_apply st

end Statement

/-! ## A script that goes through -/

/-- What is there under a name that the script uses is of use. -/
def FitsAll (script : List Ddl) (c : Catalog) : Prop :=
  ∀ st ∈ script, ∀ x ∈ st.demands, c.relations.lookup x.1 = none ∨ c.meets x = true

/-- What a statement makes is as the script demands it. -/
def suits (script : List Ddl) : Ddl → Bool
  | .createTable name t => script.all (fun st => st.demands.all (fun x => x.1 != name || x.2 t))
  | .createIndex name _ _ => script.all (fun st => st.demands.all (fun x => x.1 != name))
  | _ => true

def Ddl.extension : Ddl → List String
  | .createExtension name => [name]
  | _ => []

def Ddl.usesUuid : Ddl → Bool
  | .createTable _ t => t.usesUuid
  | _ => false

/-- What a statement needs is made before it, or by it. -/
def ordered : List String → List String → List Ddl → Bool
  | _, _, [] => true
  | exts, names, st :: rest =>
      st.demands.all (fun x => (st.creates ++ names).contains x.1) &&
        (!st.usesUuid || exts.contains "uuid-ossp") &&
        ordered (st.extension ++ exts) (st.creates ++ names) rest

section Complete

variable {script : List Ddl} {st : Ddl} {c c' : Catalog}

theorem meets_add_of_ne {x : Demand} {n : String} (h : x.1 ≠ n) (r : Relation) :
    (c.add n r).meets x = c.meets x := by
  unfold Catalog.meets
  rw [lookup_add, if_neg h]

theorem suits_table {name : String} {t : TableDef} (h : suits script (.createTable name t) = true)
    (hst : st ∈ script) {x : Demand} (hx : x ∈ st.demands) (hname : x.1 = name) : x.2 t = true := by
  have hall := List.all_eq_true.mp (List.all_eq_true.mp h st hst) x hx
  simpa [hname] using hall

theorem suits_index {name table : String} {columns : List String}
    (h : suits script (.createIndex name table columns) = true) (hst : st ∈ script) {x : Demand}
    (hx : x ∈ st.demands) : x.1 ≠ name := by
  simpa using List.all_eq_true.mp (List.all_eq_true.mp h st hst) x hx

theorem fitsAll_apply (hfits : FitsAll script c) (hsuits : suits script st = true)
    (h : st.apply c = some c') : FitsAll script c' := by
  intro st' hst' x hx
  have hold := hfits st' hst' x hx
  have hle := apply_adds h
  -- a relation that is new, or one that was there
  have hkept : c'.relations.lookup x.1 = c.relations.lookup x.1 ∨ c.meets x = true →
      c'.relations.lookup x.1 = none ∨ c'.meets x = true := by
    rintro (hsame | hmeets)
    · rcases hold with hnone | hmeets
      · exact Or.inl (hsame.trans hnone)
      · exact Or.inr (meets_mono hx hle hmeets)
    · exact Or.inr (meets_mono hx hle hmeets)
  cases st with
  | createExtension name =>
      refine hkept (Or.inl ?_)
      cases h
      split <;> rfl
  | createTable name t =>
      rcases apply_createTable h with ⟨rfl, _⟩ | ⟨_, rfl⟩
      · exact hold
      · by_cases hname : x.1 = name
        · refine Or.inr (meets_of_table ?_ (suits_table hsuits hst' hx hname))
          rw [lookup_add, if_pos hname]
        · exact hkept (Or.inl (by rw [lookup_add, if_neg hname]))
  | createIndex name table columns =>
      rcases (apply_createIndex h).2 with ⟨rfl, _⟩ | ⟨_, rfl⟩
      · exact hold
      · exact hkept (Or.inl (by rw [lookup_add, if_neg (suits_index hsuits hst' hx)]))
  | addColumn table column =>
      obtain ⟨t, ht, ⟨rfl, _⟩ | rfl⟩ := apply_addColumn h
      · exact hold
      · by_cases htable : x.1 = table
        · rcases hold with hnone | hmeets
          · rw [htable, ht] at hnone
            cases hnone
          · exact hkept (Or.inr hmeets)
        · exact hkept (Or.inl (by rw [lookup_add, if_neg htable]))

/-- A statement whose demands are there is executed. -/
theorem apply_isSome (hfits : FitsAll script c) (hst : st ∈ script)
    (hsuits : suits script st = true)
    (hthere : ∀ x ∈ st.demands, x.1 ∈ st.creates ∨ (c.relations.lookup x.1).isSome = true)
    (huuid : st.usesUuid = true → "uuid-ossp" ∈ c.extensions) : ∃ c', st.apply c = some c' := by
  have hmeets : ∀ x ∈ st.demands, (c.relations.lookup x.1).isSome = true → c.meets x = true := by
    intro x hx hsome
    rcases hfits st hst x hx with hnone | hmeets
    · rw [hnone] at hsome
      cases hsome
    · exact hmeets
  cases st with
  | createExtension name => exact ⟨_, rfl⟩
  | createTable name t =>
      by_cases hname : (c.relations.lookup name).isSome = true
      · exact ⟨c, by simp only [Ddl.apply, hname, if_true]⟩
      · refine ⟨c.add name (.table t), ?_⟩
        have hall : (Ddl.createTable name t).demands.all (c.add name (.table t)).meets = true := by
          refine List.all_eq_true.mpr (fun x hx => ?_)
          by_cases hx1 : x.1 = name
          · refine meets_of_table ?_ (suits_table hsuits hst hx hx1)
            rw [lookup_add, if_pos hx1]
          · rw [meets_add_of_ne hx1]
            exact hmeets x hx ((hthere x hx).resolve_left (fun h => hx1 (List.mem_singleton.mp h)))
        have huse : (!t.usesUuid || c.extensions.contains "uuid-ossp") = true := by
          cases hu : t.usesUuid with
          | false => rfl
          | true => simpa using huuid hu
        simp only [Ddl.apply, if_neg hname, huse, hall, Bool.and_self, if_true]
  | createIndex name table columns =>
      have hall : (Ddl.createIndex name table columns).demands.all c.meets = true :=
        List.all_eq_true.mpr (fun x hx => hmeets x hx ((hthere x hx).resolve_left
          (fun h => suits_index hsuits hst hx (List.mem_singleton.mp h))))
      simp only [Ddl.apply, hall, if_true]
      split
      · exact ⟨_, rfl⟩
      · exact ⟨_, rfl⟩
  | addColumn table column =>
      have hx := hmeets (table, fun _ => true) List.mem_cons_self
        ((hthere _ List.mem_cons_self).resolve_left List.not_mem_nil)
      obtain ⟨t, ht, _⟩ := table_of_meets hx
      have ht : c.relations.lookup table = some (.table t) := ht
      simp only [Ddl.apply, ht]
      exact ⟨_, rfl⟩

theorem exec_complete (hsuits : ∀ st ∈ script, suits script st = true) (rest : List Ddl) :
    ∀ (exts names : List String) (c : Catalog), (∀ st ∈ rest, st ∈ script) → FitsAll script c →
      (∀ e ∈ exts, e ∈ c.extensions) → (∀ n ∈ names, (c.relations.lookup n).isSome = true) →
      ordered exts names rest = true → (Script.exec (rest.map Ddl.apply) c).2 = true := by
  induction rest with
  | nil => exact fun _ _ _ _ _ _ _ _ => rfl
  | cons st rest ih =>
      intro exts names c hsub hfits hexts hnames hordered
      simp only [ordered, Bool.and_eq_true, List.all_eq_true, List.contains_iff_mem,
        List.mem_append] at hordered
      obtain ⟨⟨hdemands, huuid⟩, hrest⟩ := hordered
      have hst := hsub st List.mem_cons_self
      obtain ⟨c', hc'⟩ := apply_isSome hfits hst (hsuits st hst)
        (fun x hx => (hdemands x hx).imp_right (hnames x.1)) (fun hu => by
          rw [hu] at huuid
          exact hexts _ (by simpa using huuid))
      have hle := apply_adds hc'
      rw [List.map_cons]
      simp only [Script.exec, hc']
      refine ih _ _ c' (fun s hs => hsub s (List.mem_cons_of_mem st hs))
        (fitsAll_apply hfits (hsuits st hst) hc') (fun e he => ?_) (fun n hn => ?_) hrest
      · rcases List.mem_append.mp he with he | he
        · cases st with
          | createExtension name =>
              obtain rfl := List.mem_singleton.mp he
              cases hc'
              split
              · assumption
              · exact List.mem_append_right _ List.mem_cons_self
          | _ => cases he
        · exact hle.extensions e (hexts e he)
      · rcases List.mem_append.mp hn with hn | hn
        · exact isSome_creates hc' n hn
        · exact isSome_mono hle (hnames n hn)

end Complete

/-! ## After any runs -/

/-- A statement makes nothing but what it names. -/
theorem lookup_apply {st : Ddl} {c c' : Catalog} {n : String} (h : st.apply c = some c')
    (hnone : c.relations.lookup n = none) (hn : n ∉ st.creates) : c'.relations.lookup n = none := by
  cases st with
  | createExtension name =>
      cases h
      split <;> exact hnone
  | createTable name t =>
      rcases apply_createTable h with ⟨rfl, _⟩ | ⟨_, rfl⟩
      · exact hnone
      · rw [lookup_add, if_neg (fun heq => hn (List.mem_singleton.mpr heq))]
        exact hnone
  | createIndex name table columns =>
      rcases (apply_createIndex h).2 with ⟨rfl, _⟩ | ⟨_, rfl⟩
      · exact hnone
      · rw [lookup_add, if_neg (fun heq => hn (List.mem_singleton.mpr heq))]
        exact hnone
  | addColumn table column =>
      obtain ⟨t, ht, ⟨rfl, _⟩ | rfl⟩ := apply_addColumn h
      · exact hnone
      · have hne : n ≠ table := by
          rintro rfl
          rw [ht] at hnone
          cases hnone
        rw [lookup_add, if_neg hne]
        exact hnone

/-- A table that was not there is the script's. -/
theorem made_of_exec {d : Catalog} {name : String} {t : TableDef} (script : List Ddl) :
    ∀ c, (script.flatMap Ddl.creates).Nodup → Script.exec (script.map Ddl.apply) c = (d, true) →
      .createTable name t ∈ script → c.relations.lookup name = none →
      ∃ more, d.relations.lookup name = some (.table (t.extend more)) := by
  induction script with
  | nil => exact fun _ _ _ h => absurd h List.not_mem_nil
  | cons st rest ih =>
      intro c hnodup hd hmem hnone
      rw [List.flatMap_cons, List.nodup_append] at hnodup
      rw [List.map_cons] at hd
      simp only [Script.exec] at hd
      cases hst : st.apply c with
      | none =>
          rw [hst] at hd
          cases hd
      | some c' =>
          rw [hst] at hd
          have hd : Script.exec (rest.map Ddl.apply) c' = (d, true) := hd
          rcases List.mem_cons.mp hmem with rfl | hmem
          · have hnew : c'.relations.lookup name = some (.table t) := by
              rcases apply_createTable hst with ⟨_, hsome⟩ | ⟨_, rfl⟩
              · rw [hnone] at hsome
                cases hsome
              · rw [lookup_add, if_pos rfl]
            have hle : c' ≤ d := by
              have hle := Script.le_exec (guarded_script rest) c'
              rwa [hd] at hle
            exact hle.relations name _ hnew
          · refine ih c' hnodup.2.1 hd hmem (lookup_apply hst hnone (fun hn => ?_))
            have hlater : name ∈ rest.flatMap Ddl.creates :=
              List.mem_flatMap.mpr ⟨_, hmem, List.mem_cons_self⟩
            exact hnodup.2.2 name hn name hlater rfl

def Fits (c : Catalog) : Prop := FitsAll migrations c

theorem exec_migrations {c : Catalog} (h : Fits c) :
    (Script.exec (migrations.map Ddl.apply) c).2 = true :=
  exec_complete (List.all_eq_true.mp (by decide)) migrations [] [] c
    (fun _ h => h) h (fun _ he => absurd he List.not_mem_nil) (fun _ hn => absurd hn List.not_mem_nil)
    (by decide)

/-- Runs that may each have been without a connection, or cut off. -/
def afterRuns (c : Catalog) (runs : List (Bool × List Fate)) : Catalog :=
  runs.foldl (fun c r => (runMigrations r.1 r.2 c).1) c

def allDone : List Fate := List.replicate migrations.length .done

theorem runMigrations_allDone (c : Catalog) :
    runMigrations true allDone c = Script.exec (migrations.map Ddl.apply) c := by
  rw [← Script.run_replicate, List.length_map]
  rfl

/-- A run without a connection is one that was cut off at once. -/
theorem runMigrations_fst (connected : Bool) (fates : List Fate) (c : Catalog) :
    (runMigrations connected fates c).1 =
      (Script.run (migrations.map Ddl.apply) (if connected then fates else []) c).1 := by
  cases connected <;> rfl

theorem afterRuns_eq (c : Catalog) (runs : List (Bool × List Fate)) :
    afterRuns c runs = (runs.map (fun r => if r.1 then r.2 else [])).foldl
      (fun c fates => (Script.run (migrations.map Ddl.apply) fates c).1) c := by
  rw [List.foldl_map]
  simp only [afterRuns, runMigrations_fst]

theorem migrated_of_runs (c : Catalog) (hc : Fits c) (runs : List (Bool × List Fate)) :
    c ≤ afterRuns c runs ∧ ∃ d, runMigrations true allDone (afterRuns c runs) = (d, true) ∧
      runMigrations true allDone c = (d, true) ∧
      (∀ connected fates, (runMigrations connected fates d).1 = d) ∧
      (∀ st ∈ migrations, st.apply d = some d) ∧
      ∀ name t, .createTable name t ∈ migrations → c.relations.lookup name = none →
        ∃ more, d.relations.lookup name = some (.table (t.extend more)) := by
  rw [runMigrations_allDone, runMigrations_allDone, afterRuns_eq, Script.exec_runs (guarded_script migrations)]
  have hwhole := exec_migrations hc
  obtain ⟨d, hd⟩ : ∃ d, Script.exec (migrations.map Ddl.apply) c = (d, true) :=
    ⟨_, Prod.ext rfl hwhole⟩
  refine ⟨Script.le_runs (guarded_script migrations) _ c, d, hd, hd, fun connected fates => ?_,
    fun st hst => ?_, fun name t ht hnone => ?_⟩
  · rw [runMigrations_fst]
    exact Script.run_done (guarded_script migrations) hd _
  · exact Script.stays_of_exec (guarded_script migrations) hd _ (List.mem_map_of_mem hst) d (le_refl d)
  · exact made_of_exec migrations c (by decide) hd ht hnone

def emptyCatalog : Catalog := ⟨[], ∅⟩

/-- A new database, a run that loses an answer in the middle, and one without a connection. -/
theorem migrated_of_runs_empty :
    ∃ d, runMigrations true allDone (afterRuns emptyCatalog
        [(true, [.done, .done, .done, .done, .lost]), (false, []), (true, [.done, .failed])]) =
      (d, true) ∧ ∃ more, d.relations.lookup "contacts" = some (.table (contacts.extend more)) := by
  obtain ⟨_, d, hd, _, _, _, hnew⟩ := migrated_of_runs emptyCatalog (fun _ _ _ _ => Or.inl rfl)
    [(true, [.done, .done, .done, .done, .lost]), (false, []), (true, [.done, .failed])]
  exact ⟨d, hd, hnew "contacts" contacts (by simp [migrations]) rfl⟩

end MessengerBackend.Migrations
