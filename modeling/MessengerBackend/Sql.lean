/-
  What the SELECT statements of the API use of PostgreSQL: text forms of the column types,
  ILIKE and the parameters that come from a URL.

  Locale, time zone and collation are settings of the server, so the functions that depend on
  them are fields of `Pg`. A row is what `PgDb::query` makes of it: an object from column
  names to texts, with `null` for NULL.

  `text_likeBytes`: the pattern of a search is the text of its parameter between two '%'.
-/
import MessengerBackend.Lib.Like
import MessengerBackend.Lib.Select
import MessengerBackend.Database
import MessengerBackend.Json

namespace MessengerBackend

/-- The settings of the database server that queries depend on. -/
structure Pg where
  /-- Case folding of ILIKE. -/
  lower : Char → Char
  lower_percent : lower '%' = '%'
  timestamptzOut : Time → String
  /-- "now" and "yesterday" are timestamps too, so the clock is an argument. -/
  timestamptzIn : Time → String → Option Time
  /-- The order of ORDER BY on text. -/
  collate : String → String → Bool
  /-- `t + INTERVAL '1 year'`, by the calendar. -/
  yearAfter : Time → Time

namespace Sql

/-! ## Columns -/

def uuidCol (u : Uuid) : Json := .str (Uuid.uuidOut u)

def boolCol (b : Bool) : Json := .str (if b then "t" else "f")

def intCol (n : Int) : Json := .str (toString n)

def timeCol (pg : Pg) (t : Time) : Json := .str (pg.timestamptzOut t)

def nullable {α : Type} (col : α → Json) : Option α → Json
  | none => .null
  | some a => col a

/-- `r[name]`. -/
def col (r : Json) (name : String) : Json := (r.find name).getD .null

/-! ## ILIKE -/

def wild : Like.Wild Char := ⟨'%', '_', '\\', by decide⟩

/-- `content ILIKE pattern`. A pattern that does not parse is an error of the statement; no
    pattern of the API is one, since each ends in '%'. -/
def ilike (pg : Pg) (content pattern : String) : Bool :=
  match Like.parse wild (pattern.toList.map pg.lower) with
  | none => false
  | some ts => Like.accepts ts (content.toList.map pg.lower)

/-- The same on a nullable column. -/
def ilikeNull (pg : Pg) (content : Option String) (pattern : String) : Bool :=
  content.any (fun s => ilike pg s pattern)

/-! ## Parameters of a URL -/

/-- `req.url_params.get(key) ? req.url_params.get(key) : ""`: a C string. -/
def urlParam (v : Option Bytes) : Bytes :=
  match v with
  | none => []
  | some b => b.takeWhile (· ≠ 0)

/-- `"%" + q + "%"`. -/
def likeBytes (q : Bytes) : Bytes := [37] ++ q ++ [37]

theorem ne_zero_of_mem_urlParam {v : Option Bytes} : ∀ x ∈ urlParam v, x ≠ 0 := by
  intro x hx
  cases v with
  | none => cases hx
  | some b =>
      have := List.mem_takeWhile_imp hx
      simpa using this

/-- Only '%' has the byte 37 in it: the bytes of a longer character are at least 128. -/
theorem eq_percent_of_mem {c : Char} (h : 37 ∈ String.utf8EncodeChar c) : c = '%' :=
  Char.toNat_inj.mp (toNat_of_mem_utf8EncodeChar h (by decide))

/-- A character that begins or ends with the byte 37 is that byte. -/
theorem percent_of_cons {c : Char} {cs : List Char} {b : Bytes}
    (h : (c :: cs).flatMap String.utf8EncodeChar = 37 :: b) :
    c = '%' ∧ cs.flatMap String.utf8EncodeChar = b := by
  rw [List.flatMap_cons] at h
  cases henc : String.utf8EncodeChar c with
  | nil => exact absurd henc String.utf8EncodeChar_ne_nil
  | cons x xs =>
      rw [henc, List.cons_append, List.cons.injEq] at h
      obtain rfl := eq_percent_of_mem (by rw [henc, h.1]; exact List.mem_cons_self)
      have hone : String.utf8EncodeChar '%' = [37] := by decide
      rw [hone, List.cons.injEq] at henc
      rw [← henc.2, List.nil_append] at h
      exact ⟨rfl, h.2⟩

theorem percent_of_concat {c : Char} {cs : List Char} {b : Bytes}
    (h : (cs ++ [c]).flatMap String.utf8EncodeChar = b ++ [37]) :
    c = '%' ∧ cs.flatMap String.utf8EncodeChar = b := by
  rw [List.flatMap_append, List.flatMap_singleton] at h
  rcases List.eq_nil_or_concat (String.utf8EncodeChar c) with hnil | ⟨xs, x, henc⟩
  · exact absurd hnil String.utf8EncodeChar_ne_nil
  · rw [List.concat_eq_append] at henc
    rw [henc, ← List.append_assoc] at h
    obtain ⟨hinit, hlast⟩ := List.append_inj' h rfl
    have hx : x = 37 := List.singleton_inj.mp hlast
    obtain rfl := eq_percent_of_mem (c := c) (by rw [henc, hx]; simp)
    have hone : String.utf8EncodeChar '%' = [] ++ [37] := by decide
    obtain ⟨hxs, _⟩ := List.append_inj' (henc.symm.trans hone) rfl
    rw [hxs, List.append_nil] at hinit
    exact ⟨rfl, hinit⟩

theorem ne_zero_of_mem_likeBytes {v : Option Bytes} : ∀ x ∈ likeBytes (urlParam v), x ≠ 0 := by
  intro x hx
  simp only [likeBytes, List.mem_append, List.mem_singleton] at hx
  rcases hx with (rfl | hx) | rfl
  · decide
  · exact ne_zero_of_mem_urlParam x hx
  · decide

/-- The bytes of a pattern are those of some characters between two '%'. -/
theorem around_of_likeBytes {cs : List Char} {q : Bytes}
    (h : cs.flatMap String.utf8EncodeChar = likeBytes q) :
    ∃ ds, cs = Like.around wild ds ∧ ds.flatMap String.utf8EncodeChar = q := by
  cases cs with
  | nil => cases h
  | cons c cs =>
      obtain ⟨rfl, hrest⟩ := percent_of_cons h
      rcases List.eq_nil_or_concat cs with rfl | ⟨ds, d, rfl⟩
      · simp at hrest
      · rw [List.concat_eq_append] at hrest
        obtain ⟨rfl, hmid⟩ := percent_of_concat hrest
        exact ⟨ds, by simp [Like.around, wild], hmid⟩

/-- The pattern of a search is its text with '%' on both sides. -/
theorem text_likeBytes {v : Option Bytes} {s : String} :
    PgDb.text (likeBytes (urlParam v)) = some s ↔
      ∃ t, PgDb.text (urlParam v) = some t ∧ s.toList = Like.around wild t.toList := by
  constructor
  · intro h
    have hbytes := PgDb.utf8_of_text ne_zero_of_mem_likeBytes h
    have hnul := PgDb.ne_nul_of_text ne_zero_of_mem_likeBytes h
    rw [utf8_eq_flatMap] at hbytes
    obtain ⟨ds, hs, hmid⟩ := around_of_likeBytes hbytes
    have hquery : utf8 (String.ofList ds) = urlParam v := by
      rw [utf8_eq_flatMap, String.toList_ofList]
      exact hmid
    refine ⟨String.ofList ds, ?_, by rw [String.toList_ofList, hs]⟩
    rw [← hquery]
    refine PgDb.text_utf8 (fun c hc => hnul c ?_)
    rw [String.toList_ofList] at hc
    simp [hs, Like.around, hc]
  · rintro ⟨t, ht, hs⟩
    have hnul := PgDb.ne_nul_of_text ne_zero_of_mem_urlParam ht
    have hone : String.utf8EncodeChar '%' = [37] := by decide
    have hbytes : utf8 s = likeBytes (urlParam v) := by
      rw [← PgDb.utf8_of_text ne_zero_of_mem_urlParam ht, utf8_eq_flatMap, hs, utf8_eq_flatMap]
      simp [Like.around, wild, likeBytes, hone]
    rw [← hbytes]
    refine PgDb.text_utf8 ?_
    rw [hs]
    intro c hc
    simp only [Like.around, wild, List.mem_cons, List.mem_append, List.not_mem_nil, or_false] at hc
    rcases hc with rfl | hc | rfl
    · decide
    · exact hnul c hc
    · decide

/-- Some text matches the pattern of any search. -/
theorem exists_ilike (pg : Pg) {v : Option Bytes} {s : String}
    (h : PgDb.text (likeBytes (urlParam v)) = some s) : ∃ content, ilike pg content s = true := by
  obtain ⟨t, _, ht⟩ := text_likeBytes.mp h
  have hend : s.toList.map pg.lower = (wild.any :: t.toList).map pg.lower ++ [wild.any] := by
    rw [ht, Like.around, ← List.cons_append, List.map_append]
    exact congrArg _ (congrArg (· :: []) pg.lower_percent)
  obtain ⟨ts, hts⟩ := Option.isSome_iff_exists.mp
    (hend ▸ Like.parse_append_any (w := wild) ((wild.any :: t.toList).map pg.lower))
  refine ⟨String.ofList (Like.sample wild pg.lower s.toList), ?_⟩
  unfold ilike
  rw [hts, String.toList_ofList]
  exact Like.accepts_sample pg.lower s.toList ts hts

end Sql

/-! ## Statements -/

namespace PgDb

/-- A read-only statement of a handler: its rows, or the exception of `PgDb::query`. -/
def query (o : Outcome) (q : Db → Except SqlError (List Json)) (db : Db) :
    Except SqlError (List Json) :=
  match o, q db with
  | .failed msg, _ => .error (.connection msg)
  | .done, rows => rows
  | .lost _, .error e => .error e
  | .lost msg, .ok _ => .error (.connection msg)

/-- It is what `exec` lets the caller see. -/
theorem query_eq_exec (o : Outcome) (q : Db → Except SqlError (List Json)) (db : Db) :
    query o q db = (exec o (reading q) db).2 := by
  unfold query exec reading
  cases o <;> cases q db <;> rfl

theorem query_ok {o : Outcome} {q : Db → Except SqlError (List Json)} {db : Db}
    {rows : List Json} (h : query o q db = .ok rows) : q db = .ok rows :=
  exec_reading_ok (query_eq_exec o q db ▸ h)

theorem query_congr {q : Db → Except SqlError (List Json)} {db db' : Db} (h : q db = q db')
    (o : Outcome) : query o q db = query o q db' := by
  unfold query
  rw [h]

end PgDb

end MessengerBackend
