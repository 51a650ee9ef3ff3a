/-
  `json::dump()`: the compact text of a value.

  An object is a `std::map`, so its fields come in the order of their keys. Strings are written
  as UTF-8, with `"`, `\` and the control characters below 32 escaped.
-/
import Mathlib.Data.List.Sort
import MessengerBackend.Json
import MessengerBackend.Uuid

namespace MessengerBackend.Json

/-- How a character stands in a string literal. -/
def escape (c : Char) : List Char :=
  if c = '"' then ['\\', '"']
  else if c = '\\' then ['\\', '\\']
  else if c.toNat = 8 then ['\\', 'b']
  else if c.toNat = 9 then ['\\', 't']
  else if c.toNat = 10 then ['\\', 'n']
  else if c.toNat = 12 then ['\\', 'f']
  else if c.toNat = 13 then ['\\', 'r']
  else if h : c.toNat < 32 then
    ['\\', 'u', '0', '0', Uuid.hexChar ⟨c.toNat / 16, by omega⟩,
      Uuid.hexChar ⟨c.toNat % 16, by omega⟩]
  else [c]

def quote (s : String) : String := String.ofList ('"' :: s.toList.flatMap escape ++ ['"'])

/-- The fields of an object by their keys. -/
def sortFields (fields : List (String × String)) : List (String × String) :=
  fields.insertionSort (fun a b => a.1 ≤ b.1)

def commas (l : List String) : String := String.intercalate "," l

mutual

def dump : Json → String
  | .null => "null"
  | .bool b => if b then "true" else "false"
  | .num n => toString n
  -- the server dumps no number of this kind
  | .real n => toString n ++ ".0"
  | .str s => quote s
  | .arr l => "[" ++ commas (dumpAll l) ++ "]"
  | .obj fields =>
      "\x7b" ++ commas ((sortFields (dumpFields fields)).map (fun f => quote f.1 ++ ":" ++ f.2)) ++
        "\x7d"

def dumpAll : List Json → List String
  | [] => []
  | j :: l => dump j :: dumpAll l

def dumpFields : List (String × Json) → List (String × String)
  | [] => []
  | (key, j) :: fields => (key, dump j) :: dumpFields fields

end

/-! ## Reading a literal back -/

/-- The first character of a literal, and what follows it. -/
def unescape : List Char → Option (Char × List Char)
  | '\\' :: 'u' :: '0' :: '0' :: a :: b :: r => do
      let x ← Uuid.hexDigit a
      let y ← Uuid.hexDigit b
      some (Char.ofNat (16 * x.val + y.val), r)
  | '\\' :: 'b' :: r => some (Char.ofNat 8, r)
  | '\\' :: 't' :: r => some (Char.ofNat 9, r)
  | '\\' :: 'n' :: r => some (Char.ofNat 10, r)
  | '\\' :: 'f' :: r => some (Char.ofNat 12, r)
  | '\\' :: 'r' :: r => some (Char.ofNat 13, r)
  | '\\' :: c :: r => some (c, r)
  | c :: r => some (c, r)
  | [] => none

theorem unescape_escape (c : Char) (r : List Char) : unescape (escape c ++ r) = some (c, r) := by
  have hval : ∀ {n : Nat}, c.toNat = n → Char.ofNat n = c := by
    intro n hn
    rw [← hn]
    exact Char.ofNat_toNat c
  unfold escape
  split
  · rename_i h
    subst h
    rfl
  split
  · rename_i h
    subst h
    rfl
  split
  · rename_i h
    rw [← hval h]
    rfl
  split
  · rename_i h
    rw [← hval h]
    rfl
  split
  · rename_i h
    rw [← hval h]
    rfl
  split
  · rename_i h
    rw [← hval h]
    rfl
  split
  · rename_i h
    rw [← hval h]
    rfl
  split
  · simp only [List.cons_append, List.nil_append, unescape, Uuid.hexDigit_hexChar,
      Option.bind_eq_bind, Option.bind_some]
    rw [hval (by omega)]
  · rw [List.singleton_append]
    unfold unescape
    split
    all_goals simp_all

theorem flatMap_escape_injective {l m : List Char} (h : l.flatMap escape = m.flatMap escape) :
    l = m := by
  have hne : ∀ (c : Char) (r : List Char), [] ≠ escape c ++ r := by
    intro c r hnil
    have hread := unescape_escape c r
    rw [← hnil] at hread
    cases hread
  induction l generalizing m with
  | nil =>
      cases m with
      | nil => rfl
      | cons d m => exact absurd h (hne d _)
  | cons c l ih =>
      cases m with
      | nil => exact absurd h.symm (hne c _)
      | cons d m =>
          rw [List.flatMap_cons, List.flatMap_cons] at h
          have hread := unescape_escape c (l.flatMap escape)
          rw [h, unescape_escape] at hread
          obtain ⟨hc, hrest⟩ := Prod.mk.inj (Option.some.inj hread)
          rw [hc, ih hrest.symm]

/-- A literal is that of one string. -/
theorem quote_injective {s t : String} (h : quote s = quote t) : s = t := by
  have hlist := congrArg String.toList h
  unfold quote at hlist
  rw [String.toList_ofList, String.toList_ofList, List.cons_append, List.cons_append] at hlist
  exact String.toList_inj.mp
    (flatMap_escape_injective (List.append_cancel_right (List.cons.inj hlist).2))

end MessengerBackend.Json
