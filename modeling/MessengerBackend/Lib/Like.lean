/-
  Library: wildcard patterns with an escape character, as SQL LIKE has them.

  `parse` reads a pattern into tokens; it fails on an escape character with nothing behind it.
  `accepts` decides whether a text is matched as a whole. `sample` is a text that a pattern
  matches after a map of the characters (case folding, say) on both sides
  (`accepts_sample`).

  `around q` is the pattern of a substring search. Without a special character in `q` it
  matches what contains `q` (`accepts_around`); with one it also matches a text that does not
  (`not_infix_fill`), since that text weighs less than `q`.

  Names nothing of the server.
-/
import Mathlib.Algebra.Order.BigOperators.Group.List
import Mathlib.Algebra.Order.Ring.Nat
import Mathlib.Data.List.Infix

namespace Like

/-- The special characters of a pattern. -/
structure Wild (α : Type) where
  any : α
  one : α
  esc : α
  any_ne_esc : any ≠ esc

inductive Tok (α : Type) where
  | any
  | one
  | lit (c : α)
deriving DecidableEq

variable {α : Type} [DecidableEq α] (w : Wild α)

/-- A character that is not an escape. -/
def Wild.tok (x : α) : Tok α :=
  if x = w.any then .any else if x = w.one then .one else .lit x

def parse : List α → Option (List (Tok α))
  | [] => some []
  | x :: xs =>
      if x = w.esc then
        match xs with
        | [] => none
        | y :: ys => (parse ys).map (Tok.lit y :: ·)
      else (parse xs).map (w.tok x :: ·)

def accepts : List (Tok α) → List α → Bool
  | [], s => s.isEmpty
  | .any :: ts, s => s.tails.any (fun t => accepts ts t)
  | .one :: ts, s =>
      match s with
      | [] => false
      | _ :: t => accepts ts t
  | .lit c :: ts, s =>
      match s with
      | [] => false
      | x :: t => x = c && accepts ts t

/-- Drop every "any", keep every other character, an escaped one without its escape. -/
def sample (f : α → α) : List α → List α
  | [] => []
  | x :: xs =>
      if f x = w.esc then
        match xs with
        | [] => []
        | y :: ys => y :: sample f ys
      else if f x = w.any then sample f xs
      else x :: sample f xs

variable {w}

theorem parse_esc (y : α) (ys : List α) :
    parse w (w.esc :: y :: ys) = (parse w ys).map (Tok.lit y :: ·) := by
  rw [parse, if_pos rfl]

theorem parse_tok {x : α} (h : x ≠ w.esc) (xs : List α) :
    parse w (x :: xs) = (parse w xs).map (w.tok x :: ·) := by
  rw [parse.eq_def]
  exact if_neg h

/-- A pattern that ends in "any" parses: what stands before the end is not an escape, or
    escapes the end. -/
theorem parse_append_any (xs : List α) : (parse w (xs ++ [w.any])).isSome := by
  induction xs using parse.induct w with
  | case1 =>
      rw [List.nil_append, parse_tok w.any_ne_esc]
      rfl
  | case2 =>
      rw [List.singleton_append, parse_esc]
      rfl
  | case3 y ys ih =>
      rw [List.cons_append, List.cons_append, parse_esc, Option.isSome_map]
      exact ih
  | case4 x xs h ih =>
      rw [List.cons_append, parse_tok h, Option.isSome_map]
      exact ih

/-- "any" matches the empty text. -/
theorem accepts_any {ts : List (Tok α)} {s : List α} (h : accepts ts s = true) :
    accepts (.any :: ts) s = true := by
  unfold accepts
  exact List.any_eq_true.mpr ⟨s, (List.mem_tails s s).mpr List.suffix_rfl, h⟩

/-- A character that is neither an escape nor "any" is matched by itself. -/
theorem accepts_tok {x : α} (hx : x ≠ w.any) {ts : List (Tok α)} {s : List α}
    (h : accepts ts s = true) : accepts (w.tok x :: ts) (x :: s) = true := by
  unfold Wild.tok
  rw [if_neg hx]
  split
  · exact h
  · simp [accepts, h]

theorem sample_any {f : α → α} {x : α} (h : f x = w.any) (xs : List α) :
    sample w f (x :: xs) = sample w f xs := by
  rw [sample.eq_def]
  exact (if_neg (h ▸ w.any_ne_esc)).trans (if_pos h)

theorem sample_tok {f : α → α} {x : α} (h : f x ≠ w.esc) (h' : f x ≠ w.any) (xs : List α) :
    sample w f (x :: xs) = x :: sample w f xs := by
  rw [sample.eq_def]
  exact (if_neg h).trans (if_neg h')

/-- The sample of a pattern is matched by it. -/
theorem accepts_sample (f : α → α) (p : List α) :
    ∀ ts, parse w (p.map f) = some ts → accepts ts ((sample w f p).map f) = true := by
  induction p using sample.induct w f with
  | case1 =>
      intro ts h
      cases h
      rfl
  | case2 x h =>
      intro ts hp
      rw [List.map_cons, h, List.map_nil, parse, if_pos rfl] at hp
      cases hp
  | case3 x h y ys ih =>
      intro ts hp
      rw [List.map_cons, h, List.map_cons, parse_esc] at hp
      obtain ⟨us, hus, rfl⟩ := Option.map_eq_some_iff.mp hp
      have hs := ih us hus
      simp [sample, h, accepts, hs]
  | case4 x xs h h' ih =>
      intro ts hp
      rw [List.map_cons, parse_tok h] at hp
      obtain ⟨us, hus, rfl⟩ := Option.map_eq_some_iff.mp hp
      rw [sample_any h', Wild.tok, if_pos h']
      exact accepts_any (ih us hus)
  | case5 x xs h h' ih =>
      intro ts hp
      rw [List.map_cons, parse_tok h] at hp
      obtain ⟨us, hus, rfl⟩ := Option.map_eq_some_iff.mp hp
      rw [sample_tok h h', List.map_cons]
      exact accepts_tok h' (ih us hus)

/-! ## The pattern of a substring search -/

/-- A character that does not stand for itself in a pattern. -/
def Wild.Special (w : Wild α) (x : α) : Prop := x = w.any ∨ x = w.one ∨ x = w.esc

instance (x : α) : Decidable (w.Special x) := inferInstanceAs (Decidable (_ ∨ _ ∨ _))

/-- `q` with "any" on both sides. -/
def around (w : Wild α) (q : List α) : List α := w.any :: (q ++ [w.any])

/-- The shortest text that tokens match, with `a` where a character is free. -/
def fill (a : α) : List (Tok α) → List α
  | [] => []
  | .any :: ts => fill a ts
  | .one :: ts => a :: fill a ts
  | .lit c :: ts => c :: fill a ts

/-- How many characters it has. -/
def breadth : List (Tok α) → Nat
  | [] => 0
  | .any :: ts => breadth ts
  | .one :: ts => breadth ts + 1
  | .lit _ :: ts => breadth ts + 1

omit [DecidableEq α] in
theorem length_fill (a : α) (ts : List (Tok α)) : (fill a ts).length = breadth ts := by
  induction ts using fill.induct <;> simp_all [fill, breadth]

theorem accepts_any_iff {ts : List (Tok α)} {s : List α} :
    accepts (.any :: ts) s = true ↔ ∃ t, t <:+ s ∧ accepts ts t = true := by
  rw [accepts, List.any_eq_true]
  simp only [List.mem_tails]

theorem accepts_fill (a : α) (ts : List (Tok α)) : accepts ts (fill a ts) = true := by
  induction ts using fill.induct with
  | case1 => rfl
  | case2 ts ih => exact accepts_any ih
  | case3 ts ih => exact ih
  | case4 c ts ih => simp [fill, accepts, ih]

/-- No shorter text is matched. -/
theorem breadth_le_of_accepts (ts : List (Tok α)) :
    ∀ s, accepts ts s = true → breadth ts ≤ s.length := by
  induction ts using breadth.induct with
  | case1 => exact fun s _ => Nat.zero_le _
  | case2 ts ih =>
      intro s h
      obtain ⟨t, ht, hacc⟩ := accepts_any_iff.mp h
      exact (ih t hacc).trans ht.length_le
  | case3 ts ih =>
      intro s h
      cases s with
      | nil => cases h
      | cons x t => exact Nat.succ_le_succ (ih t h)
  | case4 c ts ih =>
      intro s h
      cases s with
      | nil => cases h
      | cons x t => exact Nat.succ_le_succ (ih t (Bool.and_elim_right h))

theorem parse_around {q : List α} {ts : List (Tok α)} :
    parse w (around w q) = some ts ↔
      ∃ us, parse w (q ++ [w.any]) = some us ∧ ts = .any :: us := by
  rw [around, parse_tok w.any_ne_esc, Option.map_eq_some_iff, Wild.tok, if_pos rfl]
  simp only [eq_comm]

theorem tok_of_not_special {x : α} (h : ¬ w.Special x) : w.tok x = .lit x := by
  unfold Wild.tok
  rw [if_neg (fun hany => h (Or.inl hany)), if_neg (fun hone => h (Or.inr (Or.inl hone)))]

/-! ### Without special characters -/

theorem parse_plain {q : List α} (h : ∀ x ∈ q, ¬ w.Special x) (rest : List α) :
    parse w (q ++ rest) = (parse w rest).map (q.map Tok.lit ++ ·) := by
  induction q with
  | nil => simp
  | cons x q ih =>
      have hx : ¬ w.Special x := h x List.mem_cons_self
      rw [List.cons_append, parse_tok (fun hesc => hx (Or.inr (Or.inr hesc))),
        ih (fun y hy => h y (List.mem_cons_of_mem _ hy)), tok_of_not_special hx,
        Option.map_map]
      rfl

theorem accepts_lits {q s : List α} {ts : List (Tok α)} :
    accepts (q.map Tok.lit ++ ts) s = true ↔ ∃ t, s = q ++ t ∧ accepts ts t = true := by
  induction q generalizing s with
  | nil => simp
  | cons x q ih =>
      cases s with
      | nil => simp [accepts]
      | cons y s =>
          rw [List.map_cons, List.cons_append, accepts, Bool.and_eq_true, decide_eq_true_eq, ih]
          simp only [List.cons_append, List.cons.injEq, and_assoc, exists_and_left]

/-- The pattern matches the texts that contain `q`. -/
theorem accepts_around {q : List α} (h : ∀ x ∈ q, ¬ w.Special x) :
    ∃ ts, parse w (around w q) = some ts ∧ ∀ s, accepts ts s = true ↔ q <:+: s := by
  have hlast : parse w [w.any] = some [.any] := by
    rw [parse_tok w.any_ne_esc, Wild.tok, if_pos rfl]
    rfl
  refine ⟨.any :: (q.map Tok.lit ++ [.any]), ?_, ?_⟩
  · rw [parse_around]
    exact ⟨_, by rw [parse_plain h, hlast]; rfl, rfl⟩
  · intro s
    have hrest : ∀ t : List α, accepts [.any] t = true := fun t =>
      accepts_any_iff.mpr ⟨[], List.nil_suffix, rfl⟩
    rw [accepts_any_iff]
    constructor
    · rintro ⟨t, ⟨pre, rfl⟩, ht⟩
      obtain ⟨post, rfl, _⟩ := accepts_lits.mp ht
      exact ⟨pre, post, by rw [List.append_assoc]⟩
    · rintro ⟨pre, post, rfl⟩
      exact ⟨q ++ post, ⟨pre, by rw [List.append_assoc]⟩, accepts_lits.mpr ⟨post, rfl, hrest post⟩⟩

/-! ### With a special character -/

/-- An escape weighs more than what it lets through. -/
def weight (w : Wild α) (x : α) : Nat :=
  if x = w.esc then 2 else if w.Special x then 1 else 0

def totalWeight (w : Wild α) (s : List α) : Nat := (s.map (weight w)).sum

theorem totalWeight_cons (x : α) (s : List α) :
    totalWeight w (x :: s) = weight w x + totalWeight w s := by
  simp [totalWeight]

theorem totalWeight_infix {q s : List α} (h : q <:+: s) : totalWeight w q ≤ totalWeight w s :=
  List.Sublist.sum_le_sum (h.sublist.map (weight w)) (fun _ _ => Nat.zero_le _)

theorem weight_of_not_special {x : α} (h : ¬ w.Special x) : weight w x = 0 := by
  unfold weight
  rw [if_neg (fun hesc => h (Or.inr (Or.inr hesc))), if_neg h]

theorem weight_special {x : α} (h : w.Special x) : 1 ≤ weight w x := by
  unfold weight
  split
  · exact Nat.le_succ 1
  · exact Nat.le_refl 1

/-- The tokens of `q` and an "any" behind it, by induction on `q`. -/
theorem parse_any_induct {P : List α → List (Tok α) → Prop} (hnil : P [] [.any])
    (hesc : P [w.esc] [.lit w.any])
    (hescaped : ∀ y ys us, P ys us → P (w.esc :: y :: ys) (.lit y :: us))
    (htok : ∀ x xs us, x ≠ w.esc → P xs us → P (x :: xs) (w.tok x :: us)) (q : List α) :
    ∀ ts, parse w (q ++ [w.any]) = some ts → P q ts := by
  induction q using parse.induct w with
  | case1 =>
      intro ts h
      rw [List.nil_append, parse_tok w.any_ne_esc, Wild.tok, if_pos rfl] at h
      exact Option.some.inj h ▸ hnil
  | case2 =>
      intro ts h
      rw [List.singleton_append, parse_esc] at h
      exact Option.some.inj h ▸ hesc
  | case3 y ys ih =>
      intro ts h
      rw [List.cons_append, List.cons_append, parse_esc] at h
      obtain ⟨us, hus, rfl⟩ := Option.map_eq_some_iff.mp h
      exact hescaped y ys us (ih us hus)
  | case4 x xs hx ih =>
      intro ts h
      rw [List.cons_append, parse_tok hx] at h
      obtain ⟨us, hus, rfl⟩ := Option.map_eq_some_iff.mp h
      exact htok x xs us hx (ih us hus)

/-- Each special character of `q` makes the text lighter than `q`. -/
theorem totalWeight_fill {a : α} (ha : ¬ w.Special a) {q : List α} {ts : List (Tok α)}
    (h : parse w (q ++ [w.any]) = some ts) :
    totalWeight w (fill a ts) + (if ∃ x ∈ q, w.Special x then 1 else 0) ≤ totalWeight w q := by
  have hesc : weight w w.esc = 2 := if_pos rfl
  have hmost : ∀ q : List α, (if ∃ x ∈ q, w.Special x then 1 else 0) ≤ 1 := by
    intro q
    split <;> omega
  refine parse_any_induct (P := fun q ts =>
    totalWeight w (fill a ts) + (if ∃ x ∈ q, w.Special x then 1 else 0) ≤ totalWeight w q)
    ?_ ?_ ?_ ?_ q ts h
  · simp [fill, totalWeight]
  · have hany : weight w w.any = 1 := by
      unfold weight
      rw [if_neg w.any_ne_esc]
      exact if_pos (Or.inl rfl)
    have hone := hmost [w.esc]
    simp only [fill, totalWeight_cons, hany, hesc]
    omega
  · intro y ys us ih
    have hone := hmost (w.esc :: y :: ys)
    simp only [fill, totalWeight_cons, hesc]
    omega
  · intro x xs us hx ih
    have hone := hmost (x :: xs)
    rw [totalWeight_cons]
    by_cases hs : w.Special x
    · have hweight := weight_special hs
      have hfill : totalWeight w (fill a (w.tok x :: us)) = totalWeight w (fill a us) := by
        rcases hs with hany | hone | hesc
        · rw [Wild.tok, if_pos hany, fill]
        · unfold Wild.tok
          split
          · rw [fill]
          · simp only [fill, totalWeight_cons, weight_of_not_special ha, Nat.zero_add]
        · exact absurd hesc hx
      omega
    · rw [tok_of_not_special hs, fill, totalWeight_cons, weight_of_not_special hs]
      simpa [hs] using ih

/-- Then some text is matched that does not contain `q`. -/
theorem not_infix_fill {a : α} (ha : ¬ w.Special a) {q : List α} (hq : ∃ x ∈ q, w.Special x)
    {ts : List (Tok α)} (h : parse w (around w q) = some ts) : ¬ q <:+: fill a ts := by
  obtain ⟨us, hus, rfl⟩ := parse_around.mp h
  intro hin
  have hless := totalWeight_fill ha hus
  rw [if_pos hq] at hless
  have hmore : totalWeight w q ≤ totalWeight w (fill a us) := totalWeight_infix hin
  omega

/-- It is no longer than `q`. -/
theorem breadth_around_le {q : List α} {ts : List (Tok α)} (h : parse w (around w q) = some ts) :
    breadth ts ≤ q.length := by
  obtain ⟨us, hus, rfl⟩ := parse_around.mp h
  refine parse_any_induct (P := fun q ts => breadth ts ≤ q.length) ?_ ?_ ?_ ?_ q us hus
  · exact Nat.le_refl 0
  · exact Nat.le_refl 1
  · intro y ys us ih
    exact Nat.succ_le_succ (Nat.le_succ_of_le ih)
  · intro x xs us _ ih
    unfold Wild.tok
    split
    · exact Nat.le_succ_of_le ih
    · split <;> exact Nat.succ_le_succ ih

/-! ### Maps of the characters -/

/-- A map that neither makes nor unmakes a special character. -/
structure Respects (w : Wild α) (f : α → α) : Prop where
  any : ∀ x, f x = w.any ↔ x = w.any
  one : ∀ x, f x = w.one ↔ x = w.one
  esc : ∀ x, f x = w.esc ↔ x = w.esc

def Tok.map (f : α → α) : Tok α → Tok α
  | .any => .any
  | .one => .one
  | .lit c => .lit (f c)

omit [DecidableEq α] in
theorem fill_map (f : α → α) (a : α) (ts : List (Tok α)) :
    fill (f a) (ts.map (Tok.map f)) = (fill a ts).map f := by
  induction ts using fill.induct <;> simp_all [fill, Tok.map]

section Maps

variable {f : α → α} (hf : Respects w f)

include hf

omit [DecidableEq α] in
theorem Respects.special (x : α) : w.Special (f x) ↔ w.Special x := by
  unfold Wild.Special
  rw [hf.any, hf.one, hf.esc]

theorem Respects.tok (x : α) : w.tok (f x) = (w.tok x).map f := by
  unfold Wild.tok
  simp only [hf.any, hf.one]
  split
  · rfl
  · split <;> rfl

theorem Respects.parse (p : List α) :
    parse w (p.map f) = (parse w p).map (List.map (Tok.map f)) := by
  have hesc : f w.esc = w.esc := (hf.esc _).mpr rfl
  induction p using parse.induct w with
  | case1 => rfl
  | case2 =>
      rw [List.map_cons, List.map_nil, hesc, Like.parse, if_pos rfl]
      rfl
  | case3 y ys ih =>
      rw [List.map_cons, List.map_cons, hesc, parse_esc, parse_esc, ih, Option.map_map,
        Option.map_map]
      rfl
  | case4 x xs hx ih =>
      rw [List.map_cons, parse_tok (fun h => hx ((hf.esc x).mp h)), parse_tok hx, ih, hf.tok,
        Option.map_map, Option.map_map]
      rfl

omit [DecidableEq α] in
theorem Respects.around (q : List α) : (around w q).map f = around w (q.map f) := by
  simp [Like.around, (hf.any _).mpr rfl]

end Maps

end Like
