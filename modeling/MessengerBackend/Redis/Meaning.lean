/-
  What a state of Redis means: the keyspace behind its lists.

  * `State.keyspace`: a set is the list of its members, a hash the list of its fields
    (`getField`), and the laws of `addMembers` and `setField` are those of a set and a function.
  * `State.Clean`: what Redis and the client need of a state, no doubles, nothing empty, and no
    NUL, where a `std::string` would be cut.
  * `sent_ne_zero`, `stoi_repr`, `elements_map`, `pairUp_flatMap`: what the client makes of a
    number, a list and a hash.
-/
import MessengerBackend.Redis.Keyspace
import MessengerBackend.Redis.Reading
import MessengerBackend.Redis.Report

namespace MessengerBackend.Redis

/-! ## The meaning of a state -/

def Value.content : Value → Content
  | .string bs => .text bs
  | .list l => .queue l
  | .set members => .group {m | m ∈ members}
  | .hash fields => .record (getField fields)

def Value.Clean : Value → Prop
  | .string bs => (0 : UInt8) ∉ bs
  | .list l => ∀ bs ∈ l, (0 : UInt8) ∉ bs
  | .set members => members ≠ [] ∧ members.Nodup ∧ ∀ m ∈ members, (0 : UInt8) ∉ m
  | .hash fields => fields ≠ [] ∧ (fields.map Prod.fst).Nodup ∧
      ∀ f ∈ fields, (0 : UInt8) ∉ f.1 ∧ (0 : UInt8) ∉ f.2

def Entry.slot (e : Entry) : Slot := ⟨e.value.content, e.expiresAt⟩

namespace State

def keyspace (st : State) : Keyspace := fun key => (st.keys key).map Entry.slot

def Clean (st : State) : Prop := ∀ key e, st.keys key = some e → e.value.Clean

theorem clean_empty : Clean {} := fun _ _ h => nomatch h

variable {st : State} {now : Time} {key : Bytes}

theorem look_keyspace (st : State) (now : Time) (key : Bytes) :
    st.keyspace.look now key = (st.live now key).map Entry.slot := by
  have hexpired : ∀ e : Entry, e.slot.expired now = e.expired now := by
    intro e
    unfold Entry.slot Slot.expired Entry.expired
    cases e.expiresAt <;> rfl
  show ((st.keys key).map Entry.slot).filter _ = ((st.keys key).filter _).map Entry.slot
  rw [Option.filter_map]
  congr 2
  funext e
  exact congrArg Bool.not (hexpired e)

theorem keyspace_put (st : State) (key : Bytes) (e : Option Entry) :
    (st.put key e).keyspace = Function.update st.keyspace key (e.map Entry.slot) := by
  funext k
  unfold keyspace put
  by_cases hk : k = key
  · subst hk
    simp
  · simp [hk]

/-- What is found under a key is what the key holds. -/
theorem keys_of_live {e : Entry} (h : st.live now key = some e) : st.keys key = some e :=
  (Option.filter_eq_some_iff.mp h).1

theorem Clean.live (h : st.Clean) {e : Entry} (he : st.live now key = some e) : e.value.Clean :=
  h key e (keys_of_live he)

theorem Clean.put (h : st.Clean) {e : Option Entry} (he : ∀ e' ∈ e, e'.value.Clean) :
    (st.put key e).Clean := by
  intro k e' hk
  unfold State.put at hk
  simp only [Function.update_apply] at hk
  split at hk
  · exact he e' hk
  · exact h k e' hk

end State

/-! ## Answers -/

/-- The count as a text. -/
theorem sent_ne_zero {n : Nat} : (utf8 (toString (n : Int)) != utf8 "0") = decide (n ≠ 0) := by
  have hiff : utf8 (toString (n : Int)) = utf8 "0" ↔ n = 0 := by
    constructor
    · intro heq
      have hdigits := digits_repr n
      have hzero := digits_repr 0
      rw [show utf8 (Nat.repr n) = utf8 "0" from heq] at hdigits
      exact Option.some.inj (hdigits.symm.trans hzero)
    · rintro rfl
      rfl
  rw [bne, beq_eq_decide, decide_not]
  congr 1
  exact decide_eq_decide.mpr hiff

theorem decimal_of_digits {s : Bytes} {n : Nat} (h : digits s = some n) :
    s ≠ [] ∧ (∀ b ∈ s, 48 ≤ b ∧ b ≤ 57) ∧ Stoi.decimal s = n := by
  unfold digits at h
  split at h
  · rename_i hs
    refine ⟨hs.1, fun b hb => by simpa using List.all_eq_true.mp hs.2.1 b hb, ?_⟩
    rw [← Option.some.inj h, Stoi.decimal, Nat.ofDigits_eq_foldr, List.foldr_reverse,
      List.foldl_map]
    simp only [Nat.cast_id]
    congr 1
    funext n b
    omega
  · cases h

/-- A length that is printed is read back by `std::stoi`, if it is an `int`. -/
theorem stoi_repr (n : Nat) :
    Stoi.stoi 10 (utf8 (toString (n : Int))) = if n < 2 ^ 31 then some (n : Int) else none := by
  obtain ⟨hne, hall, hvalue⟩ := decimal_of_digits (digits_repr n)
  show Stoi.stoi 10 (utf8 n.repr) = _
  rw [Stoi.stoi_decimal hne hall, hvalue]

/-! ## Groups and records as lists -/

theorem mem_addMembers {members new : List Bytes} {m : Bytes} :
    m ∈ addMembers members new ↔ m ∈ members ∨ m ∈ new := by
  unfold addMembers
  induction new generalizing members with
  | nil => simp
  | cons a new ih =>
      rw [List.foldl_cons, ih, List.mem_cons]
      split
      · rename_i ha
        constructor
        · rintro (h | h)
          · exact Or.inl h
          · exact Or.inr (Or.inr h)
        · rintro (h | rfl | h)
          · exact Or.inl h
          · exact Or.inl ha
          · exact Or.inr h
      · rw [List.mem_append, List.mem_singleton, or_assoc]

theorem nodup_addMembers {members : List Bytes} (h : members.Nodup) (new : List Bytes) :
    (addMembers members new).Nodup := by
  unfold addMembers
  induction new generalizing members with
  | nil => exact h
  | cons a new ih =>
      rw [List.foldl_cons]
      refine ih ?_
      split
      · exact h
      · rename_i ha
        exact List.nodup_append.mpr ⟨h, List.nodup_singleton a, fun b hb c hc => by
          rw [List.mem_singleton.mp hc]
          exact fun heq => ha (heq ▸ hb)⟩

section Fields

variable {fields : List (Bytes × Bytes)} {field f v : Bytes}

theorem getField_cons (x : Bytes × Bytes) (fields : List (Bytes × Bytes)) (f : Bytes) :
    getField (x :: fields) f = if x.1 = f then some x.2 else getField fields f := by
  unfold getField
  by_cases hx : x.1 = f
  · rw [List.find?_cons_of_pos (by simpa using hx), if_pos hx]
    rfl
  · rw [List.find?_cons_of_neg (by simpa using hx), if_neg hx]

theorem getField_eq_none_iff : getField fields f = none ↔ f ∉ fields.map Prod.fst := by
  induction fields with
  | nil => exact iff_of_true rfl List.not_mem_nil
  | cons x fields ih =>
      rw [getField_cons, List.map_cons, List.mem_cons, not_or, ← ih]
      split
      · rename_i hx
        exact iff_of_false (fun h => nomatch h) (fun h => h.1 hx.symm)
      · rename_i hx
        exact (and_iff_right (fun heq => hx heq.symm)).symm

theorem mem_of_getField (h : getField fields f = some v) : (f, v) ∈ fields := by
  obtain ⟨x, hx, rfl⟩ := Option.map_eq_some_iff.mp h
  have hf : x.1 = f := by simpa using List.find?_some hx
  exact hf ▸ List.mem_of_find?_eq_some hx

/-- Each field has one value. -/
theorem getField_eq_some_iff (h : (fields.map Prod.fst).Nodup) :
    getField fields f = some v ↔ (f, v) ∈ fields := by
  refine ⟨mem_of_getField, fun hmem => ?_⟩
  cases hget : getField fields f with
  | none => exact absurd (List.mem_map_of_mem (f := Prod.fst) hmem) (getField_eq_none_iff.mp hget)
  | some w =>
      have hsame := List.inj_on_of_nodup_map h (mem_of_getField hget) hmem rfl
      exact congrArg some (Prod.mk.inj hsame).2

/-- A new value for a field, if it is there. -/
theorem getField_map (fields : List (Bytes × Bytes)) (field v f : Bytes) :
    getField (fields.map (fun x => if x.1 == field then (field, v) else x)) f =
      if f = field then (getField fields field).map (fun _ => v) else getField fields f := by
  induction fields with
  | nil => split <;> rfl
  | cons x fields ih =>
      rw [List.map_cons, getField_cons, getField_cons, getField_cons, ih]
      by_cases hx : x.1 = field
      · by_cases hf : f = field
        · simp [hx, hf]
        · simp [hx, hf, Ne.symm hf]
      · by_cases hf : f = field
        · simp [hx, hf]
        · simp [hx, hf]

theorem getField_setField (fields : List (Bytes × Bytes)) (field v : Bytes) :
    getField (setField fields field v) = Function.update (getField fields) field (some v) := by
  funext f
  rw [Function.update_apply]
  by_cases hmem : field ∈ fields.map Prod.fst
  · rw [Mutation.setField_of_mem hmem, getField_map]
    split
    · cases hget : getField fields field with
      | none => exact absurd hmem (getField_eq_none_iff.mp hget)
      | some w => rfl
    · rfl
  · have hnone := getField_eq_none_iff.mpr hmem
    rw [Mutation.setField_of_not_mem hmem]
    have happend : getField (fields ++ [(field, v)]) f =
        (getField fields f).or (getField [(field, v)] f) := by
      unfold getField
      rw [List.find?_append, Option.map_or]
    rw [happend, getField_cons]
    by_cases hf : f = field
    · subst hf
      rw [hnone, if_pos rfl, if_pos rfl]
      rfl
    · rw [if_neg (Ne.symm hf), if_neg hf]
      exact Option.or_none

theorem fst_setField : (setField fields field v).map Prod.fst =
    if field ∈ fields.map Prod.fst then fields.map Prod.fst else fields.map Prod.fst ++ [field] := by
  split
  · rename_i hmem
    rw [Mutation.setField_of_mem hmem, List.map_map]
    refine List.map_congr_left (fun x _ => ?_)
    by_cases hx : x.1 = field
    · simp [hx]
    · simp [hx]
  · rename_i hmem
    rw [Mutation.setField_of_not_mem hmem, List.map_append]
    rfl

/-- Without one field. -/
theorem getField_filter : getField (fields.filter (fun x => x.1 ∉ [field])) =
    Function.update (getField fields) field none := by
  funext f
  unfold getField
  rw [List.find?_filter]
  by_cases hf : f = field
  · subst hf
    rw [Function.update_self, Option.map_eq_none_iff, List.find?_eq_none]
    simp
  · rw [Function.update_of_ne hf]
    congr 2
    funext x
    by_cases hx : x.1 = f
    · simp [hx, hf]
    · simp [hx]

theorem pairUp_flatMap (h : ∀ x ∈ fields, (0 : UInt8) ∉ x.1 ∧ (0 : UInt8) ∉ x.2) :
    Operation.pairUp (fields.flatMap (fun x => [some x.1, some x.2])) = fields := by
  induction fields with
  | nil => rfl
  | cons x fields ih =>
      obtain ⟨h1, h2⟩ := h x List.mem_cons_self
      show (cut x.1, cut x.2) :: _ = _
      rw [cut_of_forall h1, cut_of_forall h2]
      exact congrArg (x :: ·) (ih (fun y hy => h y (List.mem_cons_of_mem x hy)))

end Fields

/-- Elements without NUL come out as they are. -/
theorem elements_map {l : List Bytes} (h : ∀ bs ∈ l, (0 : UInt8) ∉ bs) :
    Operation.elements (some (.array (l.map some))) = l := by
  show (l.map some).filterMap (fun e => e.map cut) = l
  rw [List.filterMap_map]
  calc l.filterMap ((fun e => e.map cut) ∘ some)
      = l.filterMap some :=
        List.filterMap_congr (fun bs hbs => congrArg some (cut_of_forall (h bs hbs)))
    _ = l := List.filterMap_some

end MessengerBackend.Redis
