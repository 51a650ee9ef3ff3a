/-
  Commands of plain texts: they reach Redis word for word.

  * `Plain`: no space, no '%' and no NUL. The dump of an object whose strings have no space
    and no '%' is plain, since a NUL is escaped in it (`plain_dump_obj`).
  * `send_lpush`, `send_expire`, `send_publish`: what such a command does.
  * `HoldsList`: the list under a key, and that `lrange` reads it back.
-/
import MessengerBackend.Dump
import MessengerBackend.Redis.Server

namespace MessengerBackend

/-! ## Plain texts -/

def Plain (s : String) : Prop := ∀ c ∈ s.toList, c.toNat ≠ 32 ∧ c.toNat ≠ 37 ∧ c.toNat ≠ 0

/-- No space and no '%': a text that is plain once it is quoted. -/
def Quotable (s : String) : Prop := ∀ c ∈ s.toList, c.toNat ≠ 32 ∧ c.toNat ≠ 37

instance (s : String) : Decidable (Plain s) :=
  List.decidableBAll (fun c : Char => c.toNat ≠ 32 ∧ c.toNat ≠ 37 ∧ c.toNat ≠ 0) s.toList

instance (s : String) : Decidable (Quotable s) :=
  List.decidableBAll (fun c : Char => c.toNat ≠ 32 ∧ c.toNat ≠ 37) s.toList

theorem plain_append {s t : String} (hs : Plain s) (ht : Plain t) : Plain (s ++ t) := by
  intro c hc
  rw [String.toList_append] at hc
  rcases List.mem_append.mp hc with hc | hc
  · exact hs c hc
  · exact ht c hc

theorem plainWord_utf8 {s : String} (h : Plain s) (hne : s ≠ "") : Redis.PlainWord (utf8 s) := by
  refine ⟨fun hnil => hne (utf8_injective hnil), fun b hb => ?_⟩
  have hchar : ∀ n : UInt8, n < 128 → b = n → ∃ c ∈ s.toList, c.toNat = n.toNat := by
    rintro n hn rfl
    exact mem_utf8 hb hn
  refine ⟨fun h32 => ?_, fun h37 => ?_, fun h0 => ?_⟩
  · obtain ⟨c, hc, heq⟩ := hchar 32 (by decide) h32
    exact (h c hc).1 heq
  · obtain ⟨c, hc, heq⟩ := hchar 37 (by decide) h37
    exact (h c hc).2.1 heq
  · obtain ⟨c, hc, heq⟩ := hchar 0 (by decide) h0
    exact (h c hc).2.2 heq

theorem plain_of_utf8 {s : String} (h : ∀ b ∈ utf8 s, b ≠ 32 ∧ b ≠ 37 ∧ b ≠ 0) : Plain s := by
  intro c hc
  have hbyte : c.toNat < 128 → UInt8.ofNat c.toNat ≠ 32 ∧ UInt8.ofNat c.toNat ≠ 37 ∧
      UInt8.ofNat c.toNat ≠ 0 := fun hlt => h _ (mem_utf8_of_lt hc hlt)
  refine ⟨fun h32 => ?_, fun h37 => ?_, fun h0 => ?_⟩
  · exact (hbyte (by omega)).1 (by rw [h32]; rfl)
  · exact (hbyte (by omega)).2.1 (by rw [h37]; rfl)
  · exact (hbyte (by omega)).2.2 (by rw [h0]; rfl)

theorem plain_nat (n : Nat) : Plain (toString n) := by
  intro c hc
  have hdigit : c.isDigit = true := by
    refine Nat.isDigit_of_mem_toDigits (b := 10) (n := n) (by decide) (by decide) ?_
    rwa [← Nat.toList_repr]
  rw [Char.isDigit, Bool.and_eq_true, decide_eq_true_iff, decide_eq_true_iff] at hdigit
  have h48 : 48 ≤ c.toNat := hdigit.1
  have h57 : c.toNat ≤ 57 := hdigit.2
  omega

theorem plain_int (n : Int) : Plain (toString n) := by
  cases n with
  | ofNat m => exact plain_nat m
  | negSucc m => exact plain_append (s := "-") (by decide) (plain_nat (m + 1))

theorem toString_ne_empty (n : Int) : toString n ≠ "" := by
  cases n with
  | ofNat m => exact Nat.repr_ne_empty
  | negSucc m =>
      show "-" ++ Nat.repr (m + 1) ≠ ""
      simp

theorem hexChar_plain : ∀ d, (Uuid.hexChar d).toNat ≠ 32 ∧ (Uuid.hexChar d).toNat ≠ 37 ∧
    (Uuid.hexChar d).toNat ≠ 0 := by decide

theorem plain_uuidOut (u : Uuid) : Plain (Uuid.uuidOut u) := by
  intro c hc
  rw [Uuid.uuidOut, String.toList_ofList] at hc
  rcases Uuid.mem_outBytes hc with rfl | ⟨d, rfl⟩
  · decide
  · exact hexChar_plain d

/-! ## Dumps -/

namespace Json

/-- A character of a literal is the one that stands there, or no space and no '%'. -/
theorem of_mem_escape {c d : Char} (hd : d ∈ escape c) :
    d.toNat ≠ 0 ∧ (d = c ∨ d.toNat ≠ 32 ∧ d.toNat ≠ 37) := by
  have hplain : d.toNat ≠ 32 ∧ d.toNat ≠ 37 ∧ d.toNat ≠ 0 →
      d.toNat ≠ 0 ∧ (d = c ∨ d.toNat ≠ 32 ∧ d.toNat ≠ 37) := fun h => ⟨h.2.2, Or.inr ⟨h.1, h.2.1⟩⟩
  unfold escape at hd
  repeat' split at hd
  all_goals simp only [List.mem_cons, List.not_mem_nil, or_false] at hd
  · rcases hd with rfl | rfl <;> exact hplain (by decide)
  · rcases hd with rfl | rfl <;> exact hplain (by decide)
  · rcases hd with rfl | rfl <;> exact hplain (by decide)
  · rcases hd with rfl | rfl <;> exact hplain (by decide)
  · rcases hd with rfl | rfl <;> exact hplain (by decide)
  · rcases hd with rfl | rfl <;> exact hplain (by decide)
  · rcases hd with rfl | rfl <;> exact hplain (by decide)
  · rcases hd with rfl | rfl | rfl | rfl | rfl | rfl
    · exact hplain (by decide)
    · exact hplain (by decide)
    · exact hplain (by decide)
    · exact hplain (by decide)
    · exact hplain (hexChar_plain _)
    · exact hplain (hexChar_plain _)
  · subst hd
    exact ⟨by omega, Or.inl rfl⟩

theorem mem_escape {c d : Char} (hc : c.toNat ≠ 32 ∧ c.toNat ≠ 37) (hd : d ∈ escape c) :
    d.toNat ≠ 32 ∧ d.toNat ≠ 37 ∧ d.toNat ≠ 0 := by
  obtain ⟨h0, rfl | h⟩ := of_mem_escape hd
  · exact ⟨hc.1, hc.2, h0⟩
  · exact ⟨h.1, h.2, h0⟩

theorem plain_quote {s : String} (h : Quotable s) : Plain (quote s) := by
  intro c hc
  unfold quote at hc
  rw [String.toList_ofList] at hc
  have hquote : ∀ d : Char, d = '"' → d.toNat ≠ 32 ∧ d.toNat ≠ 37 ∧ d.toNat ≠ 0 := by
    rintro d rfl
    decide
  rcases List.mem_append.mp hc with hc | hc
  · rcases List.mem_cons.mp hc with hc | hc
    · exact hquote c hc
    · obtain ⟨d, hd, hc⟩ := List.mem_flatMap.mp hc
      exact mem_escape (h d hd) hc
  · exact hquote c (List.mem_singleton.mp hc)

theorem plain_commas {l : List String} (h : ∀ s ∈ l, Plain s) : Plain (commas l) := by
  unfold commas
  induction l with
  | nil =>
      rw [String.intercalate_nil]
      decide
  | cons s l ih =>
      have hs : Plain s := h s List.mem_cons_self
      cases l with
      | nil => rwa [String.intercalate_singleton]
      | cons t l =>
          rw [String.intercalate_cons_cons]
          exact plain_append (plain_append hs (by decide))
            (ih (fun u hu => h u (List.mem_cons_of_mem s hu)))

theorem dumpFields_eq (fields : List (String × Json)) :
    dumpFields fields = fields.map (fun f => (f.1, dump f.2)) := by
  induction fields with
  | nil => rfl
  | cons f fields ih => rw [dumpFields, ih, List.map_cons]

/-- An object of plain values is plain. -/
theorem plain_dump_obj {fields : List (String × Json)}
    (h : ∀ f ∈ fields, Quotable f.1 ∧ Plain (dump f.2)) : Plain (dump (.obj fields)) := by
  rw [dump]
  refine plain_append (plain_append (by decide) (plain_commas ?_)) (by decide)
  intro s hs
  obtain ⟨f, hf, rfl⟩ := List.mem_map.mp hs
  have hmem : f ∈ dumpFields fields := (List.perm_insertionSort _ _).mem_iff.mp hf
  rw [dumpFields_eq] at hmem
  obtain ⟨g, hg, rfl⟩ := List.mem_map.mp hmem
  exact plain_append (plain_append (plain_quote (h g hg).1) (by decide)) (h g hg).2

end Json

namespace Redis

/-! ## Commands -/

section Send

variable (hiredis : Hiredis) (now : Time) (st : State)

/-- Plain texts with spaces between them are the arguments of the command. -/
theorem send_words {call : Call} {ws : List String}
    (hcmd : call.command = some (" ".intercalate ws)) (h : ∀ w ∈ ws, Plain w ∧ w ≠ "")
    (hne : ws ≠ []) : send hiredis now st call = (execute now st (ws.map utf8)).1 := by
  have hplain : ∀ w ∈ ws.map utf8, PlainWord w := by
    intro w hw
    obtain ⟨s, hs, rfl⟩ := List.mem_map.mp hw
    exact plainWord_utf8 (h s hs).1 (h s hs).2
  unfold send
  rw [hcmd]
  show sendCommand hiredis now st (" ".intercalate ws) = _
  unfold sendCommand
  rw [utf8_intercalate, cut_intercalate hplain,
    hiredis.args_intercalate hplain (by simpa using hne)]

/-- A command with two arguments. -/
theorem send_pair {call : Call} {name a b : String}
    (hcmd : call.command = some (name ++ " " ++ a ++ " " ++ b)) (hname : Plain name ∧ name ≠ "")
    (ha : Plain a ∧ a ≠ "") (hb : Plain b ∧ b ≠ "") :
    send hiredis now st call = (execute now st [utf8 name, utf8 a, utf8 b]).1 := by
  have hwords : name ++ " " ++ a ++ " " ++ b = " ".intercalate [name, a, b] := by
    simp only [String.intercalate_cons_cons, String.intercalate_singleton, String.append_assoc]
  rw [hwords] at hcmd
  refine send_words hiredis now st hcmd ?_ (List.cons_ne_nil _ _)
  intro w hw
  simp only [List.mem_cons, List.not_mem_nil, or_false] at hw
  rcases hw with rfl | rfl | rfl
  · exact hname
  · exact ha
  · exact hb

variable {key value channel message : String}

theorem send_lpush (hk : Plain key ∧ key ≠ "") (hv : Plain value ∧ value ≠ "") :
    send hiredis now st (.lpush key [value]) =
      (execLpush now st [utf8 "LPUSH", utf8 key, utf8 value]).1 := by
  have hcmd : (Call.lpush key [value]).command = some ("LPUSH" ++ " " ++ key ++ " " ++ value) := by
    rfl
  exact (send_pair hiredis now st hcmd (by decide) hk hv).trans rfl

theorem send_expire (hk : Plain key ∧ key ≠ "") (seconds : Int) :
    send hiredis now st (.expire key seconds) =
      (execExpire now st [utf8 "EXPIRE", utf8 key, utf8 (toString seconds)]).1 := by
  have hcmd : (Call.expire key seconds).command =
      some ("EXPIRE" ++ " " ++ key ++ " " ++ toString seconds) := by
    rfl
  exact (send_pair hiredis now st hcmd (by decide) hk
    ⟨plain_int seconds, toString_ne_empty seconds⟩).trans rfl

theorem send_publish (hc : Plain channel ∧ channel ≠ "") (hm : Plain message ∧ message ≠ "") :
    send hiredis now st (.publish channel message) =
      { st with published := st.published ++ [(utf8 channel, utf8 message)] } := by
  have hcmd : (Call.publish channel message).command =
      some ("PUBLISH" ++ " " ++ channel ++ " " ++ message) := by
    rfl
  exact (send_pair hiredis now st hcmd (by decide) hc hm).trans rfl

theorem send_set (hk : Plain key ∧ key ≠ "") (hv : Plain value ∧ value ≠ "") {ttl : Int}
    (hpos : 0 < ttl) : send hiredis now st (.set key value ttl) =
      (execSet now st [utf8 "SET", utf8 key, utf8 value, utf8 "EX", utf8 (toString ttl)]).1 := by
  have hcmd : (Call.set key value ttl).command =
      some (" ".intercalate ["SET", key, value, "EX", toString ttl]) := by
    simp only [Call.command, if_pos hpos, String.intercalate_cons_cons,
      String.intercalate_singleton, String.append_assoc]
    rfl
  refine (send_words hiredis now st hcmd ?_ (List.cons_ne_nil _ _)).trans rfl
  intro w hw
  simp only [List.mem_cons, List.not_mem_nil, or_false] at hw
  rcases hw with rfl | rfl | rfl | rfl | rfl
  · decide
  · exact hk
  · exact hv
  · decide
  · exact ⟨plain_int ttl, toString_ne_empty ttl⟩

end Send

/-! ## Lists -/

variable {now : Time} {st : State} {key : Bytes} {l : List Bytes}

theorem live_put (st : State) (now : Time) (key : Bytes) (e : Entry) (he : e.expired now = false)
    (k : Bytes) : (st.put key (some e)).live now k = if k = key then some e else st.live now k := by
  unfold State.live State.put
  simp only [Function.update_apply]
  split
  · simp [Option.filter, he]
  · rfl

/-- The key holds this list; an empty list is no key. -/
def HoldsList (st : State) (now : Time) (key : Bytes) (l : List Bytes) : Prop :=
  (st.live now key).map Entry.value = if l = [] then none else some (.list l)

theorem expired_of_live {e : Entry} (h : st.live now key = some e) : e.expired now = false := by
  have := (Option.filter_eq_some_iff.mp h).2
  simpa using this

/-- LPUSH of one value. -/
theorem execLpush_of_holds (name : Bytes) (h : HoldsList st now key l) (value : Bytes) :
    ∃ e : Entry, e.value = .list (value :: l) ∧ e.expired now = false ∧
      (execLpush now st [name, key, value]).1 = st.put key (some e) := by
  unfold HoldsList at h
  cases hlive : st.live now key with
  | none =>
      have hl : l = [] := by
        rw [hlive] at h
        by_contra hne
        rw [if_neg hne] at h
        cases h
      subst hl
      refine ⟨{ value := .list [value] }, rfl, rfl, ?_⟩
      simp only [execLpush, hlive]
      rfl
  | some e =>
      have hval : e.value = .list l := by
        rw [hlive] at h
        split at h
        · cases h
        · exact Option.some.inj h
      refine ⟨{ e with value := .list (value :: l) }, rfl, (expired_of_live hlive :), ?_⟩
      simp only [execLpush, hlive, hval]
      rfl

/-- EXPIRE on a key that is there. -/
theorem execExpire_of_live (name : Bytes) {seconds : Bytes} {e : Entry} {n : Int}
    (hlive : st.live now key = some e) (hn : number seconds = some n) (hpos : 0 < n) :
    ∃ e' : Entry, e'.value = e.value ∧ e'.expired now = false ∧
      (execExpire now st [name, key, seconds]).1 = st.put key (some e') := by
  refine ⟨{ e with expiresAt := some (now + n * 1000000) }, rfl, ?_, ?_⟩
  · refine decide_eq_false (Int.not_lt.mpr ?_)
    exact Int.le_add_of_nonneg_right (by omega)
  · simp only [execExpire, hn, hlive, if_pos hpos]

/-- From the first element to the last. -/
theorem range_all (l : List Bytes) : range l 0 (-1) = l := by
  have hstop : (index l.length (-1) + 1).toNat = l.length := by
    unfold index
    rw [if_pos (by decide)]
    omega
  have hstart : (index l.length 0).toNat = 0 := rfl
  unfold range
  rw [hstop, hstart, List.take_length, List.drop_zero]

theorem lrange_of_holds {key : String} (h : HoldsList st now (utf8 key) l)
    (hkey : (0 : UInt8) ∉ utf8 key) (hl : ∀ bs ∈ l, (0 : UInt8) ∉ bs) :
    lrange now st key 0 (-1) = l := by
  have hreply : (execute now st [utf8 "LRANGE", utf8 key, utf8 (toString (0 : Int)),
      utf8 (toString (-1 : Int))]).2 = .array (l.map some) := by
    show (execLrange now st [utf8 "LRANGE", utf8 key, utf8 (toString (0 : Int)),
      utf8 (toString (-1 : Int))]).2 = _
    have h0 : number (utf8 (toString (0 : Int))) = some 0 := by decide
    have h1 : number (utf8 (toString (-1 : Int))) = some (-1) := by decide
    unfold HoldsList at h
    simp only [execLrange, h0, h1, h]
    by_cases hnil : l = []
    · subst hnil
      rfl
    · simp only [if_neg hnil, range_all]
  unfold lrange
  rw [cut_of_forall hkey, hreply]
  show (l.map some).filterMap (fun e => e.map cut) = l
  rw [List.filterMap_map]
  calc l.filterMap ((fun e => e.map cut) ∘ some)
      = l.filterMap some :=
        List.filterMap_congr (fun bs hbs => congrArg some (cut_of_forall (hl bs hbs)))
    _ = l := List.filterMap_some

end Redis

end MessengerBackend
