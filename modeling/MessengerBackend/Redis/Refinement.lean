/-
  `RedisClient` on a server that answers is the keyspace that it is meant to be.

  * `Refines`: a command does to the meaning what the operation does, and its answer is one
    that the keyspace allows. There is one lemma for each operation, by what the key holds.
  * `serves_of_ready`: any operations on plain words, one after the other, by a client whose
    mutex is free and whose first free connection has a context, are served by the keyspace.
-/
import MessengerBackend.Redis.Meaning

namespace MessengerBackend.Redis

/-! ## Operation by operation -/

/-- A command does what the operation is for, and is answered by it. -/
structure Refines (now : Time) (st : State) (op : Operation) (x : State × Reply) : Prop where
  state : x.1.keyspace = st.keyspace.after now op
  answers : st.keyspace.Answers now op (op.answer (some x.2))
  clean : x.1.Clean

section Refines

open Operation (arguments sent)
open State (look_keyspace keyspace_put)

variable {st : State} {now : Time}

/-- The answer, with what the key holds. -/
theorem look_of_live {key : Bytes} {o : Option Entry} (h : st.live now key = o) :
    st.keyspace.look now key = o.map Entry.slot := by
  rw [look_keyspace, h]

theorem value_of_live {key : Bytes} {o : Option Entry} (h : st.live now key = o) :
    st.store now key = o.map Entry.value := congrArg (Option.map Entry.value) h

theorem refines_get (h : st.Clean) (info : Bytes → Bytes) (key : Bytes) :
    Refines now st (.get key) (executeAll now st info (arguments (.get key))) := by
  show Refines now st (.get key) (st, execGet (st.store now) [utf8 "GET", key])
  refine ⟨rfl, ?_, h⟩
  show Result.text (sent _) = .text ((Slot.text (st.keyspace.look now key)).getD [])
  cases hlive : st.live now key with
  | none =>
      rw [look_of_live hlive]
      simp only [execGet, value_of_live hlive]
      rfl
  | some e =>
      have hclean := h.live hlive
      rw [look_of_live hlive]
      simp only [execGet, value_of_live hlive, Option.map_some, Entry.slot]
      cases hv : e.value with
      | string bs =>
          rw [hv] at hclean
          exact congrArg Result.text (cut_of_forall hclean)
      | _ => rfl

theorem refines_exists (h : st.Clean) (info : Bytes → Bytes) (key : Bytes) :
    Refines now st (.existsKey key) (executeAll now st info (arguments (.existsKey key))) := by
  show Refines now st (.existsKey key) (st, execExists now st [utf8 "EXISTS", key])
  refine ⟨rfl, ?_, h⟩
  show Result.bool (sent _ == utf8 "1") = .bool (st.keyspace.look now key).isSome
  cases hlive : st.live now key with
  | none =>
      rw [look_of_live hlive]
      simp only [execExists, List.countP_cons, List.countP_nil, hlive]
      rfl
  | some e =>
      rw [look_of_live hlive]
      simp only [execExists, List.countP_cons, List.countP_nil, hlive, Option.isSome_some, if_true]
      rfl

/-- An `int` is read back as it was written. -/
theorem number_int {n : Int} (h : -2 ^ 31 ≤ n ∧ n < 2 ^ 31) :
    number (utf8 (toString n)) = some n := by
  rw [number_toString, if_pos ⟨by omega, by omega⟩]

theorem refines_lrange (h : st.Clean) (info : Bytes → Bytes) (key : Bytes) {start stop : Int}
    (hstart : -2 ^ 31 ≤ start ∧ start < 2 ^ 31) (hstop : -2 ^ 31 ≤ stop ∧ stop < 2 ^ 31) :
    Refines now st (.lrange key start stop)
      (executeAll now st info (arguments (.lrange key start stop))) := by
  show Refines now st (.lrange key start stop) (execLrange now st
    [utf8 "LRANGE", key, utf8 (toString start), utf8 (toString stop)])
  simp only [execLrange, number_int hstart, number_int hstop]
  -- any reply whose elements are the range
  have answered : ∀ {reply : Reply}, Operation.elements (some reply) =
      range ((Slot.queue (st.keyspace.look now key)).getD []) start stop →
      Refines now st (.lrange key start stop) (st, reply) :=
    fun hreply => ⟨rfl, congrArg Result.texts hreply, h⟩
  have hnil : range [] start stop = [] := by simp [range]
  cases hlive : st.live now key with
  | none =>
      simp only [Option.map_none]
      refine answered ?_
      rw [look_of_live hlive]
      exact hnil.symm
  | some e =>
      have hclean := h.live hlive
      cases hv : e.value with
      | list l =>
          rw [hv] at hclean
          simp only [Option.map_some, hv]
          refine answered ?_
          rw [look_of_live hlive, Option.map_some, Entry.slot, hv]
          refine elements_map (fun bs hbs => hclean bs ?_)
          exact List.mem_of_mem_take (List.mem_of_mem_drop hbs)
      | _ =>
          simp only [Option.map_some, hv]
          refine answered ?_
          rw [look_of_live hlive, Option.map_some, Entry.slot, hv]
          exact hnil.symm

theorem refines_llen (h : st.Clean) (info : Bytes → Bytes) (key : Bytes) :
    Refines now st (.llen key) (executeAll now st info (arguments (.llen key))) := by
  show Refines now st (.llen key) (st, execLlen now st [utf8 "LLEN", key])
  refine ⟨rfl, ?_, h⟩
  have counted : ∀ n : Nat, Operation.answer (.llen key) (some (.integer n)) =
      if n < 2 ^ 31 then .int n else .thrown := by
    intro n
    show ((Stoi.stoi 10 (utf8 (toString (n : Int)))).map Result.int).getD .thrown = _
    rw [stoi_repr]
    split <;> rfl
  cases hlive : st.live now key with
  | none =>
      simp only [Keyspace.Answers, look_of_live hlive, execLlen, hlive]
      exact counted 0
  | some e =>
      simp only [Keyspace.Answers, look_of_live hlive, execLlen, hlive, Option.map_some, Entry.slot]
      cases hv : e.value with
      | list l => exact counted l.length
      | _ => rfl

theorem refines_smembers (h : st.Clean) (info : Bytes → Bytes) (key : Bytes) :
    Refines now st (.smembers key) (executeAll now st info (arguments (.smembers key))) := by
  show Refines now st (.smembers key) (st, execSmembers now st [utf8 "SMEMBERS", key])
  refine ⟨rfl, ?_, h⟩
  show ∃ l, Result.texts (Operation.elements _) = .texts l ∧ l.Nodup ∧
    ∀ m, m ∈ l ↔ ∃ s, Slot.group (st.keyspace.look now key) = some s ∧ m ∈ s
  cases hlive : st.live now key with
  | none =>
      rw [look_of_live hlive]
      simp only [execSmembers, hlive]
      exact ⟨[], rfl, List.nodup_nil, by simp [Slot.group]⟩
  | some e =>
      have hclean := h.live hlive
      rw [look_of_live hlive]
      simp only [execSmembers, hlive, Option.map_some, Entry.slot]
      cases hv : e.value with
      | set members =>
          rw [hv] at hclean
          obtain ⟨_, hnodup, hnul⟩ := hclean
          exact ⟨members, congrArg Result.texts (elements_map hnul), hnodup,
            by simp [Slot.group, Value.content]⟩
      | _ => exact ⟨[], rfl, List.nodup_nil, by simp [Slot.group, Value.content]⟩

theorem refines_sismember (h : st.Clean) (info : Bytes → Bytes) (key member : Bytes) :
    Refines now st (.sismember key member)
      (executeAll now st info (arguments (.sismember key member))) := by
  show Refines now st (.sismember key member)
    (st, execSismember now st [utf8 "SISMEMBER", key, member])
  refine ⟨rfl, ⟨_, rfl, ?_⟩, h⟩
  have hone : (sent (some (.integer 1)) == utf8 "1") = true := by decide
  have hzero : ¬ (sent (some (.integer 0)) == utf8 "1") = true := by decide
  have hwrong : ¬ (sent (some wrongType) == utf8 "1") = true := by decide
  cases hlive : st.live now key with
  | none =>
      rw [look_of_live hlive]
      simp only [execSismember, hlive]
      exact iff_of_false hzero (by simp [Slot.group])
  | some e =>
      rw [look_of_live hlive]
      simp only [execSismember, hlive, Option.map_some, Entry.slot]
      cases hv : e.value with
      | set members =>
          by_cases hm : members.contains member = true
          · simp only [if_pos hm]
            exact iff_of_true hone ⟨_, rfl, List.contains_iff_mem.mp hm⟩
          · simp only [if_neg hm]
            refine iff_of_false hzero ?_
            rintro ⟨_, hs, hmem⟩
            cases hs
            exact hm (List.contains_iff_mem.mpr hmem)
      | _ => exact iff_of_false hwrong (by simp [Slot.group, Value.content])

theorem refines_hget (h : st.Clean) (info : Bytes → Bytes) (key field : Bytes) :
    Refines now st (.hget key field) (executeAll now st info (arguments (.hget key field))) := by
  show Refines now st (.hget key field) (st, execHget now st [utf8 "HGET", key, field])
  refine ⟨rfl, ?_, h⟩
  show Result.text (sent _) =
    .text (((Slot.record (st.keyspace.look now key)).bind (· field)).getD [])
  cases hlive : st.live now key with
  | none =>
      rw [look_of_live hlive]
      simp only [execHget, hlive]
      rfl
  | some e =>
      have hclean := h.live hlive
      rw [look_of_live hlive]
      simp only [execHget, hlive, Option.map_some, Entry.slot]
      cases hv : e.value with
      | hash fields =>
          rw [hv] at hclean
          show Result.text (sent (some (((getField fields field).map Reply.string).getD .nil))) =
            .text ((getField fields field).getD [])
          cases hget : getField fields field with
          | none => rfl
          | some v =>
              exact congrArg Result.text (cut_of_forall (hclean.2.2 _ (mem_of_getField hget)).2)
      | _ => rfl

theorem refines_hgetall (h : st.Clean) (info : Bytes → Bytes) (key : Bytes) :
    Refines now st (.hgetall key) (executeAll now st info (arguments (.hgetall key))) := by
  show Refines now st (.hgetall key) (st, execHgetall now st [utf8 "HGETALL", key])
  refine ⟨rfl, ?_, h⟩
  have nothing : ∀ {o : Option Slot}, (∀ f, (Slot.record o).bind (· f) = none) →
      ∃ l, Result.pairs [] = .pairs l ∧ (l.map Prod.fst).Nodup ∧
        ∀ f v, (f, v) ∈ l ↔ (Slot.record o).bind (· f) = some v :=
    fun ho => ⟨[], rfl, List.nodup_nil, fun f v => by simp [ho]⟩
  show ∃ l, Operation.answer (.hgetall key) _ = .pairs l ∧ (l.map Prod.fst).Nodup ∧
    ∀ f v, (f, v) ∈ l ↔ (Slot.record (st.keyspace.look now key)).bind (· f) = some v
  cases hlive : st.live now key with
  | none =>
      rw [look_of_live hlive]
      simp only [execHgetall, hlive]
      exact nothing (fun _ => rfl)
  | some e =>
      have hclean := h.live hlive
      rw [look_of_live hlive]
      simp only [execHgetall, hlive, Option.map_some, Entry.slot]
      cases hv : e.value with
      | hash fields =>
          rw [hv] at hclean
          obtain ⟨_, hnodup, hnul⟩ := hclean
          exact ⟨fields, congrArg Result.pairs (pairUp_flatMap hnul), hnodup,
            fun f v => (getField_eq_some_iff hnodup).symm⟩
      | _ => exact nothing (fun _ => rfl)

/-! ## Operations that write -/

theorem refines_set (h : st.Clean) (info : Bytes → Bytes) (key : Bytes) {value : Bytes}
    (hvalue : (0 : UInt8) ∉ value) {ttlSeconds : Int} (httl : ttlSeconds < 2 ^ 31) :
    Refines now st (.set key value ttlSeconds)
      (executeAll now st info (arguments (.set key value ttlSeconds))) := by
  have stored : ∀ expiresAt : Option Time,
      (st.put key (some ⟨.string value, expiresAt⟩)).keyspace =
        st.keyspace.put key (.text value) expiresAt ∧
      (st.put key (some ⟨.string value, expiresAt⟩)).Clean := by
    refine fun expiresAt => ⟨keyspace_put st key _, h.put ?_⟩
    rintro _ ⟨⟩
    exact hvalue
  by_cases hpos : 0 < ttlSeconds
  · have hargs : arguments (.set key value ttlSeconds) =
        [utf8 "SET", key, value, utf8 "EX", utf8 (toString ttlSeconds)] := by
      simp only [arguments, if_pos hpos]
    have hnumber := number_int ⟨by omega, httl⟩
    rw [hargs]
    show Refines now st (.set key value ttlSeconds)
      (execSet now st [utf8 "SET", key, value, utf8 "EX", utf8 (toString ttlSeconds)])
    simp only [execSet, if_true, hnumber, if_pos hpos]
    refine ⟨(stored _).1.trans ?_, rfl, (stored _).2⟩
    simp only [Keyspace.after, if_pos hpos, Keyspace.deadline]
  · have hargs : arguments (.set key value ttlSeconds) = [utf8 "SET", key, value] := by
      simp only [arguments, if_neg hpos]
    rw [hargs]
    show Refines now st (.set key value ttlSeconds) (execSet now st [utf8 "SET", key, value])
    refine ⟨(stored _).1.trans ?_, rfl, (stored _).2⟩
    simp only [Keyspace.after, if_neg hpos]

theorem refines_del (h : st.Clean) (info : Bytes → Bytes) (key : Bytes) :
    Refines now st (.del key) (executeAll now st info (arguments (.del key))) := by
  show Refines now st (.del key) (execDel now st [utf8 "DEL", key])
  refine ⟨?_, ?_, fun k e hk => ?_⟩
  · funext k
    show ((if k ∈ [key] then none else st.keys k).map Entry.slot) =
      Function.update st.keyspace key none k
    rw [Function.update_apply]
    by_cases hk : k = key
    · simp [hk]
    · simp [hk, State.keyspace]
  · show Result.bool (utf8 (toString ((_ : Nat) : Int)) != utf8 "0") =
      .bool (st.keyspace.look now key).isSome
    have hdedup : [key].dedup = [key] := by simp
    rw [sent_ne_zero, hdedup]
    cases hlive : st.live now key with
    | none =>
        rw [look_of_live hlive]
        simp [hlive]
    | some e =>
        rw [look_of_live hlive]
        simp [hlive]
  · have hk : (if k ∈ [key] then none else st.keys k) = some e := hk
    split at hk
    · cases hk
    · exact h k e hk

theorem refines_expire (h : st.Clean) (info : Bytes → Bytes) (key : Bytes) {seconds : Int}
    (hseconds : -2 ^ 31 ≤ seconds ∧ seconds < 2 ^ 31) :
    Refines now st (.expire key seconds)
      (executeAll now st info (arguments (.expire key seconds))) := by
  show Refines now st (.expire key seconds)
    (execExpire now st [utf8 "EXPIRE", key, utf8 (toString seconds)])
  have hnumber := number_int hseconds
  have answered : ∀ {st' : State} {n : Int} {o : Option Slot}, st.keyspace.look now key = o →
      st'.keyspace = st.keyspace.after now (.expire key seconds) → st'.Clean →
      (utf8 (toString n) == utf8 "1") = o.isSome →
      Refines now st (.expire key seconds) (st', .integer n) :=
    fun ho hstate hclean hn => ⟨hstate, congrArg Result.bool (hn.trans (by rw [ho])), hclean⟩
  have hone : (utf8 (toString (1 : Int)) == utf8 "1") = true := by decide
  have hzero : (utf8 (toString (0 : Int)) == utf8 "1") = false := by decide
  cases hlive : st.live now key with
  | none =>
      have hlook := look_of_live hlive
      simp only [execExpire, hnumber, hlive]
      exact answered hlook (by simp [Keyspace.after, hlook]) h hzero
  | some e =>
      have hlook := look_of_live hlive
      simp only [execExpire, hnumber, hlive]
      split
      · rename_i hpos
        refine answered hlook ?_ (h.put ?_) hone
        · rw [keyspace_put]
          simp only [Keyspace.after, hlook, Option.map_some, if_pos hpos]
          rfl
        · rintro _ ⟨⟩
          exact (h.live hlive :)
      · rename_i hpos
        refine answered hlook ?_ (h.put (by rintro _ ⟨⟩)) hone
        rw [keyspace_put]
        simp only [Keyspace.after, hlook, Option.map_some, if_neg hpos]
        rfl

theorem refines_publish (h : st.Clean) (info : Bytes → Bytes) (channel message : Bytes) :
    Refines now st (.publish channel message)
      (executeAll now st info (arguments (.publish channel message))) :=
  ⟨rfl, rfl, h⟩

/-- A content is replaced, within the time that is left to it. -/
theorem replaced (h : st.Clean) {key : Bytes} {o : Option Entry} (hlive : st.live now key = o)
    {value : Value} (hvalue : value.Clean) :
    (st.put key (some ⟨value, o.bind Entry.expiresAt⟩)).keyspace =
        st.keyspace.put key value.content ((st.keyspace.look now key).bind Slot.deadline) ∧
      (st.put key (some ⟨value, o.bind Entry.expiresAt⟩)).Clean := by
  constructor
  · rw [keyspace_put, look_of_live hlive]
    cases o <;> rfl
  · refine h.put ?_
    rintro _ ⟨⟩
    exact hvalue

theorem refines_lpush (h : st.Clean) (info : Bytes → Bytes) (key : Bytes) {values : List Bytes}
    (hvalues : ∀ v ∈ values, (0 : UInt8) ∉ v) :
    Refines now st (.lpush key values) (executeAll now st info (arguments (.lpush key values))) := by
  show Refines now st (.lpush key values) (execLpush now st (utf8 "LPUSH" :: key :: values))
  have refused : ∀ {reply : Reply}, st.keyspace.after now (.lpush key values) = st.keyspace →
      Refines now st (.lpush key values) (st, reply) := fun hsame => ⟨hsame.symm, rfl, h⟩
  cases values with
  | nil =>
      refine refused ?_
      simp only [Keyspace.after, if_true]
      split <;> rfl
  | cons value values =>
      cases hlive : st.live now key with
      | none =>
          have hclean : (Value.list (value :: values).reverse).Clean :=
            fun v hv => hvalues v (List.mem_reverse.mp hv)
          obtain ⟨hstate, hput⟩ := replaced h hlive hclean
          simp only [execLpush, hlive]
          refine ⟨hstate.trans ?_, rfl, hput⟩
          simp [Keyspace.after, look_of_live hlive, Slot.queue, Value.content]
      | some e =>
          cases hv : e.value with
          | list l =>
              have hold := h.live hlive
              rw [hv] at hold
              have hclean : (Value.list ((value :: values).reverse ++ l)).Clean := by
                intro v hmem
                rcases List.mem_append.mp hmem with hmem | hmem
                · exact hvalues v (List.mem_reverse.mp hmem)
                · exact hold v hmem
              obtain ⟨hstate, hput⟩ := replaced h hlive hclean
              simp only [execLpush, hlive, hv]
              refine ⟨hstate.trans ?_, rfl, hput⟩
              simp [Keyspace.after, look_of_live hlive, Entry.slot, hv, Slot.queue, Value.content]
          | _ =>
              simp only [execLpush, hlive, hv]
              refine refused ?_
              simp [Keyspace.after, look_of_live hlive, Entry.slot, hv, Slot.queue, Value.content]

/-- The members that are left, and that they are none. -/
theorem setOf_filter {members : List Bytes} {member : Bytes} :
    {m | m ∈ members.filter (fun m => m ∉ [member])} = {m | m ∈ members} \ {member} := by
  ext m
  simp

theorem refines_sadd (h : st.Clean) (info : Bytes → Bytes) (key : Bytes) {members : List Bytes}
    (hmembers : ∀ m ∈ members, (0 : UInt8) ∉ m) :
    Refines now st (.sadd key members) (executeAll now st info (arguments (.sadd key members))) := by
  show Refines now st (.sadd key members) (execSadd now st (utf8 "SADD" :: key :: members))
  have refused : ∀ {reply : Reply}, st.keyspace.after now (.sadd key members) = st.keyspace →
      Refines now st (.sadd key members) (st, reply) := fun hsame => ⟨hsame.symm, rfl, h⟩
  cases members with
  | nil =>
      refine refused ?_
      simp only [Keyspace.after, if_true]
      split <;> rfl
  | cons member members =>
      have added : ∀ {old : List Bytes}, old.Nodup → (∀ m ∈ old, (0 : UInt8) ∉ m) →
          (Value.set (addMembers old (member :: members))).Clean := by
        refine fun hnodup hnul => ⟨?_, nodup_addMembers hnodup _, fun m hm => ?_⟩
        · exact List.ne_nil_of_mem (mem_addMembers.mpr (Or.inr List.mem_cons_self))
        · rcases mem_addMembers.mp hm with hm | hm
          · exact hnul m hm
          · exact hmembers m hm
      have union : ∀ old : List Bytes, (Value.set (addMembers old (member :: members))).content =
          .group ({m | m ∈ old} ∪ {m | m ∈ member :: members}) :=
        fun old => congrArg Content.group (Set.ext (fun m => mem_addMembers))
      cases hlive : st.live now key with
      | none =>
          obtain ⟨hstate, hput⟩ := replaced h hlive
            (added List.nodup_nil (fun _ hm => nomatch hm))
          simp only [execSadd, hlive]
          refine ⟨hstate.trans ?_, rfl, hput⟩
          rw [union, look_of_live hlive]
          simp [Keyspace.after, look_of_live hlive, Slot.group]
      | some e =>
          cases hv : e.value with
          | set old =>
              have hold := h.live hlive
              rw [hv] at hold
              obtain ⟨hstate, hput⟩ := replaced h hlive (added hold.2.1 hold.2.2)
              simp only [execSadd, hlive, hv]
              refine ⟨hstate.trans ?_, rfl, hput⟩
              rw [union, look_of_live hlive]
              simp [Keyspace.after, look_of_live hlive, Entry.slot, hv, Slot.group, Value.content]
          | _ =>
              simp only [execSadd, hlive, hv]
              refine refused ?_
              simp [Keyspace.after, look_of_live hlive, Entry.slot, hv, Slot.group, Value.content]

theorem refines_srem (h : st.Clean) (info : Bytes → Bytes) (key member : Bytes) :
    Refines now st (.srem key member) (executeAll now st info (arguments (.srem key member))) := by
  show Refines now st (.srem key member) (execSrem now st [utf8 "SREM", key, member])
  have hzero : (sent (some (.integer 0)) != utf8 "0") = false := by decide
  have hwrong : (sent (some wrongType) != utf8 "0") = true := by decide
  cases hlive : st.live now key with
  | none =>
      have hlook := look_of_live hlive
      simp only [execSrem, hlive]
      refine ⟨?_, ⟨false, congrArg Result.bool hzero, ?_⟩, h⟩
      · simp [Keyspace.after, hlook, Slot.group]
      · simp [hlook, Slot.group]
  | some e =>
      have hlook := look_of_live hlive
      cases hv : e.value with
      | set members =>
          have hclean := h.live hlive
          rw [hv] at hclean
          obtain ⟨hne, hnodup, hnul⟩ := hclean
          have hgroup : Slot.group (st.keyspace.look now key) = some {m | m ∈ members} := by
            rw [hlook, Option.map_some, Entry.slot, hv]
            rfl
          have hleft : (members.filter (fun m => m ∉ [member])).length = members.length ↔
              member ∉ members := by
            simp only [List.length_filter_eq_length_iff, List.mem_singleton, decide_eq_true_eq]
            exact ⟨fun hall hm => hall member hm rfl, fun hno m hm heq => hno (heq ▸ hm)⟩
          simp only [execSrem, hlive, hv]
          by_cases hmem : member ∈ members
          · have hless := List.length_filter_le (fun m => decide (m ∉ [member])) members
            have hlen : (members.filter (fun m => m ∉ [member])).length ≠ members.length :=
              fun hlen => hleft.mp hlen hmem
            rw [if_neg hlen]
            have hempty : {m | m ∈ members} \ {member} = (∅ : Set Bytes) ↔
                members.filter (fun m => m ∉ [member]) = [] := by
              rw [← setOf_filter, List.eq_nil_iff_forall_not_mem, Set.eq_empty_iff_forall_notMem]
              rfl
            refine ⟨?_, ⟨true, congrArg Result.bool ?_, ?_⟩, ?_⟩
            · rw [keyspace_put]
              simp only [Keyspace.after, hgroup, Set.mem_ofPred_eq, if_pos hmem]
              by_cases hnil : members.filter (fun m => m ∉ [member]) = []
              · rw [if_pos hnil, if_pos (hempty.mpr hnil)]
                rfl
              · rw [if_neg hnil, if_neg (fun heq => hnil (hempty.mp heq)), ← setOf_filter, hlook]
                rfl
            · show (utf8 (toString ((_ : Nat) : Int)) != utf8 "0") = true
              rw [sent_ne_zero, decide_eq_true_eq]
              omega
            · refine iff_of_true rfl (fun s hs => ?_)
              cases hgroup.symm.trans hs
              exact hmem
            · refine h.put ?_
              split
              · rintro _ ⟨⟩
              · rename_i hnil
                rintro _ ⟨⟩
                exact ⟨hnil, hnodup.filter _, fun m hm => hnul m (List.mem_of_mem_filter hm)⟩
          · rw [if_pos (hleft.mpr hmem)]
            refine ⟨?_, ⟨false, congrArg Result.bool hzero, ?_⟩, h⟩
            · simp only [Keyspace.after, hgroup, Set.mem_ofPred_eq, if_neg hmem]
            · exact iff_of_false Bool.false_ne_true (fun hall => hmem (hall _ hgroup))
      | _ =>
          simp only [execSrem, hlive, hv]
          refine ⟨?_, ⟨true, congrArg Result.bool hwrong, ?_⟩, h⟩
          · simp [Keyspace.after, hlook, Entry.slot, hv, Slot.group, Value.content]
          · simp [hlook, Entry.slot, hv, Slot.group, Value.content]

theorem refines_hset (h : st.Clean) (info : Bytes → Bytes) (key : Bytes) {field value : Bytes}
    (hfield : (0 : UInt8) ∉ field) (hvalue : (0 : UInt8) ∉ value) :
    Refines now st (.hset key field value)
      (executeAll now st info (arguments (.hset key field value))) := by
  show Refines now st (.hset key field value) (execHset now st [utf8 "HSET", key, field, value])
  have hwrong : (sent (some wrongType) != utf8 "0") = true := by decide
  -- on the hash that is there, or on an empty one
  have written : ∀ (old : List (Bytes × Bytes)), (old.map Prod.fst).Nodup →
      (∀ f ∈ old, (0 : UInt8) ∉ f.1 ∧ (0 : UInt8) ∉ f.2) →
      Slot.record (st.keyspace.look now key) = some (getField old) →
      Refines now st (.hset key field value)
        (st.put key (some ⟨.hash (setField old field value), (st.live now key).bind Entry.expiresAt⟩),
          .integer (((setField old field value).length - old.length : Nat))) := by
    intro old hnodup hnul hrecord
    have hkeys : (setField old field value).map Prod.fst =
        if field ∈ old.map Prod.fst then old.map Prod.fst else old.map Prod.fst ++ [field] :=
      fst_setField
    have hlength : ∀ fields : List (Bytes × Bytes), fields.length = (fields.map Prod.fst).length :=
      fun _ => (List.length_map _).symm
    have hmem : ∀ f ∈ setField old field value, f = (field, value) ∨ f ∈ old := by
      intro f hf
      unfold setField at hf
      split at hf
      · obtain ⟨g, hg, rfl⟩ := List.mem_map.mp hf
        split
        · exact Or.inl rfl
        · exact Or.inr hg
      · rcases List.mem_append.mp hf with hf | hf
        · exact Or.inr hf
        · exact Or.inl (List.mem_singleton.mp hf)
    have hclean : (Value.hash (setField old field value)).Clean := by
      refine ⟨?_, ?_, fun f hf => ?_⟩
      · have hget : getField (setField old field value) field = some value := by
          rw [getField_setField, Function.update_self]
        exact List.ne_nil_of_mem (mem_of_getField hget)
      · rw [hkeys]
        split
        · exact hnodup
        · rename_i hno
          exact List.nodup_append.mpr ⟨hnodup, List.nodup_singleton field, fun f hf g hg heq =>
            hno (List.mem_singleton.mp hg ▸ heq ▸ hf)⟩
      · rcases hmem f hf with rfl | hf
        · exact ⟨hfield, hvalue⟩
        · exact hnul f hf
    obtain ⟨hstate, hput⟩ := replaced h rfl hclean
    refine ⟨hstate.trans ?_, ⟨decide (field ∉ old.map Prod.fst), congrArg Result.bool ?_, ?_⟩, hput⟩
    · simp only [Keyspace.after, hrecord, Value.content, getField_setField]
    · show (utf8 (toString ((_ : Nat) : Int)) != utf8 "0") = _
      rw [sent_ne_zero, decide_eq_decide, hlength (setField old field value), hkeys, hlength old]
      split
      · rename_i hin
        exact iff_of_false (fun hne => hne (Nat.sub_self _)) (fun hno => hno hin)
      · rename_i hno
        refine iff_of_true ?_ hno
        rw [List.length_append, List.length_singleton]
        omega
    · rw [decide_eq_true_eq, ← getField_eq_none_iff]
      constructor
      · intro hnone r hr
        cases hrecord.symm.trans hr
        exact hnone
      · exact fun hall => hall _ hrecord
  cases hlive : st.live now key with
  | none =>
      have hlook := look_of_live hlive
      have hall := written [] List.nodup_nil (fun _ hf => nomatch hf) (by rw [hlook]; rfl)
      rw [hlive] at hall
      simp only [execHset, hlive]
      exact hall
  | some e =>
      have hlook := look_of_live hlive
      cases hv : e.value with
      | hash old =>
          have hclean := h.live hlive
          rw [hv] at hclean
          have hall := written old hclean.2.1 hclean.2.2 (by
            rw [hlook, Option.map_some, Entry.slot, hv]
            rfl)
          rw [hlive] at hall
          simp only [execHset, hlive, Option.map_some, hv]
          exact hall
      | _ =>
          simp only [execHset, hlive, Option.map_some, hv]
          refine ⟨?_, ⟨true, congrArg Result.bool hwrong, ?_⟩, h⟩
          · simp [Keyspace.after, hlook, Entry.slot, hv, Slot.record, Value.content]
          · simp [hlook, Entry.slot, hv, Slot.record, Value.content]

theorem refines_hdel (h : st.Clean) (info : Bytes → Bytes) (key field : Bytes) :
    Refines now st (.hdel key field) (executeAll now st info (arguments (.hdel key field))) := by
  show Refines now st (.hdel key field) (execHdel now st [utf8 "HDEL", key, field])
  have hzero : (sent (some (.integer 0)) != utf8 "0") = false := by decide
  have hwrong : (sent (some wrongType) != utf8 "0") = true := by decide
  cases hlive : st.live now key with
  | none =>
      have hlook := look_of_live hlive
      simp only [execHdel, hlive]
      refine ⟨?_, ⟨false, congrArg Result.bool hzero, ?_⟩, h⟩
      · simp [Keyspace.after, hlook, Slot.record]
      · simp [hlook, Slot.record]
  | some e =>
      have hlook := look_of_live hlive
      cases hv : e.value with
      | hash fields =>
          have hclean := h.live hlive
          rw [hv] at hclean
          obtain ⟨hne, hnodup, hnul⟩ := hclean
          have hrecord : Slot.record (st.keyspace.look now key) = some (getField fields) := by
            rw [hlook, Option.map_some, Entry.slot, hv]
            rfl
          have hleft : (fields.filter (fun f => f.1 ∉ [field])).length = fields.length ↔
              getField fields field = none := by
            rw [getField_eq_none_iff]
            simp only [List.length_filter_eq_length_iff, List.mem_singleton, decide_eq_true_eq,
              List.mem_map, not_exists, not_and]
          have hempty : (∀ f, f ≠ field → getField fields f = none) ↔
              fields.filter (fun f => f.1 ∉ [field]) = [] := by
            simp only [getField_eq_none_iff, List.filter_eq_nil_iff, List.mem_singleton,
              decide_eq_true_eq, not_not, List.mem_map, not_exists, not_and]
            exact ⟨fun hall f hf => by_contra (fun hf' => hall f.1 hf' f hf rfl),
              fun hall f hf g hg heq => hf (heq ▸ hall g hg)⟩
          simp only [execHdel, hlive, hv]
          by_cases hnone : getField fields field = none
          · rw [if_pos (hleft.mpr hnone)]
            refine ⟨?_, ⟨false, congrArg Result.bool hzero, ?_⟩, h⟩
            · simp only [Keyspace.after, hrecord, if_pos hnone]
            · exact iff_of_false Bool.false_ne_true (fun hall => hall _ hrecord hnone)
          · have hless := List.length_filter_le (fun f => decide (f.1 ∉ [field])) fields
            have hlen : (fields.filter (fun f => f.1 ∉ [field])).length ≠ fields.length :=
              fun hlen => hnone (hleft.mp hlen)
            rw [if_neg hlen]
            refine ⟨?_, ⟨true, congrArg Result.bool ?_, ?_⟩, ?_⟩
            · rw [keyspace_put]
              simp only [Keyspace.after, hrecord, if_neg hnone]
              by_cases hnil : fields.filter (fun f => f.1 ∉ [field]) = []
              · rw [if_pos hnil, if_pos (hempty.mpr hnil)]
                rfl
              · rw [if_neg hnil, if_neg (fun hall => hnil (hempty.mp hall)), ← getField_filter, hlook]
                rfl
            · show (utf8 (toString ((_ : Nat) : Int)) != utf8 "0") = true
              rw [sent_ne_zero, decide_eq_true_eq]
              omega
            · refine iff_of_true rfl (fun r hr => ?_)
              cases hrecord.symm.trans hr
              exact hnone
            · refine h.put ?_
              split
              · rintro _ ⟨⟩
              · rename_i hnil
                rintro _ ⟨⟩
                exact ⟨hnil, (List.filter_sublist.map Prod.fst).nodup hnodup,
                  fun f hf => hnul f (List.mem_of_mem_filter hf)⟩
      | _ =>
          simp only [execHdel, hlive, hv]
          refine ⟨?_, ⟨true, congrArg Result.bool hwrong, ?_⟩, h⟩
          · simp [Keyspace.after, hlook, Entry.slot, hv, Slot.record, Value.content]
          · simp [hlook, Entry.slot, hv, Slot.record, Value.content]

end Refines

/-! ## Runs -/

/-- The `int` arguments of an operation. -/
def Operation.ints : Operation → List Int
  | .set _ _ ttlSeconds => [ttlSeconds]
  | .expire _ seconds => [seconds]
  | .lrange _ start stop => [start, stop]
  | _ => []

structure Operation.Plain (op : Operation) : Prop where
  words : ∀ w ∈ op.arguments, PlainWord w
  ints : ∀ n ∈ op.ints, -2 ^ 31 ≤ n ∧ n < 2 ^ 31

/-- The step lemma. -/
theorem refines_of_plain {st : State} (h : st.Clean) (now : Time) (info : Bytes → Bytes)
    {op : Operation} (hop : op.Plain) :
    Refines now st op (executeAll now st info op.arguments) := by
  have hnul : ∀ w ∈ op.arguments, (0 : UInt8) ∉ w := fun w hw h0 => ((hop.words w hw).2 0 h0).2.2 rfl
  have hint := hop.ints
  cases op with
  | set key value ttlSeconds =>
      exact refines_set h info key (hnul value (by simp [Operation.arguments]))
        (hint ttlSeconds (List.mem_singleton.mpr rfl)).2
  | get key => exact refines_get h info key
  | existsKey key => exact refines_exists h info key
  | del key => exact refines_del h info key
  | expire key seconds => exact refines_expire h info key (hint seconds (List.mem_singleton.mpr rfl))
  | lpush key values =>
      exact refines_lpush h info key (fun v hv => hnul v (by simp [Operation.arguments, hv]))
  | lrange key start stop =>
      exact refines_lrange h info key (hint start List.mem_cons_self)
        (hint stop (List.mem_cons_of_mem start List.mem_cons_self))
  | llen key => exact refines_llen h info key
  | sadd key members =>
      exact refines_sadd h info key (fun m hm => hnul m (by simp [Operation.arguments, hm]))
  | smembers key => exact refines_smembers h info key
  | sismember key member => exact refines_sismember h info key member
  | srem key member => exact refines_srem h info key member
  | hset key field value =>
      exact refines_hset h info key (hnul field (by simp [Operation.arguments]))
        (hnul value (by simp [Operation.arguments]))
  | hget key field => exact refines_hget h info key field
  | hdel key field => exact refines_hdel h info key field
  | hgetall key => exact refines_hgetall h info key
  | publish channel message => exact refines_publish h info channel message
  | ping => exact ⟨rfl, rfl, h⟩
  | info section_ => exact ⟨rfl, ⟨_, rfl⟩, h⟩

/-- Operations on plain words, on a client that is ready: each comes back, the client is then as
    it was, and they are those of the keyspace. -/
theorem serves_of_ready (w : Surroundings) {s : Session} (hready : s.client.Ready)
    (hclean : s.server.Clean) (ops : List (Time × Operation)) (hops : ∀ x ∈ ops, x.2.Plain) :
    ∃ results, (s.calls w ops).2 = results.map some ∧ (s.calls w ops).1.client = s.client ∧
      Keyspace.Serves s.server.keyspace ops results (s.calls w ops).1.server.keyspace := by
  induction ops generalizing s with
  | nil => exact ⟨[], rfl, rfl, .nil _⟩
  | cons x ops ih =>
      obtain ⟨now, op⟩ := x
      have hop := hops (now, op) List.mem_cons_self
      obtain ⟨hstate, hanswers, hclean'⟩ := refines_of_plain hclean now w.info hop
      have hcall := Session.call_of_ready w hready now hop.words
      obtain ⟨results, hresults, hclient, hserves⟩ := ih (s := (s.call w now op).1)
        (by rwa [hcall]) (by rwa [hcall]) (fun x hx => hops x (List.mem_cons_of_mem _ hx))
      refine ⟨op.answer (some (executeAll now s.server w.info op.arguments).2) :: results, ?_, ?_,
        .cons hanswers ?_⟩
      · show (s.call w now op).2 :: ((s.call w now op).1.calls w ops).2 = _
        rw [hresults, hcall]
        rfl
      · exact hclient.trans (by rw [hcall])
      · have hserver : (s.call w now op).1.server.keyspace = s.server.keyspace.after now op := by
          rw [hcall]
          exact hstate
        rw [← hserver]
        exact hserves

/-- A member that is added, taken out again, and asked for. -/
def roomCalls : List (Time × Operation) :=
  [(0, .sadd (utf8 "room") [utf8 "a", utf8 "b"]), (1, .srem (utf8 "room") (utf8 "a")),
    (2, .sismember (utf8 "room") (utf8 "a")), (3, .smembers (utf8 "room"))]

def quietWorld : Surroundings := ⟨.splitting, fun _ => [], Client.goodFrom 1⟩

theorem serves_of_ready_room : ∃ results,
    (Session.calls quietWorld ⟨Client.online, {}⟩ roomCalls).2 = results.map some ∧
      (Session.calls quietWorld ⟨Client.online, {}⟩ roomCalls).1.client = Client.online ∧
      Keyspace.Serves (fun _ => none) roomCalls results
        (Session.calls quietWorld ⟨Client.online, {}⟩ roomCalls).1.server.keyspace :=
  serves_of_ready quietWorld (s := ⟨Client.online, {}⟩) ⟨by decide, by decide⟩ State.clean_empty
    roomCalls (by
      intro x hx
      simp only [roomCalls, List.mem_cons, List.not_mem_nil, or_false] at hx
      rcases hx with rfl | rfl | rfl | rfl <;>
        exact ⟨by decide, fun _ hn => nomatch hn⟩)

end MessengerBackend.Redis
