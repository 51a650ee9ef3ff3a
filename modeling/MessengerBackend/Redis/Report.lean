/-
  What the mutating operations of `RedisClient` report: whether true means that Redis has
  executed the command, and false that nothing has changed.

  `set` and `expire` compare the reply with that of a success. `del`, `srem`, `hset` and `hdel`
  take every reply but 0 for a success, also none and an error; `lpush`, `sadd` and `publish` do
  not look at the reply. HSET replies with the number of new fields, so 0 when it overwrites one.

  * `verdict`: Redis refuses such a command, answers it by 0, or confirms it.
  * `answer_execute`: what the operation takes its reply for.
  * `truthful_iff_honest`: the operation reports the truth exactly if its fate is `Honest`
    (`overwrite_denied`).
-/
import Mathlib.Data.List.Dedup
import MessengerBackend.Redis.Delivery
import MessengerBackend.Redis.Plain

namespace MessengerBackend.Redis

/-- The operations that change something and return a `bool`. -/
inductive Mutation where
  | set (key value : Bytes) (ttlSeconds : Int)
  | del (key : Bytes)
  | expire (key : Bytes) (seconds : Int)
  | lpush (key : Bytes) (values : List Bytes)
  | sadd (key : Bytes) (members : List Bytes)
  | srem (key member : Bytes)
  | hset (key field value : Bytes)
  | hdel (key field : Bytes)
  | publish (channel message : Bytes)

/-! ## What Redis finds -/

namespace State

variable (st : State) (now : Time)

/-- The members of the set under a key. -/
def members (key : Bytes) : List Bytes :=
  match st.store now key with
  | some (.set members) => members
  | _ => []

/-- The fields of the hash under a key. -/
def fields (key : Bytes) : List (Bytes × Bytes) :=
  match st.store now key with
  | some (.hash fields) => fields
  | _ => []

end State

def Value.isSet : Value → Bool
  | .set _ => true
  | _ => false

def Value.isHash : Value → Bool
  | .hash _ => true
  | _ => false

namespace Mutation

def operation : Mutation → Operation
  | .set key value ttlSeconds => .set key value ttlSeconds
  | .del key => .del key
  | .expire key seconds => .expire key seconds
  | .lpush key values => .lpush key values
  | .sadd key members => .sadd key members
  | .srem key member => .srem key member
  | .hset key field value => .hset key field value
  | .hdel key field => .hdel key field
  | .publish channel message => .publish channel message

/-- The strings it is given. -/
def strings : Mutation → List Bytes
  | .set key value _ => [key, value]
  | .del key => [key]
  | .expire key _ => [key]
  | .lpush key values => key :: values
  | .sadd key members => key :: members
  | .srem key member => [key, member]
  | .hset key field value => [key, field, value]
  | .hdel key field => [key, field]
  | .publish channel message => [channel, message]

/-- It compares the reply with that of a success. -/
def Strict : Mutation → Prop
  | .set _ _ _ => True
  | .expire _ _ => True
  | _ => False

variable (m : Mutation) (st : State) (now : Time)

/-- Redis executes it: the key is absent or holds the right type, numbers have 64 bits, and there
    is something to add. -/
def Takes : Prop :=
  match m with
  | .set _ _ ttlSeconds => ttlSeconds < 2 ^ 63
  | .expire _ seconds => -2 ^ 63 ≤ seconds ∧ seconds < 2 ^ 63
  | .lpush key values => values ≠ [] ∧ (st.store now key).all Value.isList = true
  | .sadd key members => members ≠ [] ∧ (st.store now key).all Value.isSet = true
  | .srem key _ => (st.store now key).all Value.isSet = true
  | .hset key _ _ => (st.store now key).all Value.isHash = true
  | .hdel key _ => (st.store now key).all Value.isHash = true
  | .del _ => True
  | .publish _ _ => True

/-- Redis counts 0: what is to go or to expire is not there, or the field is there already. -/
def Denies : Prop :=
  match m with
  | .del key => st.store now key = none
  | .expire key _ => st.store now key = none
  | .srem key member => member ∉ st.members now key
  | .hset key field _ => field ∈ (st.fields now key).map Prod.fst
  | .hdel key field => field ∉ (st.fields now key).map Prod.fst
  | _ => False

/-- HSET of a field that is there with another value. -/
def Overwrites : Prop :=
  match m with
  | .hset key field value => ∃ f ∈ st.fields now key, f.1 = field ∧ f.2 ≠ value
  | _ => False

/-- Redis, when it executes it, stores or removes something. -/
def Changes : Prop :=
  ∃ key, (execute now st m.operation.arguments).1.live now key ≠ st.live now key

/-- What Redis says to one that finds what it is about. -/
def Confirms (m : Mutation) (reply : Reply) : Prop :=
  match m with
  | .set _ _ _ => reply = .status (utf8 "OK")
  | .expire _ _ => reply = .integer 1
  | .lpush _ _ => ∃ n, reply = .integer n
  | .sadd _ _ => ∃ n, reply = .integer n
  | .publish _ _ => ∃ n, reply = .integer n
  | _ => ∃ n : Nat, reply = .integer n ∧ n ≠ 0

/-- What Redis does with it. -/
inductive Verdict (m : Mutation) (st : State) (now : Time) (x : State × Reply) : Prop where
  | refused (msg : String) (hno : ¬ m.Takes st now) (hsame : x.1 = st) (hreply : x.2 = .error msg)
  | denied (htakes : m.Takes st now) (hdenies : m.Denies st now) (hreply : x.2 = .integer 0)
      (hchanges : (∃ key, x.1.live now key ≠ st.live now key) ↔ m.Overwrites st now)
  | confirmed (htakes : m.Takes st now) (hno : ¬ m.Denies st now) (hreply : m.Confirms x.2)

end Mutation

/-! ## Command by command -/

namespace Mutation

section Verdicts

variable {st : State} {now : Time}

theorem store_of_live {key : Bytes} {o : Option Entry} (h : st.live now key = o) :
    st.store now key = o.map Entry.value := congrArg _ h

theorem no_change : ¬ ∃ key, st.live now key ≠ st.live now key := fun ⟨_, h⟩ => h rfl

theorem verdict_set (key value : Bytes) (ttlSeconds : Int) :
    Verdict (.set key value ttlSeconds) st now
      (execute now st (operation (.set key value ttlSeconds)).arguments) := by
  by_cases hpos : 0 < ttlSeconds
  · have hargs : (operation (.set key value ttlSeconds)).arguments =
        [utf8 "SET", key, value, utf8 "EX", utf8 (toString ttlSeconds)] := by
      simp only [operation, Operation.arguments, if_pos hpos]
    rw [hargs]
    show Verdict _ _ _ (execSet now st
      [utf8 "SET", key, value, utf8 "EX", utf8 (toString ttlSeconds)])
    by_cases hbits : ttlSeconds < 2 ^ 63
    · have hnumber : number (utf8 (toString ttlSeconds)) = some ttlSeconds := by
        rw [number_toString, if_pos ⟨by omega, hbits⟩]
      simp only [execSet, if_true, hnumber, if_pos hpos]
      exact .confirmed hbits id rfl
    · have hnumber : number (utf8 (toString ttlSeconds)) = none := by
        rw [number_toString, if_neg (fun h => hbits h.2)]
      simp only [execSet, if_true, hnumber]
      exact .refused _ hbits rfl rfl
  · have hargs : (operation (.set key value ttlSeconds)).arguments = [utf8 "SET", key, value] := by
      simp only [operation, Operation.arguments, if_neg hpos]
    rw [hargs]
    have hbits : ttlSeconds < 2 ^ 63 := by omega
    exact .confirmed hbits id rfl

theorem verdict_del (key : Bytes) :
    Verdict (.del key) st now (execute now st (operation (.del key)).arguments) := by
  show Verdict _ _ _ (execDel now st [utf8 "DEL", key])
  have hdedup : [key].dedup = [key] := by simp
  cases hlive : st.live now key with
  | none =>
      refine .denied trivial (store_of_live hlive) ?_ ⟨?_, fun h => h.elim⟩
      · simp [execDel, hdedup, hlive]
      · -- the key was not there before
        rintro ⟨k, hk⟩
        refine hk ?_
        by_cases heq : k = key
        · rw [heq, hlive]
          simp [execDel, State.live]
        · simp [execDel, State.live, heq]
  | some e =>
      refine .confirmed trivial (fun hnone => ?_) ⟨1, ?_, by decide⟩
      · cases (store_of_live hlive).symm.trans hnone
      · simp [execDel, hdedup, hlive]

theorem verdict_expire (key : Bytes) (seconds : Int) :
    Verdict (.expire key seconds) st now
      (execute now st (operation (.expire key seconds)).arguments) := by
  show Verdict _ _ _ (execExpire now st [utf8 "EXPIRE", key, utf8 (toString seconds)])
  by_cases hbits : -2 ^ 63 ≤ seconds ∧ seconds < 2 ^ 63
  · have hnumber : number (utf8 (toString seconds)) = some seconds := by
      rw [number_toString, if_pos hbits]
    cases hlive : st.live now key with
    | none =>
        simp only [execExpire, hnumber, hlive]
        exact .denied hbits (store_of_live hlive) rfl (iff_of_false no_change id)
    | some e =>
        have hthere : ¬ Denies (.expire key seconds) st now := fun hnone => by
          cases (store_of_live hlive).symm.trans hnone
        simp only [execExpire, hnumber, hlive]
        split
        · exact .confirmed hbits hthere rfl
        · exact .confirmed hbits hthere rfl
  · have hnumber : number (utf8 (toString seconds)) = none := by
      rw [number_toString, if_neg hbits]
    simp only [execExpire, hnumber]
    exact .refused _ hbits rfl rfl

theorem verdict_lpush (key : Bytes) (values : List Bytes) :
    Verdict (.lpush key values) st now
      (execute now st (operation (.lpush key values)).arguments) := by
  show Verdict _ _ _ (execLpush now st (utf8 "LPUSH" :: key :: values))
  cases values with
  | nil => exact .refused _ (fun h => h.1 rfl) rfl rfl
  | cons value values =>
      have htakes : ∀ {o : Option Entry}, st.live now key = o →
          (Takes (.lpush key (value :: values)) st now ↔
            (o.map Entry.value).all Value.isList = true) := fun h => by
        simp [Takes, store_of_live h]
      cases hlive : st.live now key with
      | none =>
          simp only [execLpush, hlive]
          exact .confirmed ((htakes hlive).mpr rfl) id ⟨_, rfl⟩
      | some e =>
          cases hv : e.value with
          | list l =>
              simp only [execLpush, hlive, hv]
              exact .confirmed ((htakes hlive).mpr (by simp [hv, Value.isList])) id ⟨_, rfl⟩
          | _ =>
              simp only [execLpush, hlive, hv]
              exact .refused _ (fun h => by simp [htakes hlive, hv, Value.isList] at h) rfl rfl

theorem verdict_sadd (key : Bytes) (members : List Bytes) :
    Verdict (.sadd key members) st now
      (execute now st (operation (.sadd key members)).arguments) := by
  show Verdict _ _ _ (execSadd now st (utf8 "SADD" :: key :: members))
  cases members with
  | nil => exact .refused _ (fun h => h.1 rfl) rfl rfl
  | cons member members =>
      have htakes : ∀ {o : Option Entry}, st.live now key = o →
          (Takes (.sadd key (member :: members)) st now ↔
            (o.map Entry.value).all Value.isSet = true) := fun h => by
        simp [Takes, store_of_live h]
      cases hlive : st.live now key with
      | none =>
          simp only [execSadd, hlive]
          exact .confirmed ((htakes hlive).mpr rfl) id ⟨_, rfl⟩
      | some e =>
          cases hv : e.value with
          | set l =>
              simp only [execSadd, hlive, hv]
              exact .confirmed ((htakes hlive).mpr (by simp [hv, Value.isSet])) id ⟨_, rfl⟩
          | _ =>
              simp only [execSadd, hlive, hv]
              exact .refused _ (fun h => by simp [htakes hlive, hv, Value.isSet] at h) rfl rfl

/-- A command that counts what it takes out of a list. -/
theorem verdict_filter {α : Type} {m : Mutation} {l : List α} {p : α → Bool} (st' : State)
    (htakes : m.Takes st now) (hdenies : m.Denies st now ↔ (l.filter p).length = l.length)
    (hcounts : ∀ n : Nat, n ≠ 0 → m.Confirms (.integer n)) (hover : ¬ m.Overwrites st now) :
    Verdict m st now (if (l.filter p).length = l.length then (st, .integer 0)
      else (st', .integer (l.length - (l.filter p).length : Nat))) := by
  split
  · rename_i hlen
    exact .denied htakes (hdenies.mpr hlen) rfl (iff_of_false no_change hover)
  · rename_i hlen
    have hle := List.length_filter_le p l
    exact .confirmed htakes (fun h => hlen (hdenies.mp h)) (hcounts _ (by omega))

theorem verdict_srem (key member : Bytes) :
    Verdict (.srem key member) st now (execute now st (operation (.srem key member)).arguments) := by
  show Verdict _ _ _ (execSrem now st [utf8 "SREM", key, member])
  cases hlive : st.live now key with
  | none =>
      simp only [execSrem, hlive]
      refine .denied ?_ ?_ rfl (iff_of_false no_change id)
      · simp [Takes, store_of_live hlive]
      · simp [Denies, State.members, store_of_live hlive]
  | some e =>
      cases hv : e.value with
      | set l =>
          have htakes : Takes (.srem key member) st now := by
            simp [Takes, store_of_live hlive, hv, Value.isSet]
          have hdenies : Denies (.srem key member) st now ↔
              (l.filter (fun m => m ∉ [member])).length = l.length := by
            simp only [Denies, State.members, store_of_live hlive, hv, Option.map_some,
              List.length_filter_eq_length_iff, List.mem_singleton, decide_eq_true_eq]
            exact ⟨fun h m hm heq => h (heq ▸ hm), fun h hm => h _ hm rfl⟩
          simp only [execSrem, hlive, hv]
          exact verdict_filter _ htakes hdenies (fun n hn => ⟨n, rfl, hn⟩) id
      | _ =>
          simp only [execSrem, hlive, hv]
          refine .refused _ (fun h => ?_) rfl rfl
          simp [Takes, store_of_live hlive, hv, Value.isSet] at h

theorem verdict_hdel (key field : Bytes) :
    Verdict (.hdel key field) st now (execute now st (operation (.hdel key field)).arguments) := by
  show Verdict _ _ _ (execHdel now st [utf8 "HDEL", key, field])
  cases hlive : st.live now key with
  | none =>
      simp only [execHdel, hlive]
      refine .denied ?_ ?_ rfl (iff_of_false no_change id)
      · simp [Takes, store_of_live hlive]
      · simp [Denies, State.fields, store_of_live hlive]
  | some e =>
      cases hv : e.value with
      | hash l =>
          have htakes : Takes (.hdel key field) st now := by
            simp [Takes, store_of_live hlive, hv, Value.isHash]
          have hdenies : Denies (.hdel key field) st now ↔
              (l.filter (fun f => f.1 ∉ [field])).length = l.length := by
            simp only [Denies, State.fields, store_of_live hlive, hv, Option.map_some,
              List.length_filter_eq_length_iff, List.mem_singleton, decide_eq_true_eq, List.mem_map]
            exact ⟨fun h f hf heq => h ⟨f, hf, heq⟩, fun h ⟨f, hf, heq⟩ => h f hf heq⟩
          simp only [execHdel, hlive, hv]
          exact verdict_filter _ htakes hdenies (fun n hn => ⟨n, rfl, hn⟩) id
      | _ =>
          simp only [execHdel, hlive, hv]
          refine .refused _ (fun h => ?_) rfl rfl
          simp [Takes, store_of_live hlive, hv, Value.isHash] at h

/-- A field that is there is set in its place. -/
theorem setField_of_mem {fields : List (Bytes × Bytes)} {field : Bytes}
    (h : field ∈ fields.map Prod.fst) (value : Bytes) : setField fields field value =
      fields.map (fun f => if f.1 == field then (field, value) else f) := by
  refine if_pos (List.any_eq_true.mpr ?_)
  obtain ⟨f, hf, heq⟩ := List.mem_map.mp h
  exact ⟨f, hf, by simpa using heq⟩

theorem setField_of_not_mem {fields : List (Bytes × Bytes)} {field : Bytes}
    (h : field ∉ fields.map Prod.fst) (value : Bytes) :
    setField fields field value = fields ++ [(field, value)] := by
  refine if_neg (fun hany => h ?_)
  obtain ⟨f, hf, heq⟩ := List.any_eq_true.mp hany
  exact List.mem_map.mpr ⟨f, hf, by simpa using heq⟩

/-- Which leaves the hash as it is, unless the value is another one. -/
theorem setField_eq_iff {fields : List (Bytes × Bytes)} {field : Bytes}
    (h : field ∈ fields.map Prod.fst) (value : Bytes) :
    setField fields field value = fields ↔ ¬ ∃ f ∈ fields, f.1 = field ∧ f.2 ≠ value := by
  have hid := List.map_id fields
  rw [setField_of_mem h]
  conv_lhs => rhs; rw [← hid]
  rw [List.map_inj_left]
  constructor
  · rintro hall ⟨f, hf, heq, hne⟩
    have hsame := hall f hf
    rw [if_pos (by simpa using heq)] at hsame
    exact hne (congrArg Prod.snd hsame).symm
  · intro hno f hf
    by_cases heq : f.1 = field
    · have hvalue : f.2 = value := by
        by_contra hne
        exact hno ⟨f, hf, heq, hne⟩
      rw [if_pos (by simpa using heq), ← heq, ← hvalue]
      rfl
    · rw [if_neg (by simpa using heq)]
      rfl

theorem verdict_hset (key field value : Bytes) :
    Verdict (.hset key field value) st now
      (execute now st (operation (.hset key field value)).arguments) := by
  show Verdict _ _ _ (execHset now st [utf8 "HSET", key, field, value])
  cases hlive : st.live now key with
  | none =>
      have hempty : st.fields now key = [] := by simp [State.fields, store_of_live hlive]
      simp only [execHset, hlive, Option.map_none, setFields]
      refine .confirmed ?_ ?_ ⟨1, rfl, by decide⟩
      · simp [Takes, store_of_live hlive]
      · simp [Denies, hempty]
  | some e =>
      cases hv : e.value with
      | hash l =>
          have htakes : Takes (.hset key field value) st now := by
            simp [Takes, store_of_live hlive, hv, Value.isHash]
          have hfields : st.fields now key = l := by
            simp [State.fields, store_of_live hlive, hv]
          simp only [execHset, hlive, hv, Option.map_some, setFields, Option.bind_some]
          by_cases hmem : field ∈ l.map Prod.fst
          · have hlen : (setField l field value).length = l.length := by
              rw [setField_of_mem hmem, List.length_map]
            refine .denied htakes (show field ∈ _ by rwa [hfields]) ?_ ?_
            · rw [hlen, Nat.sub_self]
              rfl
            · -- what is under the key has the same expiry time as before
              have hafter : ∀ k, (st.put key (some ⟨.hash (setField l field value), e.expiresAt⟩)).live
                  now k = if k = key then some ⟨.hash (setField l field value), e.expiresAt⟩
                    else st.live now k := by
                intro k
                have hexp : Entry.expired ⟨.hash (setField l field value), e.expiresAt⟩ now = false :=
                  (expired_of_live hlive :)
                rw [live_put_of, Option.filter_some, hexp]
                rfl
              have hchange : (∃ f ∈ l, f.1 = field ∧ f.2 ≠ value) ↔ setField l field value ≠ l := by
                rw [ne_eq, setField_eq_iff hmem, not_not]
              simp only [Overwrites, hfields, hchange, hafter]
              constructor
              · rintro ⟨k, hk⟩ hsame
                refine hk ?_
                split
                · rename_i heq
                  rw [heq, hlive, hsame, ← hv]
                · rfl
              · intro hne
                refine ⟨key, fun heq => hne ?_⟩
                rw [if_pos rfl, hlive] at heq
                have hvalue := congrArg Entry.value (Option.some.inj heq)
                rw [hv] at hvalue
                exact Value.hash.inj hvalue
          · have hlen : (setField l field value).length = l.length + 1 := by
              rw [setField_of_not_mem hmem, List.length_append, List.length_singleton]
            refine .confirmed htakes (show field ∉ _ by rwa [hfields]) ⟨1, ?_, by decide⟩
            rw [hlen, Nat.add_sub_cancel_left]
      | _ =>
          simp only [execHset, hlive, hv, Option.map_some]
          refine .refused _ (fun h => ?_) rfl rfl
          simp [Takes, store_of_live hlive, hv, Value.isHash] at h

theorem verdict_publish (channel message : Bytes) :
    Verdict (.publish channel message) st now
      (execute now st (operation (.publish channel message)).arguments) :=
  .confirmed trivial id ⟨0, rfl⟩

/-- One of the three, for each of them. -/
theorem verdict (m : Mutation) (st : State) (now : Time) :
    m.Verdict st now (execute now st m.operation.arguments) := by
  cases m with
  | set key value ttlSeconds => exact verdict_set key value ttlSeconds
  | del key => exact verdict_del key
  | expire key seconds => exact verdict_expire key seconds
  | lpush key values => exact verdict_lpush key values
  | sadd key members => exact verdict_sadd key members
  | srem key member => exact verdict_srem key member
  | hset key field value => exact verdict_hset key field value
  | hdel key field => exact verdict_hdel key field
  | publish channel message => exact verdict_publish channel message

end Verdicts

/-! ## What the operation makes of it -/

section Answers

variable {m : Mutation} {st : State} {now : Time}

/-- No reply, or an error. -/
theorem answer_of_silence {reply : Option Reply} (h : Operation.sent reply = []) :
    m.operation.answer reply = .bool true ↔ ¬ m.Strict := by
  have hok : ([] == utf8 "OK") = false := by decide
  have hone : ([] == utf8 "1") = false := by decide
  have hzero : ([] != utf8 "0") = true := by decide
  cases m <;> simp [operation, Operation.answer, h, hok, hone, hzero, Strict]

theorem answer_of_denied (h : m.Denies st now) :
    m.operation.answer (some (.integer 0)) = .bool false := by
  cases m with
  | del key => rfl
  | expire key seconds => rfl
  | srem key member => rfl
  | hset key field value => rfl
  | hdel key field => rfl
  | _ => exact h.elim

theorem sent_integer_ne {n : Nat} (h : n ≠ 0) :
    (Operation.sent (some (.integer n)) != utf8 "0") = true := by
  refine bne_iff_ne.mpr (fun heq => h ?_)
  have heq : utf8 n.repr = utf8 (0 : Nat).repr := heq
  have hdigits := digits_repr n
  rw [heq, digits_repr] at hdigits
  exact (Option.some.inj hdigits).symm

theorem answer_of_confirmed {reply : Reply} (h : m.Confirms reply) :
    m.operation.answer (some reply) = .bool true := by
  have hcount : (∃ n : Nat, reply = .integer n ∧ n ≠ 0) →
      Result.bool (Operation.sent (some reply) != utf8 "0") = .bool true := by
    rintro ⟨n, rfl, hn⟩
    rw [sent_integer_ne hn]
  cases m with
  | set key value ttlSeconds =>
      cases h
      rfl
  | expire key seconds =>
      cases h
      rfl
  | lpush key values => rfl
  | sadd key members => rfl
  | publish channel message => rfl
  | del key => exact hcount h
  | srem key member => exact hcount h
  | hset key field value => exact hcount h
  | hdel key field => exact hcount h

/-- When the reply of an execution is taken for a success. -/
theorem answer_execute (m : Mutation) (st : State) (now : Time) :
    m.operation.answer (some (execute now st m.operation.arguments).2) = .bool true ↔
      m.Takes st now ∧ ¬ m.Denies st now ∨ ¬ m.Strict ∧ ¬ m.Takes st now := by
  cases m.verdict st now with
  | refused msg hno hsame hreply =>
      rw [hreply, answer_of_silence rfl]
      simp [hno]
  | denied htakes hdenies hreply hchanges =>
      rw [hreply, answer_of_denied hdenies]
      simp [htakes, hdenies]
  | confirmed htakes hno hreply =>
      rw [answer_of_confirmed hreply]
      simp [htakes, hno]

theorem takes_of_changes (h : m.Changes st now) : m.Takes st now := by
  cases m.verdict st now with
  | refused msg hno hsame hreply =>
      unfold Changes at h
      rw [hsame] at h
      exact absurd h no_change
  | denied htakes _ _ _ => exact htakes
  | confirmed htakes _ _ => exact htakes

theorem denies_of_overwrites (h : m.Overwrites st now) : m.Takes st now ∧ m.Denies st now := by
  cases m with
  | hset key field value =>
      obtain ⟨f, hf, heq, _⟩ := h
      have hdenies : Denies (.hset key field value) st now := List.mem_map.mpr ⟨f, hf, heq⟩
      refine ⟨?_, hdenies⟩
      unfold State.fields at hf
      split at hf
      · rename_i l hstore
        simp [Takes, hstore, Value.isHash]
      · cases hf
  | _ => exact h.elim

/-- Behind a 0, only an HSET changes something. -/
theorem overwrites_iff : m.Overwrites st now ↔ m.Changes st now ∧ m.Denies st now := by
  cases m.verdict st now with
  | refused msg hno _ _ =>
      exact iff_of_false (fun h => hno (denies_of_overwrites h).1)
        (fun h => hno (takes_of_changes h.1))
  | denied _ hdenies _ hchanges =>
      rw [← hchanges]
      exact (and_iff_left hdenies).symm
  | confirmed _ hno _ =>
      exact iff_of_false (fun h => hno (denies_of_overwrites h).2) (fun h => hno h.2)

end Answers

end Mutation

/-! ## The truth -/

/-- Redis executes the command without an error. -/
def Execution.Taken (x : Execution) : Prop := ∀ msg, (execute x.now x.before x.args).2 ≠ .error msg

/-- It stores or removes something. -/
def Execution.Changes (x : Execution) : Prop :=
  ∃ key, x.after.live x.now key ≠ x.before.live x.now key

/-- What an operation returns, against what Redis has executed for it. -/
structure Truthful (result : Option Result) (xs : List Execution) : Prop where
  backed : result = some (.bool true) → ∃ x ∈ xs, x.Taken
  told : ∀ x ∈ xs, x.Changes → result = some (.bool true)

/-- What Redis executes, with what it holds at each attempt. -/
def Fate.carriedOut (args : Option (List Bytes)) (st st' : State) (fate : Fate) : List Execution :=
  if fate.free then
    let xs := fate.first.executions args st
    if fate.replied args = false ∧ fate.reconnects = some true then
      xs ++ fate.second.executions args st'
    else xs
  else []

/-- The case in which nobody else comes between the attempts. -/
theorem Fate.executions_eq (args : Option (List Bytes)) (st : State) (fate : Fate) :
    fate.executions args st =
      fate.carriedOut args st (settle st (fate.first.executions args st)) := rfl

namespace Mutation

/-- The command's arguments, as they come out of the format. -/
def args (hiredis : Hiredis) (m : Mutation) : Option (List Bytes) :=
  m.operation.command.bind (fun cmd => hiredis.args (cut cmd))

/-- An attempt has changed something, and the reply is lost. -/
def Unheard (m : Mutation) (st : State) (a : Attempt) : Prop :=
  a.outcome = .unanswered ∧ m.Changes st a.now

/-- Redis has executed an attempt without an error. -/
def Executed (m : Mutation) (st : State) (a : Attempt) : Prop :=
  a.outcome.executes = true ∧ m.Takes st a.now

/-- The last attempt is answered, as one that finds what it is about. -/
def Acknowledged (m : Mutation) (st : State) (a : Attempt) : Prop :=
  a.outcome = .answered ∧ m.Takes st a.now ∧ ¬ m.Denies st a.now

/-- The last attempt is answered by 0. -/
def Denied (m : Mutation) (st : State) (a : Attempt) : Prop :=
  a.outcome = .answered ∧ m.Takes st a.now ∧ m.Denies st a.now

/-- The condition, by the way in which a call with a connection ends. -/
def Honest (m : Mutation) (fate : Fate) (st st' : State) : Prop :=
  fate.free = true →
    match fate.first.outcome.replies, fate.reconnects with
    -- with the reply to the first attempt
    | true, _ => m.Strict ∨
        m.Executed st fate.first ∧ ¬ m.Overwrites st fate.first.now
    -- not at all
    | false, none => ¬ m.Unheard st fate.first
    -- without a reply
    | false, some false =>
        (m.Strict → ¬ m.Unheard st fate.first) ∧ (¬ m.Strict → m.Executed st fate.first)
    -- with what becomes of the second one
    | false, some true =>
        (¬ m.Strict → m.Executed st fate.first ∨ m.Executed st' fate.second) ∧
          (m.Unheard st fate.first ∨ m.Unheard st' fate.second →
            (m.Strict → m.Acknowledged st' fate.second) ∧
              (¬ m.Strict → ¬ m.Denied st' fate.second)) ∧
          (fate.second.outcome = .answered → ¬ m.Overwrites st' fate.second.now)

section Truth

variable {m : Mutation} {st st' : State}

theorem taken_iff {now : Time} :
    (Execution.mk now st m.operation.arguments).Taken ↔ m.Takes st now := by
  unfold Execution.Taken
  cases m.verdict st now with
  | refused msg hno _ hreply => simp [hreply, hno]
  | denied htakes _ hreply _ => simp [hreply, htakes]
  | confirmed htakes _ hreply =>
      refine iff_of_true (fun msg heq => ?_) htakes
      simp only at heq
      rw [heq] at hreply
      cases m <;> simp [Confirms] at hreply

/-- What an attempt's reply is taken for. -/
theorem answer_reply (a : Attempt) :
    m.operation.answer (a.reply (some m.operation.arguments) st) = .bool true ↔
      m.Acknowledged st a ∨ ¬ m.Strict ∧ ¬ (a.outcome = .answered ∧ m.Takes st a.now) := by
  unfold Attempt.reply Acknowledged
  cases a.outcome with
  | lost => simpa using answer_of_silence rfl
  | unanswered => simpa using answer_of_silence rfl
  | refused => simpa using answer_of_silence rfl
  | answered => simpa using m.answer_execute st a.now

theorem not_strict_of_overwrites {now : Time} (h : m.Overwrites st now) : ¬ m.Strict := by
  cases m with
  | hset key field value => exact id
  | _ => exact h.elim

/-- A call that comes back with this reply, after these executions. -/
theorem truthful_answer_iff (reply : Option Reply) (xs : List Execution) :
    Truthful (some (m.operation.answer reply)) xs ↔
      (m.operation.answer reply = .bool true → ∃ x ∈ xs, x.Taken) ∧
        ∀ x ∈ xs, x.Changes → m.operation.answer reply = .bool true :=
  ⟨fun h => ⟨fun ht => h.backed (congrArg some ht), fun x hx hc => Option.some.inj (h.told x hx hc)⟩,
    fun h => ⟨fun ht => h.1 (Option.some.inj ht), fun x hx hc => congrArg some (h.2 x hx hc)⟩⟩

theorem mem_executions {a : Attempt} {P : Execution → Prop} :
    (∃ x ∈ a.executions (some m.operation.arguments) st, P x) ↔
      a.outcome.executes = true ∧ P ⟨a.now, st, m.operation.arguments⟩ := by
  unfold Attempt.executions
  cases a.outcome.executes <;> simp

theorem forall_executions {a : Attempt} {P : Execution → Prop} :
    (∀ x ∈ a.executions (some m.operation.arguments) st, P x) ↔
      (a.outcome.executes = true → P ⟨a.now, st, m.operation.arguments⟩) := by
  unfold Attempt.executions
  cases a.outcome.executes <;> simp

theorem answer_strict (h : m.Strict) (a : Attempt) :
    m.operation.answer (a.reply (some m.operation.arguments) st) = .bool true ↔
      m.Acknowledged st a := by
  rw [answer_reply]
  exact or_iff_left (fun hlax => hlax.1 h)

theorem answer_lax (h : ¬ m.Strict) (a : Attempt) :
    m.operation.answer (a.reply (some m.operation.arguments) st) = .bool true ↔
      ¬ m.Denied st a := by
  rw [answer_reply]
  unfold Acknowledged Denied
  tauto

/-- With the reply of an attempt: backed by it, and told of it. -/
theorem told_iff (a : Attempt) :
    (a.outcome.executes = true → m.Changes st a.now →
        m.operation.answer (a.reply (some m.operation.arguments) st) = .bool true) ↔
      (m.Strict → ¬ m.Unheard st a) ∧ (a.outcome = .answered → ¬ m.Overwrites st a.now) := by
  have htakes : m.Changes st a.now → m.Takes st a.now := takes_of_changes
  have hover : m.Overwrites st a.now ↔ m.Changes st a.now ∧ m.Denies st a.now := overwrites_iff
  have hstrict : m.Overwrites st a.now → ¬ m.Strict := not_strict_of_overwrites
  rw [answer_reply]
  unfold Unheard Acknowledged
  cases a.outcome <;> simp [Outcome.executes] <;> grind

/-- An execution behind a reply that is taken for a success. -/
theorem backed_iff (a : Attempt) :
    (m.operation.answer (a.reply (some m.operation.arguments) st) = .bool true →
        m.Executed st a) ↔ m.Strict ∨ m.Executed st a := by
  rw [answer_reply]
  unfold Executed Acknowledged
  cases a.outcome <;> simp [Outcome.executes] <;> grind

theorem unanswered_of {o : Outcome} (hno : o.replies = false) (h : o.executes = true) :
    o = .unanswered := by
  revert hno h
  cases o <;> decide

theorem answered_of {o : Outcome} (hyes : o.replies = true) (h : o.executes = true) :
    o = .answered := by
  revert hyes h
  cases o <;> decide

theorem reply_of_silent {a : Attempt} (h : a.outcome.replies = false) (args : Option (List Bytes)) :
    a.reply args st = none := by
  have hnone := a.reply_isSome args st
  rw [h, Bool.and_false] at hnone
  exact Option.isNone_iff_eq_none.mp (Option.isSome_eq_false_iff.mp hnone)

section Ends

variable {fate : Fate} (hfree : fate.free = true)
include hfree

/-- The first attempt has a reply. -/
theorem truthful_replied (hreplied : fate.first.outcome.replies = true) :
    Truthful (fate.result m.operation (some m.operation.arguments) st st')
        (fate.carriedOut (some m.operation.arguments) st st') ↔
      m.Strict ∨ m.Executed st fate.first ∧ ¬ m.Overwrites st fate.first.now := by
  have hyes : fate.replied (some m.operation.arguments) = true := by simp [Fate.replied, hreplied]
  obtain ⟨reply, hreply⟩ := Option.isSome_iff_exists.mp
    ((fate.first.reply_isSome (some m.operation.arguments) st).trans hyes)
  have hlist : fate.carriedOut (some m.operation.arguments) st st' =
      fate.first.executions (some m.operation.arguments) st := by
    simp [Fate.carriedOut, hfree, hyes]
  have hresult : fate.result m.operation (some m.operation.arguments) st st' =
      some (m.operation.answer (fate.first.reply (some m.operation.arguments) st)) := by
    simp [Fate.result, hfree, hreply]
  rw [hlist, hresult, truthful_answer_iff, mem_executions, forall_executions, taken_iff]
  refine (and_congr (backed_iff fate.first) (told_iff fate.first)).trans ?_
  have hheard : ¬ m.Unheard st fate.first := fun h => by
    rw [h.1] at hreplied
    cases hreplied
  constructor
  · rintro ⟨hstrict | hexec, _, hover⟩
    · exact Or.inl hstrict
    · exact Or.inr ⟨hexec, hover (answered_of hreplied hexec.1)⟩
  · rintro (hstrict | ⟨hexec, hover⟩)
    · exact ⟨Or.inl hstrict, fun _ => hheard, fun _ h => not_strict_of_overwrites h hstrict⟩
    · exact ⟨Or.inr hexec, fun _ => hheard, fun _ => hover⟩

/-- The reconnect never comes back. -/
theorem truthful_stuck (hreplied : fate.first.outcome.replies = false)
    (hre : fate.reconnects = none) :
    Truthful (fate.result m.operation (some m.operation.arguments) st st')
        (fate.carriedOut (some m.operation.arguments) st st') ↔ ¬ m.Unheard st fate.first := by
  have hlist : fate.carriedOut (some m.operation.arguments) st st' =
      fate.first.executions (some m.operation.arguments) st := by
    simp [Fate.carriedOut, hfree, hre]
  have hresult : fate.result m.operation (some m.operation.arguments) st st' = none := by
    simp [Fate.result, hfree, reply_of_silent hreplied, hre]
  rw [hlist, hresult]
  constructor
  · rintro ⟨_, htold⟩ ⟨hlost, hchanges⟩
    rw [forall_executions, hlost] at htold
    cases htold rfl hchanges
  · intro hheard
    refine ⟨fun h => (nomatch h), forall_executions.mpr (fun hexec hchanges => ?_)⟩
    exact absurd ⟨unanswered_of hreplied hexec, hchanges⟩ hheard

/-- The reconnect fails. -/
theorem truthful_given_up (hreplied : fate.first.outcome.replies = false)
    (hre : fate.reconnects = some false) :
    Truthful (fate.result m.operation (some m.operation.arguments) st st')
        (fate.carriedOut (some m.operation.arguments) st st') ↔
      (m.Strict → ¬ m.Unheard st fate.first) ∧ (¬ m.Strict → m.Executed st fate.first) := by
  have hlist : fate.carriedOut (some m.operation.arguments) st st' =
      fate.first.executions (some m.operation.arguments) st := by
    simp [Fate.carriedOut, hfree, hre]
  have hresult : fate.result m.operation (some m.operation.arguments) st st' =
      some (m.operation.answer none) := by
    simp [Fate.result, hfree, reply_of_silent hreplied, hre]
  rw [hlist, hresult, truthful_answer_iff, mem_executions, forall_executions, taken_iff,
    answer_of_silence rfl]
  rw [and_comm]
  refine and_congr_left' ⟨fun h hstrict hlost => ?_, fun h hexec hchanges hstrict => ?_⟩
  · exact h (by rw [hlost.1]; rfl) hlost.2 hstrict
  · exact h hstrict ⟨unanswered_of hreplied hexec, hchanges⟩

/-- There is a second attempt. -/
theorem truthful_retried (hreplied : fate.first.outcome.replies = false)
    (hre : fate.reconnects = some true) :
    Truthful (fate.result m.operation (some m.operation.arguments) st st')
        (fate.carriedOut (some m.operation.arguments) st st') ↔
      (¬ m.Strict → m.Executed st fate.first ∨ m.Executed st' fate.second) ∧
        (m.Unheard st fate.first ∨ m.Unheard st' fate.second →
          (m.Strict → m.Acknowledged st' fate.second) ∧
            (¬ m.Strict → ¬ m.Denied st' fate.second)) ∧
        (fate.second.outcome = .answered → ¬ m.Overwrites st' fate.second.now) := by
  have hno : fate.replied (some m.operation.arguments) = false := by simp [Fate.replied, hreplied]
  have hlist : fate.carriedOut (some m.operation.arguments) st st' =
      fate.first.executions (some m.operation.arguments) st ++
        fate.second.executions (some m.operation.arguments) st' := by
    simp [Fate.carriedOut, hfree, hno, hre]
  have hresult : fate.result m.operation (some m.operation.arguments) st st' =
      some (m.operation.answer (fate.second.reply (some m.operation.arguments) st')) := by
    simp [Fate.result, hfree, reply_of_silent hreplied, hre]
  rw [hlist, hresult, truthful_answer_iff]
  have hexists : ∀ (xs ys : List Execution),
      (∃ x ∈ xs ++ ys, x.Taken) ↔ (∃ x ∈ xs, x.Taken) ∨ ∃ x ∈ ys, x.Taken := fun xs ys => by
    simp only [List.mem_append, or_and_right, exists_or]
  rw [hexists, List.forall_mem_append, mem_executions, mem_executions, forall_executions,
    forall_executions, taken_iff, taken_iff]
  have hunheard : (fate.first.outcome.executes = true → m.Changes st fate.first.now →
      m.operation.answer (fate.second.reply (some m.operation.arguments) st') = .bool true) ↔
      (m.Unheard st fate.first →
        m.operation.answer (fate.second.reply (some m.operation.arguments) st') = .bool true) :=
    ⟨fun h hlost => h (by rw [hlost.1]; rfl) hlost.2,
      fun h hexec hchanges => h ⟨unanswered_of hreplied hexec, hchanges⟩⟩
  have hsecond : m.Unheard st' fate.second → ¬ fate.second.outcome = .answered := fun h heq =>
    nomatch h.1.symm.trans heq
  have hexecutes : fate.second.outcome = .answered → fate.second.outcome.executes = true :=
    fun h => by rw [h]; rfl
  refine (and_congr_right' (and_congr hunheard (told_iff fate.second))).trans ?_
  by_cases hstrict : m.Strict
  · rw [answer_strict hstrict]
    constructor
    · rintro ⟨_, hfirst, hlast, hover⟩
      refine ⟨fun hlax => absurd hstrict hlax, fun hlost => ⟨fun _ => ?_, fun hlax => ?_⟩, hover⟩
      · exact hlost.elim hfirst (fun h => absurd h (hlast hstrict))
      · exact absurd hstrict hlax
    · rintro ⟨_, hlost, hover⟩
      refine ⟨fun hack => Or.inr ⟨hexecutes hack.1, hack.2.1⟩, fun h => ?_, fun _ h => ?_, hover⟩
      · exact (hlost (Or.inl h)).1 hstrict
      · exact hsecond h ((hlost (Or.inr h)).1 hstrict).1
  · rw [answer_lax hstrict]
    constructor
    · rintro ⟨hback, hfirst, _, hover⟩
      refine ⟨fun _ => ?_, fun hlost => ⟨fun h => absurd h hstrict, fun _ => ?_⟩, hover⟩
      · by_cases hdenied : m.Denied st' fate.second
        · exact Or.inr ⟨hexecutes hdenied.1, hdenied.2.1⟩
        · exact hback hdenied
      · exact hlost.elim hfirst (fun h hdenied => hsecond h hdenied.1)
    · rintro ⟨hback, hlost, hover⟩
      exact ⟨fun _ => hback hstrict, fun h => (hlost (Or.inl h)).2 hstrict,
        fun h => absurd h hstrict, hover⟩

end Ends

theorem truthful_fate_iff (m : Mutation) (fate : Fate) (st st' : State) :
    Truthful (fate.result m.operation (some m.operation.arguments) st st')
        (fate.carriedOut (some m.operation.arguments) st st') ↔ m.Honest fate st st' := by
  unfold Honest
  cases hfree : fate.free with
  | false =>
      -- nothing is sent
      have hfailure : m.operation.failure = .bool false := by cases m <;> rfl
      refine iff_of_true ⟨fun h => ?_, fun x hx => ?_⟩ (fun h => nomatch h)
      · simp [Fate.result, hfree, hfailure] at h
      · simp [Fate.carriedOut, hfree] at hx
  | true =>
      simp only [true_imp_iff]
      cases hreplied : fate.first.outcome.replies with
      | true => exact truthful_replied hfree hreplied
      | false =>
          cases hre : fate.reconnects with
          | none => exact truthful_stuck hfree hreplied hre
          | some ok =>
              cases ok with
              | false => exact truthful_given_up hfree hreplied hre
              | true => exact truthful_retried hfree hreplied hre

end Truth

/-! ## The operations of a client -/

/-- The arguments of an operation on plain words are plain words. -/
theorem plainWord_arguments {m : Mutation} (h : ∀ s ∈ m.strings, PlainWord s) :
    ∀ w ∈ m.operation.arguments, PlainWord w := by
  have hnumber : ∀ n : Int, PlainWord (utf8 (toString n)) := fun n =>
    plainWord_utf8 (plain_int n) (toString_ne_empty n)
  have hname : ∀ {name : Bytes} {l : List Bytes}, PlainWord name → (∀ w ∈ l, PlainWord w) →
      ∀ w ∈ name :: l, PlainWord w := by
    intro name l hp hl w hw
    rcases List.mem_cons.mp hw with rfl | hw
    · exact hp
    · exact hl w hw
  cases m with
  | set key value ttlSeconds =>
      have hkey : PlainWord key := h key (by simp [strings])
      have hvalue : PlainWord value := h value (by simp [strings])
      refine hname (by decide) (hname hkey (hname hvalue ?_))
      split
      · exact hname (by decide) (hname (hnumber _) (fun w hw => nomatch hw))
      · exact fun w hw => nomatch hw
  | expire key seconds =>
      exact hname (by decide) (hname (h key (by simp [strings])) (hname (hnumber _)
        (fun w hw => nomatch hw)))
  | del key => exact hname (by decide) h
  | lpush key values => exact hname (by decide) h
  | sadd key members => exact hname (by decide) h
  | srem key member => exact hname (by decide) h
  | hset key field value => exact hname (by decide) h
  | hdel key field => exact hname (by decide) h
  | publish channel message => exact hname (by decide) h

theorem args_of_plain (hiredis : Hiredis) {m : Mutation} (h : ∀ s ∈ m.strings, PlainWord s) :
    m.args hiredis = some m.operation.arguments := by
  have hplain := plainWord_arguments h
  obtain ⟨cmd, hcmd⟩ : ∃ cmd, m.operation.command = some cmd := by cases m <;> exact ⟨_, rfl⟩
  unfold args
  rw [hcmd, Option.bind_some, Operation.command_eq hcmd, cut_intercalate hplain,
    hiredis.args_intercalate hplain (Operation.arguments_ne_nil _)]

end Mutation

/-- What Redis executes for an operation; a null context does not reach it. -/
def Client.carriedOut (c : Client) (args : Option (List Bytes)) (first : Attempt) (net : Network)
    (second : Attempt) (st st' : State) : List Execution :=
  if c.usable then (c.fate first net second).carriedOut args st st' else []

/-- On a client that is not usable an operation does not come back. -/
theorem Client.result_of_not_usable {c : Client} (h : c.usable = false) (op : Operation)
    (first second : Option Reply) (net : Network) :
    (c.operate op first net second).result = none := by
  unfold operate
  cases hl : c.locked with
  | true => simp [acquire, lock, hl]
  | false =>
      rw [acquire_of_unlocked hl]
      unfold usable at h
      cases hfree : c.firstFree with
      | none =>
          rw [hfree, hl] at h
          cases h
      | some i =>
          rw [hfree, hl] at h
          have hnull : (c.setInUse i true).contextOf i = none := by
            rw [contextOf_setInUse]
            simpa using h
          simp only [hnull]

namespace Mutation

/-- An operation on plain words reports the truth exactly if the client is not usable, or the
    operation's fate is honest, whatever Redis holds at its two attempts. -/
theorem truthful_iff_honest (hiredis : Hiredis) (m : Mutation) (hplain : ∀ s ∈ m.strings, PlainWord s)
    (c : Client) (first second : Attempt) (net : Network) (st st' : State) :
    Truthful
        (c.operate m.operation (first.reply (m.args hiredis) st) net
          (second.reply (m.args hiredis) st')).result
        (c.carriedOut (m.args hiredis) first net second st st') ↔
      (c.usable = true → m.Honest (c.fate first net second) st st') := by
  unfold Client.carriedOut
  cases husable : c.usable with
  | true =>
      rw [(Client.operate_eq husable m.operation (m.args hiredis) first second net st st').2,
        args_of_plain hiredis hplain, if_pos rfl, truthful_fate_iff]
      exact ⟨fun h _ => h, fun h => h rfl⟩
  | false =>
      refine iff_of_true ⟨fun htrue => ?_, fun x hx => nomatch hx⟩ (fun h => nomatch h)
      rw [Client.result_of_not_usable husable] at htrue
      cases htrue

/-- A hash with one field. -/
def profile : State where
  keys := fun key => if key = utf8 "u" then some { value := .hash [(utf8 "n", utf8 "a")] } else none

/-- Every attempt is answered. -/
def prompt : Attempt := ⟨0, .answered⟩

theorem truthful_iff_honest_profile :
    Truthful
        (Client.online.operate (operation (.hset (utf8 "u") (utf8 "n") (utf8 "b")))
          (prompt.reply (args .splitting (.hset (utf8 "u") (utf8 "n") (utf8 "b"))) profile)
          (Client.goodFrom 1)
          (prompt.reply (args .splitting (.hset (utf8 "u") (utf8 "n") (utf8 "b"))) profile)).result
        (Client.online.carriedOut (args .splitting (.hset (utf8 "u") (utf8 "n") (utf8 "b"))) prompt
          (Client.goodFrom 1) prompt profile profile) ↔
      (Client.online.usable = true →
        Honest (.hset (utf8 "u") (utf8 "n") (utf8 "b"))
          (Client.online.fate prompt (Client.goodFrom 1) prompt) profile profile) :=
  truthful_iff_honest .splitting (.hset (utf8 "u") (utf8 "n") (utf8 "b"))
    (by
      intro s hs
      simp only [strings, List.mem_cons, List.not_mem_nil, or_false] at hs
      rcases hs with rfl | rfl | rfl <;> decide)
    Client.online prompt prompt (Client.goodFrom 1) profile profile

/-- HSET changes the field and `hset` returns false; LPUSH on the hash is an error and `lpush`
    returns true. -/
theorem overwrite_denied :
    ¬ Truthful
        (Client.online.operate (operation (.hset (utf8 "u") (utf8 "n") (utf8 "b")))
          (prompt.reply (args .splitting (.hset (utf8 "u") (utf8 "n") (utf8 "b"))) profile)
          (Client.goodFrom 1) none).result
        (Client.online.carriedOut (args .splitting (.hset (utf8 "u") (utf8 "n") (utf8 "b"))) prompt
          (Client.goodFrom 1) prompt profile profile) ∧
      ¬ Truthful
        (Client.online.operate (operation (.lpush (utf8 "u") [utf8 "b"]))
          (prompt.reply (args .splitting (.lpush (utf8 "u") [utf8 "b"])) profile)
          (Client.goodFrom 1) none).result
        (Client.online.carriedOut (args .splitting (.lpush (utf8 "u") [utf8 "b"])) prompt
          (Client.goodFrom 1) prompt profile profile) := by
  refine ⟨fun h => ?_, fun h => ?_⟩
  · have hchanges : Execution.Changes ⟨0, profile, [utf8 "HSET", utf8 "u", utf8 "n", utf8 "b"]⟩ := by
      refine ⟨utf8 "u", fun heq => ?_⟩
      have hvalue := congrArg (Option.map Entry.value) heq
      cases hvalue
    have htold := h.told _ List.mem_cons_self hchanges
    cases htold
  · obtain ⟨x, hx, htaken⟩ := h.backed rfl
    cases List.mem_singleton.mp hx
    exact htaken _ rfl

end Mutation

end MessengerBackend.Redis
