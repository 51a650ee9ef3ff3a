/-
  Commands over a network that loses them, and what they leave in Redis.

  `send_command` tries a command again after a reconnect, whether or not Redis has executed it
  the first time. `Fate` is what becomes of one call, `perform` a handler's calls one after the
  other, with every execution by Redis written down.

  * `operate_eq`, `operate_fate`: the pool of a usable client gives an operation such a fate.
  * `pushes_eq`: how often LPUSH puts a value on the list.
  * `pushes_pos_iff`: when it does so at all.
  * `pushes_le_one_iff`, `publishes_le_one_iff`: when it does so, or PUBLISH publishes, at most
    once.
-/
import MessengerBackend.Redis.Encoding
import MessengerBackend.Redis.Pool
import MessengerBackend.Redis.Server

namespace MessengerBackend.Redis

/-! ## Attempts -/

/-- What becomes of one `redisCommand`. -/
inductive Outcome where
  /-- It does not reach Redis. -/
  | lost
  /-- Redis executes it, and the reply is lost. -/
  | unanswered
  /-- Redis answers by an error and does not execute it. -/
  | refused
  | answered
deriving DecidableEq

def Outcome.executes (o : Outcome) : Bool := o = .unanswered || o = .answered

def Outcome.replies (o : Outcome) : Bool := o = .refused || o = .answered

structure Attempt where
  now : Time
  outcome : Outcome

structure Fate where
  /-- `acquire_connection` finds a connection. -/
  free : Bool
  first : Attempt
  /-- What `reconnect()` returns, if it does. -/
  reconnects : Option Bool
  second : Attempt

/-- A command that Redis executes. -/
structure Execution where
  now : Time
  before : State
  args : List Bytes

def Execution.after (x : Execution) : State := (execute x.now x.before x.args).1

/-- The state after these executions. -/
def settle (st : State) (xs : List Execution) : State := (xs.getLast?.map Execution.after).getD st

/-- `args` is `none` when the text is not a format. -/
def Attempt.executions (args : Option (List Bytes)) (st : State) (a : Attempt) : List Execution :=
  match args with
  | none => []
  | some args => if a.outcome.executes then [⟨a.now, st, args⟩] else []

namespace Fate

/-- The first attempt gives a reply. -/
def replied (args : Option (List Bytes)) (fate : Fate) : Bool :=
  args.isSome && fate.first.outcome.replies

/-- `send_command` on a connection from the pool. -/
def executions (args : Option (List Bytes)) (st : State) (fate : Fate) : List Execution :=
  if fate.free then
    let xs := fate.first.executions args st
    if fate.replied args = false ∧ fate.reconnects = some true then
      xs ++ fate.second.executions args (settle st xs)
    else xs
  else []

/-- The call comes back. -/
def returns (args : Option (List Bytes)) (fate : Fate) : Bool :=
  !fate.free || fate.replied args || fate.reconnects.isSome

/-- Redis executes a command that has arguments at the first attempt. -/
def executedFirst (fate : Fate) : Prop := fate.free = true ∧ fate.first.outcome.executes = true

/-- And at the second one. -/
def executedSecond (fate : Fate) : Prop :=
  fate.free = true ∧ fate.first.outcome.replies = false ∧ fate.reconnects = some true ∧
    fate.second.outcome.executes = true

instance (fate : Fate) : Decidable fate.executedFirst := inferInstanceAs (Decidable (_ ∧ _))

instance (fate : Fate) : Decidable fate.executedSecond :=
  inferInstanceAs (Decidable (_ ∧ _ ∧ _ ∧ _))

theorem executions_none (st : State) (fate : Fate) : fate.executions none st = [] := by
  simp [executions, Attempt.executions]

theorem args_of_mem {args : List Bytes} {st : State} {fate : Fate} {x : Execution}
    (hx : x ∈ fate.executions (some args) st) : x.args = args := by
  have hattempt : ∀ (a : Attempt) (st : State), x ∈ a.executions (some args) st → x.args = args := by
    intro a st hx
    simp only [Attempt.executions] at hx
    split at hx
    · rw [List.mem_singleton.mp hx]
    · cases hx
  simp only [executions] at hx
  split at hx
  · split at hx
    · rcases List.mem_append.mp hx with hx | hx
      · exact hattempt _ _ hx
      · exact hattempt _ _ hx
    · exact hattempt _ _ hx
  · cases hx

/-- What is executed, by the two attempts. -/
theorem executions_some (args : List Bytes) (st : State) (fate : Fate) :
    fate.executions (some args) st =
      (if fate.executedFirst then [⟨fate.first.now, st, args⟩] else []) ++
        if fate.executedSecond then
          [⟨fate.second.now,
            settle st (if fate.executedFirst then [⟨fate.first.now, st, args⟩] else []), args⟩]
        else [] := by
  have hreplied : fate.replied (some args) = fate.first.outcome.replies := Bool.true_and _
  simp only [executions, Attempt.executions, hreplied, executedFirst, executedSecond]
  by_cases hfree : fate.free = true
  · by_cases hagain : fate.first.outcome.replies = false ∧ fate.reconnects = some true
    · simp [hfree, hagain]
    · have hno : ¬ (fate.first.outcome.replies = false ∧ fate.reconnects = some true ∧
          fate.second.outcome.executes = true) := fun h => hagain ⟨h.1, h.2.1⟩
      simp only [hfree, hagain, hno, true_and, if_true, if_false, List.append_nil]
  · simp [hfree]

end Fate

/-! ## The fate of an operation -/

/-- The reply that comes back. -/
def Attempt.reply (args : Option (List Bytes)) (st : State) (a : Attempt) : Option Reply :=
  match args, a.outcome with
  | some args, .answered => some (execute a.now st args).2
  | some _, .refused => some (.error "ERR")
  | _, _ => none

theorem Attempt.reply_isSome (args : Option (List Bytes)) (st : State) (a : Attempt) :
    (a.reply args st).isSome = (args.isSome && a.outcome.replies) := by
  unfold Attempt.reply Outcome.replies
  cases args with
  | none => rfl
  | some args => cases a.outcome <;> rfl

/-- What an operation returns, with what Redis holds at each attempt. -/
def Fate.result (op : Operation) (args : Option (List Bytes)) (st st' : State) (fate : Fate) :
    Option Result :=
  if fate.free then
    match fate.first.reply args st with
    | some reply => some (op.answer (some reply))
    | none =>
        match fate.reconnects with
        | none => none
        | some false => some (op.answer none)
        | some true => some (op.answer (fate.second.reply args st'))
  else some op.failure

theorem Fate.result_isSome (op : Operation) (args : Option (List Bytes)) (st st' : State)
    (fate : Fate) : (fate.result op args st st').isSome = fate.returns args := by
  have hreply := fate.first.reply_isSome args st
  unfold Fate.result Fate.returns Fate.replied
  rw [← hreply]
  cases fate.free with
  | false => rfl
  | true =>
      cases fate.first.reply args st with
      | some reply => rfl
      | none =>
          match fate.reconnects with
          | none => rfl
          | some false => rfl
          | some true => rfl

namespace Client

variable {c : Client}

/-- What the pool makes of an operation. -/
def fate (c : Client) (first : Attempt) (net : Network) (second : Attempt) : Fate where
  free := c.firstFree.isSome
  first := first
  reconnects := (c.reconnect net).map Connected.ok
  second := second

theorem reconnect_ok (h : c.locked = false) (net : Network) :
    (c.reconnect net).map Connected.ok =
      if c.config.maxRetries ≤ 0 then some false
      else if ∀ i, i < c.pool.length → (net 1 i).Succeed c.config then some true else none := by
  have hok := attempt_ok (net 1) c.stop.join.freeAll
  unfold Succeeds at hok
  rw [show c.stop.join.freeAll.pool.length = c.pool.length from List.length_map _] at hok
  rw [reconnect_eq h, connect_eq (c := c.stop.join.freeAll) h rfl]
  show Option.map _ (if c.config.maxRetries ≤ 0 then _ else _) = _
  by_cases hmax : c.config.maxRetries ≤ 0
  · rw [if_pos hmax, if_pos hmax]
    rfl
  · by_cases hall : ∀ i, i < c.pool.length → (net 1 i).Succeed c.config
    · rw [if_neg hmax, if_neg hmax, if_pos ⟨hok.mpr hall, rfl⟩, if_pos hall]
      rfl
    · rw [if_neg hmax, if_neg hmax, if_neg (fun h => hall (hok.mp h.1)), if_neg hall]
      rfl

/-- A connection that is taken makes no difference to what the reconnect returns. -/
theorem reconnect_setInUse (h : c.locked = false) (i : Nat) (error : String) (net : Network) :
    (((c.setInUse i true).report error).reconnect net).map Connected.ok =
      (c.reconnect net).map Connected.ok := by
  rw [reconnect_ok h, reconnect_ok (c := (c.setInUse i true).report error) h]
  show (if c.config.maxRetries ≤ 0 then some false
    else if ∀ j, j < (c.setInUse i true).pool.length → (net 1 j).Succeed c.config then
      some true else none) = _
  rw [length_setInUse]

/-- An operation on a usable client issues its command as often, and returns what, its fate
    says. -/
theorem operate_eq (h : c.usable = true) (op : Operation) (args : Option (List Bytes))
    (first second : Attempt) (net : Network) (st st' : State) :
    (c.operate op (first.reply args st) net (second.reply args st')).issued.length =
        (if (c.fate first net second).free then
          if (c.fate first net second).replied args = false ∧
            (c.fate first net second).reconnects = some true then 2 else 1
        else 0) ∧
      (c.operate op (first.reply args st) net (second.reply args st')).result =
        (c.fate first net second).result op args st st' := by
  obtain ⟨hlocked, hcontexts⟩ := usable_iff.mp h
  have hacquire := acquire_of_unlocked hlocked
  have hreplied : (c.fate first net second).replied args = (first.reply args st).isSome :=
    (first.reply_isSome args st).symm
  unfold Fate.result
  rw [hreplied]
  show _ ∧ _ = if (c.fate first net second).free then
    match first.reply args st with
    | some reply => some (op.answer (some reply))
    | none => match (c.fate first net second).reconnects with
      | none => none
      | some false => some (op.answer none)
      | some true => some (op.answer (second.reply args st'))
    else some op.failure
  cases hfree : c.firstFree with
  | none =>
      rw [hfree] at hacquire
      have hno : (c.fate first net second).free = false := by simp [fate, hfree]
      simp [operate, hacquire, hno]
  | some i =>
      rw [hfree] at hacquire
      have hany : (c.fate first net second).free = true := by simp [fate, hfree]
      obtain ⟨context, hcontext⟩ := Option.isSome_iff_exists.mp (hcontexts i hfree)
      rw [← contextOf_setInUse c i i true] at hcontext
      cases hfirst : first.reply args st with
      | some reply => simp [operate, hacquire, hcontext, hany]
      | none =>
          have hsame : ((c.setInUse i true).report op.reconnectError |>.reconnect net).map
              Connected.ok = (c.fate first net second).reconnects :=
            reconnect_setInUse hlocked i op.reconnectError net
          simp only [operate, hacquire, hcontext]
          rw [← hsame]
          split
          · rename_i hre
            simp [hre, hany]
          · rename_i hre
            simp [hre, hany]
          · rename_i c₂ n hre
            obtain ⟨hlive, hlen₂⟩ :=
              reconnect_live (c := (c.setInUse i true).report op.reconnectError) hlocked hre
            have hcontext₂ := contextOf_live hlive (i := i) (by
              rw [hlen₂]
              exact (length_setInUse c i true).symm ▸ lt_of_firstFree hfree)
            obtain ⟨context₂, hcontext₂⟩ := Option.isSome_iff_exists.mp hcontext₂
            simp [hre, hany, hcontext₂]

/-- And it comes back when its fate says. -/
theorem operate_fate (h : c.usable = true) (op : Operation) (args : Option (List Bytes))
    (first second : Attempt) (net : Network) (st st' : State) :
    (c.operate op (first.reply args st) net (second.reply args st')).issued.length =
        (if (c.fate first net second).free then
          if (c.fate first net second).replied args = false ∧
            (c.fate first net second).reconnects = some true then 2 else 1
        else 0) ∧
      (c.operate op (first.reply args st) net (second.reply args st')).result.isSome =
        (c.fate first net second).returns args := by
  obtain ⟨hissued, hresult⟩ := operate_eq h op args first second net st st'
  exact ⟨hissued, by rw [hresult, Fate.result_isSome]⟩

end Client

/-! ## A handler's calls -/

/-- The arguments of a call that sends a text. -/
def Call.args (hiredis : Hiredis) (call : Call) : Option (List Bytes) :=
  call.command.bind (fun cmd => hiredis.args (cut (utf8 cmd)))

/-- Call number `k` comes back. -/
def ComesBack (hiredis : Hiredis) (fates : Nat → Fate) (k : Nat) (call : Call) : Prop :=
  call.command = none ∨ (fates k).returns (call.args hiredis) = true

instance (hiredis : Hiredis) (fates : Nat → Fate) (k : Nat) (call : Call) :
    Decidable (ComesBack hiredis fates k call) := inferInstanceAs (Decidable (_ ∨ _))

structure Performed where
  state : State
  /-- The calls made, with their executions. -/
  made : List (Call × List Execution)
  /-- All calls have come back. -/
  returned : Bool

/-- The calls one after the other, from call number `i` on. -/
def perform (hiredis : Hiredis) (fates : Nat → Fate) : State → Nat → List Call → Performed
  | st, _, [] => ⟨st, [], true⟩
  | st, i, call :: calls =>
      let xs := (fates i).executions (call.args hiredis) st
      if ComesBack hiredis fates i call then
        let rest := perform hiredis fates (settle st xs) (i + 1) calls
        ⟨rest.state, (call, xs) :: rest.made, rest.returned⟩
      else ⟨settle st xs, [(call, xs)], false⟩

section Perform

variable (hiredis : Hiredis) (fates : Nat → Fate)

theorem returned_iff (calls : List Call) (st : State) (i : Nat) :
    (perform hiredis fates st i calls).returned = true ↔
      ∀ k call, calls[k]? = some call → ComesBack hiredis fates (i + k) call := by
  induction calls generalizing st i with
  | nil => simp [perform]
  | cons call calls ih =>
      by_cases hback : ComesBack hiredis fates i call
      · simp only [perform, if_pos hback, ih]
        constructor
        · intro h k c hk
          cases k with
          | zero =>
              cases hk
              exact hback
          | succ k =>
              rw [show i + (k + 1) = i + 1 + k by omega]
              exact h k c hk
        · intro h k c hk
          rw [show i + 1 + k = i + (k + 1) by omega]
          exact h (k + 1) c hk
      · simp only [perform, if_neg hback]
        exact ⟨fun h => (nomatch h), fun h => absurd (h 0 call rfl) hback⟩

/-- A call is made once those before it have come back. -/
theorem mem_made_of (calls : List Call) (st : State) (i : Nat) {k : Nat} {call : Call}
    (hk : calls[k]? = some call)
    (hback : ∀ j c, j < k → calls[j]? = some c → ComesBack hiredis fates (i + j) c) :
    ∃ st', (call, (fates (i + k)).executions (call.args hiredis) st') ∈
      (perform hiredis fates st i calls).made ∧ (k = 0 → st' = st) := by
  induction calls generalizing st i k with
  | nil => cases hk
  | cons first calls ih =>
      cases k with
      | zero =>
          cases hk
          refine ⟨st, ?_, fun _ => rfl⟩
          rw [perform]
          split
          · exact List.mem_cons_self
          · exact List.mem_cons_self
      | succ k =>
          have hfirst : ComesBack hiredis fates i first := hback 0 first (by omega) rfl
          obtain ⟨st', hmem, _⟩ := ih (settle st ((fates i).executions (first.args hiredis) st))
            (i + 1) (k := k) hk (fun j c hj hc => by
              rw [show i + 1 + j = i + (j + 1) by omega]
              exact hback (j + 1) c (by omega) hc)
          refine ⟨st', ?_, fun h => (nomatch h)⟩
          rw [show i + (k + 1) = i + 1 + k by omega]
          simp only [perform, if_pos hfirst]
          exact List.mem_cons_of_mem _ hmem

/-- And only then. -/
theorem of_mem_made (calls : List Call) (st : State) (i : Nat) {call : Call} {xs : List Execution}
    (h : (call, xs) ∈ (perform hiredis fates st i calls).made) :
    ∃ k st', calls[k]? = some call ∧ xs = (fates (i + k)).executions (call.args hiredis) st' ∧
      (k = 0 → st' = st) ∧
      ∀ j c, j < k → calls[j]? = some c → ComesBack hiredis fates (i + j) c := by
  induction calls generalizing st i with
  | nil => cases h
  | cons first calls ih =>
      have hhead : (call, xs) = (first, (fates i).executions (first.args hiredis) st) →
          ∃ k st', (first :: calls)[k]? = some call ∧
            xs = (fates (i + k)).executions (call.args hiredis) st' ∧ (k = 0 → st' = st) ∧
            ∀ j c, j < k → (first :: calls)[j]? = some c → ComesBack hiredis fates (i + j) c := by
        intro heq
        cases heq
        exact ⟨0, st, rfl, rfl, fun _ => rfl, fun j c hj => absurd hj (Nat.not_lt_zero j)⟩
      by_cases hback : ComesBack hiredis fates i first
      · simp only [perform, if_pos hback] at h
        rcases List.mem_cons.mp h with heq | h
        · exact hhead heq
        · obtain ⟨k, st', hk, hxs, _, hbefore⟩ := ih _ (i + 1) h
          rw [show i + 1 + k = i + (k + 1) by omega] at hxs
          refine ⟨k + 1, st', hk, hxs, fun h => (nomatch h), fun j c hj hc => ?_⟩
          cases j with
          | zero =>
              cases hc
              exact hback
          | succ j =>
              rw [show i + (j + 1) = i + 1 + j by omega]
              exact hbefore j c (by omega) hc
      · simp only [perform, if_neg hback] at h
        exact hhead (List.mem_singleton.mp h)

end Perform

/-! ## Effects -/

def Value.count (value : Bytes) : Value → Nat
  | .list l => l.count value
  | _ => 0

/-- How often a value stands in the list under a key. -/
def State.countAt (st : State) (now : Time) (key value : Bytes) : Nat :=
  ((st.live now key).map (fun e => e.value.count value)).getD 0

def Value.isList : Value → Bool
  | .list _ => true
  | _ => false

/-- LPUSH takes the key: it is absent or a list. -/
def Pushable (st : State) (now : Time) (key : Bytes) : Prop :=
  (st.store now key).all Value.isList = true

instance (st : State) (now : Time) (key : Bytes) : Decidable (Pushable st now key) :=
  inferInstanceAs (Decidable (_ = true))

/-- How often these executions have put the value on the list. -/
def pushes (key value : Bytes) (xs : List Execution) : Nat :=
  (xs.map (fun x => x.after.countAt x.now key value - x.before.countAt x.now key value)).sum

/-- How often they have published the message on the channel. -/
def publishes (channel message : Bytes) (xs : List Execution) : Nat :=
  (xs.map (fun x => x.after.published.count (channel, message) -
    x.before.published.count (channel, message))).sum

section Count

variable {st : State} {now : Time} {key value : Bytes}

theorem countAt_of_live {e : Entry} (h : st.live now key = some e) :
    st.countAt now key value = e.value.count value := by
  simp [State.countAt, h]

theorem live_put_of (st : State) (now : Time) (k : Bytes) (e : Option Entry) (key : Bytes) :
    (st.put k e).live now key =
      if key = k then e.filter (fun e => !e.expired now) else st.live now key := by
  unfold State.live State.put
  simp only [Function.update_apply]
  split <;> rfl

theorem countAt_put_of_ne {k : Bytes} (hk : key ≠ k) (e : Option Entry) :
    (st.put k e).countAt now key value = st.countAt now key value := by
  unfold State.countAt
  rw [live_put_of, if_neg hk]

/-- A new entry at `k` counts for no more than the old one did. -/
theorem countAt_put_le {k : Bytes} {e : Option Entry}
    (h : ∀ e', e = some e' → e'.value.count value ≤ st.countAt now k value) :
    (st.put k e).countAt now key value ≤ st.countAt now key value := by
  unfold State.countAt
  rw [live_put_of]
  by_cases hk : key = k
  · subst hk
    rw [if_pos rfl]
    cases he : e.filter (fun e => !e.expired now) with
    | none => exact Nat.zero_le _
    | some e' => exact h e' (Option.filter_eq_some_iff.mp he).1
  · rw [if_neg hk]

theorem countAt_execSet (args : List Bytes) :
    (execSet now st args).1.countAt now key value ≤ st.countAt now key value := by
  have hput : ∀ (k v : Bytes) (t : Option Time),
      (st.put k (some ⟨.string v, t⟩)).countAt now key value ≤ st.countAt now key value := by
    intro k v t
    refine countAt_put_le (fun e he => ?_)
    cases he
    exact Nat.zero_le _
  unfold execSet
  split
  · exact hput ..
  · split
    · split
      · exact Nat.le_refl _
      · split
        · exact hput ..
        · exact Nat.le_refl _
    · exact Nat.le_refl _
  · exact Nat.le_refl _
  · exact Nat.le_refl _

theorem countAt_execDel (args : List Bytes) :
    (execDel now st args).1.countAt now key value ≤ st.countAt now key value := by
  unfold execDel
  split
  · unfold State.countAt State.live
    simp only
    split
    · exact Nat.zero_le _
    · exact Nat.le_refl _
  · exact Nat.le_refl _

theorem countAt_execExpire (args : List Bytes) :
    (execExpire now st args).1.countAt now key value ≤ st.countAt now key value := by
  unfold execExpire
  split
  · split
    · exact Nat.le_refl _
    · exact Nat.le_refl _
    · rename_i e _ hlive
      split
      · refine countAt_put_le (fun e' he => ?_)
        cases he
        rw [countAt_of_live hlive]
      · exact countAt_put_le (fun e' he => (nomatch he))
  · exact Nat.le_refl _
  · exact Nat.le_refl _

theorem countAt_execHset (args : List Bytes) :
    (execHset now st args).1.countAt now key value ≤ st.countAt now key value := by
  unfold execHset
  split
  · simp only
    split
    · exact Nat.le_refl _
    · split
      · exact Nat.le_refl _
      · refine countAt_put_le (fun e he => ?_)
        cases he
        exact Nat.zero_le _
  · exact Nat.le_refl _

theorem countAt_execSadd (args : List Bytes) :
    (execSadd now st args).1.countAt now key value ≤ st.countAt now key value := by
  unfold execSadd
  split
  · split
    · refine countAt_put_le (fun e he => ?_)
      cases he
      exact Nat.zero_le _
    · split
      · refine countAt_put_le (fun e he => ?_)
        cases he
        exact Nat.zero_le _
      · exact Nat.le_refl _
  · exact Nat.le_refl _

/-- An entry that is kept, or none, under a value that is no list. -/
theorem countAt_put_ite_le {k : Bytes} {P : Prop} [Decidable P] {e : Entry}
    (he : e.value.isList = false) :
    (st.put k (if P then none else some e)).countAt now key value ≤ st.countAt now key value := by
  refine countAt_put_le (fun e' heq => ?_)
  split at heq
  · cases heq
  · cases heq
    have hcount : e.value.count value = 0 := by
      cases hv : e.value with
      | list l =>
          rw [hv] at he
          cases he
      | string _ => rfl
      | set _ => rfl
      | hash _ => rfl
    rw [hcount]
    exact Nat.zero_le _

theorem countAt_execSrem (args : List Bytes) :
    (execSrem now st args).1.countAt now key value ≤ st.countAt now key value := by
  unfold execSrem
  split
  · split
    · exact Nat.le_refl _
    · split
      · simp only
        split
        · exact Nat.le_refl _
        · exact countAt_put_ite_le rfl
      · exact Nat.le_refl _
  · exact Nat.le_refl _

theorem countAt_execHdel (args : List Bytes) :
    (execHdel now st args).1.countAt now key value ≤ st.countAt now key value := by
  unfold execHdel
  split
  · split
    · exact Nat.le_refl _
    · split
      · simp only
        split
        · exact Nat.le_refl _
        · exact countAt_put_ite_le rfl
      · exact Nat.le_refl _
  · exact Nat.le_refl _

theorem countAt_execLpush {args : List Bytes}
    (h : st.countAt now key value < (execLpush now st args).1.countAt now key value) :
    ∃ name values, args = name :: key :: values ∧ value ∈ values := by
  unfold execLpush at h
  split at h
  · rename_i name k v values
    simp only at h
    by_cases hk : key = k
    · subst hk
      refine ⟨name, v :: values, rfl, ?_⟩
      by_contra hmem
      have hnone : ((v :: values).reverse).count value = 0 :=
        List.count_eq_zero.mpr (fun hm => hmem (List.mem_reverse.mp hm))
      refine absurd h (Nat.not_lt.mpr ?_)
      split
      · refine countAt_put_le (fun e he => ?_)
        cases he
        rw [Value.count, hnone]
        exact Nat.zero_le _
      · rename_i e hlive
        split
        · rename_i l hl
          refine countAt_put_le (fun e' he => ?_)
          cases he
          rw [countAt_of_live hlive, hl, Value.count, Value.count, List.count_append, hnone,
            Nat.zero_add]
        · exact Nat.le_refl _
    · refine absurd h (Nat.not_lt.mpr ?_)
      split
      · exact (countAt_put_of_ne hk _).le
      · split
        · exact (countAt_put_of_ne hk _).le
        · exact Nat.le_refl _
  · exact absurd h (Nat.lt_irrefl _)

theorem keys_execPublish (args : List Bytes) : (execPublish st args).1.keys = st.keys := by
  unfold execPublish
  split <;> rfl

/-- Only LPUSH puts a value on a list. -/
theorem countAt_execute {args : List Bytes}
    (h : st.countAt now key value < (execute now st args).1.countAt now key value) :
    ∃ values, args = utf8 "LPUSH" :: key :: values ∧ value ∈ values := by
  revert h
  refine execute_rule now st args
    (P := fun x => st.countAt now key value < x.1.countAt now key value → _)
    (fun _ h => absurd h (Nat.lt_irrefl _)) (fun h => absurd h (Nat.not_lt.mpr (countAt_execSet _)))
    (fun h => absurd h (Nat.not_lt.mpr (countAt_execDel _)))
    (fun h => absurd h (Nat.not_lt.mpr (countAt_execExpire _))) (fun hname h => ?_) (fun h => ?_)
    (fun h => absurd h (Nat.not_lt.mpr (countAt_execHset _)))
    (fun h => absurd h (Nat.not_lt.mpr (countAt_execSadd _)))
    (fun h => absurd h (Nat.not_lt.mpr (countAt_execSrem _)))
    (fun h => absurd h (Nat.not_lt.mpr (countAt_execHdel _))) (fun _ h => ?_)
  · obtain ⟨name, values, rfl, hmem⟩ := countAt_execLpush h
    cases hname
    exact ⟨values, rfl, hmem⟩
  · have hsame : (execLrange now st args).1 = st := by
      unfold execLrange
      repeat' split
      all_goals rfl
    rw [hsame] at h
    exact absurd h (Nat.lt_irrefl _)
  · unfold State.countAt State.live at h
    rw [keys_execPublish] at h
    exact absurd h (Nat.lt_irrefl _)

theorem pushable_iff :
    Pushable st now key ↔ ∀ e, st.live now key = some e → ∃ l, e.value = .list l := by
  unfold Pushable State.store
  cases hlive : st.live now key with
  | none => simp
  | some e => cases hv : e.value <;> simp [hv, Value.isList]

/-- LPUSH on a key that takes it. -/
theorem execute_lpush (h : Pushable st now key) (v : Bytes) (values : List Bytes) :
    ∃ l t, (∀ value, st.countAt now key value = l.count value) ∧
      (Entry.mk (.list ((v :: values).reverse ++ l)) t).expired now = false ∧
      (execute now st (utf8 "LPUSH" :: key :: v :: values)).1 =
        st.put key (some ⟨.list ((v :: values).reverse ++ l), t⟩) := by
  have hexec : execute now st (utf8 "LPUSH" :: key :: v :: values) =
      execLpush now st (utf8 "LPUSH" :: key :: v :: values) := rfl
  rw [hexec]
  cases hlive : st.live now key with
  | none =>
      refine ⟨[], none, fun value => ?_, rfl, ?_⟩
      · simp [State.countAt, hlive]
      · simp only [execLpush, hlive, List.append_nil]
  | some e =>
      obtain ⟨l, hl⟩ := pushable_iff.mp h e hlive
      have hexp : e.expired now = false := by
        simpa using (Option.filter_eq_some_iff.mp hlive).2
      refine ⟨l, e.expiresAt, fun value => ?_, hexp, ?_⟩
      · rw [countAt_of_live hlive, hl, Value.count]
      · simp only [execLpush, hlive, hl]

theorem execute_lpush_of_not (h : ¬ Pushable st now key) (values : List Bytes) :
    (execute now st (utf8 "LPUSH" :: key :: values)).1 = st := by
  rw [pushable_iff] at h
  push Not at h
  obtain ⟨e, hlive, hno⟩ := h
  have hexec : execute now st (utf8 "LPUSH" :: key :: values) =
      execLpush now st (utf8 "LPUSH" :: key :: values) := rfl
  rw [hexec]
  cases values with
  | nil => rfl
  | cons v values => simp only [execLpush, hlive]

theorem countAt_lpush (h : Pushable st now key) {values : List Bytes} (hne : values ≠ []) :
    (execute now st (utf8 "LPUSH" :: key :: values)).1.countAt now key value =
      st.countAt now key value + values.count value := by
  obtain ⟨v, values, rfl⟩ := List.exists_cons_of_ne_nil hne
  obtain ⟨l, t, hcount, hexp, hexec⟩ := execute_lpush h v values
  have hlive : (st.put key (some ⟨.list ((v :: values).reverse ++ l), t⟩)).live now key =
      some ⟨.list ((v :: values).reverse ++ l), t⟩ := by
    rw [live_put_of, if_pos rfl]
    exact Option.filter_eq_some_iff.mpr ⟨rfl, by rw [hexp]; rfl⟩
  rw [hexec, countAt_of_live hlive, hcount value, Value.count, List.count_append, List.count_reverse,
    Nat.add_comm]

/-- The key then takes another one, at any time. -/
theorem pushable_lpush (h : Pushable st now key) {values : List Bytes} (hne : values ≠ [])
    (later : Time) : Pushable (execute now st (utf8 "LPUSH" :: key :: values)).1 later key := by
  obtain ⟨v, values, rfl⟩ := List.exists_cons_of_ne_nil hne
  obtain ⟨l, t, _, _, hexec⟩ := execute_lpush h v values
  refine pushable_iff.mpr (fun e he => ?_)
  rw [hexec, live_put_of, if_pos rfl] at he
  obtain ⟨heq, _⟩ := Option.filter_eq_some_iff.mp he
  cases heq
  exact ⟨(v :: values).reverse ++ l, rfl⟩

/-- How often the value is among those that an LPUSH on the key has for arguments. -/
def copies (key value : Bytes) : Option (List Bytes) → Nat
  | some (name :: k :: values) => if name = utf8 "LPUSH" ∧ k = key then values.count value else 0
  | _ => 0

theorem copies_lpush (values : List Bytes) :
    copies key value (some (utf8 "LPUSH" :: key :: values)) = values.count value :=
  if_pos ⟨rfl, rfl⟩

theorem copies_pos_iff {args : Option (List Bytes)} : 0 < copies key value args ↔
    ∃ values, args = some (utf8 "LPUSH" :: key :: values) ∧ value ∈ values := by
  constructor
  · intro h
    unfold copies at h
    split at h
    · rename_i name k values
      split at h
      · rename_i hsame
        obtain ⟨rfl, rfl⟩ := hsame
        exact ⟨values, rfl, List.count_pos_iff.mp h⟩
      · exact absurd h (Nat.lt_irrefl 0)
    · exact absurd h (Nat.lt_irrefl 0)
  · rintro ⟨values, rfl, hmem⟩
    rw [copies_lpush]
    exact List.count_pos_iff.mpr hmem

/-- A command pushes its copies of the value if the key takes them. -/
theorem pushes_single (args : List Bytes) :
    (execute now st args).1.countAt now key value - st.countAt now key value =
      if Pushable st now key then copies key value (some args) else 0 := by
  by_cases hpos : 0 < copies key value (some args)
  · obtain ⟨values, heq, hmem⟩ := copies_pos_iff.mp hpos
    cases heq
    split
    · rename_i h
      rw [countAt_lpush h (List.ne_nil_of_mem hmem), copies_lpush, Nat.add_sub_cancel_left]
    · rename_i h
      rw [execute_lpush_of_not h, Nat.sub_self]
  · rw [Nat.eq_zero_of_not_pos hpos, ite_self]
    refine Nat.sub_eq_zero_of_le (Nat.not_lt.mp (fun hlt => hpos ?_))
    obtain ⟨values, rfl, hmem⟩ := countAt_execute hlt
    exact copies_pos_iff.mpr ⟨values, rfl, hmem⟩

theorem published_of_ne {args : List Bytes} (h : args.head? ≠ some (utf8 "PUBLISH")) :
    (execute now st args).1.published = st.published := by
  refine execute_rule now st args (P := fun x => x.1.published = st.published)
    (fun _ => rfl) ?_ ?_ ?_ (fun _ => ?_) ?_ ?_ ?_ ?_ ?_ (fun hname => absurd hname h)
  · unfold execSet
    repeat' split
    all_goals rfl
  · unfold execDel
    split <;> rfl
  · unfold execExpire
    repeat' split
    all_goals rfl
  · unfold execLpush
    simp only
    repeat' split
    all_goals rfl
  · unfold execLrange
    repeat' split
    all_goals rfl
  · unfold execHset
    simp only
    repeat' split
    all_goals rfl
  · unfold execSadd
    repeat' split
    all_goals rfl
  · unfold execSrem
    simp only
    repeat' split
    all_goals rfl
  · unfold execHdel
    simp only
    repeat' split
    all_goals rfl

/-- Only PUBLISH publishes. -/
theorem published_execute (args : List Bytes) (channel message : Bytes) :
    (execute now st args).1.published.count (channel, message) -
        st.published.count (channel, message) =
      if args = [utf8 "PUBLISH", channel, message] then 1 else 0 := by
  by_cases hname : args.head? = some (utf8 "PUBLISH")
  · cases args with
    | nil => cases hname
    | cons name rest =>
        cases hname
        have hexec : execute now st (utf8 "PUBLISH" :: rest) =
            execPublish st (utf8 "PUBLISH" :: rest) := rfl
        rw [hexec]
        unfold execPublish
        split
        · rename_i c m heq
          cases heq
          simp only [List.count_append, Nat.add_sub_cancel_left, List.count_singleton, List.cons.injEq,
            true_and, and_true, beq_iff_eq, Prod.mk.injEq]
        · rename_i hno
          rw [Nat.sub_self, if_neg (fun heq => hno _ _ _ heq)]
  · have hargs : args ≠ [utf8 "PUBLISH", channel, message] := fun heq => hname (by rw [heq]; rfl)
    rw [if_neg hargs]
    rw [published_of_ne hname, Nat.sub_self]

end Count

/-! ## Once, twice or not at all -/

/-- How often LPUSH takes effect. -/
def Fate.effects (fate : Fate) (st : State) (key : Bytes) : Nat :=
  (if fate.executedFirst ∧ Pushable st fate.first.now key then 1 else 0) +
    if fate.executedSecond ∧ (fate.executedFirst ∧ Pushable st fate.first.now key ∨
      Pushable st fate.second.now key) then 1 else 0

/-- LPUSH of one value has it for an argument: the arguments arrive, or one is asked for, and
    with what `redisCommand` reads for it the value is among those for the key. -/
def Lands (hiredis : Hiredis) (key value : Bytes) : Prop :=
  Arrives [utf8 "LPUSH", key, value] ∨
    Wanting [utf8 "LPUSH", key, value] ∧
      0 < copies key value (hiredis.args (cut ([32].intercalate [utf8 "LPUSH", key, value])))

section Times

variable {hiredis : Hiredis} (st : State) (fate : Fate)

theorem effects_pos_iff (key : Bytes) : 0 < fate.effects st key ↔
    fate.executedFirst ∧ Pushable st fate.first.now key ∨
      fate.executedSecond ∧ Pushable st fate.second.now key := by
  unfold Fate.effects
  by_cases h₁ : fate.executedFirst ∧ Pushable st fate.first.now key
  · simp [h₁]
  · by_cases h₂ : fate.executedSecond ∧ Pushable st fate.second.now key <;> simp [h₁, h₂]

theorem effects_le_one_iff (key : Bytes) : fate.effects st key ≤ 1 ↔
    ¬ (fate.executedFirst ∧ Pushable st fate.first.now key ∧ fate.executedSecond) := by
  unfold Fate.effects
  by_cases h₁ : fate.executedFirst ∧ Pushable st fate.first.now key
  · by_cases h₂ : fate.executedSecond <;> simp [h₁, h₂]
  · simp only [h₁, if_false, false_or, Nat.zero_add]
    refine ⟨fun _ h => h₁ ⟨h.1, h.2.1⟩, fun _ => ?_⟩
    split <;> omega

/-- How often the value is pushed, whatever the arguments are. -/
theorem pushes_eq (args : Option (List Bytes)) (key value : Bytes) :
    pushes key value (fate.executions args st) = copies key value args * fate.effects st key := by
  cases args with
  | none =>
      rw [Fate.executions_none]
      exact (Nat.zero_mul _).symm
  | some args =>
      by_cases hpos : 0 < copies key value (some args)
      · obtain ⟨values, heq, hmem⟩ := copies_pos_iff.mp hpos
        cases heq
        have hne := List.ne_nil_of_mem hmem
        -- what the second attempt finds
        have hsecond : Pushable (execute fate.first.now st (utf8 "LPUSH" :: key :: values)).1
              fate.second.now key ↔
            Pushable st fate.first.now key ∨ Pushable st fate.second.now key := by
          by_cases hpush : Pushable st fate.first.now key
          · simp [hpush, pushable_lpush hpush hne fate.second.now]
          · simp [hpush, execute_lpush_of_not hpush values]
        rw [Fate.executions_some]
        unfold Fate.effects
        by_cases h₁ : fate.executedFirst <;> by_cases h₂ : fate.executedSecond
        · simp [pushes, settle, Execution.after, h₁, h₂, pushes_single, hsecond, Nat.mul_add]
        · simp [pushes, Execution.after, h₁, h₂, pushes_single]
        · simp [pushes, settle, Execution.after, h₁, h₂, pushes_single]
        · simp [pushes, h₁, h₂]
      · have hzero := Nat.eq_zero_of_not_pos hpos
        rw [hzero, Nat.zero_mul]
        refine List.sum_eq_zero_iff_forall_eq_nat.mpr (fun n hn => ?_)
        obtain ⟨x, hx, rfl⟩ := List.mem_map.mp hn
        show (execute x.now x.before x.args).1.countAt x.now key value -
          x.before.countAt x.now key value = 0
        rw [pushes_single, Fate.args_of_mem hx, hzero, ite_self]

theorem publishes_eq (args : Option (List Bytes)) (channel message : Bytes) :
    publishes channel message (fate.executions args st) =
      if args = some [utf8 "PUBLISH", channel, message] then
        (if fate.executedFirst then 1 else 0) + if fate.executedSecond then 1 else 0
      else 0 := by
  cases args with
  | none =>
      rw [Fate.executions_none]
      rfl
  | some args =>
      rw [Fate.executions_some]
      by_cases hargs : args = [utf8 "PUBLISH", channel, message] <;>
        by_cases h₁ : fate.executedFirst <;> by_cases h₂ : fate.executedSecond <;>
        simp [publishes, Execution.after, hargs, h₁, h₂, published_execute]

/-- The copies of the value in the command for one LPUSH of it. -/
theorem copies_of_not_wanting (hd : hiredis.Directives) {key value : Bytes}
    (hw : ¬ Wanting [utf8 "LPUSH", key, value]) :
    copies key value (hiredis.args (cut ([32].intercalate [utf8 "LPUSH", key, value]))) =
      if Arrives [utf8 "LPUSH", key, value] then 1 else 0 := by
  have hne : [utf8 "LPUSH", key, value] ≠ [] := List.cons_ne_nil _ _
  split
  · rename_i harr
    rw [hd.args_of_arrives hne harr, copies_lpush, List.count_singleton_self]
  · rename_i harr
    refine Nat.eq_zero_of_not_pos (fun hpos => harr ?_)
    obtain ⟨values, hargs, hmem⟩ := copies_pos_iff.mp hpos
    have hsub : [utf8 "LPUSH", key, value].Sublist (utf8 "LPUSH" :: key :: values) :=
      ((List.singleton_sublist.mpr hmem).cons_cons key).cons_cons _
    refine (hd.args_iff hne hw).mp ?_
    rw [hargs, hd.args_of_sublist hw hargs hsub]

/-- LPUSH of one value: when it is pushed at all. -/
theorem pushes_pos_iff (hd : hiredis.Directives) (key value : Bytes) :
    0 < pushes key value
        (fate.executions (hiredis.args (cut ([32].intercalate [utf8 "LPUSH", key, value]))) st) ↔
      Lands hiredis key value ∧
        (fate.executedFirst ∧ Pushable st fate.first.now key ∨
          fate.executedSecond ∧ Pushable st fate.second.now key) := by
  rw [pushes_eq, Nat.pos_iff_ne_zero, Nat.mul_ne_zero_iff, ← Nat.pos_iff_ne_zero,
    ← Nat.pos_iff_ne_zero, effects_pos_iff]
  refine and_congr_left' ?_
  unfold Lands
  by_cases hw : Wanting [utf8 "LPUSH", key, value]
  · have hno : ¬ Arrives [utf8 "LPUSH", key, value] := fun h => h.not_wanting hw
    simp [hw, hno]
  · rw [copies_of_not_wanting hd hw]
    by_cases harr : Arrives [utf8 "LPUSH", key, value] <;> simp [hw, harr]

/-- And when at most once. -/
theorem pushes_le_one_iff (hd : hiredis.Directives) (key value : Bytes) :
    pushes key value
        (fate.executions (hiredis.args (cut ([32].intercalate [utf8 "LPUSH", key, value]))) st) ≤ 1 ↔
      ¬ (Arrives [utf8 "LPUSH", key, value] ∧ fate.executedFirst ∧
          Pushable st fate.first.now key ∧ fate.executedSecond) ∧
        (Wanting [utf8 "LPUSH", key, value] →
          copies key value (hiredis.args (cut ([32].intercalate [utf8 "LPUSH", key, value]))) *
            fate.effects st key ≤ 1) := by
  rw [pushes_eq]
  by_cases hw : Wanting [utf8 "LPUSH", key, value]
  · have hno : ¬ Arrives [utf8 "LPUSH", key, value] := fun h => h.not_wanting hw
    simp [hw, hno]
  · rw [copies_of_not_wanting hd hw]
    by_cases harr : Arrives [utf8 "LPUSH", key, value]
    · rw [if_pos harr, Nat.one_mul, effects_le_one_iff]
      simp [hw, harr]
    · simp [hw, harr]

theorem publishes_le_one_iff (hd : hiredis.Directives) (channel message : Bytes) :
    publishes channel message
        (fate.executions (hiredis.args (cut ([32].intercalate [utf8 "PUBLISH", channel, message])))
          st) ≤ 1 ↔
      ¬ (hiredis.Keeps [utf8 "PUBLISH", channel, message] ∧ fate.executedFirst ∧
        fate.executedSecond) := by
  rw [publishes_eq, ← hd.keeps_iff (List.cons_ne_nil _ _)]
  generalize hiredis.args (cut ([32].intercalate [utf8 "PUBLISH", channel, message])) = args
  by_cases hargs : args = some [utf8 "PUBLISH", channel, message] <;>
    by_cases h₁ : fate.executedFirst <;> by_cases h₂ : fate.executedSecond <;>
    simp [hargs, h₁, h₂]

end Times

/-- A call's arguments are made from the text of its operation. -/
theorem Call.args_of_operation (hiredis : Hiredis) {call : Call} {op : Operation} {cmd : Bytes}
    (hop : call.operation = some op) (hcmd : op.command = some cmd) :
    call.args hiredis = hiredis.args (cut ([32].intercalate op.arguments)) := by
  have htext := call.command_operation
  rw [hop, Option.bind_some, hcmd] at htext
  obtain ⟨text, hsome, heq⟩ := Option.map_eq_some_iff.mp htext
  unfold Call.args
  rw [hsome, Option.bind_some, heq, Operation.command_eq hcmd]

end MessengerBackend.Redis
