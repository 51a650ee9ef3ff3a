/-
  `RedisClient`: the pool of connections, `connect`, `disconnect`, and what an operation
  does with the pool.

  A context is a number that is given out once, a null context is `none`. `pool_mutex_` is a
  flag that says that a thread has it for good: who takes it then waits forever, and one who
  holds it waits for himself (`none`). `disconnect` takes it, also when `connect` calls it after
  a failed attempt, with the lock in hand.

  A call is by itself here, from any state that the client may be in; the steps of several
  calls side by side are in Redis/Borrow. There `disconnect` is not one step: it clears
  `running_` and joins the subscriber before it takes the mutex, and a `connect` that comes
  between leaves a client that says it is running and whose contexts are then freed. So what
  `running_` says is no condition below.

  * `completes_iff`: when `connect` comes to an end (`connect_waits_for_itself`).
  * `safe_iff`: when an operation keeps its hands off a null context (`null_context_used`).
-/
import MessengerBackend.Redis.Operation

namespace MessengerBackend.Redis

structure Connection where
  context : Option Nat := none
  inUse : Bool := false

/-- The fields that are read. -/
structure Config where
  password : Bytes := []
  poolSize : Int := 32
  maxRetries : Int := 3

structure Client where
  config : Config
  pool : List Connection
  running : Bool := false
  /-- `pool_mutex_` -/
  locked : Bool := false
  /-- `subscriber_thread_.joinable()` -/
  subscriber : Bool := false
  lastError : String := ""
  /-- The next context. -/
  fresh : Nat := 0

/-- What `redisConnectWithTimeout` returns: null, a context with its error set, or a good one. -/
inductive Connecting where
  | null
  | failed
  | connected
deriving DecidableEq

/-- How the steps for one connection end. -/
structure Steps where
  connecting : Connecting
  auth : Bool
  ping : Bool

/-- By attempt and connection. -/
abbrev Network := Nat → Nat → Steps

/-- Nothing goes wrong. Without a password there is no AUTH. -/
def Steps.Succeed (config : Config) (o : Steps) : Prop :=
  o.connecting = .connected ∧ (config.password ≠ [] → o.auth = true) ∧ o.ping = true

instance (config : Config) (o : Steps) : Decidable (o.Succeed config) :=
  inferInstanceAs (Decidable (_ ∧ _ ∧ _))

namespace Client

def create (config : Config) : Client where
  config := config
  pool := List.replicate config.poolSize.toNat {}

/-- `last_error_`, which the callback also gets. -/
def report (error : String) (c : Client) : Client := { c with lastError := error }

def lock (c : Client) : Option Client := if c.locked then none else some { c with locked := true }

def unlock (c : Client) : Client := { c with locked := false }

/-! ## Connecting -/

/-- The body of the loop over the pool, and whether the loop goes on. A failed PING leaves
    the context. -/
def establish (config : Config) (o : Steps) (context : Nat) (connection : Connection) :
    Connection × Bool :=
  match o.connecting with
  | .null => ({ connection with context := none }, false)
  | .failed => ({ connection with context := none }, false)
  | .connected =>
      if config.password ≠ [] ∧ o.auth = false then ({ connection with context := none }, false)
      else ({ connection with context := some context }, o.ping)

/-- The loop, from connection `i` on. -/
def establishAll (config : Config) (net : Nat → Steps) (fresh : Nat) :
    Nat → List Connection → List Connection × Bool
  | _, [] => ([], true)
  | i, connection :: rest =>
      match establish config (net i) (fresh + i) connection with
      | (connection', true) =>
          (connection' :: (establishAll config net fresh (i + 1) rest).1,
            (establishAll config net fresh (i + 1) rest).2)
      | (connection', false) => (connection' :: rest, false)

/-- One attempt. -/
def attempt (net : Nat → Steps) (c : Client) : Client × Bool :=
  ({ c with pool := (establishAll c.config net c.fresh 0 c.pool).1, fresh := c.fresh + c.pool.length },
    (establishAll c.config net c.fresh 0 c.pool).2)

/-- `redisFree` on every context. -/
def freeAll (c : Client) : Client :=
  { c with pool := c.pool.map (fun connection => { connection with context := none }) }

/-- The first step of `disconnect`. -/
def stop (c : Client) : Client := { c with running := false }

/-- The second one: the subscriber's loop ends once `running_` is false. -/
def join (c : Client) : Client := { c with subscriber := false }

/-- The last one, with the mutex. -/
def free (c : Client) : Option Client := c.lock.map (fun c => c.freeAll.unlock)

def disconnect (c : Client) : Option Client := c.stop.join.free

/-- A thread object that is joinable cannot be assigned to. -/
def startSubscriber (c : Client) : Option Client :=
  if c.subscriber then none else some { c with running := true, subscriber := true }

/-- What `connect` returns, after how many attempts. -/
structure Connected where
  client : Client
  ok : Bool
  attempts : Nat

/-- The loop, with `left` attempts to go after `done`. -/
def retry (net : Network) : Nat → Nat → Client → Option Connected
  | 0, done, c => some {
      client := c.report ("Failed to connect to Redis after " ++ toString c.config.maxRetries ++
        " attempts")
      ok := false
      attempts := done }
  | left + 1, done, c =>
      match c.attempt (net (done + 1)) with
      | (c, true) => c.startSubscriber.map (fun c => ⟨c, true, done + 1⟩)
      | (c, false) => c.disconnect.bind (fun c => retry net left (done + 1)
          (c.report ("Failed to connect to Redis (attempt " ++ toString (done + 1) ++ ")")))

def connect (net : Network) (c : Client) : Option Connected :=
  c.lock.bind (fun c =>
    if c.running then some ⟨c.unlock, true, 0⟩
    else (retry net c.config.maxRetries.toNat 0 c).map
      (fun r => { r with client := r.client.unlock }))

def reconnect (net : Network) (c : Client) : Option Connected := c.disconnect.bind (connect net)

/-! ## Operations -/

def setInUse (i : Nat) (inUse : Bool) (c : Client) : Client :=
  { c with pool := c.pool.modify i (fun connection => { connection with inUse := inUse }) }

/-- Where the loop of `acquire_connection` ends. -/
def firstFree (c : Client) : Option Nat := c.pool.findIdx? (fun connection => !connection.inUse)

/-- `acquire_connection`; `none` inside when all are in use. -/
def acquire (c : Client) : Option (Client × Option Nat) :=
  c.lock.map (fun c =>
    match c.firstFree with
    | some i => ((c.setInUse i true).unlock, some i)
    | none => (c.unlock, none))

def contextOf (i : Nat) (c : Client) : Option Nat := c.pool[i]?.bind Connection.context

/-- What an operation does. -/
structure Used where
  client : Client
  /-- The contexts its command is issued on, in order. -/
  issued : List (Option Nat)
  /-- What it returns, if it comes to that. -/
  result : Option Result

/-- `first` and `second` are the replies, null if the connection is lost. A null context is
    followed by `redisCommand`. -/
def operate (op : Operation) (first : Option Reply) (net : Network) (second : Option Reply)
    (c : Client) : Used :=
  match c.acquire with
  | none => ⟨c, [], none⟩
  | some (c, none) => ⟨c, [], some op.failure⟩
  | some (c, some i) =>
      match c.contextOf i, first with
      | none, _ => ⟨c, [none], none⟩
      | some context, some reply =>
          ⟨c.setInUse i false, [some context], some (op.answer (some reply))⟩
      | some context, none =>
          match (c.report op.reconnectError).reconnect net with
          | none => ⟨c, [some context], none⟩
          | some ⟨c, false, _⟩ => ⟨c.setInUse i false, [some context], some (op.answer none)⟩
          | some ⟨c, true, _⟩ => ⟨c.setInUse i false, [some context, c.contextOf i],
              (c.contextOf i).map (fun _ => op.answer second)⟩

/-! ## States -/

def Live (c : Client) : Prop := ∀ k ∈ c.pool, k.context.isSome = true

def Null (c : Client) : Prop := ∀ k ∈ c.pool, k.context = none

/-- Nobody has the mutex for good, and the connection that is found has a context. -/
def usable (c : Client) : Bool :=
  !c.locked && c.firstFree.all (fun i => (c.contextOf i).isSome)

/-! ## One attempt -/

section Attempt

variable (config : Config) (net : Nat → Steps) (fresh : Nat)

theorem establish_ok (o : Steps) (context : Nat) (connection : Connection) :
    (establish config o context connection).2 = true ↔ o.Succeed config := by
  unfold Steps.Succeed
  cases hc : o.connecting with
  | null => simp [establish, hc]
  | failed => simp [establish, hc]
  | connected =>
      by_cases hno : config.password ≠ [] ∧ o.auth = false
      · simp [establish, hc, hno]
      · simp only [establish, hc, if_neg hno, true_and]
        refine ⟨fun hping => ⟨fun hne => ?_, hping⟩, fun h => h.2⟩
        by_contra hauth
        exact hno ⟨hne, by simpa using hauth⟩

theorem establish_live (o : Steps) (context : Nat) (connection : Connection)
    (h : (establish config o context connection).2 = true) :
    (establish config o context connection).1.context.isSome = true := by
  obtain ⟨hc, hauth, _⟩ := (establish_ok config o context connection).mp h
  have hno : ¬ (config.password ≠ [] ∧ o.auth = false) := by
    rintro ⟨hne, hfalse⟩
    rw [hauth hne] at hfalse
    cases hfalse
  simp only [establish, hc, if_neg hno, Option.isSome_some]

theorem establishAll_ok (l : List Connection) (i : Nat) :
    (establishAll config net fresh i l).2 = true ↔
      ∀ j, j < l.length → (net (i + j)).Succeed config := by
  induction l generalizing i with
  | nil => simp [establishAll]
  | cons connection l ih =>
      have hfirst := establish_ok config (net i) (fresh + i) connection
      rw [establishAll]
      split
      · rename_i connection' heq
        have hi : (net i).Succeed config := hfirst.mp (by rw [heq])
        rw [ih]
        constructor
        · intro h j hj
          cases j with
          | zero => exact hi
          | succ j =>
              rw [show i + (j + 1) = i + 1 + j by omega]
              exact h j (by simpa using hj)
        · intro h j hj
          rw [show i + 1 + j = i + (j + 1) by omega]
          exact h (j + 1) (by simpa using hj)
      · rename_i connection' heq
        refine ⟨fun h => (nomatch h), fun h => ?_⟩
        have hi := hfirst.mpr (h 0 (by simp))
        rw [heq] at hi
        cases hi

theorem establishAll_live (l : List Connection) (i : Nat)
    (h : (establishAll config net fresh i l).2 = true) :
    ∀ k ∈ (establishAll config net fresh i l).1, k.context.isSome = true := by
  induction l generalizing i with
  | nil => exact fun k hk => (nomatch hk)
  | cons connection l ih =>
      rw [establishAll] at h ⊢
      split at h
      · rename_i connection' heq
        intro k hk
        rcases List.mem_cons.mp hk with rfl | hk
        · have := establish_live config (net i) (fresh + i) connection (by rw [heq])
          rwa [heq] at this
        · exact ih (i + 1) h k hk
      · cases h

end Attempt

/-! ## Connect and disconnect -/

section Connect

variable {c : Client} {net : Network}

theorem disconnect_of_locked (h : c.locked = true) : c.disconnect = none := by
  simp [disconnect, free, lock, stop, join, h]

theorem disconnect_of_unlocked (h : c.locked = false) :
    c.disconnect = some c.stop.join.freeAll := by
  simp [disconnect, free, lock, unlock, freeAll, stop, join, h]

/-- Every step of the attempt succeeds. -/
def Succeeds (net : Nat → Steps) (c : Client) : Prop :=
  ∀ i, i < c.pool.length → (net i).Succeed c.config

theorem attempt_ok (net : Nat → Steps) (c : Client) :
    (c.attempt net).2 = true ↔ c.Succeeds net := by
  have h := establishAll_ok c.config net c.fresh c.pool 0
  simp only [Nat.zero_add] at h
  exact h

/-- With the lock in hand there is no second attempt. -/
theorem retry_of_locked (net : Network) (hl : c.locked = true) (left done : Nat) :
    retry net (left + 1) done c =
      if (c.attempt (net (done + 1))).2 = true ∧ c.subscriber = false then
        some ⟨{ (c.attempt (net (done + 1))).1 with running := true, subscriber := true }, true,
          done + 1⟩
      else none := by
  rw [retry]
  split
  · rename_i c' heq
    have hc' : c'.subscriber = c.subscriber := by
      rw [show c' = (c.attempt (net (done + 1))).1 by rw [heq]]
      rfl
    cases hs : c.subscriber <;> simp [heq, startSubscriber, hc', hs]
  · rename_i c' heq
    have hc' : c'.locked = true := by
      rw [← hl, show c' = (c.attempt (net (done + 1))).1 by rw [heq]]
      rfl
    simp [heq, disconnect_of_locked hc']

theorem connect_of_locked (h : c.locked = true) : c.connect net = none := by
  simp [connect, lock, h]

/-- `connect` on a client that is not running: the first attempt decides. -/
theorem connect_eq (hl : c.locked = false) (hr : c.running = false) (net : Network) :
    c.connect net =
      if c.config.maxRetries ≤ 0 then
        some ⟨c.report ("Failed to connect to Redis after " ++ toString c.config.maxRetries ++
          " attempts"), false, 0⟩
      else if (c.attempt (net 1)).2 = true ∧ c.subscriber = false then
        some ⟨{ (c.attempt (net 1)).1 with running := true, subscriber := true }, true, 1⟩
      else none := by
  have hlock : c.lock = some { c with locked := true } := by simp [lock, hl]
  unfold connect
  rw [hlock]
  simp only [Option.bind_some, hr]
  by_cases hmax : c.config.maxRetries ≤ 0
  · have hzero : c.config.maxRetries.toNat = 0 := by omega
    simp [hmax, hzero, retry, report, unlock, hl, hr]
  · obtain ⟨left, hleft⟩ : ∃ left, c.config.maxRetries.toNat = left + 1 :=
      ⟨c.config.maxRetries.toNat - 1, by omega⟩
    have hretry := retry_of_locked net (c := { c with locked := true, running := false }) rfl left 0
    simp only [hmax, hleft, if_false, hretry, Bool.false_eq_true]
    have hsame : (attempt (net 1) { c with locked := true, running := false }).2 =
        (c.attempt (net 1)).2 := rfl
    rw [Nat.zero_add, hsame]
    split
    · simp [unlock, attempt, hl]
    · rfl

/-- With an attempt to make, `connect` returns true or never. -/
theorem connect_ok {r : Connected} (hmax : 0 < c.config.maxRetries) (hr : c.connect net = some r) :
    r.ok = true := by
  cases hl : c.locked with
  | true =>
      rw [connect_of_locked hl] at hr
      cases hr
  | false =>
      cases hrun : c.running with
      | true =>
          simp only [connect, lock, hl, hrun, Bool.false_eq_true, if_false, if_true,
            Option.bind_some] at hr
          cases hr
          rfl
      | false =>
          rw [connect_eq hl hrun, if_neg (by omega)] at hr
          split at hr
          · cases hr
            rfl
          · cases hr

theorem reconnect_eq (h : c.locked = false) (net : Network) :
    c.reconnect net = connect net c.stop.join.freeAll := by
  unfold reconnect
  rw [disconnect_of_unlocked h, Option.bind_some]

end Connect

/-! ## Acquiring -/

section Acquire

variable {c : Client}

/-- The connection that is acquired is the first one that is not in use. -/
theorem acquire_of_unlocked (h : c.locked = false) :
    c.acquire = match c.firstFree with
      | some i => some (c.setInUse i true, some i)
      | none => some (c, none) := by
  have hlock : c.lock = some { c with locked := true } := by simp [lock, h]
  have hsame : ({ c with locked := false } : Client) = c := by
    rw [← h]
  have hfree : firstFree { c with locked := true } = c.firstFree := rfl
  unfold acquire
  rw [hlock]
  simp only [Option.map_some, hfree]
  split
  · rename_i i hi
    simp only [unlock, setInUse]
    rw [← h]
  · rename_i hi
    simp only [unlock, hsame]

theorem firstFree_eq_none : c.firstFree = none ↔ ∀ k ∈ c.pool, k.inUse = true := by
  simp [firstFree]

theorem lt_of_firstFree {i : Nat} (h : c.firstFree = some i) : i < c.pool.length :=
  (List.findIdx?_eq_some_iff_getElem.mp h).1

/-- Taking a connection leaves the contexts. -/
theorem contextOf_setInUse (c : Client) (i j : Nat) (inUse : Bool) :
    (c.setInUse i inUse).contextOf j = c.contextOf j := by
  unfold contextOf setInUse
  rw [List.getElem?_modify]
  cases c.pool[j]? with
  | none => rfl
  | some k =>
      simp only [Option.map_some, Option.bind_some, Option.map_eq_map]
      split <;> rfl

theorem length_setInUse (c : Client) (i : Nat) (inUse : Bool) :
    (c.setInUse i inUse).pool.length = c.pool.length := List.length_modify ..

theorem usable_iff : c.usable = true ↔
    c.locked = false ∧ ∀ i, c.firstFree = some i → (c.contextOf i).isSome = true := by
  unfold usable
  cases c.firstFree <;> simp

end Acquire

/-! ## Connect comes to an end -/

/-- `connect` returns true, running and with all contexts live, if some attempt succeeds, and
    else false after all attempts, not running and with all contexts null. -/
def Completes (net : Network) (c : Client) : Prop :=
  ∃ r, c.connect net = some r ∧
    ((∃ attempt : Nat, 1 ≤ attempt ∧ attempt ≤ c.config.maxRetries ∧ c.Succeeds (net attempt)) →
      r.ok = true ∧ r.client.running = true ∧ r.client.Live) ∧
    ((¬ ∃ attempt : Nat, 1 ≤ attempt ∧ attempt ≤ c.config.maxRetries ∧ c.Succeeds (net attempt)) →
      r.ok = false ∧ r.attempts = c.config.maxRetries.toNat ∧ r.client.running = false ∧
        r.client.Null)

/-- On a client that is not running `connect` comes to an end exactly when it gets the mutex, and
    makes no attempt and finds nothing to free, or makes one that succeeds and finds no
    subscriber to assign over. -/
theorem completes_iff (c : Client) (hr : c.running = false) (net : Network) :
    c.Completes net ↔ c.locked = false ∧
      (c.config.maxRetries ≤ 0 ∧ c.Null ∨
        0 < c.config.maxRetries ∧ c.Succeeds (net 1) ∧ c.subscriber = false) := by
  cases hl : c.locked with
  | true =>
      refine iff_of_false ?_ (fun h => nomatch h.1)
      rintro ⟨r, h, _⟩
      rw [connect_of_locked hl] at h
      cases h
  | false =>
      have hconnect := connect_eq hl hr net
      rw [← attempt_ok, and_iff_right rfl]
      by_cases hmax : c.config.maxRetries ≤ 0
      · rw [if_pos hmax] at hconnect
        rw [or_iff_left (fun h => by omega), and_iff_right hmax]
        have hnone : ¬ ∃ attempt : Nat, 1 ≤ attempt ∧ attempt ≤ c.config.maxRetries ∧
            c.Succeeds (net attempt) := by
          rintro ⟨attempt, hone, hle, _⟩
          omega
        constructor
        · rintro ⟨r, h, _, hno⟩
          cases hconnect.symm.trans h
          exact (hno hnone).2.2.2
        · intro hnull
          refine ⟨_, hconnect, fun h => absurd h hnone, fun _ => ⟨rfl, ?_, hr, hnull⟩⟩
          show 0 = c.config.maxRetries.toNat
          omega
      · rw [if_neg hmax] at hconnect
        rw [or_iff_right (fun h => hmax h.1), and_iff_right (by omega)]
        constructor
        · rintro ⟨r, h, _⟩
          rw [hconnect] at h
          by_contra hno
          rw [if_neg hno] at h
          cases h
        · intro hfirst
          rw [if_pos hfirst] at hconnect
          refine ⟨_, hconnect, fun _ => ⟨rfl, rfl, ?_⟩, fun hno => ?_⟩
          · exact establishAll_live _ _ _ c.pool 0 hfirst.1
          · exact absurd ⟨1, Nat.le_refl 1, by omega, (attempt_ok (net 1) c).mp hfirst.1⟩ hno

/-- All steps succeed from attempt `k` on. -/
def goodFrom (k : Nat) : Network :=
  fun attempt _ => ⟨if k ≤ attempt then .connected else .null, true, true⟩

theorem completes_iff_fresh : (create { poolSize := 2 }).Completes (goodFrom 1) :=
  (completes_iff (create { poolSize := 2 }) rfl (goodFrom 1)).mpr
    ⟨rfl, Or.inr ⟨by decide, fun _ _ => ⟨rfl, fun _ => rfl, rfl⟩, rfl⟩⟩

/-- The first attempt fails, and the second one would not. -/
theorem connect_waits_for_itself : (create { poolSize := 1 }).connect (goodFrom 2) = none ∧
    (create { poolSize := 1 }).Succeeds (goodFrom 2 2) ∧
    ¬ (create { poolSize := 1 }).Completes (goodFrom 2) := by
  have hnone : (create { poolSize := 1 }).connect (goodFrom 2) = none := by decide
  refine ⟨hnone, fun i _ => ⟨rfl, fun _ => rfl, rfl⟩, ?_⟩
  rintro ⟨r, hr, _⟩
  cases hnone.symm.trans hr

/-! ## Null contexts -/

/-- The command is issued on live contexts only, and if on none, the operation returns its
    failure value. -/
def Used.Safe (op : Operation) (u : Used) : Prop :=
  (∀ context ∈ u.issued, context.isSome = true) ∧ (u.issued = [] → u.result = some op.failure)

theorem contextOf_live {c : Client} (h : c.Live) {i : Nat} (hi : i < c.pool.length) :
    (c.contextOf i).isSome = true := by
  unfold contextOf
  rw [List.getElem?_eq_getElem hi]
  exact h _ (List.getElem_mem hi)

theorem length_establishAll {config : Config} {net : Nat → Steps} {fresh : Nat}
    (l : List Connection) (i : Nat) :
    (establishAll config net fresh i l).1.length = l.length := by
  induction l generalizing i with
  | nil => rfl
  | cons connection l ih =>
      rw [establishAll]
      split
      · simp [ih]
      · rfl

theorem inUse_establish (config : Config) (o : Steps) (context : Nat) (connection : Connection) :
    (establish config o context connection).1.inUse = connection.inUse := by
  unfold establish
  split
  · rfl
  · rfl
  · split <;> rfl

theorem inUse_establishAll {config : Config} {net : Nat → Steps} {fresh : Nat}
    (l : List Connection) (i : Nat) :
    (establishAll config net fresh i l).1.map Connection.inUse = l.map Connection.inUse := by
  induction l generalizing i with
  | nil => rfl
  | cons connection l ih =>
      have hfirst := inUse_establish config (net i) (fresh + i) connection
      rw [establishAll]
      split
      · rename_i heq
        rw [heq] at hfirst
        rw [List.map_cons, List.map_cons, ih, hfirst]
      · rename_i heq
        rw [heq] at hfirst
        rw [List.map_cons, List.map_cons, hfirst]

/-- An attempt leaves it open which connections are free. -/
theorem firstFree_attempt (net : Nat → Steps) (c : Client) :
    (c.attempt net).1.firstFree = c.firstFree := by
  have hmap : ∀ d : Client, d.firstFree = (d.pool.map Connection.inUse).findIdx? (fun b => !b) := by
    intro d
    rw [List.findIdx?_map]
    rfl
  rw [hmap, hmap]
  exact congrArg _ (inUse_establishAll c.pool 0)

/-- After a reconnect that succeeds every connection has a context again. -/
theorem reconnect_live {c c' : Client} {net : Network} {n : Nat} (h : c.locked = false)
    (hr : c.reconnect net = some ⟨c', true, n⟩) : c'.Live ∧ c'.pool.length = c.pool.length := by
  rw [reconnect_eq h, connect_eq (c := c.stop.join.freeAll) h rfl] at hr
  split at hr
  · cases hr
  · split at hr
    · rename_i hok
      cases hr
      refine ⟨establishAll_live _ _ _ _ 0 hok.1, (length_establishAll _ 0).trans ?_⟩
      exact List.length_map _
    · cases hr

/-- An operation is safe exactly if it gets the mutex, and the first connection that is free, if
    there is one, has a context. -/
theorem safe_iff (c : Client) (op : Operation) (first : Option Reply) (net : Network)
    (second : Option Reply) :
    (c.operate op first net second).Safe op ↔ c.locked = false ∧
      ∀ i, c.firstFree = some i → (c.contextOf i).isSome = true := by
  cases hl : c.locked with
  | true =>
      refine iff_of_false (fun hsafe => ?_) (fun h => nomatch h.1)
      have hnever : c.operate op first net second = ⟨c, [], none⟩ := by
        simp [operate, acquire, lock, hl]
      rw [hnever] at hsafe
      cases hsafe.2 rfl
  | false =>
      have hacquire := acquire_of_unlocked hl
      rw [and_iff_right rfl]
      cases hfree : c.firstFree with
      | none =>
          rw [hfree] at hacquire
          refine iff_of_true ?_ (fun i hi => nomatch hi)
          simp [operate, hacquire, Used.Safe]
      | some i =>
          rw [hfree] at hacquire
          have hcontext := contextOf_setInUse c i i true
          cases hlive : c.contextOf i with
          | none =>
              -- a connection that nobody has and that has no context
              refine iff_of_false (fun hsafe => ?_) (fun h => ?_)
              · simp only [operate, hacquire, hcontext, hlive] at hsafe
                exact absurd (hsafe.1 none List.mem_cons_self) (by decide)
              · have hsome := h i rfl
                rw [hlive] at hsome
                cases hsome
          | some context =>
              refine iff_of_true ?_ (fun j hj => by cases hj; rw [hlive]; rfl)
              cases first with
              | some reply => simp [operate, hacquire, hcontext, hlive, Used.Safe]
              | none =>
                  simp only [operate, hacquire, hcontext, hlive]
                  split
                  · simp [Used.Safe]
                  · simp [Used.Safe]
                  · rename_i c₂ n hre
                    obtain ⟨hlive₂, hlen₂⟩ :=
                      reconnect_live (c := (c.setInUse i true).report op.reconnectError) hl hre
                    have hcontext₂ := contextOf_live hlive₂ (i := i) (by
                      rw [hlen₂]
                      exact (length_setInUse c i true).symm ▸ lt_of_firstFree hfree)
                    simp [Used.Safe, hcontext₂]

/-- A client of one connection that has connected. -/
def online : Client :=
  (((create { poolSize := 1 }).connect (goodFrom 1)).map Connected.client).getD
    (create { poolSize := 1 })

/-- GET on a client that was never connected. -/
theorem null_context_used :
    ((create { poolSize := 1 }).operate (.get (utf8 "k")) none (goodFrom 1) none).issued = [none] ∧
      ¬ ((create { poolSize := 1 }).operate (.get (utf8 "k")) none (goodFrom 1) none).Safe
        (.get (utf8 "k")) := by
  have hissued :
      ((create { poolSize := 1 }).operate (.get (utf8 "k")) none (goodFrom 1) none).issued = [none] := by
    rfl
  refine ⟨hissued, fun hsafe => ?_⟩
  have := hsafe.1 none (hissued ▸ List.mem_cons_self)
  cases this

end Client

end MessengerBackend.Redis
