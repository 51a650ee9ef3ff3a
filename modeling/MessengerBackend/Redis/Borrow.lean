/-
  Operations of one `RedisClient` side by side, and the contexts they have borrowed.

  An operation takes a connection out of the pool under `pool_mutex_` and keeps it without.
  When its command is lost it calls `reconnect`, which frees and replaces the contexts of all
  connections, whoever has them. A thread is at one of the points of `acquire_connection`,
  `send_command`, `disconnect` and `connect`; each step reads or writes the pool once.

  * `Undisturbed`: the context of a borrowed connection is what it was when it was acquired,
    or what its own operation has made of it.
  * `Excluded`: nobody else has a connection when `disconnect` or `connect` gets the mutex.
    Runs that meet it keep every borrowed connection undisturbed (`undisturbed_of_excluded`);
    one that does not, `context_taken`.

  After a failed attempt `connect` waits for its own lock (Redis/Pool); here it is `stuck`.
-/
import MessengerBackend.Lib.History
import MessengerBackend.Redis.Pool

namespace MessengerBackend.Redis

namespace Borrow

inductive Point where
  | acquire
  | send
  /-- The reply was null: `running_ = false` comes next. -/
  | lost
  | join
  /-- At `pool_mutex_` in `disconnect`. -/
  | disconnectLock
  /-- At connection `k` of the loop in `disconnect`. -/
  | freeing (k : Nat)
  /-- At `pool_mutex_` in `connect`. -/
  | connectLock
  /-- At connection `k` of the loop in `connect`. -/
  | establishing (k : Nat)
  /-- The attempt has failed. -/
  | failed
  | stuck
  | resend
  | release
  | done
  /-- A command on a null context. -/
  | crashed

namespace Point

/-- The thread has locked `pool_mutex_`. -/
def holds : Point → Bool
  | .freeing _ | .establishing _ | .failed | .stuck => true
  | _ => false

/-- The thread has a connection. -/
def borrows : Point → Bool
  | .acquire | .done => false
  | _ => true

end Point

structure Thread where
  point : Point := .acquire
  /-- The connection it has. -/
  conn : Nat := 0
  /-- What it knows that connection's context to be. Nothing reads it. -/
  seen : Option Nat := none

/-- What a step may depend on. -/
structure Input where
  /-- Where the loop of `acquire_connection` ends. -/
  found : Option Nat := none
  /-- There is a reply. -/
  replied : Bool := true
  steps : Steps := ⟨.connected, true, true⟩

end Borrow

namespace Client

def setContext (k : Nat) (context : Option Nat) (c : Client) : Client :=
  { c with pool := c.pool.modify k (fun connection => { connection with context := context }) }

end Client

namespace Borrow

def Thread.at (point : Point) (t : Thread) : Thread := { t with point := point }

/-- The thread has changed the context of connection `k`. -/
def Thread.sees (k : Nat) (context : Option Nat) (t : Thread) : Thread :=
  if k = t.conn then { t with seen := context } else t

/-- One step. A thread that waits for the mutex does not move. -/
def step (t : Thread) (inp : Input) (c : Client) : Client × Thread :=
  match t.point with
  | .acquire =>
      if c.locked then (c, t)
      else
        match inp.found with
        | none => (c, t.at .done)
        | some i =>
            match c.pool[i]? with
            | none => (c, t)
            | some connection =>
                if connection.inUse then (c, t)
                else (c.setInUse i true, ⟨.send, i, connection.context⟩)
  | .send =>
      if (c.contextOf t.conn).isNone then (c, t.at .crashed)
      else if inp.replied then (c, t.at .release)
      else (c, t.at .lost)
  | .lost => ({ c with running := false }, t.at .join)
  | .join => (c, t.at .disconnectLock)
  | .disconnectLock =>
      if c.locked then (c, t) else ({ c with locked := true }, t.at (.freeing 0))
  | .freeing k =>
      if k < c.pool.length then (c.setContext k none, (t.sees k none).at (.freeing (k + 1)))
      else (c.unlock, t.at .connectLock)
  | .connectLock =>
      if c.locked then (c, t)
      else if c.running then (c, t.at .resend)
      else if c.config.maxRetries ≤ 0 then (c, t.at .release)
      else ({ c with locked := true }, t.at (.establishing 0))
  | .establishing k =>
      match c.pool[k]? with
      | none => ({ c with running := true, locked := false }, t.at .resend)
      | some connection =>
          let (connection', ok) := Client.establish c.config inp.steps c.fresh connection
          ({ c.setContext k connection'.context with fresh := c.fresh + 1 },
            (t.sees k connection'.context).at (if ok then .establishing (k + 1) else .failed))
  | .failed => ({ c with running := false }, t.at .stuck)
  | .stuck => (c, t)
  | .resend => if (c.contextOf t.conn).isNone then (c, t.at .crashed) else (c, t.at .release)
  | .release => (c.setInUse t.conn false, t.at .done)
  | .done => (c, t)
  | .crashed => (c, t)

/-- Every request is an operation. -/
def system : Interleave.System Operation Thread Client Input Unit where
  start _ := {}
  step t inp c := ((step t inp c).1, (step t inp c).2, [])

abbrev World := Interleave.Config Operation Thread Client Unit

/-! ## The property -/

/-- No borrowed context has been freed or replaced by another operation. -/
def Undisturbed (w : World) : Prop :=
  ∀ (j : Nat) (op : Operation) (t : Thread), w.threads[j]? = some (op, t) →
    t.point.borrows = true → w.shared.contextOf t.conn = t.seen

/-- When a thread locks the mutex in `disconnect`, no other one has a live context, and when
    it locks it in `connect` and makes an attempt, no other one has a connection. -/
def Excluded (w : World) : Interleave.Action Operation Input → Prop
  | .spawn _ => True
  | .run i _ => ∀ (op : Operation) (t : Thread), w.threads[i]? = some (op, t) →
      w.shared.locked = false → ∀ (j : Nat) (op' : Operation) (u : Thread), j ≠ i →
      w.threads[j]? = some (op', u) → u.point.borrows = true →
        (t.point = .disconnectLock → w.shared.contextOf u.conn = none) ∧
        ¬ (t.point = .connectLock ∧ w.shared.running = false ∧ 0 < w.shared.config.maxRetries)

/-! ## What a step does -/

/-- The thread has locked the mutex in `connect`. -/
def Point.establishes : Point → Bool
  | .establishing _ | .failed | .stuck => true
  | _ => false

/-- Points that differ in nothing the others notice. -/
def Point.Like (p q : Point) : Prop :=
  p.holds = q.holds ∧ p.borrows = q.borrows ∧ p.establishes = q.establishes

/-- The steps by what they do to the pool and the mutex. -/
inductive Moves (t : Thread) (c : Client) : Thread → Client → Prop where
  | quiet {p : Point} {c' : Client} : p.Like t.point → c'.pool = c.pool →
      c'.locked = c.locked → Moves t c (t.at p) c'
  | take {i : Nat} {connection : Connection} : t.point = .acquire → c.locked = false →
      c.pool[i]? = some connection → connection.inUse = false →
      Moves t c ⟨.send, i, connection.context⟩ (c.setInUse i true)
  | lockDisconnect : t.point = .disconnectLock → c.locked = false →
      Moves t c (t.at (.freeing 0)) { c with locked := true }
  | lockConnect : t.point = .connectLock → c.locked = false → c.running = false →
      0 < c.config.maxRetries → Moves t c (t.at (.establishing 0)) { c with locked := true }
  | write {p : Point} {k : Nat} {context : Option Nat} {c' : Client} : t.point.holds = true →
      p.Like t.point → (t.point.establishes = false → context = none) →
      c'.pool = (c.setContext k context).pool → c'.locked = c.locked →
      Moves t c ((t.sees k context).at p) c'
  | unlock {p : Point} {c' : Client} : t.point.holds = true → p.holds = false → p.borrows = true →
      c'.pool = c.pool → c'.locked = false → Moves t c (t.at p) c'
  | giveBack : t.point = .release → Moves t c (t.at .done) (c.setInUse t.conn false)

/-- The inversion lemma for one step. -/
theorem moves_step (t : Thread) (inp : Input) (c : Client) :
    Moves t c (step t inp c).2 (step t inp c).1 := by
  have stay : Moves t c t c := by
    have h : Moves t c (t.at t.point) c := .quiet ⟨rfl, rfl, rfl⟩ rfl rfl
    exact h
  have move : ∀ {p : Point}, p.Like t.point → Moves t c (t.at p) c := fun h => .quiet h rfl rfl
  cases hp : t.point with
  | acquire =>
      rw [step.eq_def, hp]
      simp only
      split
      · exact stay
      · rename_i hlocked
        split
        · exact move (hp ▸ ⟨rfl, rfl, rfl⟩)
        · split
          · exact stay
          · rename_i hi
            split
            · exact stay
            · rename_i huse
              exact .take hp (by simpa using hlocked) hi (by simpa using huse)
  | send =>
      rw [step.eq_def, hp]
      simp only
      split
      · exact move (hp ▸ ⟨rfl, rfl, rfl⟩)
      · split
        · exact move (hp ▸ ⟨rfl, rfl, rfl⟩)
        · exact move (hp ▸ ⟨rfl, rfl, rfl⟩)
  | lost =>
      rw [step.eq_def, hp]
      exact .quiet (hp ▸ ⟨rfl, rfl, rfl⟩) rfl rfl
  | join =>
      rw [step.eq_def, hp]
      exact move (hp ▸ ⟨rfl, rfl, rfl⟩)
  | disconnectLock =>
      rw [step.eq_def, hp]
      simp only
      split
      · exact stay
      · rename_i hlocked
        exact .lockDisconnect hp (by simpa using hlocked)
  | freeing k =>
      rw [step.eq_def, hp]
      simp only
      split
      · exact .write (by rw [hp]; rfl) (hp ▸ ⟨rfl, rfl, rfl⟩) (fun _ => rfl) rfl rfl
      · exact .unlock (by rw [hp]; rfl) rfl rfl rfl rfl
  | connectLock =>
      rw [step.eq_def, hp]
      simp only
      split
      · exact stay
      · rename_i hlocked
        split
        · exact move (hp ▸ ⟨rfl, rfl, rfl⟩)
        · rename_i hrun
          split
          · exact move (hp ▸ ⟨rfl, rfl, rfl⟩)
          · rename_i hmax
            exact .lockConnect hp (by simpa using hlocked) (by simpa using hrun) (by omega)
  | establishing k =>
      rw [step.eq_def, hp]
      simp only
      split
      · exact .unlock (by rw [hp]; rfl) rfl rfl rfl rfl
      · refine .write (by rw [hp]; rfl) ?_ (fun h => ?_) rfl rfl
        · rw [hp]
          split <;> exact ⟨rfl, rfl, rfl⟩
        · rw [hp] at h
          cases h
  | failed =>
      rw [step.eq_def, hp]
      exact .quiet (hp ▸ ⟨rfl, rfl, rfl⟩) rfl rfl
  | stuck =>
      rw [step.eq_def, hp]
      exact stay
  | resend =>
      rw [step.eq_def, hp]
      simp only
      split
      · exact move (hp ▸ ⟨rfl, rfl, rfl⟩)
      · exact move (hp ▸ ⟨rfl, rfl, rfl⟩)
  | release =>
      rw [step.eq_def, hp]
      exact .giveBack hp
  | done =>
      rw [step.eq_def, hp]
      exact stay
  | crashed =>
      rw [step.eq_def, hp]
      exact stay

/-! ## The invariant -/

/-- The connection is taken. -/
def InUse (c : Client) (k : Nat) : Prop := ∃ connection, c.pool[k]? = some connection ∧
  connection.inUse = true

structure Inv (w : World) : Prop where
  locked : ∀ (i : Nat) (op : Operation) (t : Thread), w.threads[i]? = some (op, t) →
    t.point.holds = true → w.shared.locked = true
  single : ∀ (i j : Nat) (op op' : Operation) (t u : Thread), w.threads[i]? = some (op, t) →
    w.threads[j]? = some (op', u) → t.point.holds = true → u.point.holds = true → i = j
  inUse : ∀ (i : Nat) (op : Operation) (t : Thread), w.threads[i]? = some (op, t) →
    t.point.borrows = true → InUse w.shared t.conn
  apart : ∀ (i j : Nat) (op op' : Operation) (t u : Thread), i ≠ j →
    w.threads[i]? = some (op, t) → w.threads[j]? = some (op', u) → t.point.borrows = true →
    u.point.borrows = true → t.conn ≠ u.conn
  /-- Beside a thread that has locked the mutex nobody has a live context, and in `connect`
      nobody has a connection. -/
  alone : ∀ (i j : Nat) (op op' : Operation) (t u : Thread), i ≠ j →
    w.threads[i]? = some (op, t) → w.threads[j]? = some (op', u) → t.point.holds = true →
    u.point.borrows = true → w.shared.contextOf u.conn = none ∧ t.point.establishes = false
  undisturbed : Undisturbed w

section Pool

variable {c c' : Client} {k n : Nat}

theorem InUse.congr (h : InUse c n) (hpool : c'.pool = c.pool) : InUse c' n := by
  unfold InUse
  rwa [hpool]

theorem contextOf_congr (hpool : c'.pool = c.pool) (n : Nat) : c'.contextOf n = c.contextOf n := by
  unfold Client.contextOf
  rw [hpool]

theorem inUse_setContext {context : Option Nat} (h : InUse c n)
    (hpool : c'.pool = (c.setContext k context).pool) : InUse c' n := by
  obtain ⟨connection, hn, huse⟩ := h
  unfold InUse
  rw [hpool, Client.setContext, List.getElem?_modify, hn]
  refine ⟨_, rfl, ?_⟩
  split
  · exact huse
  · exact huse

theorem contextOf_setContext {context : Option Nat} (h : InUse c n)
    (hpool : c'.pool = (c.setContext k context).pool) :
    c'.contextOf n = if k = n then context else c.contextOf n := by
  obtain ⟨connection, hn, _⟩ := h
  unfold Client.contextOf
  rw [hpool, Client.setContext, List.getElem?_modify, hn]
  split <;> rfl

theorem inUse_setInUse (c : Client) {connection : Connection} (hk : c.pool[k]? = some connection) :
    InUse (c.setInUse k true) k := by
  refine ⟨{ connection with inUse := true }, ?_, rfl⟩
  rw [Client.setInUse, List.getElem?_modify, hk]
  simp

theorem InUse.setInUse_of_ne (h : InUse c n) (hne : k ≠ n) (inUse : Bool) :
    InUse (c.setInUse k inUse) n := by
  obtain ⟨connection, hn, huse⟩ := h
  refine ⟨connection, ?_, huse⟩
  rw [Client.setInUse, List.getElem?_modify, hn]
  simp [hne]

theorem contextOf_setInUse (c : Client) (k : Nat) (inUse : Bool) (n : Nat) :
    (c.setInUse k inUse).contextOf n = c.contextOf n := by
  unfold Client.contextOf
  rw [Client.setInUse, List.getElem?_modify]
  cases c.pool[n]? with
  | none => rfl
  | some connection =>
      simp only [Option.bind_some]
      split <;> rfl

end Pool

theorem borrows_of_holds {p : Point} (h : p.holds = true) : p.borrows = true := by
  cases p <;> first | rfl | cases h

section Step

variable {w : World} {i : Nat} {r : Operation} {t : Thread} {c' : Client}

/-- After a step of thread `i`, from what it means for `i` and for each other thread. -/
theorem Inv.moved (h : Inv w) (t' : Thread) (hown : t'.point.holds = true → c'.locked = true)
    (hborrow : t'.point.borrows = true →
      InUse c' t'.conn ∧ c'.contextOf t'.conn = t'.seen)
    (hholder : ∀ (j : Nat) (op : Operation) (u : Thread), j ≠ i → w.threads[j]? = some (op, u) →
      u.point.holds = true → c'.locked = true ∧ t'.point.holds = false ∧
        (t'.point.borrows = true → t'.seen = none ∧ u.point.establishes = false))
    (hother : ∀ (j : Nat) (op : Operation) (u : Thread), j ≠ i → w.threads[j]? = some (op, u) →
      u.point.borrows = true → InUse c' u.conn ∧
        c'.contextOf u.conn = w.shared.contextOf u.conn ∧
        (t'.point.borrows = true → t'.conn ≠ u.conn) ∧
        (t'.point.holds = true → w.shared.contextOf u.conn = none ∧
          t'.point.establishes = false)) (trace : List (Nat × Unit)) :
    Inv ⟨c', w.threads.set i (r, t'), trace⟩ where
  locked j op u hj hholds := by
    rcases Interleave.getElem?_moved hj with ⟨_, heq⟩ | ⟨hne, hj⟩
    · cases heq
      exact hown hholds
    · exact (hholder j op u hne hj hholds).1
  single j k op op' u v hj hk hu hv := by
    rcases Interleave.getElem?_moved hj with ⟨rfl, heq⟩ | ⟨hne, hj'⟩ <;>
      rcases Interleave.getElem?_moved hk with ⟨rfl, heq'⟩ | ⟨hne', hk'⟩
    · rfl
    · cases heq
      rw [(hholder k op' v hne' hk' hv).2.1] at hu
      cases hu
    · cases heq'
      rw [(hholder j op u hne hj' hu).2.1] at hv
      cases hv
    · exact h.single j k op op' u v hj' hk' hu hv
  inUse j op u hj hu := by
    rcases Interleave.getElem?_moved hj with ⟨_, heq⟩ | ⟨hne, hj⟩
    · cases heq
      exact (hborrow hu).1
    · exact (hother j op u hne hj hu).1
  apart j k op op' u v hjk hj hk hu hv := by
    rcases Interleave.getElem?_moved hj with ⟨rfl, heq⟩ | ⟨hne, hj'⟩ <;>
      rcases Interleave.getElem?_moved hk with ⟨rfl, heq'⟩ | ⟨hne', hk'⟩
    · exact absurd rfl hjk
    · cases heq
      exact (hother k op' v hne' hk' hv).2.2.1 hu
    · cases heq'
      exact ((hother j op u hne hj' hu).2.2.1 hv).symm
    · exact h.apart j k op op' u v hjk hj' hk' hu hv
  alone j k op op' u v hjk hj hk hu hv := by
    rcases Interleave.getElem?_moved hj with ⟨rfl, heq⟩ | ⟨hne, hj'⟩ <;>
      rcases Interleave.getElem?_moved hk with ⟨rfl, heq'⟩ | ⟨hne', hk'⟩
    · exact absurd rfl hjk
    · cases heq
      obtain ⟨_, hsame, _, hnone⟩ := hother k op' v hne' hk' hv
      exact ⟨hsame.trans (hnone hu).1, (hnone hu).2⟩
    · cases heq'
      obtain ⟨hseen, hest⟩ := (hholder j op u hne hj' hu).2.2 hv
      exact ⟨(hborrow hv).2.trans hseen, hest⟩
    · obtain ⟨_, hsame, _⟩ := hother k op' v hne' hk' hv
      obtain ⟨hnone, hest⟩ := h.alone j k op op' u v hjk hj' hk' hu hv
      exact ⟨hsame.trans hnone, hest⟩
  undisturbed j op u hj hu := by
    rcases Interleave.getElem?_moved hj with ⟨_, heq⟩ | ⟨hne, hj⟩
    · cases heq
      exact (hborrow hu).2
    · exact (hother j op u hne hj hu).2.1.trans (h.undisturbed j op u hj hu)

/-- Two threads that have both locked the mutex are one. -/
theorem Inv.only (h : Inv w) (ht : w.threads[i]? = some (r, t)) (hholds : t.point.holds = true)
    (j : Nat) (op : Operation) (u : Thread) (hne : j ≠ i) (hj : w.threads[j]? = some (op, u)) :
    u.point.holds ≠ true :=
  fun hu => hne (h.single j i op r u t hj ht hu hholds)

theorem Inv.nobody (h : Inv w) (hlocked : w.shared.locked = false) (j : Nat) (op : Operation)
    (u : Thread) (hj : w.threads[j]? = some (op, u)) : u.point.holds ≠ true := by
  intro hu
  rw [h.locked j op u hj hu] at hlocked
  cases hlocked

/-- A thread's own connection. -/
theorem Inv.borrowed (h : Inv w) (ht : w.threads[i]? = some (r, t))
    (hb : t.point.borrows = true) :
    InUse w.shared t.conn ∧ w.shared.contextOf t.conn = t.seen :=
  ⟨h.inUse i r t ht hb, h.undisturbed i r t ht hb⟩

theorem Inv.apart_from (h : Inv w) (ht : w.threads[i]? = some (r, t))
    (hb : t.point.borrows = true) (j : Nat) (op : Operation) (u : Thread) (hne : j ≠ i)
    (hj : w.threads[j]? = some (op, u)) (hu : u.point.borrows = true) : t.conn ≠ u.conn :=
  h.apart i j r op t u hne.symm ht hj hb hu

/-- A step that nobody notices. -/
theorem Inv.quiet (h : Inv w) (ht : w.threads[i]? = some (r, t)) {p : Point}
    (hlike : p.Like t.point) (hpool : c'.pool = w.shared.pool) (hlocked : c'.locked = w.shared.locked)
    (trace : List (Nat × Unit)) : Inv ⟨c', w.threads.set i (r, t.at p), trace⟩ := by
  obtain ⟨hholds, hborrows, hest⟩ := hlike
  refine h.moved (t.at p) ?_ ?_ ?_ ?_ trace
  · intro hp
    rw [hlocked]
    exact h.locked i r t ht (hholds ▸ hp)
  · intro hp
    obtain ⟨huse, hseen⟩ := h.borrowed ht (hborrows ▸ hp)
    exact ⟨huse.congr hpool, (contextOf_congr hpool _).trans hseen⟩
  · intro j op u hne hj hu
    refine ⟨hlocked.trans (h.locked j op u hj hu), ?_, fun hp => ?_⟩
    · cases hp : p.holds with
      | false => exact hp
      | true => exact absurd hu (h.only ht (hholds ▸ hp) j op u hne hj)
    · obtain ⟨hnone, hfree⟩ := h.alone j i op r u t hne hj ht hu (hborrows ▸ hp)
      exact ⟨(h.borrowed ht (hborrows ▸ hp)).2.symm.trans hnone, hfree⟩
  · intro j op u hne hj hu
    refine ⟨(h.inUse j op u hj hu).congr hpool, contextOf_congr hpool _, fun hp => ?_,
      fun hp => ?_⟩
    · exact h.apart_from ht (hborrows ▸ hp) j op u hne hj hu
    · obtain ⟨hnone, hfree⟩ := h.alone i j r op t u hne.symm ht hj (hholds ▸ hp) hu
      exact ⟨hnone, hest.trans hfree⟩

/-- A connection that nobody has is taken. -/
theorem Inv.take (h : Inv w) {k : Nat} {connection : Connection} (hlocked : w.shared.locked = false)
    (hk : w.shared.pool[k]? = some connection) (huse : connection.inUse = false)
    (trace : List (Nat × Unit)) :
    Inv ⟨w.shared.setInUse k true,
      w.threads.set i (r, ⟨.send, k, connection.context⟩), trace⟩ := by
  refine h.moved ⟨.send, k, connection.context⟩ (fun hno => (nomatch hno))
    (fun _ => ⟨inUse_setInUse _ hk, ?_⟩)
    (fun j op u _ hj hu => absurd hu (h.nobody hlocked j op u hj)) ?_ trace
  · rw [contextOf_setInUse]
    unfold Client.contextOf
    rw [hk]
    rfl
  · intro j op u hne hj hu
    have hother := h.inUse j op u hj hu
    have hconn : k ≠ u.conn := by
      rintro rfl
      obtain ⟨connection', hk', huse'⟩ := hother
      rw [hk] at hk'
      cases hk'
      rw [huse] at huse'
      cases huse'
    exact ⟨hother.setInUse_of_ne hconn true, contextOf_setInUse .., fun _ => hconn,
      fun hno => (nomatch hno)⟩

/-- A thread that has locked the mutex writes a context. -/
theorem Inv.write (h : Inv w) (ht : w.threads[i]? = some (r, t)) {p : Point} {k : Nat}
    {context : Option Nat} (hholds : t.point.holds = true) (hlike : p.Like t.point)
    (hnone : t.point.establishes = false → context = none)
    (hpool : c'.pool = (w.shared.setContext k context).pool)
    (hlocked : c'.locked = w.shared.locked) (trace : List (Nat × Unit)) :
    Inv ⟨c', w.threads.set i (r, (t.sees k context).at p), trace⟩ := by
  have hb := borrows_of_holds hholds
  obtain ⟨huse, hseen⟩ := h.borrowed ht hb
  have hconn : (t.sees k context).conn = t.conn := by
    unfold Thread.sees
    split <;> rfl
  refine h.moved ((t.sees k context).at p) ?_ (fun _ => ⟨?_, ?_⟩)
    (fun j op u hne hj hu => absurd hu (h.only ht hholds j op u hne hj)) ?_ trace
  · intro _
    exact hlocked.trans (h.locked i r t ht hholds)
  · show InUse c' (t.sees k context).conn
    rw [hconn]
    exact inUse_setContext huse hpool
  · show c'.contextOf (t.sees k context).conn = (t.sees k context).seen
    rw [hconn, contextOf_setContext huse hpool]
    unfold Thread.sees
    split
    · rfl
    · exact hseen
  · intro j op u hne hj hu
    have hother := h.inUse j op u hj hu
    obtain ⟨hdead, hfree⟩ := h.alone i j r op t u hne.symm ht hj hholds hu
    refine ⟨inUse_setContext hother hpool, ?_, fun _ => ?_, fun _ => ⟨hdead, ?_⟩⟩
    · -- what is written over the other one's null context is null
      rw [contextOf_setContext hother hpool, hnone hfree, hdead]
      exact ite_self _
    · show (t.sees k context).conn ≠ u.conn
      rw [hconn]
      exact h.apart_from ht hb j op u hne hj hu
    · exact hlike.2.2.trans hfree

/-- The step lemma. -/
theorem inv_moves {t' : Thread} (h : Inv w) (ht : w.threads[i]? = some (r, t))
    (hexcluded : w.shared.locked = false → ∀ (j : Nat) (op : Operation) (u : Thread), j ≠ i →
      w.threads[j]? = some (op, u) → u.point.borrows = true →
        (t.point = .disconnectLock → w.shared.contextOf u.conn = none) ∧
        ¬ (t.point = .connectLock ∧ w.shared.running = false ∧ 0 < w.shared.config.maxRetries))
    (hm : Moves t w.shared t' c') (trace : List (Nat × Unit)) :
    Inv ⟨c', w.threads.set i (r, t'), trace⟩ := by
  cases hm with
  | quiet hlike hpool hlocked => exact h.quiet ht hlike hpool hlocked trace
  | take hp hlocked hk huse => exact h.take hlocked hk huse trace
  | lockDisconnect hp hlocked =>
      have hb : t.point.borrows = true := by rw [hp]; rfl
      have hmine := h.borrowed ht hb
      refine h.moved (t.at (.freeing 0)) (fun _ => rfl) (fun _ => ?_)
        (fun j op u _ hj hu => absurd hu (h.nobody hlocked j op u hj)) ?_ trace
      · exact hmine
      intro j op u hne hj hu
      exact ⟨h.inUse j op u hj hu, rfl, fun _ => h.apart_from ht hb j op u hne hj hu,
        fun _ => ⟨(hexcluded hlocked j op u hne hj hu).1 hp, rfl⟩⟩
  | lockConnect hp hlocked hrun hmax =>
      have hb : t.point.borrows = true := by rw [hp]; rfl
      have hmine := h.borrowed ht hb
      refine h.moved (t.at (.establishing 0)) (fun _ => rfl) (fun _ => ?_)
        (fun j op u _ hj hu => absurd hu (h.nobody hlocked j op u hj)) ?_ trace
      · exact hmine
      intro j op u hne hj hu
      exact absurd ⟨hp, hrun, hmax⟩ (hexcluded hlocked j op u hne hj hu).2
  | write hholds hlike hnone hpool hlocked =>
      exact h.write ht hholds hlike hnone hpool hlocked trace
  | @unlock p c' hholds hp hpb hpool hlocked =>
      have hb := borrows_of_holds hholds
      obtain ⟨huse, hseen⟩ := h.borrowed ht hb
      refine h.moved (t.at p) (fun hno => ?_) (fun _ => ?_)
        (fun j op u hne hj hu => absurd hu (h.only ht hholds j op u hne hj)) ?_ trace
      · exact absurd (hp.symm.trans hno) (by decide)
      · exact ⟨huse.congr hpool, (contextOf_congr hpool _).trans hseen⟩
      · intro j op u hne hj hu
        exact ⟨(h.inUse j op u hj hu).congr hpool, contextOf_congr hpool _,
          fun _ => h.apart_from ht hb j op u hne hj hu,
          fun hno => absurd (hp.symm.trans hno) (by decide)⟩
  | giveBack hp =>
      have hb : t.point.borrows = true := by rw [hp]; rfl
      refine h.moved (t.at .done) (fun hno => (nomatch hno)) (fun hno => (nomatch hno)) ?_ ?_
        trace
      · intro j op u hne hj hu
        exact ⟨h.locked j op u hj hu, rfl, fun hno => (nomatch hno)⟩
      · intro j op u hne hj hu
        have hconn := h.apart_from ht hb j op u hne hj hu
        exact ⟨(h.inUse j op u hj hu).setInUse_of_ne hconn false, contextOf_setInUse ..,
          fun hno => (nomatch hno), fun hno => (nomatch hno)⟩

end Step

/-! ## Runs -/

/-- A new operation has nothing yet. -/
theorem inv_spawn {w : World} (h : Inv w) (op : Operation) :
    Inv { w with threads := w.threads ++ [(op, {})] } := by
  have old : ∀ {i : Nat} {r : Operation} {t : Thread},
      (w.threads ++ [(op, ({} : Thread))])[i]? = some (r, t) → t.point.borrows = true →
        w.threads[i]? = some (r, t) :=
    fun hi ht => Interleave.old_of_spawn (p := fun t : Thread => t.point.borrows = true)
      (by decide) hi ht
  refine ⟨fun i r t hi ht => ?_, fun i j r r' t u hi hj ht hu => ?_, fun i r t hi ht => ?_,
    fun i j r r' t u hij hi hj ht hu => ?_, fun i j r r' t u hij hi hj ht hu => ?_,
    fun i r t hi ht => ?_⟩
  · exact h.locked i r t (old hi (borrows_of_holds ht)) ht
  · exact h.single i j r r' t u (old hi (borrows_of_holds ht)) (old hj (borrows_of_holds hu)) ht hu
  · exact h.inUse i r t (old hi ht) ht
  · exact h.apart i j r r' t u hij (old hi ht) (old hj hu) ht hu
  · exact h.alone i j r r' t u hij (old hi (borrows_of_holds ht)) (old hj hu) ht hu
  · exact h.undisturbed i r t (old hi ht) ht

/-- In every run in which nobody else has a connection when a reconnect gets the mutex, no
    borrowed context is freed or replaced by another operation. -/
theorem undisturbed_of_excluded (c : Client) (w : World)
    (hr : system.Reach Excluded (.init c) w) : Undisturbed w := by
  have h : Inv w := by
    refine Interleave.System.Reach.induct Inv ?_ ?_ ?_ hr
    · exact ⟨fun i op t hi => (nomatch hi), fun i j op op' t u hi => (nomatch hi),
        fun i op t hi => (nomatch hi), fun i j op op' t u _ hi => (nomatch hi),
        fun i j op op' t u _ hi => (nomatch hi), fun i op t hi => (nomatch hi)⟩
    · exact fun w op _ h _ => inv_spawn h op
    · exact fun w i op t inp _ h hp hi =>
        inv_moves h hi (hp op t hi) (moves_step t inp w.shared) _
  exact h.undisturbed

/-! ## Two operations -/

/-- Connected, with two connections. -/
def online₂ : Client :=
  (((Client.create { poolSize := 2 }).connect (Client.goodFrom 1)).map Client.Connected.client).getD
    (Client.create { poolSize := 2 })

def get (key : String) : Interleave.Action Operation Input := .spawn (.get (utf8 key))

/-- The thread is about to take the mutex in `disconnect` or in `connect`. -/
def Point.locks : Point → Bool
  | .disconnectLock | .connectLock => true
  | _ => false

/-- The step takes no mutex for a reconnect, or nobody else has a connection. -/
def calm (w : World) : Interleave.Action Operation Input → Bool
  | .spawn _ => true
  | .run i _ => (w.threads[i]?).all (fun x => !x.2.point.locks) ||
      (List.range w.threads.length).all (fun j =>
        j == i || (w.threads[j]?).all (fun x => !x.2.point.borrows))

theorem excluded_of_calm (w : World) (a : Interleave.Action Operation Input)
    (h : calm w a = true) : Excluded w a := by
  cases a with
  | spawn op => trivial
  | run i inp =>
      intro op t ht _ j op' u hj hu hborrows
      rcases Bool.or_eq_true_iff.mp h with hquiet | halone
      · rw [ht] at hquiet
        refine ⟨fun hp => ?_, fun hp => ?_⟩
        · rw [Option.all_some, hp] at hquiet
          cases hquiet
        · rw [Option.all_some, hp.1] at hquiet
          cases hquiet
      · have hlt := (List.getElem?_eq_some_iff.mp hu).1
        have hall := List.all_eq_true.mp halone j (List.mem_range.mpr hlt)
        rw [hu, Option.all_some, hborrows] at hall
        simp [hj] at hall

/-- The first operation loses its command and reconnects while the second one has nothing; then
    the second one gets a connection, beside the first. -/
def inTurn : List (Interleave.Action Operation Input) :=
  [get "a", get "b", .run 0 { found := some 0 }, .run 0 { replied := false }] ++
    List.replicate 10 (.run 0 {}) ++ [.run 1 { found := some 1 }]

theorem undisturbed_of_excluded_pair :
    Undisturbed (inTurn.foldl system.next (.init online₂)) ∧
      ((inTurn.foldl system.next (.init online₂)).threads.map (fun x => x.2.seen)) =
        [some 2, some 3] := by
  have hcalm : system.Meets (fun w a => calm w a = true) (.init online₂) inTurn := by decide
  exact ⟨undisturbed_of_excluded online₂ _
    (.foldl system inTurn .refl (hcalm.mono excluded_of_calm inTurn)), by decide⟩

/-- Two operations have acquired a connection each; the command of the first one is lost, and
    its `disconnect` frees both. -/
def takeover : World :=
  [get "a", get "b", .run 0 { found := some 0 }, .run 1 { found := some 1 },
    .run 0 { replied := false }, .run 0 {}, .run 0 {}, .run 0 {}, .run 0 {}, .run 0 {}].foldl
    system.next (.init online₂)

theorem context_taken : takeover.threads[1]? = some (.get (utf8 "b"), ⟨.send, 1, some 1⟩) ∧
    takeover.shared.contextOf 1 = none ∧ ¬ Undisturbed takeover := by
  have hthread : takeover.threads[1]? = some (.get (utf8 "b"), ⟨.send, 1, some 1⟩) := rfl
  have hnull : takeover.shared.contextOf 1 = none := rfl
  refine ⟨hthread, hnull, fun h => ?_⟩
  have hsame := h 1 _ _ hthread rfl
  rw [hnull] at hsame
  cases hsame

/-- Both lose their command and clear `running_` before either has the mutex; the first one
    reconnects, and then the second one frees what that made. -/
def overlapping : List (Interleave.Action Operation Input) :=
  [get "a", get "b", .run 0 { found := some 0 }, .run 1 { found := some 1 },
    .run 0 { replied := false }, .run 1 { replied := false }, .run 0 {}, .run 1 {}, .run 0 {},
    .run 1 {}] ++ List.replicate 8 (.run 0 {}) ++ List.replicate 4 (.run 1 {})

def overlapped : World := overlapping.foldl system.next (.init online₂)

/-- The client says that it is running, without a context. -/
theorem running_without_contexts : overlapped.shared.running = true ∧
    overlapped.shared.pool.map Connection.context = [none, none] := ⟨rfl, rfl⟩

end Borrow

end MessengerBackend.Redis
