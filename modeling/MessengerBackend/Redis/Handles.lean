/-
  The handles that `acquire_connection` returns, and the deleter that gives them back.

  A handle is the connection it refers to. The scan of `acquire_connection` is one step, since
  it holds `pool_mutex_`, and so is the deleter's write of `in_use`.

  `exclusive_of_reach`: whoever acquires and releases, and in whatever order, `in_use` says which
  connections have a handle, none has two, null means that all have one, and what has come
  back can be had again.
-/
import Mathlib.Data.List.Nodup
import Mathlib.Data.List.Perm.Subperm
import MessengerBackend.Lib.Runs
import MessengerBackend.Redis.Pool

namespace MessengerBackend.Redis

structure Lending where
  client : Client
  /-- The handles that are outstanding, oldest first. -/
  handles : List Nat := []

inductive LendingEvent where
  | acquire
  /-- The last owner of the `j`-th handle lets go of it. -/
  | release (j : Nat)

namespace Lending

/-- `acquire_connection`, with what it returns. -/
def acquire (l : Lending) : Option (Lending × Option Nat) :=
  l.client.acquire.map (fun x => (⟨x.1, l.handles ++ x.2.toList⟩, x.2))

/-- The deleter. -/
def release (j : Nat) (l : Lending) : Option Lending :=
  (l.handles[j]?).map (fun k => ⟨l.client.setInUse k false, l.handles.eraseIdx j⟩)

def step (l : Lending) : LendingEvent → Option Lending
  | .acquire => l.acquire.map Prod.fst
  | .release j => l.release j

def Any (_ : Lending) (_ : LendingEvent) : Prop := True

def start (config : Config) : Lending := ⟨Client.create config, []⟩

/-! ## The property -/

structure Exclusive (config : Config) (l : Lending) : Prop where
  size : l.client.pool.length = config.poolSize.toNat
  inUse : ∀ k connection, l.client.pool[k]? = some connection →
    (connection.inUse = true ↔ l.handles.count k = 1)
  apart : l.handles.Nodup
  /-- `acquire_connection` always comes back. -/
  returns : l.acquire.isSome = true
  /-- Null is returned only when every connection has its handle. -/
  null : ∀ l', l.acquire = some (l', none) →
    l.handles.length = config.poolSize.toNat ∧ ∀ k < config.poolSize.toNat, k ∈ l.handles
  /-- Without handles, as many calls as there are connections return them all. -/
  again : l.handles = [] → ∀ n ≤ config.poolSize.toNat,
    ∃ l', Runs.run step l (List.replicate n .acquire) = some l' ∧ l'.handles = List.range n

/-! ## The invariant -/

structure Inv (config : Config) (l : Lending) : Prop where
  unlocked : l.client.locked = false
  size : l.client.pool.length = config.poolSize.toNat
  inUse : ∀ k connection, l.client.pool[k]? = some connection →
    (connection.inUse = true ↔ k ∈ l.handles)
  apart : l.handles.Nodup
  known : ∀ k ∈ l.handles, k < config.poolSize.toNat

variable {config : Config} {l l' : Lending}

theorem inv_start (config : Config) : Inv config (start config) where
  unlocked := rfl
  size := List.length_replicate
  inUse k connection hk := by
    have hmem := List.mem_of_getElem? hk
    rw [(List.mem_replicate.mp hmem).2]
    simp [start]
  apart := List.nodup_nil
  known k hk := nomatch hk

/-! ## The two operations -/

/-- What a call returns, and what becomes of the pool. -/
theorem acquire_eq (h : Inv config l) :
    l.acquire = match l.client.firstFree with
      | some k => some (⟨l.client.setInUse k true, l.handles ++ [k]⟩, some k)
      | none => some (l, none) := by
  unfold acquire
  rw [Client.acquire_of_unlocked h.unlocked]
  cases l.client.firstFree with
  | some k => rfl
  | none =>
      obtain ⟨client, handles⟩ := l
      simp

theorem getElem?_setInUse {c : Client} {k n : Nat} {inUse : Bool} {connection : Connection}
    (h : (c.setInUse k inUse).pool[n]? = some connection) :
    ∃ old, c.pool[n]? = some old ∧ connection.inUse = if n = k then inUse else old.inUse := by
  rw [Client.setInUse, List.getElem?_modify] at h
  obtain ⟨old, hold, rfl⟩ := Option.map_eq_some_iff.mp h
  refine ⟨old, hold, ?_⟩
  by_cases hn : k = n
  · rw [if_pos hn, if_pos hn.symm]
  · rw [if_neg hn, if_neg (Ne.symm hn)]

/-- A connection that is found has no handle. -/
theorem not_mem_of_found (h : Inv config l) {k : Nat}
    (hk : l.client.firstFree = some k) :
    k ∉ l.handles ∧ k < config.poolSize.toNat := by
  obtain ⟨hlt, hfree, _⟩ := List.findIdx?_eq_some_iff_getElem.mp hk
  refine ⟨fun hmem => ?_, h.size ▸ hlt⟩
  rw [(h.inUse k _ (List.getElem?_eq_getElem hlt)).mpr hmem] at hfree
  cases hfree

theorem inv_acquired (h : Inv config l) {k : Nat} (hnew : k ∉ l.handles)
    (hk : k < config.poolSize.toNat) :
    Inv config ⟨l.client.setInUse k true, l.handles ++ [k]⟩ where
  unlocked := h.unlocked
  size := (List.length_modify ..).trans h.size
  inUse n connection hn := by
    obtain ⟨old, hold, huse⟩ := getElem?_setInUse hn
    rw [huse, List.mem_append, List.mem_singleton, ← h.inUse n old hold]
    split <;> simp_all
  apart := List.nodup_append.mpr ⟨h.apart, List.nodup_singleton k, fun a ha b hb => by
    rw [List.mem_singleton.mp hb]
    exact fun heq => hnew (heq ▸ ha)⟩
  known n hn := by
    rcases List.mem_append.mp hn with hn | hn
    · exact h.known n hn
    · exact List.mem_singleton.mp hn ▸ hk

theorem inv_released (h : Inv config l) {j k : Nat} (hj : l.handles[j]? = some k) :
    Inv config ⟨l.client.setInUse k false, l.handles.eraseIdx j⟩ := by
  have hmem : ∀ n, n ∈ l.handles.eraseIdx j ↔ n ∈ l.handles ∧ n ≠ k := by
    intro n
    obtain ⟨hlt, rfl⟩ := List.getElem?_eq_some_iff.mp hj
    rw [← h.apart.erase_getElem j hlt]
    exact h.apart.mem_erase_iff.trans and_comm
  refine ⟨h.unlocked, (List.length_modify ..).trans h.size, ?_, h.apart.eraseIdx j, ?_⟩
  · intro n connection hn
    obtain ⟨old, hold, huse⟩ := getElem?_setInUse hn
    rw [huse, hmem n, ← h.inUse n old hold]
    split <;> simp_all
  · exact fun n hn => h.known n ((hmem n).mp hn).1

/-- The step lemma. -/
theorem inv_step {e : LendingEvent} (h : Inv config l) (hs : l.step e = some l') :
    Inv config l' := by
  cases e with
  | acquire =>
      simp only [step, acquire_eq h] at hs
      split at hs
      · rename_i k hk
        cases hs
        obtain ⟨hnew, hlt⟩ := not_mem_of_found h hk
        exact inv_acquired h hnew hlt
      · cases hs
        exact h
  | release j =>
      obtain ⟨k, hj, rfl⟩ := Option.map_eq_some_iff.mp hs
      exact inv_released h hj

/-! ## Taking them all -/

/-- With the first `n` connections taken, the next one is found. -/
theorem step_acquire_range (h : Inv config l) {n : Nat} (hrange : l.handles = List.range n)
    (hn : n < config.poolSize.toNat) :
    ∃ l', l.step .acquire = some l' ∧ Inv config l' ∧ l'.handles = List.range (n + 1) := by
  have huse : ∀ k (hk : k < l.client.pool.length), (l.client.pool[k]).inUse = true ↔ k < n := by
    intro k hk
    rw [h.inUse k _ (List.getElem?_eq_getElem hk), hrange, List.mem_range]
  have hfound : l.client.firstFree = some n := by
    refine List.findIdx?_eq_some_iff_getElem.mpr ⟨h.size ▸ hn, ?_, fun j hj => ?_⟩
    · simpa using (huse n (h.size ▸ hn)).not.mpr (Nat.lt_irrefl n)
    · simpa using (huse j (by rw [h.size]; omega)).mpr hj
  obtain ⟨hnew, hlt⟩ := not_mem_of_found h hfound
  refine ⟨_, by rw [step, acquire_eq h, hfound]; rfl, inv_acquired h hnew hlt, ?_⟩
  rw [hrange, ← List.range_succ]

theorem run_acquire_range (h : Inv config l) (m : Nat) {n : Nat}
    (hrange : l.handles = List.range n) (hn : n + m ≤ config.poolSize.toNat) :
    ∃ l', Runs.run step l (List.replicate m .acquire) = some l' ∧
      l'.handles = List.range (n + m) := by
  induction m generalizing l n with
  | zero => exact ⟨l, rfl, hrange⟩
  | succ m ih =>
      obtain ⟨l₁, hs, h₁, hrange₁⟩ := step_acquire_range h hrange (by omega)
      obtain ⟨l', hrun, hrange'⟩ := ih h₁ hrange₁ (by omega)
      refine ⟨l', ?_, by rw [hrange']; congr 1; omega⟩
      rw [List.replicate_succ, Runs.run, hs]
      exact hrun

/-! ## Runs -/

theorem Inv.exclusive (h : Inv config l) : Exclusive config l where
  size := h.size
  inUse k connection hk := by
    rw [h.inUse k connection hk]
    exact ⟨List.count_eq_one_of_mem h.apart, fun hone => List.count_pos_iff.mp (by omega)⟩
  apart := h.apart
  returns := by
    rw [acquire_eq h]
    split <;> rfl
  null l' hnull := by
    have hall : ∀ k < config.poolSize.toNat, k ∈ l.handles := by
      intro k hk
      have hlt : k < l.client.pool.length := h.size ▸ hk
      refine (h.inUse k _ (List.getElem?_eq_getElem hlt)).mp ?_
      rw [acquire_eq h] at hnull
      split at hnull
      · cases hnull
      · rename_i hnone
        exact Client.firstFree_eq_none.mp hnone _ (List.getElem_mem hlt)
    have hsub : (List.range config.poolSize.toNat).Subperm l.handles :=
      List.subperm_of_subset List.nodup_range (fun k hk => hall k (List.mem_range.mp hk))
    have hsup : l.handles.Subperm (List.range config.poolSize.toNat) :=
      List.subperm_of_subset h.apart (fun k hk => List.mem_range.mpr (h.known k hk))
    have hle := hsub.length_le
    have hge := hsup.length_le
    rw [List.length_range] at hle hge
    exact ⟨by omega, hall⟩
  again hnil n hn := by
    obtain ⟨l', hrun, hrange⟩ := run_acquire_range h n (n := 0) hnil (by omega)
    exact ⟨l', hrun, by rw [hrange, Nat.zero_add]⟩

/-- Whatever is acquired and released, and in whatever order, borrowing is exclusive. -/
theorem exclusive_of_reach (config : Config) (l : Lending)
    (hr : Runs.Reach step Any (start config) l) : Exclusive config l :=
  (hr.invariant (Inv config) (inv_start config) (fun _ _ _ h _ hs => inv_step h hs)).exclusive

/-- Both connections are taken, and the first one comes back. -/
theorem exclusive_pair : ∃ l, Runs.run step (start { poolSize := 2 })
    [.acquire, .acquire, .release 0] = some l ∧ l.handles = [1] ∧ Exclusive { poolSize := 2 } l :=
  ⟨_, rfl, rfl, exclusive_of_reach { poolSize := 2 } _
    (Runs.Reach.refl.run [.acquire, .acquire, .release 0]
      ⟨trivial, fun _ _ => ⟨trivial, fun _ _ => ⟨trivial, fun _ _ => trivial⟩⟩⟩ rfl)⟩

end Lending

end MessengerBackend.Redis
