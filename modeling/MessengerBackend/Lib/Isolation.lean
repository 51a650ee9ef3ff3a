/-
  Library: what some threads of an interleaving have no influence on.

  `hidden` picks requests. `visible hidden rs as` is the run `as` without the steps of the
  hidden threads (they are started and never move, so that indices stay what they are); `rs`
  are the requests of the threads that are there before it.

  `Unwinding` gathers the conditions on one step: a hidden thread keeps `Hid` and leaves the
  shared state `Alike`; a visible one, in alike states and in positions that are the `Same`,
  ends in alike states and in the same position. `Unwinding.aligned` is the run lemma: the
  two runs end in alike states, with every visible thread in the same position. No condition
  on the run.

  Names nothing of the server.
-/
import MessengerBackend.Lib.Interleave

namespace Interleave

variable {R L S I O : Type}

/-- The run without the steps of the hidden threads. -/
def visible (hidden : R → Bool) : List R → List (Action R I) → List (Action R I)
  | _, [] => []
  | rs, .spawn r :: as => .spawn r :: visible hidden (rs ++ [r]) as
  | rs, .run i inp :: as =>
      if (rs[i]?).any hidden then visible hidden rs as
      else .run i inp :: visible hidden rs as

variable {hidden : R → Bool} {Alike : S → S → Prop} {Hid : R → L → Prop}
  {Same : R → L → L → Prop}

/-- The conditions on one step. -/
structure Unwinding (sys : System R L S I O) (hidden : R → Bool) (Alike : S → S → Prop)
    (Hid : R → L → Prop) (Same : R → L → L → Prop) : Prop where
  hidden_start : ∀ r, hidden r = true → Hid r (sys.start r)
  hidden_step : ∀ r l inp s s', hidden r = true → Hid r l → Alike s s' →
    Alike (sys.step l inp s).1 s' ∧ Hid r (sys.step l inp s).2.1
  visible_start : ∀ r, hidden r = false → Same r (sys.start r) (sys.start r)
  visible_step : ∀ r l l' inp s s', hidden r = false → Same r l l' → Alike s s' →
    Alike (sys.step l inp s).1 (sys.step l' inp s').1 ∧
      Same r (sys.step l inp s).2.1 (sys.step l' inp s').2.1

/-- Two configurations of the same requests that differ in the hidden threads and in what
    `Alike` and `Same` leave open. -/
structure Aligned (hidden : R → Bool) (Alike : S → S → Prop) (Hid : R → L → Prop)
    (Same : R → L → L → Prop) (c c' : Config R L S O) : Prop where
  shared : Alike c.shared c'.shared
  requests : c'.threads.map Prod.fst = c.threads.map Prod.fst
  unseen : ∀ (i : Nat) (r : R) (l : L), c.threads[i]? = some (r, l) → hidden r = true → Hid r l
  seen : ∀ (i : Nat) (r : R) (l l' : L), c.threads[i]? = some (r, l) →
    c'.threads[i]? = some (r, l') → hidden r = false → Same r l l'

theorem Aligned.init {s s' : S} (ha : Alike s s') :
    Aligned hidden Alike Hid Same (Config.init s : Config R L S O) (Config.init s') where
  shared := ha
  requests := rfl
  unseen i r l h := by simp [Config.init] at h
  seen i r l l' h := by simp [Config.init] at h

/-- The requests of a configuration, by index. -/
theorem getElem?_requests (c : Config R L S O) (i : Nat) :
    (c.threads.map Prod.fst)[i]? = (c.threads[i]?).map Prod.fst := List.getElem?_map ..

/-- A step moves a thread along its own request. -/
theorem requests_set {ts : List (R × L)} {i : Nat} {r : R} {l : L} (h : ts[i]? = some (r, l))
    (l' : L) : (ts.set i (r, l')).map Prod.fst = ts.map Prod.fst := by
  have hr : (ts.map Prod.fst)[i]? = some r := by rw [List.getElem?_map, h]; rfl
  obtain ⟨hi, hget⟩ := List.getElem?_eq_some_iff.mp hr
  exact List.map_set.trans ((congrArg _ hget.symm).trans (List.set_getElem_self hi))

/-- The thread of the other configuration at an index. -/
theorem Aligned.counterpart {c c' : Config R L S O} (ha : Aligned hidden Alike Hid Same c c')
    {i : Nat} {r : R} {l : L} (h : c.threads[i]? = some (r, l)) :
    ∃ l', c'.threads[i]? = some (r, l') := by
  have hr : (c'.threads[i]?).map Prod.fst = some r := by
    rw [← getElem?_requests, ha.requests, getElem?_requests, h]
    rfl
  obtain ⟨⟨_, l'⟩, hi, rfl⟩ := Option.map_eq_some_iff.mp hr
  exact ⟨l', hi⟩

theorem Aligned.none {c c' : Config R L S O} (ha : Aligned hidden Alike Hid Same c c') {i : Nat}
    (h : c.threads[i]? = none) : c'.threads[i]? = none := by
  have hr : (c'.threads[i]?).map Prod.fst = Option.none := by
    rw [← getElem?_requests, ha.requests, getElem?_requests, h]
    rfl
  exact Option.map_eq_none_iff.mp hr

section Step

variable {sys : System R L S I O} (u : Unwinding sys hidden Alike Hid Same)
  {c c' : Config R L S O} (ha : Aligned hidden Alike Hid Same c c')
include u ha

/-- A new thread on both sides. -/
theorem Unwinding.aligned_spawn (r : R) :
    Aligned hidden Alike Hid Same (sys.next c (.spawn r)) (sys.next c' (.spawn r)) where
  shared := ha.shared
  requests := by simp [System.next, ha.requests]
  unseen := by
    intro i r' l hi hh
    rcases getElem?_spawn hi with heq | hold
    · cases heq
      exact u.hidden_start _ hh
    · exact ha.unseen i r' l hold hh
  seen := by
    intro i r' l l' hi hi' hv
    have hlen : c'.threads.length = c.threads.length := by
      simpa using congrArg List.length ha.requests
    simp only [System.next] at hi hi'
    rcases Nat.lt_or_ge i c.threads.length with hlt | hge
    · rw [List.getElem?_append_left hlt] at hi
      rw [List.getElem?_append_left (hlen ▸ hlt)] at hi'
      exact ha.seen i r' l l' hi hi' hv
    · rw [List.getElem?_append_right hge] at hi
      rw [List.getElem?_append_right (hlen ▸ hge), hlen] at hi'
      have hnew := hi.symm.trans hi'
      have hthread := List.mem_of_getElem? hi
      cases hnew
      cases List.mem_singleton.mp hthread
      exact u.visible_start _ hv

/-- A hidden thread moves on one side only. -/
theorem Unwinding.aligned_hidden {i : Nat} {r : R} {l : L} (hi : c.threads[i]? = some (r, l))
    (hh : hidden r = true) (inp : I) :
    Aligned hidden Alike Hid Same (sys.next c (.run i inp)) c' := by
  obtain ⟨halike, hhid⟩ := u.hidden_step r l inp _ _ hh (ha.unseen i r l hi hh) ha.shared
  rw [sys.next_run hi]
  refine ⟨halike, ?_, ?_, ?_⟩
  · rw [ha.requests]
    exact (requests_set hi _).symm
  · intro j r' l₁ hj hh'
    rcases getElem?_moved hj with ⟨_, heq⟩ | ⟨_, hold⟩
    · cases heq
      exact hhid
    · exact ha.unseen j r' l₁ hold hh'
  · intro j r' l₁ l₂ hj hj' hv
    rcases getElem?_moved hj with ⟨_, heq⟩ | ⟨_, hold⟩
    · cases heq
      rw [hh] at hv
      cases hv
    · exact ha.seen j r' l₁ l₂ hold hj' hv

/-- A visible thread moves on both. -/
theorem Unwinding.aligned_visible {i : Nat} {r : R} {l : L} (hi : c.threads[i]? = some (r, l))
    (hv : hidden r = false) (inp : I) :
    Aligned hidden Alike Hid Same (sys.next c (.run i inp)) (sys.next c' (.run i inp)) := by
  obtain ⟨l', hi'⟩ := ha.counterpart hi
  obtain ⟨halike, hsame⟩ := u.visible_step r l l' inp _ _ hv (ha.seen i r l l' hi hi' hv) ha.shared
  rw [sys.next_run hi, sys.next_run hi']
  refine ⟨halike, ?_, ?_, ?_⟩
  · exact (requests_set hi' _).trans (ha.requests.trans (requests_set hi _).symm)
  · intro j r' l₁ hj hh
    rcases getElem?_moved hj with ⟨_, heq⟩ | ⟨_, hold⟩
    · cases heq
      rw [hh] at hv
      cases hv
    · exact ha.unseen j r' l₁ hold hh
  · intro j r' l₁ l₂ hj hj' hv'
    rcases getElem?_moved hj with ⟨rfl, heq⟩ | ⟨hne, hold⟩
    · rcases getElem?_moved hj' with ⟨_, heq'⟩ | ⟨hne, _⟩
      · cases heq
        cases heq'
        exact hsame
      · exact absurd rfl hne
    · rcases getElem?_moved hj' with ⟨heq, _⟩ | ⟨_, hold'⟩
      · exact absurd heq hne
      · exact ha.seen j r' l₁ l₂ hold hold' hv'

end Step

/-- The run lemma: without the hidden steps the run ends alike, and so does every visible
    thread. -/
theorem Unwinding.aligned {sys : System R L S I O} (u : Unwinding sys hidden Alike Hid Same)
    (as : List (Action R I)) :
    ∀ {c c' : Config R L S O}, Aligned hidden Alike Hid Same c c' →
      Aligned hidden Alike Hid Same (as.foldl sys.next c)
        ((visible hidden (c.threads.map Prod.fst) as).foldl sys.next c') := by
  induction as with
  | nil => exact fun ha => ha
  | cons a as ih =>
      intro c c' ha
      cases a with
      | spawn r =>
          have hreq : (sys.next c (.spawn r)).threads.map Prod.fst =
              c.threads.map Prod.fst ++ [r] := by simp [System.next]
          have hrest := ih (u.aligned_spawn ha r)
          rw [hreq] at hrest
          exact hrest
      | run i inp =>
          cases hi : c.threads[i]? with
          | none =>
              have hstay := sys.next_run_none hi inp
              have hstay' := sys.next_run_none (ha.none hi) inp
              have hany : ((c.threads.map Prod.fst)[i]?).any hidden = false := by
                rw [getElem?_requests, hi]; rfl
              simp only [visible, hany, List.foldl_cons, hstay]
              rw [if_neg Bool.false_ne_true, List.foldl_cons, hstay']
              exact ih ha
          | some t =>
              obtain ⟨r, l⟩ := t
              have hreq : (sys.next c (.run i inp)).threads.map Prod.fst =
                  c.threads.map Prod.fst := by
                rw [sys.next_run hi]
                exact requests_set hi _
              have hany : ((c.threads.map Prod.fst)[i]?).any hidden = hidden r := by
                rw [getElem?_requests, hi]; rfl
              simp only [visible, hany, List.foldl_cons]
              cases hh : hidden r with
              | true =>
                  have hrest := ih (u.aligned_hidden ha hi hh inp)
                  rwa [hreq] at hrest
              | false =>
                  have hrest := ih (u.aligned_visible ha hi hh inp)
                  rwa [hreq] at hrest

end Interleave
