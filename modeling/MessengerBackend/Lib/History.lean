/-
  Library: what a whole run of an interleaved system amounts to.

  * `Reach.related`: a preorder that each step of a thread stands in, under an invariant of the
    thread, is one that the shared states before and after any run stand in.
  * `log`: the events of a run, by what a step of a thread in a state counts as. `log_replays`:
    if a view of the shared state follows one event, it follows the log.
  * `Runs`: the log is a run of an abstract machine on the view (`log_runs`).
  * `keyed`: for a map whose events have a key each, the log restricted to a key is the
    history of that key (`foldl_keyed`, `runs_keyed`). Written values leave the last one
    (`foldl_write`).
  * `course_concat`: one more step of a thread among others.
  * `rank_run`: a rank that each step of a thread lowers is used up by as many of its turns in
    a run, whatever the other threads do in between. `turn_split`: a condition on its turns
    decides what it ends in. `settled_run`: a thread that has ended stays as it is.
  * `Meets.mono`, `decidableMeets`: conditions on a run.

  Names nothing of the server.
-/
import Mathlib.Data.List.Induction
import Mathlib.Logic.Function.Basic
import MessengerBackend.Lib.Interleave

namespace Interleave

variable {R L S I O E V : Type}

theorem System.course_concat (sys : System R L S I O) (xs : List (S × I)) (x : S × I) :
    ∀ l, (sys.course l (xs ++ [x])).2 = (sys.step (sys.course l xs).2 x.2 x.1).2.1 := by
  induction xs with
  | nil => exact fun l => rfl
  | cons y xs ih => exact fun l => ih _

/-! ## Conditions on a run -/

theorem System.Meets.mono {sys : System R L S I O} {P P' : Config R L S O → Action R I → Prop}
    (h : ∀ c a, P c a → P' c a) (as : List (Action R I)) :
    ∀ {c : Config R L S O}, sys.Meets P c as → sys.Meets P' c as := by
  induction as with
  | nil => exact fun hm => hm
  | cons a as ih => exact fun hm => ⟨h _ a hm.1, ih hm.2⟩

/-- A condition that can be decided can be decided along a run. -/
instance System.decidableMeets (sys : System R L S I O)
    (P : Config R L S O → Action R I → Prop) [∀ c a, Decidable (P c a)] :
    ∀ (c : Config R L S O) (as : List (Action R I)), Decidable (sys.Meets P c as)
  | _, [] => .isTrue trivial
  | c, a :: as =>
      have := System.decidableMeets sys P (sys.next c a) as
      inferInstanceAs (Decidable (P c a ∧ sys.Meets P (sys.next c a) as))

/-! ## Before and after a run -/

/-- Every thread of the table has `K`. -/
def Each (K : R → L → Prop) (ts : List (R × L)) : Prop :=
  ∀ (i : Nat) (r : R) (l : L), ts[i]? = some (r, l) → K r l

theorem each_nil (K : R → L → Prop) : Each K [] := by
  intro i r l h
  simp at h

/-- The rule for a relation between the shared states before and after a run. -/
theorem System.Reach.related {sys : System R L S I O} {P : Config R L S O → Action R I → Prop}
    {c₀ c : Config R L S O} (K : R → L → Prop) (Q : S → S → Prop) (hrefl : ∀ s, Q s s)
    (htrans : ∀ a b d, Q a b → Q b d → Q a d) (h0 : ∀ r, K r (sys.start r))
    (hstep : ∀ (c : Config R L S O) i r l inp, c.threads[i]? = some (r, l) → P c (.run i inp) →
      K r l → K r (sys.step l inp c.shared).2.1 ∧ Q c.shared (sys.step l inp c.shared).1)
    (hc : Each K c₀.threads) (hr : sys.Reach P c₀ c) : Each K c.threads ∧ Q c₀.shared c.shared := by
  refine System.Reach.induct (fun c => Each K c.threads ∧ Q c₀.shared c.shared)
    ⟨hc, hrefl _⟩ ?_ ?_ hr
  · rintro c r _ ⟨hk, hq⟩ _
    exact ⟨each_spawned hk (h0 r), hq⟩
  · rintro c i r l inp _ ⟨hk, hq⟩ hp ht
    obtain ⟨hown, hstep⟩ := hstep c i r l inp ht hp (hk i r l ht)
    exact ⟨each_moved hk (fun _ _ h => h) hown, htrans _ _ _ hq hstep⟩

theorem System.each_next (sys : System R L S I O) {K : R → L → Prop}
    (h0 : ∀ r, K r (sys.start r)) (hkeep : ∀ r l inp s, K r l → K r (sys.step l inp s).2.1)
    {c : Config R L S O} (hc : Each K c.threads) (a : Action R I) :
    Each K (sys.next c a).threads :=
  (System.Reach.related K (fun _ _ => True) (fun _ => trivial) (fun _ _ _ _ _ => trivial) h0
    (fun c _ r l inp _ _ hk => ⟨hkeep r l inp c.shared hk, trivial⟩) hc
    (System.Reach.refl.next (P := fun _ _ => True) a trivial)).1

/-! ## The log of a run -/

/-- What an action counts as, if a step of thread `l` in a state counts as `label`. -/
def System.events (label : L → I → S → List E) (c : Config R L S O) : Action R I → List E
  | .spawn _ => []
  | .run i inp =>
      match c.threads[i]? with
      | none => []
      | some x => label x.2 inp c.shared

def System.log (sys : System R L S I O) (label : L → I → S → List E) :
    Config R L S O → List (Action R I) → List E
  | _, [] => []
  | c, a :: as => System.events label c a ++ System.log sys label (sys.next c a) as

/-- One action. -/
theorem System.events_replays {sys : System R L S I O} {label : L → I → S → List E}
    {view : S → V} {apply : V → E → V} {K : R → L → Prop}
    (hstep : ∀ r l inp s, K r l →
      view (sys.step l inp s).1 = (label l inp s).foldl apply (view s))
    {c : Config R L S O} (hc : Each K c.threads) (a : Action R I) :
    view (sys.next c a).shared = (System.events label c a).foldl apply (view c.shared) := by
  cases a with
  | spawn r => rfl
  | run i inp =>
      cases ht : c.threads[i]? with
      | none =>
          rw [sys.next_run_none ht]
          simp only [System.events, ht]
          rfl
      | some x =>
          rw [sys.next_run ht]
          simp only [System.events, ht]
          exact hstep x.1 x.2 inp c.shared (hc i x.1 x.2 ht)

/-- The run lemma: a view that follows the events of each step follows the log. -/
theorem System.log_replays {sys : System R L S I O} {label : L → I → S → List E}
    (view : S → V) {apply : V → E → V} {K : R → L → Prop} (h0 : ∀ r, K r (sys.start r))
    (hkeep : ∀ r l inp s, K r l → K r (sys.step l inp s).2.1)
    (hstep : ∀ r l inp s, K r l →
      view (sys.step l inp s).1 = (label l inp s).foldl apply (view s))
    (as : List (Action R I)) :
    ∀ c : Config R L S O, Each K c.threads →
      view (as.foldl sys.next c).shared = (sys.log label c as).foldl apply (view c.shared) := by
  induction as with
  | nil => exact fun c _ => rfl
  | cons a as ih =>
      intro c hc
      have hnext : Each K (sys.next c a).threads := sys.each_next h0 hkeep hc a
      show view (as.foldl sys.next (sys.next c a)).shared =
        (System.events label c a ++ sys.log label (sys.next c a) as).foldl apply (view c.shared)
      rw [ih _ hnext, List.foldl_append, System.events_replays hstep hc]

/-! ## The turns of a thread -/

/-- The action is a step of thread `i`. -/
def Action.isTurn (i : Nat) : Action R I → Bool
  | .spawn _ => false
  | .run j _ => j == i

/-- How many steps a run gives to thread `i`. -/
def turns (i : Nat) (as : List (Action R I)) : Nat := as.countP (Action.isTurn i)

section Turns

variable {sys : System R L S I O} {c : Config R L S O} {i : Nat} {r : R} {l : L}

/-- An action is a step of the thread, or leaves it where it is. -/
theorem System.thread_next (h : c.threads[i]? = some (r, l)) (a : Action R I) :
    (a.isTurn i = false ∧ (sys.next c a).threads[i]? = some (r, l)) ∨
      ∃ inp, a = .run i inp ∧
        (sys.next c a).threads[i]? = some (r, (sys.step l inp c.shared).2.1) := by
  obtain ⟨hi, _⟩ := List.getElem?_eq_some_iff.mp h
  cases a with
  | spawn r' => exact Or.inl ⟨rfl, (List.getElem?_append_left hi).trans h⟩
  | run j inp =>
      by_cases hj : j = i
      · subst hj
        refine Or.inr ⟨inp, rfl, ?_⟩
        rw [sys.next_run h]
        exact List.getElem?_set_self hi
      · refine Or.inl ⟨beq_false_of_ne hj, ?_⟩
        cases ht : c.threads[j]? with
        | none => rwa [sys.next_run_none ht]
        | some x =>
            rw [sys.next_run ht]
            exact (List.getElem?_set_ne hj).trans h

theorem System.rank_run {rank : L → Nat}
    (hstep : ∀ l inp s, rank (sys.step l inp s).2.1 ≤ rank l - 1) (as : List (Action R I)) :
    ∀ {c : Config R L S O} {l : L}, c.threads[i]? = some (r, l) →
      ∃ l', (as.foldl sys.next c).threads[i]? = some (r, l') ∧ rank l' ≤ rank l - turns i as := by
  induction as with
  | nil => exact fun h => ⟨_, h, Nat.le_refl _⟩
  | cons a as ih =>
      intro c l h
      have hturns : turns i (a :: as) = turns i as + if a.isTurn i then 1 else 0 :=
        List.countP_cons
      rcases sys.thread_next h a with ⟨hother, hnext⟩ | ⟨inp, rfl, hnext⟩
      · obtain ⟨l', hl', hrank⟩ := ih hnext
        rw [hother] at hturns
        exact ⟨l', hl', by rw [hturns]; exact hrank⟩
      · obtain ⟨l', hl', hrank⟩ := ih hnext
        have hless := hstep l inp c.shared
        rw [if_pos (show Action.isTurn i (.run i inp) = true from beq_self_eq_true i)] at hturns
        exact ⟨l', hl', by omega⟩

/-- A turn of thread `i` meets `P`. -/
def OwnTurn (P : L → I → S → Prop) (i : Nat) (c : Config R L S O) : Action R I → Prop
  | .spawn _ => True
  | .run j inp => j = i → ∀ x ∈ c.threads[j]?, P x.2 inp c.shared

instance (P : L → I → S → Prop) [∀ l inp s, Decidable (P l inp s)] (i : Nat) (c : Config R L S O)
    (a : Action R I) : Decidable (OwnTurn P i c a) :=
  match a with
  | .spawn _ => inferInstanceAs (Decidable True)
  | .run j inp => inferInstanceAs (Decidable (j = i → ∀ x ∈ c.threads[j]?, P x.2 inp c.shared))

theorem ownTurn_of_other {P : L → I → S → Prop} {a : Action R I} (h : a.isTurn i = false) :
    OwnTurn P i c a := by
  cases a with
  | spawn r' => trivial
  | run j inp => exact fun hj => absurd hj (ne_of_beq_false h)

theorem ownTurn_run {P : L → I → S → Prop} (h : c.threads[i]? = some (r, l)) (inp : I) :
    OwnTurn P i c (.run i inp) ↔ P l inp c.shared := by
  refine ⟨fun hturn => hturn rfl _ h, fun hp _ x hx => ?_⟩
  obtain rfl := Option.some.inj (h.symm.trans hx)
  exact hp

/-- What no turn of the thread undoes. -/
theorem System.forever_run {B : L → Prop}
    (hstays : ∀ l inp s, B l → B (sys.step l inp s).2.1) (as : List (Action R I)) :
    ∀ {c : Config R L S O} {l : L}, c.threads[i]? = some (r, l) → B l →
      ∃ l', (as.foldl sys.next c).threads[i]? = some (r, l') ∧ B l' := by
  induction as with
  | nil => exact fun h hl => ⟨_, h, hl⟩
  | cons a as ih =>
      intro c l h hl
      rcases sys.thread_next h a with ⟨_, hnext⟩ | ⟨inp, _, hnext⟩
      · exact ih hnext hl
      · exact ih hnext (hstays l inp c.shared hl)

/-- Turns that meet `P` keep `K`; the first one that does not ends in `B`, for good. -/
theorem System.turn_split {P : L → I → S → Prop} {K B : L → Prop}
    (hstep : ∀ l inp s, K l → P l inp s → K (sys.step l inp s).2.1)
    (hbad : ∀ l inp s, K l → ¬ P l inp s → B (sys.step l inp s).2.1)
    (hstays : ∀ l inp s, B l → B (sys.step l inp s).2.1) (as : List (Action R I)) :
    ∀ {c : Config R L S O} {l : L}, c.threads[i]? = some (r, l) → K l →
      ∃ l', (as.foldl sys.next c).threads[i]? = some (r, l') ∧
        ((sys.Meets (OwnTurn P i) c as ∧ K l') ∨ (¬ sys.Meets (OwnTurn P i) c as ∧ B l')) := by
  induction as with
  | nil => exact fun h hl => ⟨_, h, Or.inl ⟨trivial, hl⟩⟩
  | cons a as ih =>
      intro c l h hl
      have hgood : OwnTurn P i c a → (∀ l₁, (sys.next c a).threads[i]? = some (r, l₁) → K l₁) →
          ∃ l', ((a :: as).foldl sys.next c).threads[i]? = some (r, l') ∧
            ((sys.Meets (OwnTurn P i) c (a :: as) ∧ K l') ∨
              (¬ sys.Meets (OwnTurn P i) c (a :: as) ∧ B l')) := by
        intro hturn hk
        obtain ⟨l₁, hnext⟩ : ∃ l₁, (sys.next c a).threads[i]? = some (r, l₁) := by
          rcases sys.thread_next h a with ⟨_, hnext⟩ | ⟨_, _, hnext⟩
          · exact ⟨_, hnext⟩
          · exact ⟨_, hnext⟩
        obtain ⟨l', hl', hcases⟩ := ih hnext (hk l₁ hnext)
        refine ⟨l', hl', hcases.imp (fun hm => ⟨⟨hturn, hm.1⟩, hm.2⟩) ?_⟩
        exact fun hm => ⟨fun hall => hm.1 hall.2, hm.2⟩
      rcases sys.thread_next h a with ⟨hother, hnext⟩ | ⟨inp, rfl, hnext⟩
      · refine hgood (ownTurn_of_other hother) (fun l₁ hl₁ => ?_)
        cases hnext.symm.trans hl₁
        exact hl
      · by_cases hp : P l inp c.shared
        · refine hgood ((ownTurn_run h inp).mpr hp) (fun l₁ hl₁ => ?_)
          cases hnext.symm.trans hl₁
          exact hstep l inp c.shared hl hp
        · obtain ⟨l', hl', hb⟩ := sys.forever_run hstays as hnext (hbad l inp c.shared hl hp)
          exact ⟨l', hl', Or.inr ⟨fun hall => hp ((ownTurn_run h inp).mp hall.1), hb⟩⟩

theorem System.settled_run (hl : ∀ inp s, (sys.step l inp s).2.1 = l) (as : List (Action R I)) :
    ∀ {c : Config R L S O}, c.threads[i]? = some (r, l) →
      (as.foldl sys.next c).threads[i]? = some (r, l) := by
  induction as with
  | nil => exact fun h => h
  | cons a as ih =>
      intro c h
      rcases sys.thread_next h a with ⟨_, hnext⟩ | ⟨inp, _, hnext⟩
      · exact ih hnext
      · rw [hl] at hnext
        exact ih hnext

end Turns

/-! ## A machine that allows the log -/

/-- Every event of the list is allowed where it happens. -/
def Runs (ok : V → E → Prop) (apply : V → E → V) : V → List E → Prop
  | _, [] => True
  | v, e :: es => ok v e ∧ Runs ok apply (apply v e) es

section Runs

variable {ok : V → E → Prop} {apply : V → E → V}

theorem runs_append (es fs : List E) : ∀ v, Runs ok apply v (es ++ fs) ↔
    Runs ok apply v es ∧ Runs ok apply (es.foldl apply v) fs := by
  induction es with
  | nil => exact fun v => ⟨fun h => ⟨trivial, h⟩, And.right⟩
  | cons e es ih =>
      intro v
      rw [List.cons_append]
      exact (and_congr_right (fun _ => ih _)).trans and_assoc.symm

/-- If what each step does is a run of the machine on the view, the log is one. -/
theorem System.log_runs {sys : System R L S I O} {label : L → I → S → List E} (view : S → V)
    {K : R → L → Prop} (h0 : ∀ r, K r (sys.start r))
    (hkeep : ∀ r l inp s, K r l → K r (sys.step l inp s).2.1)
    (hstep : ∀ r l inp s, K r l →
      view (sys.step l inp s).1 = (label l inp s).foldl apply (view s))
    (hruns : ∀ r l inp s, K r l → Runs ok apply (view s) (label l inp s))
    (as : List (Action R I)) :
    ∀ c : Config R L S O, Each K c.threads →
      Runs ok apply (view c.shared) (sys.log label c as) := by
  induction as with
  | nil => exact fun c _ => trivial
  | cons a as ih =>
      intro c hc
      have hnext : Each K (sys.next c a).threads := sys.each_next h0 hkeep hc a
      refine (runs_append _ _ _).mpr ⟨?_, ?_⟩
      · cases a with
        | spawn r => trivial
        | run i inp =>
            cases ht : c.threads[i]? with
            | none => simp only [System.events, ht]; trivial
            | some x =>
                simp only [System.events, ht]
                exact hruns x.1 x.2 inp c.shared (hc i x.1 x.2 ht)
      · rw [← System.events_replays hstep hc]
        exact ih _ hnext

end Runs

/-! ## Events of one key -/

section Keyed

variable {κ ν : Type} [DecidableEq κ]

/-- An event of a key does what `f` says to the value there. -/
def keyed (f : ν → E → ν) (m : κ → ν) (e : κ × E) : κ → ν := Function.update m e.1 (f (m e.1) e.2)

theorem keyed_self (f : ν → E → ν) (m : κ → ν) (e : κ × E) : keyed f m e e.1 = f (m e.1) e.2 :=
  Function.update_self e.1 _ m

theorem keyed_of_ne {k : κ} {e : κ × E} (h : k ≠ e.1) (f : ν → E → ν) (m : κ → ν) :
    keyed f m e k = m k := Function.update_of_ne h _ m

/-- The events of a key. -/
def eventsAt (k : κ) (es : List (κ × E)) : List E := (es.filter (fun e => e.1 = k)).map Prod.snd

theorem eventsAt_cons (k : κ) (e : κ × E) (es : List (κ × E)) :
    eventsAt k (e :: es) = if e.1 = k then e.2 :: eventsAt k es else eventsAt k es := by
  unfold eventsAt
  by_cases hk : e.1 = k
  · rw [List.filter_cons_of_pos (by simpa using hk), if_pos hk, List.map_cons]
  · rw [List.filter_cons_of_neg (by simpa using hk), if_neg hk]

theorem foldl_keyed (f : ν → E → ν) (k : κ) (es : List (κ × E)) :
    ∀ m : κ → ν, es.foldl (keyed f) m k = (eventsAt k es).foldl f (m k) := by
  induction es with
  | nil => exact fun m => rfl
  | cons e es ih =>
      intro m
      rw [List.foldl_cons, ih, eventsAt_cons]
      by_cases hk : e.1 = k
      · subst hk
        rw [if_pos rfl, keyed_self, List.foldl_cons]
      · rw [if_neg hk, keyed_of_ne (Ne.symm hk)]

/-- A run over all keys is a run at each. -/
theorem runs_keyed {ok : ν → E → Prop} {f : ν → E → ν} (k : κ) (es : List (κ × E)) :
    ∀ m : κ → ν, Runs (fun m e => ok (m e.1) e.2) (keyed f) m es →
      Runs ok f (m k) (eventsAt k es) := by
  induction es with
  | nil => exact fun m _ => trivial
  | cons e es ih =>
      rintro m ⟨hok, hrest⟩
      have htail := ih _ hrest
      rw [eventsAt_cons]
      by_cases hk : e.1 = k
      · subst hk
        rw [if_pos rfl]
        rw [keyed_self] at htail
        exact ⟨hok, htail⟩
      · rw [if_neg hk]
        rwa [keyed_of_ne (Ne.symm hk)] at htail

/-- Writing one key. -/
def write : (κ → ν) → κ × ν → κ → ν := keyed (fun _ v => v)

theorem write_self (m : κ → ν) (k : κ) (v : ν) : write m (k, v) k = v :=
  keyed_self (fun _ v => v) m (k, v)

theorem write_of_ne {k k' : κ} (h : k' ≠ k) (m : κ → ν) (v : ν) : write m (k, v) k' = m k' :=
  keyed_of_ne (e := (k, v)) h _ m

/-- The last value written to `k`, if there is one. -/
def lastWrite (k : κ) (ws : List (κ × ν)) : Option ν := (eventsAt k ws).getLast?

theorem foldl_write (m : κ → ν) (ws : List (κ × ν)) (k : κ) :
    ws.foldl write m k = (lastWrite k ws).getD (m k) := by
  rw [write, foldl_keyed, lastWrite]
  generalize eventsAt k ws = vs
  induction vs using List.reverseRecOn with
  | nil => rfl
  | append_singleton vs v _ => rw [List.foldl_concat, List.getLast?_concat]; rfl

end Keyed

end Interleave
