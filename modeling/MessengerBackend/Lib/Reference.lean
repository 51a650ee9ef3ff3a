/-
  Library: foreign keys, and rows that outlive the statements of a run.

  `Kept same t u` says that each row of `t` is still in `u`, up to `same`: with equality of a
  key it is what a REFERENCES clause needs of the table it points to, with equality of more
  columns it says which columns nobody changes. Each statement of `Table` has a lemma
  (`Kept.insert`, `Kept.modify`, `Kept.update`), and `trans` chains them.

  `References t f u key` is the clause itself: where `f` is not NULL, it is the key of a row
  of `u`. A statement keeps it if it checks the row it adds and keeps the rows pointed to.

  `lookup_insert` and `lookup_erase_and` say what is found under a key after a statement.
  Names nothing of the server.
-/
import MessengerBackend.Lib.Table

namespace Table

variable {α β κ : Type} [Keyed α] [Keyed β]

theorem mem_update {t u : Table α} {p : α → Bool} {f : α → α} (h : t.update p f = some u) {b : α} :
    b ∈ u ↔ ∃ a ∈ t, (if p a then f a else a) = b := by
  unfold update at h
  split at h
  · cases h
    exact List.mem_map
  · cases h

/-- An UPDATE of rows that the clause does not meet, before or after. -/
theorem select_modify_of_disjoint {t : Table α} {p q : α → Bool} {f : α → α}
    (hf : ∀ a b, Keyed.clash (f a) b = Keyed.clash a b) (hq : ∀ a, q (f a) = q a)
    (h : ∀ a, p a = true → q a = false) : (t.modify p f hf).select q = t.select q := by
  unfold select modify
  rw [List.filter_map]
  have hsame : ∀ a, q (if p a then f a else a) = q a := by
    intro a
    split
    · exact hq a
    · rfl
  have hfilter : t.rows.filter (q ∘ fun a => if p a then f a else a) = t.rows.filter q :=
    List.filter_congr (fun a _ => hsame a)
  rw [hfilter]
  refine (List.map_congr_left (fun a ha => ?_)).trans (List.map_id _)
  by_cases hp : p a = true
  · have hno := h a hp
    rw [(List.mem_filter.mp ha).2] at hno
    cases hno
  · rw [if_neg hp]
    rfl

section Lookup

variable {key : α → κ} [DecidableEq κ] {t u : Table α} {a : α}
  (hkey : ∀ a b : α, Keyed.clash a b = (key a == key b))
include hkey

/-- The rows that are there decide what is found. -/
theorem lookup_eq_some {k : κ} : t.lookup key k = some a ↔ a ∈ t ∧ key a = k := by
  refine ⟨fun h => ⟨mem_of_lookup h, key_of_lookup h⟩, ?_⟩
  rintro ⟨ha, rfl⟩
  exact lookup_of_mem hkey ha

theorem lookup_insert (h : t.insert a = some u) (k : κ) :
    u.lookup key k = if k = key a then some a else t.lookup key k := by
  ext b
  rw [lookup_eq_some hkey, mem_insert h]
  split
  · rename_i hk
    rw [Option.some.injEq]
    constructor
    · rintro ⟨hold | rfl, hbk⟩
      · have hfresh := insert_fresh h b hold
        rw [hkey, hbk, hk] at hfresh
        simp at hfresh
      · rfl
    · rintro rfl
      exact ⟨Or.inr rfl, hk.symm⟩
  · rename_i hk
    rw [lookup_eq_some hkey]
    constructor
    · rintro ⟨hold | rfl, hbk⟩
      · exact ⟨hold, hbk⟩
      · exact absurd hbk.symm hk
    · exact fun hb => ⟨Or.inl hb.1, hb.2⟩

/-- DELETE with a condition next to the key. -/
theorem lookup_erase_and (q : α → Bool) (k k' : κ) :
    (t.erase (fun b => key b == k && q b)).lookup key k' =
      if k' = k then (t.lookup key k').filter (fun b => !q b) else t.lookup key k' := by
  ext b
  rw [lookup_eq_some hkey, mem_erase]
  split
  · rename_i hk
    rw [Option.filter_eq_some_iff, lookup_eq_some hkey]
    constructor
    · rintro ⟨⟨hb, hno⟩, hbk⟩
      refine ⟨⟨hb, hbk⟩, ?_⟩
      simpa [hbk, hk] using hno
    · rintro ⟨⟨hb, hbk⟩, hno⟩
      exact ⟨⟨hb, by simpa [hbk, hk] using hno⟩, hbk⟩
  · rename_i hk
    rw [lookup_eq_some hkey]
    constructor
    · exact fun h => ⟨h.1.1, h.2⟩
    · rintro ⟨hb, rfl⟩
      exact ⟨⟨hb, by simp [hk]⟩, rfl⟩

end Lookup

theorem nodup_rows (hrefl : ∀ a : α, Keyed.clash a a = true) (t : Table α) : t.rows.Nodup := by
  refine t.distinct.imp (fun {a b} hab heq => ?_)
  rw [heq, hrefl] at hab
  cases hab

/-! ## Rows that stay -/

def Kept (same : α → α → Prop) (t u : Table α) : Prop := ∀ a ∈ t, ∃ b ∈ u, same a b

namespace Kept

variable {same : α → α → Prop} {t u v : Table α}

theorem trans (h : ∀ a b c, same a b → same b c → same a c) (htu : Kept same t u)
    (huv : Kept same u v) : Kept same t v := by
  intro a ha
  obtain ⟨b, hb, hab⟩ := htu a ha
  obtain ⟨c, hc, hbc⟩ := huv b hb
  exact ⟨c, hc, h a b c hab hbc⟩

theorem insert (h : ∀ a, same a a) {a : α} (hins : t.insert a = some u) : Kept same t u :=
  fun b hb => ⟨b, (mem_insert hins).mpr (Or.inl hb), h b⟩

theorem modify {p : α → Bool} {f : α → α} (hf : ∀ a b, Keyed.clash (f a) b = Keyed.clash a b)
    (h : ∀ a, same a a) (hsame : ∀ a, same a (f a)) : Kept same t (t.modify p f hf) := by
  intro a ha
  refine ⟨_, (mem_modify hf).mpr ⟨a, ha, rfl⟩, ?_⟩
  split
  · exact hsame a
  · exact h a

/-- An UPDATE: what it does to the rows it selects is `same`. -/
theorem update {p : α → Bool} {f : α → α} (h : ∀ a, same a a)
    (hsame : ∀ a ∈ t, p a = true → same a (f a)) (hupd : t.update p f = some u) :
    Kept same t u := by
  intro a ha
  refine ⟨_, (mem_update hupd).mpr ⟨a, ha, rfl⟩, ?_⟩
  split
  · rename_i hp
    exact hsame a ha hp
  · exact h a

end Kept

/-! ## REFERENCES -/

def References (t : Table α) (f : α → Option κ) (u : Table β) (key : β → κ) : Prop :=
  ∀ a ∈ t, ∀ k, f a = some k → ∃ b ∈ u, key b = k

namespace References

variable {t t' : Table α} {u u' : Table β} {f : α → Option κ} {key : β → κ}

/-- A statement on the table that is pointed to. -/
theorem target (h : References t f u key) (hk : Kept (fun a b => key b = key a) u u') :
    References t f u' key := by
  intro a ha k hf
  obtain ⟨b, hb, rfl⟩ := h a ha k hf
  exact hk b hb

/-- A statement on the table that points: each of its rows is new and checked, or an old one. -/
theorem source (h : References t f u key)
    (hrow : ∀ a ∈ t', (∃ b ∈ t, f b = f a) ∨ ∀ k, f a = some k → ∃ b ∈ u, key b = k) :
    References t' f u key := by
  intro a ha k hf
  rcases hrow a ha with ⟨b, hb, hfb⟩ | hnew
  · exact h b hb k (hfb.trans hf)
  · exact hnew k hf

theorem insert (h : References t f u key) {a : α} (hins : t.insert a = some t')
    (ha : ∀ k, f a = some k → ∃ b ∈ u, key b = k) : References t' f u key := by
  refine h.source (fun b hb => ?_)
  rcases (mem_insert hins).mp hb with hold | rfl
  · exact Or.inl ⟨b, hold, rfl⟩
  · exact Or.inr ha

theorem modify (h : References t f u key) {p : α → Bool} {g : α → α}
    (hg : ∀ a b, Keyed.clash (g a) b = Keyed.clash a b) (hf : ∀ a, f (g a) = f a) :
    References (t.modify p g hg) f u key := by
  refine h.source (fun b hb => ?_)
  obtain ⟨a, ha, rfl⟩ := (mem_modify hg).mp hb
  refine Or.inl ⟨a, ha, ?_⟩
  split
  · exact (hf a).symm
  · rfl

theorem erase (h : References t f u key) (p : α → Bool) : References (t.erase p) f u key :=
  h.source (fun b hb => Or.inl ⟨b, (mem_erase.mp hb).1, rfl⟩)

theorem empty (f : α → Option κ) (u : Table β) (key : β → κ) :
    References (Table.empty : Table α) f u key := fun _ ha => absurd ha List.not_mem_nil

end References

end Table
