/-
  What becomes of a command on its way through `redisCommand`.

  A command is its arguments with spaces between them, and `redisCommand` takes it as a format.
  So an argument is split at its spaces and lost if it is empty, a NUL ends the whole, and a
  '%' begins a directive, unless it is the last byte (`literal`). A directive other than `%%`
  asks for an argument, and none is passed.

  * `Arrives`: the condition on the arguments under which they come out as they went in.
  * `encodes_iff`: it is exact, for every operation that sends a text.
  * `Call.operation`: the calls of `MessengerServer` are such operations.
-/
import MessengerBackend.Redis.Operation

namespace MessengerBackend.Redis

/-! ## Directives -/

/-- What a format stands for when no argument follows it: `%%` is one '%', and a '%' at the end
    is itself. Nothing, if another directive asks for an argument. -/
def literal : Bytes → Option Bytes
  | [] => some []
  | [b] => some [b]
  | b :: c :: s =>
      if b = 37 then
        if c = 37 then (literal s).map (37 :: ·) else none
      else (literal (c :: s)).map (b :: ·)

theorem literal_of_not_mem {s : Bytes} (h : (37 : UInt8) ∉ s.dropLast) : literal s = some s := by
  fun_induction literal s with
  | case1 => rfl
  | case2 b => rfl
  | case3 s ih => simp at h
  | case4 c s hc => simp at h
  | case5 b c s hb ih =>
      rw [ih (fun h37 => h (List.mem_cons_of_mem b h37))]
      rfl

theorem literal_sublist {s t : Bytes} (h : literal s = some t) : t.Sublist s := by
  fun_induction literal s generalizing t with
  | case1 =>
      cases h
      exact List.Sublist.slnil
  | case2 b =>
      cases h
      exact List.Sublist.refl _
  | case3 s ih =>
      obtain ⟨u, hu, rfl⟩ := Option.map_eq_some_iff.mp h
      exact ((ih hu).cons 37).cons_cons 37
  | case4 c s hc => cases h
  | case5 b c s hb ih =>
      obtain ⟨u, hu, rfl⟩ := Option.map_eq_some_iff.mp h
      exact (ih hu).cons_cons b

/-- A directive costs a '%'. -/
theorem count_literal {s t : Bytes} (h : literal s = some t) (h37 : (37 : UInt8) ∈ s.dropLast) :
    t.count 37 < s.count 37 := by
  fun_induction literal s generalizing t with
  | case1 => cases h37
  | case2 b => cases h37
  | case3 s ih =>
      obtain ⟨u, hu, rfl⟩ := Option.map_eq_some_iff.mp h
      have hle := (literal_sublist hu).count_le 37
      simp only [List.count_cons_self]
      omega
  | case4 c s hc => cases h
  | case5 b c s hb ih =>
      obtain ⟨u, hu, rfl⟩ := Option.map_eq_some_iff.mp h
      rcases List.mem_cons.mp h37 with heq | h37
      · exact absurd heq.symm hb
      · simpa [List.count_cons, hb] using ih hu h37

/-- What is documented of a format without arguments. Of one that asks for an argument nothing
    is: `redisCommand` then reads one that has not been passed. -/
def Hiredis.Directives (hiredis : Hiredis) : Prop :=
  ∀ s t : Bytes, (0 : UInt8) ∉ s → literal s = some t → hiredis.args s = some (words t)

/-- Every directive that asks for an argument is a format error. -/
def Hiredis.strict : Hiredis where
  args s := (literal s).map words
  documented s h := by
    have h37 : (37 : UInt8) ∉ s.dropLast := fun h37 => (h 37 (List.dropLast_subset s h37)).1 rfl
    rw [literal_of_not_mem h37]
    rfl

theorem Hiredis.strict_directives : Hiredis.strict.Directives :=
  fun _ _ _ ht => congrArg (Option.map words) ht

/-! ## Arguments -/

/-- Nonempty, without space and NUL, and no '%' before the last byte of all. -/
def Arrives (ws : List Bytes) : Prop :=
  (∀ w ∈ ws, w ≠ [] ∧ (32 : UInt8) ∉ w ∧ (0 : UInt8) ∉ w) ∧
    (37 : UInt8) ∉ ([32].intercalate ws).dropLast

instance (ws : List Bytes) : Decidable (Arrives ws) := inferInstanceAs (Decidable (_ ∧ _))

/-- The command has a directive that asks for an argument. -/
def Wanting (ws : List Bytes) : Prop := literal (cut ([32].intercalate ws)) = none

instance (ws : List Bytes) : Decidable (Wanting ws) := inferInstanceAs (Decidable (_ = none))

theorem zero_not_mem_cut (bs : Bytes) : (0 : UInt8) ∉ cut bs := by
  intro h0
  have h := List.mem_takeWhile_imp h0
  simp at h

/-- Between the spaces there are the words. -/
theorem filter_intercalate (ws : List Bytes) :
    ([32].intercalate ws).filter (· ≠ 32) = ws.flatten.filter (· ≠ 32) := by
  induction ws with
  | nil => rfl
  | cons w ws ih =>
      cases ws with
      | nil => simp
      | cons v ws =>
          rw [List.intercalate_cons_cons, List.append_assoc, List.singleton_append,
            List.filter_append, List.filter_cons_of_neg (by decide), ih, ← List.filter_append,
            List.flatten_cons (l := w)]

theorem count_intercalate {b : UInt8} (hb : b ≠ 32) (ws : List Bytes) :
    ([32].intercalate ws).count b = ws.flatten.count b := by
  have hfilter : ∀ s : Bytes, s.count b = (s.filter (· ≠ 32)).count b := by
    intro s
    rw [List.count_filter (by simpa using hb)]
  rw [hfilter, filter_intercalate, ← hfilter]

section Format

variable {hiredis : Hiredis}

theorem cut_of_words {ws : List Bytes} (h : ∀ w ∈ ws, (0 : UInt8) ∉ w) :
    cut ([32].intercalate ws) = [32].intercalate ws := by
  refine cut_of_forall (fun hz => ?_)
  rcases mem_intercalate.mp hz with ⟨heq, _⟩ | ⟨w, hw, hz⟩
  · cases heq
  · exact h w hw hz

theorem Arrives.cut_eq {ws : List Bytes} (h : Arrives ws) :
    cut ([32].intercalate ws) = [32].intercalate ws := cut_of_words (fun w hw => (h.1 w hw).2.2)

theorem Arrives.not_wanting {ws : List Bytes} (h : Arrives ws) : ¬ Wanting ws := by
  intro hw
  rw [Wanting, h.cut_eq, literal_of_not_mem h.2] at hw
  cases hw

/-- Arguments that arrive come out as they went in. -/
theorem Hiredis.Directives.args_of_arrives (hd : hiredis.Directives) {ws : List Bytes}
    (hne : ws ≠ []) (h : Arrives ws) : hiredis.args (cut ([32].intercalate ws)) = some ws := by
  have hliteral : literal (cut ([32].intercalate ws)) = some ([32].intercalate ws) := by
    rw [h.cut_eq, literal_of_not_mem h.2]
  rw [hd _ _ (zero_not_mem_cut _) hliteral,
    words_intercalate (fun w hw => ⟨(h.1 w hw).1, (h.1 w hw).2.1⟩) hne]

/-- The text that is split, when no directive asks for an argument. -/
theorem Hiredis.Directives.args_of_not_wanting (hd : hiredis.Directives) {ws : List Bytes}
    (hw : ¬ Wanting ws) : ∃ t, literal (cut ([32].intercalate ws)) = some t ∧
      hiredis.args (cut ([32].intercalate ws)) = some (words t) := by
  obtain ⟨t, ht⟩ := Option.ne_none_iff_exists'.mp hw
  exact ⟨t, ht, hd _ _ (zero_not_mem_cut _) ht⟩

/-- The arguments of a command that asks for none are its own exactly when they arrive. -/
theorem Hiredis.Directives.args_iff (hd : hiredis.Directives) {ws : List Bytes} (hne : ws ≠ [])
    (hw : ¬ Wanting ws) : hiredis.args (cut ([32].intercalate ws)) = some ws ↔ Arrives ws := by
  refine ⟨fun hargs => ?_, hd.args_of_arrives hne⟩
  obtain ⟨t, ht, hsplit⟩ := hd.args_of_not_wanting hw
  have hwords : words t = ws := Option.some.inj (hsplit.symm.trans hargs)
  have h0 := zero_not_mem_cut ([32].intercalate ws)
  by_cases h37 : (37 : UInt8) ∈ (cut ([32].intercalate ws)).dropLast
  · -- a directive costs a '%', which no argument gives back
    have hless := count_literal ht h37
    have hle : (cut ([32].intercalate ws)).count 37 ≤ ([32].intercalate ws).count 37 :=
      (List.takeWhile_sublist _).count_le 37
    have hsame : ws.flatten.count 37 = t.count 37 := by
      rw [← hwords, flatten_words, List.count_filter (by decide)]
    rw [count_intercalate (by decide) ws] at hle
    omega
  · obtain rfl : t = cut ([32].intercalate ws) :=
      Option.some.inj (ht.symm.trans (literal_of_not_mem h37))
    have hall : ∀ w ∈ ws, w ≠ [] ∧ (32 : UInt8) ∉ w ∧ (0 : UInt8) ∉ w := by
      intro w hw
      rw [← hwords] at hw
      obtain ⟨hnil, hmem⟩ := of_mem_words hw
      exact ⟨hnil, fun h32 => (hmem 32 h32).1 rfl, fun hz => h0 (hmem 0 hz).2⟩
    rw [cut_of_words (fun w hw => (hall w hw).2.2)] at h37
    exact ⟨hall, h37⟩

/-- The arguments come out as they went in: they arrive, or one is asked for, and what
    `redisCommand` reads for it makes no difference. -/
def Hiredis.Keeps (hiredis : Hiredis) (ws : List Bytes) : Prop :=
  Arrives ws ∨ Wanting ws ∧ hiredis.args (cut ([32].intercalate ws)) = some ws

theorem Hiredis.Directives.keeps_iff (hd : hiredis.Directives) {ws : List Bytes} (hne : ws ≠ []) :
    hiredis.args (cut ([32].intercalate ws)) = some ws ↔ hiredis.Keeps ws := by
  by_cases hw : Wanting ws
  · exact ⟨fun hargs => Or.inr ⟨hw, hargs⟩,
      fun h => h.elim (hd.args_of_arrives hne) And.right⟩
  · exact (hd.args_iff hne hw).trans (or_iff_left (fun h => hw h.1)).symm

theorem flatten_sublist {ws vs : List Bytes} (h : ws.Sublist vs) :
    ws.flatten.Sublist vs.flatten := by
  induction h with
  | slnil => exact List.Sublist.slnil
  | cons v h ih => exact ih.trans (List.sublist_append_right v _)
  | cons_cons v h ih => exact (List.Sublist.refl v).append ih

/-- Nonempty words that are no longer than some of them are no more than these. -/
theorem eq_of_sublist {ws vs : List Bytes} (h : ws.Sublist vs) (hne : ∀ v ∈ vs, v ≠ [])
    (hlen : vs.flatten.length ≤ ws.flatten.length) : vs = ws := by
  induction h with
  | slnil => rfl
  | @cons ws vs v h ih =>
      -- the word that is left out has a length
      have hle := (flatten_sublist h).length_le
      have hpos := List.length_pos_iff.mpr (hne v List.mem_cons_self)
      rw [List.flatten_cons, List.length_append] at hlen
      omega
  | @cons_cons ws vs v h ih =>
      rw [ih (fun w hw => hne w (List.mem_cons_of_mem v hw))]
      simpa using hlen

/-- Arguments that are found among those that come out are all of them. -/
theorem Hiredis.Directives.args_of_sublist (hd : hiredis.Directives) {ws vs : List Bytes}
    (hw : ¬ Wanting ws) (hargs : hiredis.args (cut ([32].intercalate ws)) = some vs)
    (h : ws.Sublist vs) : vs = ws := by
  obtain ⟨t, ht, hsplit⟩ := hd.args_of_not_wanting hw
  obtain rfl : words t = vs := Option.some.inj (hsplit.symm.trans hargs)
  have hsub : t.Sublist ([32].intercalate ws) :=
    (literal_sublist ht).trans (List.takeWhile_sublist _)
  refine eq_of_sublist h (fun v hv => (of_mem_words hv).1) ?_
  calc (words t).flatten.length
      = (t.filter (· ≠ 32)).length := by rw [flatten_words]
    _ ≤ (([32].intercalate ws).filter (· ≠ 32)).length := (hsub.filter _).length_le
    _ = (ws.flatten.filter (· ≠ 32)).length := by rw [filter_intercalate]
    _ ≤ ws.flatten.length := List.length_filter_le ..

end Format

namespace Operation

theorem arguments_ne_nil (op : Operation) : op.arguments ≠ [] := by
  cases op <;> exact List.cons_ne_nil _ _

/-- An operation reaches Redis as its name and its strings, whatever `redisCommand` makes of
    arguments that are missing, exactly when these arrive; and with a `redisCommand` of which
    none is asked for, exactly then too. -/
theorem encodes_iff (op : Operation) {cmd : Bytes} (hcmd : op.command = some cmd) :
    ((∀ hiredis : Hiredis, hiredis.Directives → hiredis.args (cut cmd) = some op.arguments) ↔
        Arrives op.arguments) ∧
      ∀ hiredis : Hiredis, hiredis.Directives → ¬ Wanting op.arguments →
        (hiredis.args (cut cmd) = some op.arguments ↔ Arrives op.arguments) := by
  rw [command_eq hcmd]
  have hfixed : ∀ hiredis : Hiredis, hiredis.Directives → ¬ Wanting op.arguments →
      (hiredis.args (cut ([32].intercalate op.arguments)) = some op.arguments ↔
        Arrives op.arguments) := fun _ hd hw => hd.args_iff (arguments_ne_nil op) hw
  refine ⟨⟨fun hall => ?_, fun h _ hd => hd.args_of_arrives (arguments_ne_nil op) h⟩, hfixed⟩
  have hargs := hall .strict Hiredis.strict_directives
  refine (hfixed .strict Hiredis.strict_directives (fun hw => ?_)).mp hargs
  -- a format error gives no arguments
  have hnone : Hiredis.strict.args (cut ([32].intercalate op.arguments)) = none :=
    congrArg (Option.map words) hw
  cases hnone.symm.trans hargs

theorem encodes_iff_set :
    ((∀ hiredis : Hiredis, hiredis.Directives → hiredis.args (cut (utf8 "SET name alice EX 60")) =
          some [utf8 "SET", utf8 "name", utf8 "alice", utf8 "EX", utf8 "60"]) ↔
        Arrives [utf8 "SET", utf8 "name", utf8 "alice", utf8 "EX", utf8 "60"]) ∧
      ∀ hiredis : Hiredis, hiredis.Directives →
        ¬ Wanting [utf8 "SET", utf8 "name", utf8 "alice", utf8 "EX", utf8 "60"] →
        (hiredis.args (cut (utf8 "SET name alice EX 60")) =
            some [utf8 "SET", utf8 "name", utf8 "alice", utf8 "EX", utf8 "60"] ↔
          Arrives [utf8 "SET", utf8 "name", utf8 "alice", utf8 "EX", utf8 "60"]) :=
  encodes_iff (.set (utf8 "name") (utf8 "alice") 60) rfl

/-- A value with a space is two arguments. -/
theorem value_split : ∃ cmd, (set (utf8 "name") (utf8 "alice b") 0).command = some cmd ∧
    Hiredis.strict.args (cut cmd) = some [utf8 "SET", utf8 "name", utf8 "alice", utf8 "b"] ∧
    Hiredis.strict.args (cut cmd) ≠ some (set (utf8 "name") (utf8 "alice b") 0).arguments := by
  refine ⟨utf8 "SET name alice b", rfl, by decide, by decide⟩

end Operation

/-! ## The calls of the server -/

def Call.operation : Call → Option Operation
  | .set key value ttlSeconds => some (.set (utf8 key) (utf8 value) ttlSeconds)
  | .del key => some (.del (utf8 key))
  | .expire key seconds => some (.expire (utf8 key) seconds)
  | .lpush key values => some (.lpush (utf8 key) (values.map utf8))
  | .hset key field value => some (.hset (utf8 key) (utf8 field) (utf8 value))
  | .publish channel message => some (.publish (utf8 channel) (utf8 message))
  | .subscribe _ => none

theorem utf8_foldl (cmd : String) (values : List String) :
    utf8 (values.foldl (fun cmd val => cmd ++ " " ++ val) cmd) =
      Operation.appendEach (utf8 cmd) (values.map utf8) := by
  unfold Operation.appendEach
  induction values generalizing cmd with
  | nil => rfl
  | cons v values ih =>
      rw [List.foldl_cons, ih, List.map_cons, List.foldl_cons, utf8_append, utf8_append,
        List.append_assoc]
      rfl

/-- A call sends the text of its operation. -/
theorem Call.command_operation (call : Call) :
    call.command.map utf8 = call.operation.bind Operation.command := by
  cases call with
  | set key value ttlSeconds =>
      by_cases hpos : 0 < ttlSeconds
      · simp only [command, operation, Operation.command, if_pos hpos, utf8_append,
          Option.map_some, Option.bind_some, List.append_assoc]
        rfl
      · simp only [command, operation, Operation.command, if_neg hpos, utf8_append,
          Option.map_some, Option.bind_some, List.append_assoc]
        rfl
  | lpush key values =>
      simp only [command, operation, Operation.command, Option.map_some, Option.bind_some,
        utf8_foldl, utf8_append]
  | subscribe channel => rfl
  | del key => simp only [command, operation, Operation.command, utf8_append, Option.map_some,
      Option.bind_some]
  | _ =>
      simp only [command, operation, Operation.command, utf8_append, Option.map_some,
        Option.bind_some, List.append_assoc]
      rfl

end MessengerBackend.Redis
