/-
  Redis as `RedisClient` sees it: stored values, replies, and `send_command`.

  A command is a text that `redisCommand(ctx, s)` takes as a format. `Hiredis` is that
  splitting, a parameter; of it only what is documented is used, that a text with no '%' and
  no NUL is split at its spaces. Redis itself executes GET on the argument vector.

  `send_command` turns a reply into a `std::string` through `reply->str`, so a stored value is
  cut at its first NUL; an error and a missing key are both the empty string.

  A `Call` is an operation that `MessengerServer` calls without looking at the result: each but
  `subscribe` builds a text by concatenation and hands it to `send_command`. `subscribe` only
  notes a callback that nothing ever calls.
-/
import Mathlib.Data.List.TakeWhile
import MessengerBackend.Lib.ByteString

namespace MessengerBackend.Redis

/-! ## The server -/

inductive Value where
  | string (bs : Bytes)
  | list (elements : List Bytes)
  | set (members : List Bytes)
  | hash (fields : List (Bytes × Bytes))

abbrev Store := Bytes → Option Value

/-- `redisReply`. -/
inductive Reply where
  | nil
  | string (bs : Bytes)
  | status (bs : Bytes)
  | integer (n : Int)
  /-- The `str` of each element. -/
  | array (elements : List (Option Bytes))
  | error (msg : String)

/-- GET: the stored string. -/
def execGet (store : Store) : List Bytes → Reply
  | [_, key] =>
      match store key with
      | none => .nil
      | some (.string bs) => .string bs
      | some _ => .error "WRONGTYPE Operation against a key holding the wrong kind of value"
  | _ => .error "ERR wrong number of arguments for 'get' command"

/-! ## The client library -/

/-- The nonempty pieces between spaces. -/
def words (s : Bytes) : List Bytes := (s.splitOn 32).filter (fun w => !w.isEmpty)

structure Hiredis where
  /-- The argument vector of a format, or a format error. -/
  args : Bytes → Option (List Bytes)
  documented : ∀ s : Bytes, (∀ b ∈ s, b ≠ 37 ∧ b ≠ 0) → args s = some (words s)

/-- Splits every text at its spaces. -/
def Hiredis.splitting : Hiredis := ⟨fun s => some (words s), fun _ _ => rfl⟩

inductive Call where
  | set (key value : String) (ttlSeconds : Int)
  | del (key : String)
  | expire (key : String) (seconds : Int)
  | lpush (key : String) (values : List String)
  | hset (key field value : String)
  | publish (channel message : String)
  | subscribe (channel : String)

/-- The text given to `send_command`. -/
def Call.command : Call → Option String
  | .set key value ttlSeconds =>
      some ("SET " ++ key ++ " " ++ value ++
        if 0 < ttlSeconds then " EX " ++ toString ttlSeconds else "")
  | .del key => some ("DEL " ++ key)
  | .expire key seconds => some ("EXPIRE " ++ key ++ " " ++ toString seconds)
  | .lpush key values => some (values.foldl (fun cmd val => cmd ++ " " ++ val) ("LPUSH " ++ key))
  | .hset key field value => some ("HSET " ++ key ++ " " ++ field ++ " " ++ value)
  | .publish channel message => some ("PUBLISH " ++ channel ++ " " ++ message)
  | .subscribe _ => none

/-- A C string as a `std::string`. -/
def cut (bs : Bytes) : Bytes := bs.takeWhile (· ≠ 0)

/-- The `switch` of `send_command`. -/
def replyString : Reply → Bytes
  | .string bs => cut bs
  | .status bs => cut bs
  | .integer n => utf8 (toString n)
  | .array (some bs :: _) => cut bs
  | .array _ => []
  | .nil => []
  | .error _ => []

theorem cut_of_forall {bs : Bytes} (h : (0 : UInt8) ∉ bs) : cut bs = bs := by
  refine List.takeWhile_eq_self_iff.mpr (fun b hb => ?_)
  simp only [ne_eq, decide_not, Bool.not_eq_true', decide_eq_false_iff_not]
  rintro rfl
  exact h hb

/-! ## Words -/

theorem words_append (a b : Bytes) : words (a ++ 32 :: b) = words a ++ words b := by
  unfold words
  rw [List.splitOn_append_cons_self, List.filter_append]

theorem flatten_splitOn (s : Bytes) : (s.splitOn 32).flatten = s.filter (· ≠ 32) := by
  induction s with
  | nil => rfl
  | cons b s ih =>
      rw [List.splitOn_cons_eq_if_modifyHead]
      have hne := List.splitOn_ne_nil 32 s
      by_cases hb : b = 32
      · simp [hb, ih]
      · generalize s.splitOn 32 = l at ih hne ⊢
        cases l with
        | nil => exact absurd rfl hne
        | cons w l =>
            simp [hb] at ih ⊢
            exact ih

/-- The bytes of the words are those that are not spaces. -/
theorem flatten_words (s : Bytes) : (words s).flatten = s.filter (· ≠ 32) := by
  unfold words
  rw [← flatten_splitOn]
  exact List.flatten_filter_not_isEmpty

theorem of_mem_words {s w : Bytes} (h : w ∈ words s) : w ≠ [] ∧ ∀ b ∈ w, b ≠ 32 ∧ b ∈ s := by
  constructor
  · have hw := (List.mem_filter.mp h).2
    rintro rfl
    cases hw
  · intro b hb
    have hmem : b ∈ s.filter (· ≠ 32) := by
      rw [← flatten_words]
      exact List.mem_flatten.mpr ⟨w, h, hb⟩
    obtain ⟨hs, hne⟩ := List.mem_filter.mp hmem
    exact ⟨by simpa using hne, hs⟩

/-- Nonempty words without spaces are found again. -/
theorem words_intercalate {ws : List Bytes} (h : ∀ w ∈ ws, w ≠ [] ∧ (32 : UInt8) ∉ w)
    (hne : ws ≠ []) : words ([32].intercalate ws) = ws := by
  unfold words
  rw [List.splitOn_intercalate 32 (fun w hw => (h w hw).2) hne]
  refine List.filter_eq_self.mpr (fun w hw => ?_)
  simp [(h w hw).1]

/-- The bytes of words with spaces between them. -/
theorem mem_intercalate {ws : List Bytes} {b : UInt8} :
    b ∈ [32].intercalate ws ↔ b = 32 ∧ 1 < ws.length ∨ ∃ w ∈ ws, b ∈ w := by
  induction ws with
  | nil => simp
  | cons w ws ih =>
      cases ws with
      | nil => simp
      | cons v ws =>
          rw [List.intercalate_cons_cons, List.append_assoc, List.singleton_append,
            List.mem_append, List.mem_cons, ih]
          constructor
          · rintro (hb | rfl | ⟨rfl, _⟩ | ⟨u, hu, hb⟩)
            · exact Or.inr ⟨w, List.mem_cons_self, hb⟩
            · exact Or.inl ⟨rfl, by simp⟩
            · exact Or.inl ⟨rfl, by simp⟩
            · exact Or.inr ⟨u, List.mem_cons_of_mem w hu, hb⟩
          · rintro (⟨rfl, _⟩ | ⟨u, hu, hb⟩)
            · exact Or.inr (Or.inl rfl)
            · rcases List.mem_cons.mp hu with rfl | hu
              · exact Or.inl hb
              · exact Or.inr (Or.inr (Or.inr ⟨u, hu, hb⟩))

/-- A text that is one word, if no space stands at its ends. -/
theorem eq_of_words_singleton {a z : UInt8} {s w : Bytes} (ha : a ≠ 32) (hz : z ≠ 32)
    (h : words (a :: s ++ [z]) = [w]) : a :: s ++ [z] = w := by
  have hword : ∀ {t : Bytes} {b : UInt8}, b ∈ t → b ≠ 32 → 0 < (words t).length := by
    intro t b hb hne
    refine List.length_pos_iff.mpr (fun hnil => ?_)
    have hmem : b ∈ (words t).flatten := by
      rw [flatten_words]
      exact List.mem_filter.mpr ⟨hb, by simpa using hne⟩
    rw [hnil] at hmem
    cases hmem
  by_cases h32 : (32 : UInt8) ∈ s
  · -- there is a word on either side of a space
    obtain ⟨s₁, s₂, rfl⟩ := List.append_of_mem h32
    have hsplit : a :: (s₁ ++ 32 :: s₂) ++ [z] = (a :: s₁) ++ 32 :: (s₂ ++ [z]) := by simp
    rw [hsplit, words_append] at h
    have hlen := congrArg List.length h
    have hleft := hword (t := a :: s₁) List.mem_cons_self ha
    have hright := hword (t := s₂ ++ [z]) (List.mem_append_right _ (List.mem_singleton.mpr rfl)) hz
    rw [List.length_append, List.length_singleton] at hlen
    omega
  · have hflat := flatten_words (a :: s ++ [z])
    rw [h, List.flatten_singleton, List.filter_eq_self.mpr] at hflat
    · exact hflat.symm
    · intro b hb
      have hne : b ≠ 32 := by
        rintro rfl
        rcases List.mem_append.mp hb with hb | hb
        · rcases List.mem_cons.mp hb with hb | hb
          · exact ha hb.symm
          · exact h32 hb
        · exact hz (List.mem_singleton.mp hb).symm
      simpa using hne

/-! ## Plain words -/

/-- A word that reaches Redis as it stands. -/
def PlainWord (w : Bytes) : Prop := w ≠ [] ∧ ∀ b ∈ w, b ≠ 32 ∧ b ≠ 37 ∧ b ≠ 0

instance (w : Bytes) : Decidable (PlainWord w) :=
  @instDecidableAnd _ _ _ (List.decidableBAll (fun b => b ≠ 32 ∧ b ≠ 37 ∧ b ≠ 0) w)

theorem PlainWord.not_mem {w : Bytes} (h : PlainWord w) : (32 : UInt8) ∉ w :=
  fun h32 => (h.2 32 h32).1 rfl

theorem PlainWord.words {w : Bytes} (h : PlainWord w) : words w = [w] := by
  have hall : ∀ v ∈ [w], v ≠ [] ∧ (32 : UInt8) ∉ v := by
    simpa using ⟨h.1, h.not_mem⟩
  have hw := words_intercalate hall (List.cons_ne_nil _ _)
  rwa [List.intercalate_singleton] at hw

theorem plain_intercalate {ws : List Bytes} (h : ∀ w ∈ ws, PlainWord w) {b : UInt8}
    (hb : b ∈ [32].intercalate ws) : b ≠ 37 ∧ b ≠ 0 := by
  rcases mem_intercalate.mp hb with ⟨rfl, _⟩ | ⟨w, hw, hb⟩
  · decide
  · exact ((h w hw).2 b hb).2

/-- Plain words with spaces between them arrive as they are. -/
theorem Hiredis.args_intercalate (hiredis : Hiredis) {ws : List Bytes} (h : ∀ w ∈ ws, PlainWord w)
    (hne : ws ≠ []) : hiredis.args ([32].intercalate ws) = some ws := by
  rw [hiredis.documented _ (fun b hb => plain_intercalate h hb),
    words_intercalate (fun w hw => ⟨(h w hw).1, (h w hw).not_mem⟩) hne]

/-- A plain word, and a text without '%'. -/
theorem Hiredis.args_cons (hiredis : Hiredis) {name rest : Bytes} (h : PlainWord name)
    (hrest : (37 : UInt8) ∉ rest) :
    hiredis.args (cut (name ++ 32 :: rest)) = some (name :: words (cut rest)) := by
  have hname : ∀ b ∈ name, b ≠ 37 ∧ b ≠ 0 := fun b hb => (h.2 b hb).2
  have hcut : cut (name ++ 32 :: rest) = name ++ 32 :: cut rest := by
    unfold cut
    rw [List.takeWhile_append_of_pos (by simpa using fun b hb => (hname b hb).2),
      List.takeWhile_cons_of_pos (by decide)]
  have hbytes : ∀ b ∈ name ++ 32 :: cut rest, b ≠ 37 ∧ b ≠ 0 := by
    intro b hb
    rcases List.mem_append.mp hb with hb | hb
    · exact hname b hb
    · rcases List.mem_cons.mp hb with rfl | hb
      · decide
      · have hsub : b ∈ rest := (List.takeWhile_sublist _).mem hb
        have hnonzero := List.mem_takeWhile_imp hb
        refine ⟨?_, by simpa using hnonzero⟩
        rintro rfl
        exact hrest hsub
  rw [hcut, hiredis.documented _ hbytes, words_append, h.words, List.singleton_append]

theorem cut_intercalate {ws : List Bytes} (h : ∀ w ∈ ws, PlainWord w) :
    cut ([32].intercalate ws) = [32].intercalate ws :=
  cut_of_forall (fun h0 => (plain_intercalate h h0).2 rfl)

end MessengerBackend.Redis
