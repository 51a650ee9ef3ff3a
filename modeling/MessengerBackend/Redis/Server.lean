/-
  Redis: keys that expire, and the commands that the server sends.

  A key that has an expiry time is gone once that time has passed (`live`). Messages that are
  published go to a log, in order. A command whose arguments do not fit is answered by an
  error and changes nothing; of the options of a command, only EX of SET is here.
-/
import Mathlib.Logic.Function.Basic
import MessengerBackend.Database
import MessengerBackend.Redis.Hiredis

namespace MessengerBackend.Redis

structure Entry where
  value : Value
  expiresAt : Option Time := none

def Entry.expired (e : Entry) (now : Time) : Bool :=
  match e.expiresAt with
  | some t => t < now
  | none => false

structure State where
  keys : Bytes → Option Entry := fun _ => none
  /-- Channel and message. -/
  published : List (Bytes × Bytes) := []

/-- What a command at time `now` finds at a key. -/
def State.live (st : State) (now : Time) (key : Bytes) : Option Entry :=
  (st.keys key).filter (fun e => !e.expired now)

/-- The values that are there at time `now`. -/
def State.store (st : State) (now : Time) : Store := fun key => (st.live now key).map Entry.value

def State.put (st : State) (key : Bytes) (e : Option Entry) : State :=
  { st with keys := Function.update st.keys key e }

/-! ## Numbers -/

/-- Decimal digits without a leading zero. -/
def digits (bs : Bytes) : Option Nat :=
  if bs ≠ [] ∧ bs.all (fun b => 48 ≤ b && b ≤ 57) = true ∧ (bs.head? ≠ some 48 ∨ bs.length = 1) then
    some (bs.foldl (fun n b => n * 10 + (b.toNat - 48)) 0)
  else none

/-- A 64-bit integer argument. -/
def number : Bytes → Option Int
  | 45 :: bs => (digits bs).bind (fun n => if 0 < n ∧ n ≤ 2 ^ 63 then some (-n) else none)
  | bs => (digits bs).bind (fun n => if n < 2 ^ 63 then some n else none)

/-- One more digit. -/
theorem digits_concat {bs : Bytes} {k r : Nat} (h : digits bs = some k) (hk : 0 < k) (hr : r < 10) :
    digits (bs ++ [UInt8.ofNat (48 + r)]) = some (k * 10 + r) := by
  unfold digits at h ⊢
  split at h
  · rename_i hbs
    obtain ⟨hne, hall, hhead⟩ := hbs
    cases h
    have hlast : (UInt8.ofNat (48 + r)).toNat = 48 + r := by
      rw [UInt8.toNat_ofNat']
      omega
    have hall' : (bs ++ [UInt8.ofNat (48 + r)]).all (fun b => 48 ≤ b && b ≤ 57) = true := by
      rw [List.all_append, hall, Bool.true_and]
      simp only [List.all_cons, List.all_nil, Bool.and_true, Bool.and_eq_true, decide_eq_true_eq,
        UInt8.le_iff_toNat_le, hlast]
      exact ⟨Nat.le_add_right 48 r, by show 48 + r ≤ 57; omega⟩
    have hfirst : bs.head? ≠ some 48 := by
      rcases hhead with hhead | hlen
      · exact hhead
      · -- the digit 0 alone
        obtain ⟨b, rfl⟩ := List.length_eq_one_iff.mp hlen
        intro heq
        cases heq
        exact absurd hk (by decide)
    rw [if_pos ⟨by simp, hall', Or.inl (by rwa [List.head?_append_of_ne_nil _ hne])⟩]
    rw [List.foldl_append, List.foldl_cons, List.foldl_nil, hlast, Nat.add_sub_cancel_left]
  · cases h

theorem utf8_digitChar : ∀ r, r < 10 →
    utf8 (String.singleton r.digitChar) = [UInt8.ofNat (48 + r)] := by decide

theorem digits_repr (n : Nat) : digits (utf8 n.repr) = some n := by
  induction n using Nat.strongRecOn with
  | ind n ih =>
      by_cases hn : n < 10
      · rw [Nat.repr_of_lt hn, utf8_digitChar n hn]
        have hdigit : ∀ r, r < 10 → digits [UInt8.ofNat (48 + r)] = some r := by decide
        exact hdigit n hn
      · rw [Nat.repr_of_ge (by omega), utf8_append, utf8_digitChar _ (Nat.mod_lt n (by decide)),
          digits_concat (ih (n / 10) (by omega)) (by omega) (Nat.mod_lt n (by decide))]
        congr 1
        omega

/-- An argument that is printed is read back, if it has 64 bits. -/
theorem number_toString (n : Int) :
    number (utf8 (toString n)) = if -2 ^ 63 ≤ n ∧ n < 2 ^ 63 then some n else none := by
  cases n with
  | ofNat m =>
      have hdigits := digits_repr m
      show number (utf8 m.repr) = _
      unfold number
      split
      · rename_i bs heq
        rw [heq] at hdigits
        cases hdigits
      · rw [hdigits, Option.bind_some, Int.ofNat_eq_natCast]
        by_cases hm : m < 2 ^ 63
        · rw [if_pos hm, if_pos (by omega)]
        · rw [if_neg hm, if_neg (by omega)]
  | negSucc m =>
      have htext : utf8 (toString (Int.negSucc m)) = 45 :: utf8 (m + 1).repr := by
        show utf8 ("-" ++ (m + 1).repr) = _
        rw [utf8_append]
        rfl
      rw [htext]
      show (digits (utf8 (m + 1).repr)).bind _ = _
      rw [digits_repr, Option.bind_some]
      by_cases hm : m + 1 ≤ 2 ^ 63
      · rw [if_pos ⟨Nat.succ_pos m, hm⟩, if_pos (by omega)]
        rfl
      · rw [if_neg (by omega), if_neg (by omega)]

/-! ## Commands

  The first argument is the command's name. -/

def wrongType : Reply :=
  .error "WRONGTYPE Operation against a key holding the wrong kind of value"

def notAnInteger : Reply := .error "ERR value is not an integer or out of range"

def syntaxError : Reply := .error "ERR syntax error"

def wrongArity : Reply := .error "ERR wrong number of arguments"

def execSet (now : Time) (st : State) : List Bytes → State × Reply
  | [_, key, value] => (st.put key (some { value := .string value }), .status (utf8 "OK"))
  | [_, key, value, option, seconds] =>
      if option = utf8 "EX" then
        match number seconds with
        | none => (st, notAnInteger)
        | some n =>
            if 0 < n then
              (st.put key (some { value := .string value, expiresAt := some (now + n * 1000000) }),
                .status (utf8 "OK"))
            else (st, .error "ERR invalid expire time in 'set' command")
      else (st, syntaxError)
  | _ :: _ :: _ :: _ => (st, syntaxError)
  | _ => (st, wrongArity)

def execDel (now : Time) (st : State) : List Bytes → State × Reply
  | _ :: key :: keys =>
      let gone := key :: keys
      ({ st with keys := fun k => if k ∈ gone then none else st.keys k },
        .integer ((gone.dedup.filter (fun k => (st.live now k).isSome)).length : Nat))
  | _ => (st, wrongArity)

def execExpire (now : Time) (st : State) : List Bytes → State × Reply
  | [_, key, seconds] =>
      match number seconds, st.live now key with
      | none, _ => (st, notAnInteger)
      | some _, none => (st, .integer 0)
      | some n, some e =>
          if 0 < n then
            (st.put key (some { e with expiresAt := some (now + n * 1000000) }), .integer 1)
          else (st.put key none, .integer 1)
  | _ :: _ :: _ :: _ => (st, syntaxError)
  | _ => (st, wrongArity)

/-- The values are pushed one after the other, so that the last one ends up first. -/
def execLpush (now : Time) (st : State) : List Bytes → State × Reply
  | _ :: key :: value :: values =>
      let pushed := (value :: values).reverse
      match st.live now key with
      | none => (st.put key (some { value := .list pushed }), .integer (pushed.length : Nat))
      | some e =>
          match e.value with
          | .list l => (st.put key (some { e with value := .list (pushed ++ l) }),
              .integer ((pushed ++ l).length : Nat))
          | _ => (st, wrongType)
  | _ => (st, wrongArity)

/-- An index from the end if it is negative. -/
def index (length : Nat) (i : Int) : Int := if i < 0 then i + length else i

/-- The elements from `start` to `stop`, both included. -/
def range (l : List Bytes) (start stop : Int) : List Bytes :=
  (l.take (index l.length stop + 1).toNat).drop (index l.length start).toNat

def execLrange (now : Time) (st : State) : List Bytes → State × Reply
  | [_, key, start, stop] =>
      match number start, number stop with
      | some i, some j =>
          match (st.live now key).map Entry.value with
          | none => (st, .array [])
          | some (.list l) => (st, .array ((range l i j).map some))
          | some _ => (st, wrongType)
      | _, _ => (st, notAnInteger)
  | _ => (st, wrongArity)

/-- The fields of a hash with one set. -/
def setField (fields : List (Bytes × Bytes)) (field value : Bytes) : List (Bytes × Bytes) :=
  if fields.any (fun f => f.1 == field) then
    fields.map (fun f => if f.1 == field then (field, value) else f)
  else fields ++ [(field, value)]

def setFields : List (Bytes × Bytes) → List Bytes → Option (List (Bytes × Bytes))
  | fields, [] => some fields
  | _, [_] => none
  | fields, field :: value :: rest => setFields (setField fields field value) rest

def execHset (now : Time) (st : State) : List Bytes → State × Reply
  | _ :: key :: field :: value :: rest =>
      let old : Option (List (Bytes × Bytes)) := match (st.live now key).map Entry.value with
        | none => some []
        | some (.hash fields) => some fields
        | some _ => none
      match old with
      | none => (st, wrongType)
      | some fields =>
          match setFields fields (field :: value :: rest) with
          | none => (st, wrongArity)
          | some new =>
              (st.put key (some { value := .hash new
                                  expiresAt := (st.live now key).bind Entry.expiresAt }),
                .integer ((new.length - fields.length : Nat)))
  | _ => (st, wrongArity)

/-- A set with members added, each of them at most once. -/
def addMembers (members new : List Bytes) : List Bytes :=
  new.foldl (fun members m => if m ∈ members then members else members ++ [m]) members

def execSadd (now : Time) (st : State) : List Bytes → State × Reply
  | _ :: key :: member :: rest =>
      match st.live now key with
      | none =>
          let new := addMembers [] (member :: rest)
          (st.put key (some { value := .set new }), .integer (new.length : Nat))
      | some e =>
          match e.value with
          | .set members =>
              let new := addMembers members (member :: rest)
              (st.put key (some { e with value := .set new }),
                .integer (new.length - members.length : Nat))
          | _ => (st, wrongType)
  | _ => (st, wrongArity)

/-- Where nothing is removed nothing is written; an empty set is no key. -/
def execSrem (now : Time) (st : State) : List Bytes → State × Reply
  | _ :: key :: member :: rest =>
      match st.live now key with
      | none => (st, .integer 0)
      | some e =>
          match e.value with
          | .set members =>
              let left := members.filter (fun m => m ∉ member :: rest)
              if left.length = members.length then (st, .integer 0)
              else (st.put key (if left = [] then none else some { e with value := .set left }),
                .integer (members.length - left.length : Nat))
          | _ => (st, wrongType)
  | _ => (st, wrongArity)

def execHdel (now : Time) (st : State) : List Bytes → State × Reply
  | _ :: key :: field :: rest =>
      match st.live now key with
      | none => (st, .integer 0)
      | some e =>
          match e.value with
          | .hash fields =>
              let left := fields.filter (fun f => f.1 ∉ field :: rest)
              if left.length = fields.length then (st, .integer 0)
              else (st.put key (if left = [] then none else some { e with value := .hash left }),
                .integer (fields.length - left.length : Nat))
          | _ => (st, wrongType)
  | _ => (st, wrongArity)

/-- Nobody is subscribed. -/
def execPublish (st : State) : List Bytes → State × Reply
  | [_, channel, message] =>
      ({ st with published := st.published ++ [(channel, message)] }, .integer 0)
  | _ => (st, wrongArity)

/-- One command at time `now`. -/
def execute (now : Time) (st : State) (args : List Bytes) : State × Reply :=
  match args with
  | [] => (st, .nil)
  | name :: _ =>
      if name = utf8 "GET" then (st, execGet (st.store now) args)
      else if name = utf8 "SET" then execSet now st args
      else if name = utf8 "DEL" then execDel now st args
      else if name = utf8 "EXPIRE" then execExpire now st args
      else if name = utf8 "LPUSH" then execLpush now st args
      else if name = utf8 "LRANGE" then execLrange now st args
      else if name = utf8 "HSET" then execHset now st args
      else if name = utf8 "SADD" then execSadd now st args
      else if name = utf8 "SREM" then execSrem now st args
      else if name = utf8 "HDEL" then execHdel now st args
      else if name = utf8 "PUBLISH" then execPublish st args
      else (st, .error "ERR unknown command")

/-- What every command does, by the command. -/
theorem execute_rule (now : Time) (st : State) (args : List Bytes) {P : State × Reply → Prop}
    (hquiet : ∀ reply, P (st, reply)) (hset : P (execSet now st args))
    (hdel : P (execDel now st args)) (hexpire : P (execExpire now st args))
    (hlpush : args.head? = some (utf8 "LPUSH") → P (execLpush now st args))
    (hlrange : P (execLrange now st args)) (hhset : P (execHset now st args))
    (hsadd : P (execSadd now st args)) (hsrem : P (execSrem now st args))
    (hhdel : P (execHdel now st args))
    (hpublish : args.head? = some (utf8 "PUBLISH") → P (execPublish st args)) :
    P (execute now st args) := by
  cases args with
  | nil => exact hquiet _
  | cons name rest =>
      have hhead : ∀ {w : Bytes}, name = w → (name :: rest).head? = some w := fun h => congrArg some h
      unfold execute
      refine iteInduction (fun _ => hquiet _) (fun _ => ?_)
      refine iteInduction (fun _ => hset) (fun _ => ?_)
      refine iteInduction (fun _ => hdel) (fun _ => ?_)
      refine iteInduction (fun _ => hexpire) (fun _ => ?_)
      refine iteInduction (fun h => hlpush (hhead h)) (fun _ => ?_)
      refine iteInduction (fun _ => hlrange) (fun _ => ?_)
      refine iteInduction (fun _ => hhset) (fun _ => ?_)
      refine iteInduction (fun _ => hsadd) (fun _ => ?_)
      refine iteInduction (fun _ => hsrem) (fun _ => ?_)
      refine iteInduction (fun _ => hhdel) (fun _ => ?_)
      exact iteInduction (fun h => hpublish (hhead h)) (fun _ => hquiet _)

/-! ## The client, with a connection at hand -/

/-- `send_command`: `cmd.c_str()` is the format. Without arguments nothing is sent. -/
def sendCommand (hiredis : Hiredis) (now : Time) (st : State) (cmd : String) : State :=
  match hiredis.args (cut (utf8 cmd)) with
  | none => st
  | some args => (execute now st args).1

def send (hiredis : Hiredis) (now : Time) (st : State) (call : Call) : State :=
  match call.command with
  | none => st
  | some cmd => sendCommand hiredis now st cmd

/-- `lrange` formats its key with %s, as one argument. -/
def lrange (now : Time) (st : State) (key : String) (start stop : Int) : List Bytes :=
  match (execute now st [utf8 "LRANGE", cut (utf8 key), utf8 (toString start),
    utf8 (toString stop)]).2 with
  | .array elements => (elements.filterMap (fun e => e.map cut))
  | _ => []

example : number (utf8 (toString (-1 : Int))) = some (-1) := by decide

end MessengerBackend.Redis
