/-
  What `RedisClient` is for: keys with a text, a queue, a group or a record, that may expire.

  Nothing here is translated from the source, and nothing is said of commands, replies or
  connections. A group is a set and a record a partial function, as the header's comments have
  it ("for message queues", "for managing user groups", "for storing structured data").

  * `Keyspace.after`: what is there after an operation.
  * `Keyspace.Answers`: what the operation may return.

  Two things are as Redis has them and not as one might expect: an operation on a key that
  holds something of another kind does nothing, and what is left empty is not there.
-/
import Mathlib.Data.Set.Insert
import Mathlib.Logic.Function.Basic
import MessengerBackend.Redis.Operation
import MessengerBackend.Redis.Server

namespace MessengerBackend.Redis

inductive Content where
  | text (bs : Bytes)
  | queue (l : List Bytes)
  | group (members : Set Bytes)
  | record (fields : Bytes → Option Bytes)

structure Slot where
  content : Content
  deadline : Option Time

abbrev Keyspace := Bytes → Option Slot

namespace Slot

/-! ## By kind; no key is an empty one of any -/

def text : Option Slot → Option Bytes
  | some ⟨.text bs, _⟩ => some bs
  | _ => none

def queue : Option Slot → Option (List Bytes)
  | none => some []
  | some ⟨.queue l, _⟩ => some l
  | _ => none

def group : Option Slot → Option (Set Bytes)
  | none => some ∅
  | some ⟨.group members, _⟩ => some members
  | _ => none

def record : Option Slot → Option (Bytes → Option Bytes)
  | none => some (fun _ => none)
  | some ⟨.record fields, _⟩ => some fields
  | _ => none

/-- It is not there any more. -/
def expired (x : Slot) (now : Time) : Bool := x.deadline.any (· < now)

end Slot

namespace Keyspace

/-- What is found under a key. -/
def look (ks : Keyspace) (now : Time) (key : Bytes) : Option Slot :=
  (ks key).filter (fun x => !x.expired now)

def put (ks : Keyspace) (key : Bytes) (content : Content) (deadline : Option Time) : Keyspace :=
  Function.update ks key (some ⟨content, deadline⟩)

def drop (ks : Keyspace) (key : Bytes) : Keyspace := Function.update ks key none

/-- A deadline in seconds. -/
def deadline (now : Time) (seconds : Int) : Option Time := some (now + seconds * 1000000)

open Classical in
noncomputable def after (now : Time) (ks : Keyspace) (op : Operation) : Keyspace :=
  -- a content is replaced within the time that is left to it
  let put' := fun key content => ks.put key content ((ks.look now key).bind Slot.deadline)
  match op with
  | .set key value ttlSeconds =>
      ks.put key (.text value) (if 0 < ttlSeconds then deadline now ttlSeconds else none)
  | .del key => ks.drop key
  | .expire key seconds =>
      match ks.look now key with
      | none => ks
      | some x => if 0 < seconds then ks.put key x.content (deadline now seconds) else ks.drop key
  | .lpush key values =>
      match Slot.queue (ks.look now key) with
      | none => ks
      | some l => if values = [] then ks else put' key (.queue (values.reverse ++ l))
  | .sadd key members =>
      match Slot.group (ks.look now key) with
      | none => ks
      | some s => if members = [] then ks else put' key (.group (s ∪ {m | m ∈ members}))
  | .srem key member =>
      match Slot.group (ks.look now key) with
      | none => ks
      | some s =>
          if member ∈ s then
            if s \ {member} = ∅ then ks.drop key else put' key (.group (s \ {member}))
          else ks
  | .hset key field value =>
      match Slot.record (ks.look now key) with
      | none => ks
      | some r => put' key (.record (Function.update r field (some value)))
  | .hdel key field =>
      match Slot.record (ks.look now key) with
      | none => ks
      | some r =>
          if r field = none then ks
          else if ∀ f, f ≠ field → r f = none then ks.drop key
          else put' key (.record (Function.update r field none))
  | _ => ks

/-- What the operation may return; a group and a record come in some order. -/
def Answers (now : Time) (ks : Keyspace) (op : Operation) (result : Result) : Prop :=
  match op with
  | .set _ _ _ | .lpush _ _ | .sadd _ _ | .publish _ _ => result = .bool true
  | .get key => result = .text ((Slot.text (ks.look now key)).getD [])
  | .existsKey key | .del key | .expire key _ => result = .bool (ks.look now key).isSome
  | .lrange key start stop =>
      result = .texts (range ((Slot.queue (ks.look now key)).getD []) start stop)
  | .llen key =>
      match Slot.queue (ks.look now key) with
      | none => result = .thrown
      | some l => result = if l.length < 2 ^ 31 then .int l.length else .thrown
  | .smembers key => ∃ l, result = .texts l ∧ l.Nodup ∧
      ∀ m, m ∈ l ↔ ∃ s, Slot.group (ks.look now key) = some s ∧ m ∈ s
  | .sismember key member => ∃ b, result = .bool b ∧
      (b = true ↔ ∃ s, Slot.group (ks.look now key) = some s ∧ member ∈ s)
  -- an error is not "0", so that the next three are true of a key of another kind
  | .srem key member => ∃ b, result = .bool b ∧
      (b = true ↔ ∀ s, Slot.group (ks.look now key) = some s → member ∈ s)
  | .hset key field _ => ∃ b, result = .bool b ∧
      (b = true ↔ ∀ r, Slot.record (ks.look now key) = some r → r field = none)
  | .hdel key field => ∃ b, result = .bool b ∧
      (b = true ↔ ∀ r, Slot.record (ks.look now key) = some r → r field ≠ none)
  | .hget key field =>
      result = .text (((Slot.record (ks.look now key)).bind (· field)).getD [])
  | .hgetall key => ∃ l, result = .pairs l ∧ (l.map Prod.fst).Nodup ∧
      ∀ f v, (f, v) ∈ l ↔ (Slot.record (ks.look now key)).bind (· f) = some v
  | .ping => result = .text (utf8 "PONG")
  -- whatever the server says of itself
  | .info _ => ∃ bs, result = .text bs

/-- The answers to operations one after the other, and what is there in the end. -/
inductive Serves : Keyspace → List (Time × Operation) → List Result → Keyspace → Prop
  | nil (ks : Keyspace) : Serves ks [] [] ks
  | cons {ks ks' : Keyspace} {now : Time} {op : Operation} {result : Result}
      {ops : List (Time × Operation)} {results : List Result} (answers : Answers now ks op result)
      (rest : Serves (ks.after now op) ops results ks') :
      Serves ks ((now, op) :: ops) (result :: results) ks'

end Keyspace

end MessengerBackend.Redis
