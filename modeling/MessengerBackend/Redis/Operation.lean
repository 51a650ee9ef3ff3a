/-
  The operations of `RedisClient` that send a command, on byte strings.

  Most build a text by concatenation and hand it to `send_command` (`command`); `lrange`,
  `smembers` and `hgetall` give `redisCommand` a format with %s instead. `answer` is what the
  operation makes of the reply, `failure` what it returns when it gets no connection.
-/
import MessengerBackend.Lib.Stoi
import MessengerBackend.Redis.Hiredis

namespace MessengerBackend.Redis

inductive Operation where
  | set (key value : Bytes) (ttlSeconds : Int)
  | get (key : Bytes)
  | existsKey (key : Bytes)
  | del (key : Bytes)
  | expire (key : Bytes) (seconds : Int)
  | lpush (key : Bytes) (values : List Bytes)
  | lrange (key : Bytes) (start stop : Int)
  | llen (key : Bytes)
  | sadd (key : Bytes) (members : List Bytes)
  | smembers (key : Bytes)
  | sismember (key member : Bytes)
  | srem (key member : Bytes)
  | hset (key field value : Bytes)
  | hget (key field : Bytes)
  | hdel (key field : Bytes)
  | hgetall (key : Bytes)
  | publish (channel message : Bytes)
  | ping
  | info (section_ : Bytes)

/-- What an operation returns. -/
inductive Result where
  | bool (b : Bool)
  | text (s : Bytes)
  | texts (l : List Bytes)
  | pairs (l : List (Bytes × Bytes))
  | int (n : Int)
  /-- `std::stoi` throws. -/
  | thrown

namespace Operation

/-- `cmd += " " + val` for each value. -/
def appendEach (cmd : Bytes) (values : List Bytes) : Bytes :=
  values.foldl (fun cmd val => cmd ++ 32 :: val) cmd

/-- The text given to `send_command`. -/
def command : Operation → Option Bytes
  | .set key value ttlSeconds =>
      some (utf8 "SET " ++ key ++ 32 :: value ++
        if 0 < ttlSeconds then utf8 " EX " ++ utf8 (toString ttlSeconds) else [])
  | .get key => some (utf8 "GET " ++ key)
  | .existsKey key => some (utf8 "EXISTS " ++ key)
  | .del key => some (utf8 "DEL " ++ key)
  | .expire key seconds => some (utf8 "EXPIRE " ++ key ++ 32 :: utf8 (toString seconds))
  | .lpush key values => some (appendEach (utf8 "LPUSH " ++ key) values)
  | .lrange _ _ _ => none
  | .llen key => some (utf8 "LLEN " ++ key)
  | .sadd key members => some (appendEach (utf8 "SADD " ++ key) members)
  | .smembers _ => none
  | .sismember key member => some (utf8 "SISMEMBER " ++ key ++ 32 :: member)
  | .srem key member => some (utf8 "SREM " ++ key ++ 32 :: member)
  | .hset key field value => some (utf8 "HSET " ++ key ++ 32 :: field ++ 32 :: value)
  | .hget key field => some (utf8 "HGET " ++ key ++ 32 :: field)
  | .hdel key field => some (utf8 "HDEL " ++ key ++ 32 :: field)
  | .hgetall _ => none
  | .publish channel message => some (utf8 "PUBLISH " ++ channel ++ 32 :: message)
  | .ping => some (utf8 "PING")
  | .info section_ => some (utf8 "INFO " ++ section_)

/-- The name of the operation and its strings, one argument each. -/
def arguments : Operation → List Bytes
  | .set key value ttlSeconds => utf8 "SET" :: key :: value ::
      if 0 < ttlSeconds then [utf8 "EX", utf8 (toString ttlSeconds)] else []
  | .get key => [utf8 "GET", key]
  | .existsKey key => [utf8 "EXISTS", key]
  | .del key => [utf8 "DEL", key]
  | .expire key seconds => [utf8 "EXPIRE", key, utf8 (toString seconds)]
  | .lpush key values => utf8 "LPUSH" :: key :: values
  | .lrange key start stop => [utf8 "LRANGE", key, utf8 (toString start), utf8 (toString stop)]
  | .llen key => [utf8 "LLEN", key]
  | .sadd key members => utf8 "SADD" :: key :: members
  | .smembers key => [utf8 "SMEMBERS", key]
  | .sismember key member => [utf8 "SISMEMBER", key, member]
  | .srem key member => [utf8 "SREM", key, member]
  | .hset key field value => [utf8 "HSET", key, field, value]
  | .hget key field => [utf8 "HGET", key, field]
  | .hdel key field => [utf8 "HDEL", key, field]
  | .hgetall key => [utf8 "HGETALL", key]
  | .publish channel message => [utf8 "PUBLISH", channel, message]
  | .ping => [utf8 "PING"]
  | .info section_ => [utf8 "INFO", section_]

/-! ## What comes back -/

/-- What `send_command` returns, with or without a reply. -/
def sent (reply : Option Reply) : Bytes := (reply.map replyString).getD []

/-- The elements of an array reply that are strings. -/
def elements : Option Reply → List Bytes
  | some (.array l) => l.filterMap (fun e => e.map cut)
  | _ => []

/-- Field and value, two elements a step. An odd number does not come from HGETALL. -/
def pairUp : List (Option Bytes) → List (Bytes × Bytes)
  | some field :: some value :: rest => (cut field, cut value) :: pairUp rest
  | _ :: _ :: rest => pairUp rest
  | _ => []

def answer (op : Operation) (reply : Option Reply) : Result :=
  match op with
  | .set _ _ _ => .bool (sent reply == utf8 "OK")
  | .get _ => .text (sent reply)
  | .existsKey _ => .bool (sent reply == utf8 "1")
  | .del _ => .bool (sent reply != utf8 "0")
  | .expire _ _ => .bool (sent reply == utf8 "1")
  | .lpush _ _ => .bool true
  | .lrange _ _ _ => .texts (elements reply)
  | .llen _ => ((Stoi.stoi 10 (sent reply)).map Result.int).getD .thrown
  | .sadd _ _ => .bool true
  | .smembers _ => .texts (elements reply)
  | .sismember _ _ => .bool (sent reply == utf8 "1")
  | .srem _ _ => .bool (sent reply != utf8 "0")
  | .hset _ _ _ => .bool (sent reply != utf8 "0")
  | .hget _ _ => .text (sent reply)
  | .hdel _ _ => .bool (sent reply != utf8 "0")
  | .hgetall _ => .pairs (match reply with
      | some (.array l) => pairUp l
      | _ => [])
  | .publish _ _ => .bool true
  | .ping => .text (sent reply)
  | .info _ => .text (sent reply)

/-- Without a connection. -/
def failure : Operation → Result
  | .get _ | .hget _ _ | .ping | .info _ => .text []
  | .lrange _ _ _ | .smembers _ => .texts []
  | .hgetall _ => .pairs []
  | .llen _ => .int 0
  | _ => .bool false

/-- What `last_error_` says before the reconnect. -/
def reconnectError : Operation → String
  | .lrange _ _ _ => "Redis LRANGE failed, trying reconnect"
  | .smembers _ => "Redis SMEMBERS failed, trying reconnect"
  | .hgetall _ => "Redis HGETALL failed, trying reconnect"
  | _ => "Redis command failed, trying reconnect"

/-! ## The text and the arguments -/

theorem appendEach_eq (cmd : Bytes) (values : List Bytes) :
    appendEach cmd values = [32].intercalate (cmd :: values) := by
  unfold appendEach
  induction values generalizing cmd with
  | nil => rw [List.foldl_nil, List.intercalate_singleton]
  | cons v values ih =>
      rw [List.foldl_cons, ih, List.intercalate_cons_cons]
      cases values with
      | nil => simp
      | cons w values => simp [List.intercalate_cons_cons]

/-- The first two with the space already there. -/
theorem intercalate_joined (name a : Bytes) (ws : List Bytes) :
    [32].intercalate ((name ++ 32 :: a) :: ws) = [32].intercalate (name :: a :: ws) := by
  cases ws with
  | nil => simp [List.intercalate_cons_cons]
  | cons w ws => simp [List.intercalate_cons_cons]

theorem intercalate_pair (name a : Bytes) : [32].intercalate [name, a] = name ++ 32 :: a := by
  rw [← intercalate_joined, List.intercalate_singleton]

theorem intercalate_triple (name a b : Bytes) :
    [32].intercalate [name, a, b] = name ++ 32 :: a ++ 32 :: b := by
  rw [← intercalate_joined, intercalate_pair]

/-- A text is its arguments with spaces between them. -/
theorem command_eq {op : Operation} {cmd : Bytes} (h : op.command = some cmd) :
    cmd = [32].intercalate op.arguments := by
  have pair := fun name a => (intercalate_pair name a).symm
  have triple := fun name a b => (intercalate_triple name a b).symm
  cases op with
  | set key value ttlSeconds =>
      cases h
      by_cases hpos : 0 < ttlSeconds
      · simp only [arguments, if_pos hpos, List.intercalate_cons_cons, List.intercalate_singleton,
          List.append_assoc]
        rfl
      · simp only [arguments, if_neg hpos, List.append_nil]
        exact triple (utf8 "SET") key value
  | get key => cases h; exact pair (utf8 "GET") key
  | existsKey key => cases h; exact pair (utf8 "EXISTS") key
  | del key => cases h; exact pair (utf8 "DEL") key
  | expire key seconds => cases h; exact triple (utf8 "EXPIRE") key _
  | lpush key values =>
      cases h
      rw [appendEach_eq, arguments, ← intercalate_joined]
      rfl
  | lrange key start stop => cases h
  | llen key => cases h; exact pair (utf8 "LLEN") key
  | sadd key members =>
      cases h
      rw [appendEach_eq, arguments, ← intercalate_joined]
      rfl
  | smembers key => cases h
  | sismember key member => cases h; exact triple (utf8 "SISMEMBER") key member
  | srem key member => cases h; exact triple (utf8 "SREM") key member
  | hset key field value =>
      cases h
      rw [arguments, ← intercalate_joined, intercalate_triple]
      rfl
  | hget key field => cases h; exact triple (utf8 "HGET") key field
  | hdel key field => cases h; exact triple (utf8 "HDEL") key field
  | hgetall key => cases h
  | publish channel message => cases h; exact triple (utf8 "PUBLISH") channel message
  | ping => cases h; rfl
  | info section_ => cases h; exact pair (utf8 "INFO") section_

end Operation

end MessengerBackend.Redis
