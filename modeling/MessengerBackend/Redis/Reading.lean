/-
  The commands that only read, and a client at work on a server that answers.

  `execute` has the commands that the server's own code sends; `executeAll` adds EXISTS, LLEN,
  SMEMBERS, SISMEMBER, HGET, HGETALL, PING and INFO, which other callers of `RedisClient` can
  send. What INFO says is the server's own, and a parameter.

  `Session.call` is one operation of a client: `Client.operate`, with the reply of the server
  to the arguments that the format gives.
-/
import MessengerBackend.Redis.Encoding
import MessengerBackend.Redis.Pool
import MessengerBackend.Redis.Server

namespace MessengerBackend.Redis

section Commands

variable (now : Time) (st : State)

/-- A key that is named twice counts twice. -/
def execExists : List Bytes → Reply
  | _ :: key :: keys => .integer ((key :: keys).countP (fun k => (st.live now k).isSome) : Nat)
  | _ => wrongArity

def execLlen : List Bytes → Reply
  | [_, key] =>
      match (st.live now key).map Entry.value with
      | none => .integer 0
      | some (.list l) => .integer (l.length : Nat)
      | some _ => wrongType
  | _ => wrongArity

def execSmembers : List Bytes → Reply
  | [_, key] =>
      match (st.live now key).map Entry.value with
      | none => .array []
      | some (.set members) => .array (members.map some)
      | some _ => wrongType
  | _ => wrongArity

def execSismember : List Bytes → Reply
  | [_, key, member] =>
      match (st.live now key).map Entry.value with
      | none => .integer 0
      | some (.set members) => .integer (if members.contains member then 1 else 0)
      | some _ => wrongType
  | _ => wrongArity

/-- The value of a field. -/
def getField (fields : List (Bytes × Bytes)) (field : Bytes) : Option Bytes :=
  (fields.find? (fun f => f.1 == field)).map Prod.snd

def execHget : List Bytes → Reply
  | [_, key, field] =>
      match (st.live now key).map Entry.value with
      | none => .nil
      | some (.hash fields) => ((getField fields field).map Reply.string).getD .nil
      | some _ => wrongType
  | _ => wrongArity

/-- Field and value in turn. -/
def execHgetall : List Bytes → Reply
  | [_, key] =>
      match (st.live now key).map Entry.value with
      | none => .array []
      | some (.hash fields) => .array (fields.flatMap (fun f => [some f.1, some f.2]))
      | some _ => wrongType
  | _ => wrongArity

def execPing : List Bytes → Reply
  | [_] => .status (utf8 "PONG")
  | [_, message] => .string message
  | _ => wrongArity

def execInfo (info : Bytes → Bytes) : List Bytes → Reply
  | [_] => .string (info (utf8 "default"))
  | [_, section_] => .string (info section_)
  | _ => syntaxError

/-- One command of any kind. -/
def executeAll (info : Bytes → Bytes) (args : List Bytes) : State × Reply :=
  match args with
  | [] => (st, .nil)
  | name :: _ =>
      if name = utf8 "EXISTS" then (st, execExists now st args)
      else if name = utf8 "LLEN" then (st, execLlen now st args)
      else if name = utf8 "SMEMBERS" then (st, execSmembers now st args)
      else if name = utf8 "SISMEMBER" then (st, execSismember now st args)
      else if name = utf8 "HGET" then (st, execHget now st args)
      else if name = utf8 "HGETALL" then (st, execHgetall now st args)
      else if name = utf8 "PING" then (st, execPing args)
      else if name = utf8 "INFO" then (st, execInfo info args)
      else execute now st args

end Commands

/-! ## An operation of the client -/

/-- The arguments that reach Redis: out of the text of the command, or each on its own. -/
def Operation.args (hiredis : Hiredis) (op : Operation) : Option (List Bytes) :=
  match op.command with
  | some cmd => hiredis.args (cut cmd)
  | none => some (op.arguments.map cut)

theorem Operation.args_of_plain (hiredis : Hiredis) {op : Operation}
    (h : ∀ w ∈ op.arguments, PlainWord w) : op.args hiredis = some op.arguments := by
  unfold args
  cases hcmd : op.command with
  | none =>
      refine congrArg some ((List.map_congr_left (fun w hw => ?_)).trans (List.map_id _))
      exact cut_of_forall (fun h0 => ((h w hw).2 0 h0).2.2 rfl)
  | some cmd =>
      show hiredis.args (cut cmd) = _
      rw [command_eq hcmd, cut_intercalate h, hiredis.args_intercalate h (arguments_ne_nil op)]

structure Session where
  client : Client
  server : State

/-- What the rest of the world is: the splitting of formats, INFO, the network at a reconnect. -/
structure Surroundings where
  hiredis : Hiredis
  info : Bytes → Bytes
  network : Network

/-- An operation at time `now`; `none` when it does not come back. Where it sends nothing,
    nothing is executed. -/
def Session.call (w : Surroundings) (s : Session) (now : Time) (op : Operation) :
    Session × Option Result :=
  let executed := (op.args w.hiredis).map (executeAll now s.server w.info)
  let used := s.client.operate op (executed.map Prod.snd) w.network none
  (⟨used.client, if used.issued = [] then s.server else (executed.map Prod.fst).getD s.server⟩,
    used.result)

/-- Operations one after the other. -/
def Session.calls (w : Surroundings) : Session → List (Time × Operation) →
    Session × List (Option Result)
  | s, [] => (s, [])
  | s, (now, op) :: ops =>
      let first := s.call w now op
      let rest := first.1.calls w ops
      (rest.1, first.2 :: rest.2)

namespace Client

/-- Nobody has the mutex for good, and there is a connection that nobody has borrowed and that
    has a context. -/
structure Ready (c : Client) : Prop where
  usable : c.usable = true
  free : c.firstFree.isSome = true

/-- The connection goes back as it was. -/
theorem setInUse_setInUse {c : Client} {i : Nat} (h : c.pool[i]?.map Connection.inUse = some false) :
    (c.setInUse i true).setInUse i false = c := by
  have hpool : (c.pool.modify i (fun k => { k with inUse := true })).modify i
      (fun k => { k with inUse := false }) = c.pool := by
    refine List.ext_getElem? (fun j => ?_)
    rw [List.getElem?_modify, List.getElem?_modify]
    by_cases hj : i = j
    · subst hj
      cases hk : c.pool[i]? with
      | none => simp
      | some k =>
          rw [hk] at h
          have hk' : k.inUse = false := Option.some.inj h
          simp [← hk']
    · simp [hj]
  unfold setInUse
  rw [hpool]

/-- With a reply there is one command, and the client is as before. -/
theorem operate_of_ready {c : Client} (h : c.Ready) (op : Operation) (reply : Reply) (net : Network)
    (second : Option Reply) : ∃ context, c.operate op (some reply) net second =
      ⟨c, [some context], some (op.answer (some reply))⟩ := by
  obtain ⟨hlocked, hcontexts⟩ := usable_iff.mp h.usable
  obtain ⟨i, hfree⟩ := Option.isSome_iff_exists.mp h.free
  have hacquire := acquire_of_unlocked hlocked
  rw [hfree] at hacquire
  obtain ⟨hi, hnot, _⟩ := List.findIdx?_eq_some_iff_getElem.mp hfree
  obtain ⟨context, hcontext⟩ := Option.isSome_iff_exists.mp (hcontexts i hfree)
  rw [← contextOf_setInUse c i i true] at hcontext
  have hback : (c.setInUse i true).setInUse i false = c := by
    refine setInUse_setInUse ?_
    rw [List.getElem?_eq_getElem hi]
    simpa using hnot
  refine ⟨context, ?_⟩
  simp only [operate, hacquire, hcontext, hback]

end Client

/-- An operation on plain words, on a client that is ready. -/
theorem Session.call_of_ready (w : Surroundings) {s : Session} (h : s.client.Ready) (now : Time)
    {op : Operation} (hplain : ∀ w ∈ op.arguments, PlainWord w) :
    s.call w now op = (⟨s.client, (executeAll now s.server w.info op.arguments).1⟩,
      some (op.answer (some (executeAll now s.server w.info op.arguments).2))) := by
  obtain ⟨context, hoperate⟩ := Client.operate_of_ready h op
    (executeAll now s.server w.info op.arguments).2 w.network none
  unfold call
  rw [Operation.args_of_plain w.hiredis hplain]
  simp only [Option.map_some, hoperate, Option.getD_some, List.cons_ne_nil, if_false]

end MessengerBackend.Redis
