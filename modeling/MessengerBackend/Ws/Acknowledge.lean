/-
  What a chat message's confirmation is worth, over a network that loses commands.

  `handle_message` makes three calls on `redis_`, looks at no result, and then confirms. A
  call that finds no connection, or whose command is lost, is like any other to it; and one
  whose reply is lost is made again.

  * `Acknowledged`: a message that is confirmed has been put on the recipient's queue
    (`acknowledged_iff`; without, `confirmed_not_stored`).
  * `AtMostOnce`: a call pushes or publishes its message at most once (`atMostOnce_iff`;
    without, `stored_twice`).

  Both theorems say exactly which runs keep the property.
-/
import MessengerBackend.Redis.Delivery
import MessengerBackend.Ws.Routing
import MessengerBackend.Ws.Sockets

namespace MessengerBackend.Ws

open MessengerServer (queueKey pubsubMsg delivered)
open Redis (Call Execution Fate ComesBack Pushable Arrives Wanting Lands copies pushes publishes)

/-- A chat message on its way. -/
structure Sending where
  frame : Frame
  /-- The calls made, with what Redis executed of them. -/
  made : List (Call × List Execution)
  /-- `message_delivered` has been queued. -/
  confirmed : Bool

/-- The server and Redis. `sendings` is the history, which no step reads. -/
structure Link where
  server : MessengerServer
  redis : Redis.State := {}
  sendings : List Sending := []

inductive LinkEvent where
  /-- `fates` says what becomes of the calls, by their number. -/
  | frame (id : Int) (now : UInt64) (raw : Option Json) (fates : Nat → Fate)
  /-- Whatever else happens to the server and to Redis. -/
  | elsewhere (server : MessengerServer) (redis : Redis.State)

/-- An authenticated `message` frame whose fields convert, and its id. -/
def MessengerServer.sentMessage (s : MessengerServer) (id : Int) (raw : Option Json) :
    Option (Frame × Int) :=
  match raw with
  | none => none
  | some message =>
      match s.sentFrame id message, message.valueInt "id" 0 with
      | some f, .ok n => some (f, n)
      | _, _ => none

/-- Every handler queues its answer last. -/
def MessengerServer.withdraw (id : Int) (queue : List Message) (s : MessengerServer) :
    MessengerServer :=
  { s with pool := s.pool.modify id (fun c => { c with outgoingQueue := queue }) }

namespace Link

/-- A handler that waits in a call forever has not queued its answer. -/
def step (hiredis : Redis.Hiredis) (b : Link) : LinkEvent → Option Link
  | .frame id now raw fates =>
      match b.server.onClientMessage id now raw with
      | .error _ => some b
      | .ok (server, calls) =>
          let p := Redis.perform hiredis fates b.redis 0 calls
          some {
            server := if p.returned then server else server.withdraw id (b.server.pending id)
            redis := p.state
            sendings := b.sendings ++ (b.server.sentMessage id raw).toList.map
              (fun x => ⟨x.1, p.made, p.returned⟩) }
  | .elsewhere server redis => some { b with server := server, redis := redis }

end Link

/-! ## The properties -/

namespace Sending

/-- Some execution of LPUSH has put the content on the recipient's queue. -/
def Stored (x : Sending) : Prop :=
  ∃ xs, (Call.lpush (queueKey x.frame.recipient) [x.frame.content], xs) ∈ x.made ∧
    0 < pushes (utf8 (queueKey x.frame.recipient)) (utf8 x.frame.content) xs

def Acknowledged (x : Sending) : Prop := x.confirmed = true → x.Stored

/-- No call has its effect twice. -/
def AtMostOnce (x : Sending) : Prop :=
  (∀ key values xs, (Call.lpush key values, xs) ∈ x.made →
    ∀ value ∈ values, pushes (utf8 key) (utf8 value) xs ≤ 1) ∧
  ∀ channel message xs, (Call.publish channel message, xs) ∈ x.made →
    publishes (utf8 channel) (utf8 message) xs ≤ 1

end Sending

/-- The arguments of a frame's LPUSH and of its PUBLISH. -/
def lpushArguments (f : Frame) : List Bytes :=
  [utf8 "LPUSH", utf8 (queueKey f.recipient), utf8 f.content]

def publishArguments (f : Frame) (n : Int) (now : UInt64) : List Bytes :=
  [utf8 "PUBLISH", utf8 ("user:" ++ f.recipient),
    utf8 (pubsubMsg f.sender f.content (UInt64.ofInt n) now).dump]

namespace Link

/-- One of the calls does not come back, or LPUSH has the content for an argument and is
    executed on a key that takes it. -/
def Acknowledges (hiredis : Redis.Hiredis) (b : Link) : LinkEvent → Prop
  | .frame id now raw fates => ∀ f n, b.server.sentMessage id raw = some (f, n) →
      (∃ k call, (routeCalls f n now)[k]? = some call ∧ ¬ ComesBack hiredis fates k call) ∨
      Lands hiredis (utf8 (queueKey f.recipient)) (utf8 f.content) ∧
        ((fates 0).executedFirst ∧ Pushable b.redis (fates 0).first.now (utf8 (queueKey f.recipient)) ∨
          (fates 0).executedSecond ∧
            Pushable b.redis (fates 0).second.now (utf8 (queueKey f.recipient)))
  | .elsewhere _ _ => True

/-- Neither LPUSH nor PUBLISH arrives, takes effect and is then executed a second time; nor does
    an LPUSH that asks for arguments put more than one copy on the queue. -/
def Once (hiredis : Redis.Hiredis) (b : Link) : LinkEvent → Prop
  | .frame id now raw fates => ∀ f n, b.server.sentMessage id raw = some (f, n) →
      ¬ (Arrives (lpushArguments f) ∧ (fates 0).executedFirst ∧
          Pushable b.redis (fates 0).first.now (utf8 (queueKey f.recipient)) ∧
          (fates 0).executedSecond) ∧
        (Wanting (lpushArguments f) →
          copies (utf8 (queueKey f.recipient)) (utf8 f.content)
              (hiredis.args (Redis.cut ([32].intercalate (lpushArguments f)))) *
            (fates 0).effects b.redis (utf8 (queueKey f.recipient)) ≤ 1) ∧
        ((∀ k call, k < 2 → (routeCalls f n now)[k]? = some call → ComesBack hiredis fates k call) →
          ¬ (hiredis.Keeps (publishArguments f n now) ∧ (fates 2).executedFirst ∧
            (fates 2).executedSecond))
  | .elsewhere _ _ => True

end Link

/-! ## One frame -/

section OneFrame

variable {hiredis : Redis.Hiredis} {fates : Nat → Fate} {st : Redis.State} {f : Frame} {n : Int}
  {now : UInt64}

theorem args_lpush (hiredis : Redis.Hiredis) (f : Frame) :
    (Call.lpush (queueKey f.recipient) [f.content]).args hiredis =
      hiredis.args (Redis.cut ([32].intercalate (lpushArguments f))) := by
  have hop : (Call.lpush (queueKey f.recipient) [f.content]).operation =
      some (.lpush (utf8 (queueKey f.recipient)) [utf8 f.content]) := rfl
  exact Redis.Call.args_of_operation hiredis hop rfl

theorem args_publish (hiredis : Redis.Hiredis) (f : Frame) (n : Int) (now : UInt64) :
    (Call.publish ("user:" ++ f.recipient)
        (pubsubMsg f.sender f.content (UInt64.ofInt n) now).dump).args hiredis =
      hiredis.args (Redis.cut ([32].intercalate (publishArguments f n now))) := by
  have hop : (Call.publish ("user:" ++ f.recipient)
      (pubsubMsg f.sender f.content (UInt64.ofInt n) now).dump).operation =
      some (.publish (utf8 ("user:" ++ f.recipient))
        (utf8 (pubsubMsg f.sender f.content (UInt64.ofInt n) now).dump)) := rfl
  exact Redis.Call.args_of_operation hiredis hop rfl

/-- The calls that a frame makes: LPUSH always, PUBLISH if the two before it come back. -/
theorem made_lpush {key : String} {values : List String} {xs : List Execution} :
    (Call.lpush key values, xs) ∈
        (Redis.perform hiredis fates st 0 (routeCalls f n now)).made ↔
      key = queueKey f.recipient ∧ values = [f.content] ∧
        xs = (fates 0).executions
          (hiredis.args (Redis.cut ([32].intercalate (lpushArguments f)))) st := by
  constructor
  · intro h
    obtain ⟨k, st', hk, hxs, hst, _⟩ := Redis.of_mem_made _ _ _ _ _ h
    match k with
    | 0 =>
        cases hk
        rw [hst rfl, args_lpush] at hxs
        exact ⟨rfl, rfl, hxs⟩
    | 1 => cases hk
    | 2 => cases hk
    | k + 3 => cases hk
  · rintro ⟨rfl, rfl, rfl⟩
    obtain ⟨st', hmem, hst⟩ := Redis.mem_made_of hiredis fates
      (routeCalls f n now) st 0 (k := 0) rfl (fun j c hj => absurd hj (Nat.not_lt_zero j))
    rwa [hst rfl, args_lpush] at hmem

theorem made_publish {channel message : String} {xs : List Execution} :
    (Call.publish channel message, xs) ∈
        (Redis.perform hiredis fates st 0 (routeCalls f n now)).made →
      channel = "user:" ++ f.recipient ∧
        message = (pubsubMsg f.sender f.content (UInt64.ofInt n) now).dump ∧
        (∃ st', xs = (fates 2).executions
          (hiredis.args (Redis.cut ([32].intercalate (publishArguments f n now)))) st') ∧
        ∀ k call, k < 2 → (routeCalls f n now)[k]? = some call → ComesBack hiredis fates k call := by
  intro h
  obtain ⟨k, st', hk, hxs, _, hback⟩ := Redis.of_mem_made _ _ _ _ _ h
  match k with
  | 0 => cases hk
  | 1 => cases hk
  | 2 =>
      cases hk
      rw [args_publish] at hxs
      refine ⟨rfl, rfl, ⟨st', hxs⟩, fun k call hlt hcall => ?_⟩
      have := hback k call hlt hcall
      rwa [Nat.zero_add] at this
  | k + 3 => cases hk

/-- What a frame adds to the history is acknowledged exactly under the condition. -/
theorem acknowledged_frame (hd : hiredis.Directives) :
    (Sending.mk f (Redis.perform hiredis fates st 0 (routeCalls f n now)).made
        (Redis.perform hiredis fates st 0 (routeCalls f n now)).returned).Acknowledged ↔
      (∃ k call, (routeCalls f n now)[k]? = some call ∧ ¬ ComesBack hiredis fates k call) ∨
      Lands hiredis (utf8 (queueKey f.recipient)) (utf8 f.content) ∧
        ((fates 0).executedFirst ∧ Pushable st (fates 0).first.now (utf8 (queueKey f.recipient)) ∨
          (fates 0).executedSecond ∧
            Pushable st (fates 0).second.now (utf8 (queueKey f.recipient))) := by
  have hstored : (Sending.mk f (Redis.perform hiredis fates st 0 (routeCalls f n now)).made
      (Redis.perform hiredis fates st 0 (routeCalls f n now)).returned).Stored ↔
      Lands hiredis (utf8 (queueKey f.recipient)) (utf8 f.content) ∧
        ((fates 0).executedFirst ∧ Pushable st (fates 0).first.now (utf8 (queueKey f.recipient)) ∨
          (fates 0).executedSecond ∧
            Pushable st (fates 0).second.now (utf8 (queueKey f.recipient))) := by
    refine Iff.trans ?_ (Redis.pushes_pos_iff st (fates 0) hd (utf8 (queueKey f.recipient))
      (utf8 f.content))
    constructor
    · rintro ⟨xs, hmem, hpos⟩
      obtain ⟨_, _, rfl⟩ := made_lpush.mp hmem
      exact hpos
    · exact fun hpos => ⟨_, made_lpush.mpr ⟨rfl, rfl, rfl⟩, hpos⟩
  have hback := Redis.returned_iff hiredis fates (routeCalls f n now) st 0
  simp only [Nat.zero_add] at hback
  unfold Sending.Acknowledged
  rw [hstored, hback]
  constructor
  · intro h
    by_cases hall : ∀ k call, (routeCalls f n now)[k]? = some call → ComesBack hiredis fates k call
    · exact Or.inr (h hall)
    · push Not at hall
      exact Or.inl hall
  · rintro (⟨k, call, hk, hno⟩ | h) hall
    · exact absurd (hall k call hk) hno
    · exact h

/-- And has its effects at most once exactly under the other one. -/
theorem once_frame (hd : hiredis.Directives) (returned : Bool) :
    (Sending.mk f (Redis.perform hiredis fates st 0 (routeCalls f n now)).made
        returned).AtMostOnce ↔
      ¬ (Arrives (lpushArguments f) ∧ (fates 0).executedFirst ∧
          Pushable st (fates 0).first.now (utf8 (queueKey f.recipient)) ∧
          (fates 0).executedSecond) ∧
        (Wanting (lpushArguments f) →
          copies (utf8 (queueKey f.recipient)) (utf8 f.content)
              (hiredis.args (Redis.cut ([32].intercalate (lpushArguments f)))) *
            (fates 0).effects st (utf8 (queueKey f.recipient)) ≤ 1) ∧
        ((∀ k call, k < 2 → (routeCalls f n now)[k]? = some call → ComesBack hiredis fates k call) →
          ¬ (hiredis.Keeps (publishArguments f n now) ∧ (fates 2).executedFirst ∧
            (fates 2).executedSecond)) := by
  have hpush := Redis.pushes_le_one_iff st (fates 0) hd (utf8 (queueKey f.recipient))
    (utf8 f.content)
  have hpublish := fun st' => Redis.publishes_le_one_iff st' (fates 2) hd
    (utf8 ("user:" ++ f.recipient)) (utf8 (pubsubMsg f.sender f.content (UInt64.ofInt n) now).dump)
  rw [← and_assoc]
  constructor
  · rintro ⟨hl, hp⟩
    refine ⟨?_, fun hback => ?_⟩
    · exact hpush.mp (hl _ _ _ (made_lpush.mpr ⟨rfl, rfl, rfl⟩) _ List.mem_cons_self)
    · obtain ⟨st', hmem, _⟩ := Redis.mem_made_of hiredis fates (routeCalls f n now) st 0
        (k := 2) rfl (fun j c hj hc => by
          rw [Nat.zero_add]
          exact hback j c hj hc)
      rw [args_publish] at hmem
      exact (hpublish st').mp (hp _ _ _ hmem)
  · rintro ⟨hl, hp⟩
    refine ⟨fun key values xs hmem value hvalue => ?_, fun channel message xs hmem => ?_⟩
    · obtain ⟨rfl, rfl, rfl⟩ := made_lpush.mp hmem
      rw [List.mem_singleton.mp hvalue]
      exact hpush.mpr hl
    · obtain ⟨rfl, rfl, ⟨st', rfl⟩, hback⟩ := made_publish hmem
      exact (hpublish st').mpr (hp hback)

end OneFrame

namespace Link

variable {hiredis : Redis.Hiredis} {b b' : Link}

/-- What a frame adds to the history. -/
theorem sendings_frame {id : Int} {now : UInt64} {raw : Option Json} {fates : Nat → Fate}
    (hs : b.step hiredis (.frame id now raw fates) = some b') :
    match b.server.sentMessage id raw with
    | none => b'.sendings = b.sendings
    | some (f, n) => b'.sendings = b.sendings ++
        [⟨f, (Redis.perform hiredis fates b.redis 0 (routeCalls f n now)).made,
          (Redis.perform hiredis fates b.redis 0 (routeCalls f n now)).returned⟩] := by
  cases hsent : b.server.sentMessage id raw with
  | none =>
      simp only [step, hsent] at hs
      split at hs
      · cases hs
        rfl
      · cases hs
        simp
  | some x =>
      obtain ⟨f, n⟩ := x
      have hsame := hsent
      unfold MessengerServer.sentMessage at hsent
      cases raw with
      | none => cases hsent
      | some message =>
          simp only at hsent
          split at hsent
          · rename_i f' n' hf hn
            cases hsent
            simp only [step, MessengerServer.onClientMessage_of_sentFrame hf hn, hsame] at hs
            cases hs
            simp
          · cases hsent

theorem pending_modify {s : MessengerServer} {id : Int} {c : WebSocketConnection}
    (hc : s.pool.getConnection id = some c) (f : WebSocketConnection → WebSocketConnection) :
    MessengerServer.pending { s with pool := s.pool.modify id f } id = (f c).outgoingQueue := by
  have hlookup : (s.pool.modify id f).connections.lookup id = some (some (f c)) := by
    rw [ConnectionPool.lookup_modify, if_pos rfl, ConnectionPool.getConnection_eq_some.mp hc]
    rfl
  simp only [MessengerServer.pending, ConnectionPool.getConnection_eq_some.mpr hlookup]
  rfl

/-- The confirmation is queued when all calls have come back. -/
theorem pending_frame {id : Int} {now : UInt64} {message : Json} {fates : Nat → Fate} {f : Frame}
    {n : Int} (hf : b.server.sentFrame id message = some f) (hn : message.valueInt "id" 0 = .ok n)
    (hs : b.step hiredis (.frame id now (some message) fates) = some b') :
    b'.server.pending id = b.server.pending id ++
      if (Redis.perform hiredis fates b.redis 0 (routeCalls f n now)).returned then
        [delivered (UInt64.ofInt n)] else [] := by
  obtain ⟨c, hc, _⟩ := MessengerServer.of_sentFrame hf
  have hold : b.server.pending id = c.outgoingQueue := by
    unfold MessengerServer.pending
    rw [hc]
    rfl
  have hqueued : (b.server.queue id (delivered (UInt64.ofInt n))).pending id =
      c.outgoingQueue ++ [delivered (UInt64.ofInt n)] := pending_modify hc _
  simp only [step, MessengerServer.onClientMessage_of_sentFrame hf hn] at hs
  cases hs
  split
  · rw [hold]
    exact hqueued
  · rw [List.append_nil]
    have hc' : (b.server.queue id (delivered (UInt64.ofInt n))).pool.getConnection id =
        some (WebSocketConnection.queueMessage (delivered (UInt64.ofInt n)) c) := by
      refine ConnectionPool.getConnection_eq_some.mpr ?_
      show (b.server.pool.modify id _).connections.lookup id = _
      rw [ConnectionPool.lookup_modify, if_pos rfl, ConnectionPool.getConnection_eq_some.mp hc]
      rfl
    exact pending_modify hc' _

section History

variable {Good : Sending → Prop} {Cond : Link → LinkEvent → Prop}
  (hframe : ∀ (b : Link) id now raw fates, Cond b (.frame id now raw fates) ↔
    ∀ f n, b.server.sentMessage id raw = some (f, n) →
      Good ⟨f, (Redis.perform hiredis fates b.redis 0 (routeCalls f n now)).made,
        (Redis.perform hiredis fates b.redis 0 (routeCalls f n now)).returned⟩)
  (helse : ∀ (b : Link) server redis, Cond b (.elsewhere server redis))

include hframe helse

/-- The step lemma for a property of the history. -/
theorem history_step (b : Link) (e : LinkEvent) (b' : Link) (hs : b.step hiredis e = some b') :
    (∀ x ∈ b'.sendings, Good x) ↔ (∀ x ∈ b.sendings, Good x) ∧ Cond b e := by
  cases e with
  | elsewhere server redis =>
      cases hs
      exact (and_iff_left (helse b server redis)).symm
  | frame id now raw fates =>
      have hadd := sendings_frame hs
      rw [hframe]
      cases hsent : b.server.sentMessage id raw with
      | none =>
          rw [hsent] at hadd
          rw [hadd]
          exact (and_iff_left (fun f n h => (nomatch h))).symm
      | some x =>
          rw [hsent] at hadd
          rw [hadd]
          simp only [List.mem_append, List.mem_singleton, or_imp, forall_and, forall_eq]
          refine and_congr_right (fun _ => ⟨fun h f n heq => ?_, fun h => h x.1 x.2 rfl⟩)
          cases heq
          exact h

/-- The run lemma. -/
theorem history_run (hempty : b.sendings = []) (es : List LinkEvent)
    (hrun : Runs.run (step hiredis) b es = some b') :
    (∀ x ∈ b'.sendings, Good x) ↔ Runs.Meets (step hiredis) Cond b es := by
  have hstep := history_step hframe helse
  rw [Runs.run_iff_meets (fun b => ∀ x ∈ b.sendings, Good x) hstep es hrun, hempty]
  exact and_iff_right (fun x hx => (nomatch hx))

end History

/-- A run acknowledges no message that is not stored exactly if none of its frames does. -/
theorem acknowledged_iff (hd : hiredis.Directives) (hempty : b.sendings = [])
    (es : List LinkEvent) (hrun : Runs.run (step hiredis) b es = some b') :
    (∀ x ∈ b'.sendings, x.Acknowledged) ↔
      Runs.Meets (step hiredis) (Acknowledges hiredis) b es := by
  refine history_run ?_ (fun _ _ _ => trivial) hempty es hrun
  intro b id now raw fates
  exact forall_congr' fun f => forall_congr' fun n => imp_congr_right
    fun _ => (acknowledged_frame hd).symm

/-- A run has no effect twice exactly if none of its frames has. -/
theorem atMostOnce_iff (hd : hiredis.Directives) (hempty : b.sendings = [])
    (es : List LinkEvent) (hrun : Runs.run (step hiredis) b es = some b') :
    (∀ x ∈ b'.sendings, x.AtMostOnce) ↔ Runs.Meets (step hiredis) (Once hiredis) b es := by
  refine history_run ?_ (fun _ _ _ => trivial) hempty es hrun
  intro b id now raw fates
  exact forall_congr' fun f => forall_congr' fun n => imp_congr_right
    fun _ => (once_frame hd _).symm

/-! ## Alice writes to Bob -/

/-- Alice is signed in on connection 7, and Redis is empty. -/
def alice : Link := { server := Backend.aliceServer }

def hi : Option Json :=
  some (.obj [("type", .str "message"), ("to", .str "bob"), ("content", .str "hi")])

def toBob (fate : Fate) : LinkEvent := .frame 7 0 hi (fun _ => fate)

def healthy : Fate := ⟨true, ⟨0, .answered⟩, none, ⟨0, .lost⟩⟩

/-- All connections are in use. -/
def busy : Fate := ⟨false, ⟨0, .lost⟩, none, ⟨0, .lost⟩⟩

/-- The first reply is lost, and the reconnect succeeds. -/
def again : Fate := ⟨true, ⟨0, .unanswered⟩, some true, ⟨0, .answered⟩⟩

def after (fate : Fate) : Link := ((alice.step .strict (toBob fate))).getD alice

theorem sent_hi : alice.server.sentMessage 7 hi = some (⟨"alice", "bob", "hi"⟩, 0) := rfl

theorem step_alice (fate : Fate) : alice.step .strict (toBob fate) = some (after fate) := rfl

/-- What Alice's message adds to the history. -/
theorem mem_sendings (fate : Fate) :
    ⟨⟨"alice", "bob", "hi"⟩,
      (Redis.perform .strict (fun _ => fate) {} 0 (routeCalls ⟨"alice", "bob", "hi"⟩ 0 0)).made,
      (Redis.perform .strict (fun _ => fate) {} 0 (routeCalls ⟨"alice", "bob", "hi"⟩ 0 0)).returned⟩ ∈
      (after fate).sendings := by
  have hadd := sendings_frame (step_alice fate)
  rw [sent_hi] at hadd
  rw [hadd]
  exact List.mem_append_right _ List.mem_cons_self

theorem acknowledged_iff_alice : (∀ x ∈ (after healthy).sendings, x.Acknowledged) ↔
    Runs.Meets (step .strict) (Acknowledges .strict) alice [toBob healthy] :=
  acknowledged_iff Redis.Hiredis.strict_directives rfl [toBob healthy] rfl

theorem atMostOnce_iff_alice : (∀ x ∈ (after healthy).sendings, x.AtMostOnce) ↔
    Runs.Meets (step .strict) (Once .strict) alice [toBob healthy] :=
  atMostOnce_iff Redis.Hiredis.strict_directives rfl [toBob healthy] rfl

/-- No connection is free: the confirmation is queued, and nothing is stored. -/
theorem confirmed_not_stored : ∃ b, Runs.run (step .strict) alice [toBob busy] = some b ∧
    (b.server.pending 7).map Message.type = ["auth_success", "message_delivered"] ∧
    ¬ ∀ x ∈ b.sendings, x.Acknowledged := by
  refine ⟨after busy, rfl, rfl, fun hall => ?_⟩
  have hreturned : (Redis.perform .strict (fun _ => busy) {} 0
      (routeCalls ⟨"alice", "bob", "hi"⟩ 0 0)).returned = true :=
    (Redis.returned_iff ..).mpr
      (fun _ _ _ => Or.inr (by simp only [Fate.returns, busy, Bool.not_false, Bool.true_or]))
  have hacknowledged := hall _ (mem_sendings busy)
  simp only [Sending.Acknowledged] at hacknowledged
  obtain ⟨xs, hmem, hpos⟩ := hacknowledged hreturned
  obtain ⟨_, _, rfl⟩ := made_lpush.mp hmem
  exact absurd hpos (Nat.lt_irrefl 0)

set_option maxRecDepth 2000 in
/-- A reply is lost: the content is stored twice. -/
theorem stored_twice : ∃ b, Runs.run (step .strict) alice [toBob again] = some b ∧
    Redis.lrange 0 b.redis (queueKey "bob") 0 (-1) = [utf8 "hi", utf8 "hi"] ∧
    ¬ ∀ x ∈ b.sendings, x.AtMostOnce := by
  refine ⟨after again, rfl, by decide, fun hall => ?_⟩
  have hle := (hall _ (mem_sendings again)).1 (queueKey "bob") ["hi"] _
    (made_lpush.mpr ⟨rfl, rfl, rfl⟩) "hi" List.mem_cons_self
  exact absurd hle (by decide)

end Link

end MessengerBackend.Ws
