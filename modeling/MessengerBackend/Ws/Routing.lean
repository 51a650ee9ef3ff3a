/-
  Chat messages on their way to Redis, over whole runs.

  A frame pushes its content on the recipient's queue and publishes it, by commands that are
  put together from texts of the client. They arrive as meant if these texts are plain.

  * `QueuesCorrect`: every queue reads back as the contents addressed to it, newest first.
  * `Delivers`: what one frame does to Redis.
  * `PlainFrames`: the condition under which a run keeps both (`routed_of_plain`); a content
    of two words becomes two messages (`split_content`).
-/
import MessengerBackend.Lib.Runs
import MessengerBackend.Redis.Plain
import MessengerBackend.Ws.Server

namespace MessengerBackend.Ws

open MessengerServer (queueKey pubsubMsg delivered)

/-- The texts of a `message` frame. -/
structure Frame where
  sender : String
  recipient : String
  content : String

/-- What the parts of a command are put together from is plain. -/
structure Frame.Plain (f : Frame) : Prop where
  sender : Quotable f.sender
  recipient : MessengerBackend.Plain f.recipient
  content : MessengerBackend.Plain f.content ∧ f.content ≠ ""

/-- The server, Redis and its clock. `frames` is the history, which no step reads. -/
structure Backend where
  server : MessengerServer
  redis : Redis.State := {}
  clock : Time
  frames : List Frame := []

inductive RoutingEvent where
  | frame (id : Int) (now : UInt64) (message : Json)
  | tick (t : Time)

/-- An authenticated `message` frame with string fields. -/
def MessengerServer.sentFrame (s : MessengerServer) (id : Int) (message : Json) : Option Frame :=
  match s.pool.getConnection id, message.valueString "type" "unknown",
    message.valueString "to" "", message.valueString "content" "" with
  | some c, .ok type, .ok recipient, .ok content =>
      if c.authenticated = true ∧ type = "message" then some ⟨c.userId, recipient, content⟩ else none
  | _, _, _, _ => none

/-- What is addressed to `r`, newest first. -/
def contentsTo (frames : List Frame) (r : String) : List Bytes :=
  ((frames.filter (fun f => f.recipient == r)).map (fun f => utf8 f.content)).reverse

namespace Backend

def step (hiredis : Redis.Hiredis) (b : Backend) : RoutingEvent → Option Backend
  | .frame id now message =>
      let frames := b.frames ++ (b.server.sentFrame id message).toList
      match b.server.onClientMessage id now (some message) with
      | .ok (server, calls) => some { b with
          server := server
          redis := calls.foldl (Redis.send hiredis b.clock) b.redis
          frames := frames }
      | .error _ => some { b with frames := frames }
  | .tick t => if b.clock ≤ t then some { b with clock := t } else none

/-- Redis is empty. -/
def start (server : MessengerServer) (clock : Time) : Backend := { server := server, clock := clock }

/-! ## The property -/

/-- A key is a C string to `lrange`. -/
def QueuesCorrect (b : Backend) : Prop :=
  ∀ r, (0 : UInt8) ∉ utf8 r →
    Redis.lrange b.clock b.redis (queueKey r) 0 (-1) = contentsTo b.frames r

/-- What a frame does to Redis: nothing to other keys, and one message is published. -/
structure Delivers (b b' : Backend) (f : Frame) : Prop where
  others : ∀ key, key ≠ utf8 (queueKey f.recipient) → b'.redis.keys key = b.redis.keys key
  published : ∃ j : Json, b'.redis.published = b.redis.published ++
      [(utf8 ("user:" ++ f.recipient), utf8 j.dump)] ∧
    j.find "from" = some (.str f.sender) ∧ j.find "content" = some (.str f.content)

/-- A frame with plain texts and with a number as its id, if it has one; and as time passes no
    key expires. -/
def PlainFrames (b : Backend) : RoutingEvent → Prop
  | .frame id _ message => (∃ f, b.server.sentFrame id message = some f ∧ f.Plain) ∧
      ∃ n, message.valueInt "id" 0 = .ok n
  | .tick t => ∀ key, b.redis.live t key = b.redis.live b.clock key

end Backend

/-! ## One frame -/

section OneFrame

variable {s : MessengerServer} {id : Int} {now : UInt64} {message : Json} {f : Frame} {n : Int}

theorem MessengerServer.of_sentFrame (h : s.sentFrame id message = some f) :
    ∃ c, s.pool.getConnection id = some c ∧ c.authenticated = true ∧
      message.valueString "type" "unknown" = .ok "message" ∧
      message.valueString "to" "" = .ok f.recipient ∧
      message.valueString "content" "" = .ok f.content ∧ c.userId = f.sender := by
  unfold sentFrame at h
  split at h
  · rename_i c type recipient content hc htype hto hcontent
    split at h
    · rename_i hmsg
      cases h
      obtain ⟨hauth, rfl⟩ := hmsg
      exact ⟨c, hc, hauth, htype, hto, hcontent, rfl⟩
    · cases h
  · cases h

/-- The calls on Redis. -/
def routeCalls (f : Frame) (n : Int) (now : UInt64) : List Redis.Call :=
  [.lpush (queueKey f.recipient) [f.content], .expire (queueKey f.recipient) 86400,
    .publish ("user:" ++ f.recipient) (pubsubMsg f.sender f.content (UInt64.ofInt n) now).dump]

theorem MessengerServer.onClientMessage_of_sentFrame (h : s.sentFrame id message = some f)
    (hid : message.valueInt "id" 0 = .ok n) (now : UInt64) :
    s.onClientMessage id now (some message) =
      .ok (s.queue id (delivered (UInt64.ofInt n)), routeCalls f n now) := by
  obtain ⟨c, hc, hauth, htype, hto, hcontent, hsender⟩ := of_sentFrame h
  simp only [onClientMessage, handleMessage, handleChatMessage, hc, htype, hto, hcontent, hid,
    hauth, hsender]
  rfl

theorem plain_pubsubMsg (h : f.Plain) (m now : UInt64) :
    Plain (pubsubMsg f.sender f.content m now).dump := by
  refine Json.plain_dump_obj ?_
  intro g hg
  simp only [List.mem_cons, List.not_mem_nil, or_false] at hg
  have hcontent : Quotable f.content := fun c hc => ⟨(h.content.1 c hc).1, (h.content.1 c hc).2.1⟩
  rcases hg with rfl | rfl | rfl | rfl | rfl
  · exact ⟨(by decide : Quotable "type"), Json.plain_quote (by decide)⟩
  · exact ⟨(by decide : Quotable "from"), Json.plain_quote h.sender⟩
  · exact ⟨(by decide : Quotable "message_id"), plain_int _⟩
  · exact ⟨(by decide : Quotable "content"), Json.plain_quote hcontent⟩
  · exact ⟨(by decide : Quotable "timestamp"), plain_int _⟩

/-- What the calls of a plain frame do to Redis. -/
theorem redis_of_plain (hiredis : Redis.Hiredis) {clock : Time} {st : Redis.State} {l : List Bytes}
    (h : f.Plain) (hl : Redis.HoldsList st clock (utf8 (queueKey f.recipient)) l) (n : Int)
    (now : UInt64) :
    ∃ e : Redis.Entry, e.value = .list (utf8 f.content :: l) ∧ e.expired clock = false ∧
      (routeCalls f n now).foldl (Redis.send hiredis clock) st =
        { keys := Function.update st.keys (utf8 (queueKey f.recipient)) (some e)
          published := st.published ++ [(utf8 ("user:" ++ f.recipient),
            utf8 (pubsubMsg f.sender f.content (UInt64.ofInt n) now).dump)] } := by
  have hkey : Plain (queueKey f.recipient) ∧ queueKey f.recipient ≠ "" :=
    ⟨plain_append (by decide) h.recipient, by simp [queueKey]⟩
  have hchannel : Plain ("user:" ++ f.recipient) ∧ "user:" ++ f.recipient ≠ "" :=
    ⟨plain_append (by decide) h.recipient, by simp⟩
  have hdump : (pubsubMsg f.sender f.content (UInt64.ofInt n) now).dump ≠ "" := by
    simp [pubsubMsg, Json.dump]
  obtain ⟨e, hval, hexp, hpush⟩ := Redis.execLpush_of_holds (utf8 "LPUSH") hl (utf8 f.content)
  have hlive : (st.put (utf8 (queueKey f.recipient)) (some e)).live clock
      (utf8 (queueKey f.recipient)) = some e := by
    rw [Redis.live_put _ _ _ _ hexp, if_pos rfl]
  obtain ⟨e', hval', hexp', hexpire⟩ := Redis.execExpire_of_live (utf8 "EXPIRE") hlive
    (by decide : Redis.number (utf8 (toString (86400 : Int))) = some 86400) (by decide)
  refine ⟨e', hval'.trans hval, hexp', ?_⟩
  simp only [routeCalls, List.foldl_cons, List.foldl_nil]
  rw [Redis.send_lpush hiredis clock st hkey h.content, hpush, Redis.send_expire hiredis clock _ hkey,
    hexpire, Redis.send_publish hiredis clock _ hchannel ⟨plain_pubsubMsg h _ now, hdump⟩]
  simp only [Redis.State.put, Function.update_idem]

end OneFrame

namespace Backend

/-! ## The invariant -/

structure Routed (b : Backend) : Prop where
  holds : ∀ r, Redis.HoldsList b.redis b.clock (utf8 (queueKey r)) (contentsTo b.frames r)
  plain : ∀ f ∈ b.frames, f.Plain

theorem contentsTo_append (frames : List Frame) (f : Frame) (r : String) :
    contentsTo (frames ++ [f]) r =
      if f.recipient = r then utf8 f.content :: contentsTo frames r else contentsTo frames r := by
  unfold contentsTo
  rw [List.filter_append, List.map_append, List.reverse_append]
  by_cases hr : f.recipient = r
  · simp [hr]
  · simp [hr]

theorem queueKey_injective {r r' : String} (h : utf8 (queueKey r) = utf8 (queueKey r')) :
    r = r' := by
  have := utf8_injective h
  unfold queueKey at this
  simpa using this

variable {hiredis : Redis.Hiredis} {b b' : Backend}

theorem routed_frame {id : Int} {now : UInt64} {message : Json} {f : Frame} (h : b.Routed)
    (hp : b.PlainFrames (.frame id now message)) (hf : b.server.sentFrame id message = some f)
    (hs : b.step hiredis (.frame id now message) = some b') : b'.Routed ∧ Delivers b b' f := by
  obtain ⟨⟨g, hg, hplain⟩, n, hn⟩ := hp
  rw [hf] at hg
  cases hg
  obtain ⟨e, hval, hexp, hredis⟩ := redis_of_plain hiredis hplain (h.holds f.recipient) n now
  have hstep : b' = { b with
      server := b.server.queue id (delivered (UInt64.ofInt n))
      redis := (routeCalls f n now).foldl (Redis.send hiredis b.clock) b.redis
      frames := b.frames ++ [f] } := by
    simp only [step, hf, MessengerServer.onClientMessage_of_sentFrame hf hn] at hs
    exact (Option.some.inj hs).symm
  rw [hredis] at hstep
  subst hstep
  refine ⟨⟨fun r => ?_, fun g hg => ?_⟩, fun key hkey => ?_, ?_⟩
  · have hlive : (b.redis.put (utf8 (queueKey f.recipient)) (some e)).live b.clock
        (utf8 (queueKey r)) = if f.recipient = r then some e else
          b.redis.live b.clock (utf8 (queueKey r)) := by
      rw [Redis.live_put _ _ _ _ hexp]
      exact if_congr ⟨fun heq => (queueKey_injective heq).symm, fun heq => heq ▸ rfl⟩ rfl rfl
    show (((b.redis.put (utf8 (queueKey f.recipient)) (some e)).live b.clock
      (utf8 (queueKey r))).map Redis.Entry.value) = _
    rw [hlive, contentsTo_append]
    by_cases hr : f.recipient = r
    · subst hr
      rw [if_pos rfl, if_pos rfl, Option.map_some, hval, if_neg (List.cons_ne_nil _ _)]
    · rw [if_neg hr, if_neg hr]
      exact h.holds r
  · rcases List.mem_append.mp hg with hg | hg
    · exact h.plain g hg
    · rw [List.mem_singleton.mp hg]
      exact hplain
  · exact Function.update_of_ne hkey _ _
  · exact ⟨_, rfl, rfl, rfl⟩

/-- The step lemma. -/
theorem routed_step {e : RoutingEvent} (h : b.Routed) (hp : b.PlainFrames e)
    (hs : b.step hiredis e = some b') : b'.Routed := by
  cases e with
  | frame id now message =>
      obtain ⟨f, hf, _⟩ := hp.1
      exact (routed_frame h hp hf hs).1
  | tick t =>
      simp only [step] at hs
      split at hs
      · cases hs
        refine ⟨fun r => ?_, h.plain⟩
        unfold Redis.HoldsList
        rw [hp]
        exact h.holds r
      · cases hs

theorem Routed.queuesCorrect (h : b.Routed) : b.QueuesCorrect := by
  intro r hr
  refine Redis.lrange_of_holds (h.holds r) ?_ ?_
  · unfold queueKey
    rw [utf8_append, List.mem_append, not_or]
    exact ⟨by decide, hr⟩
  · intro bs hbs
    unfold contentsTo at hbs
    obtain ⟨f, hf, rfl⟩ := List.mem_map.mp (List.mem_reverse.mp hbs)
    have hplain := h.plain f (List.mem_of_mem_filter hf)
    exact fun h0 => ((plainWord_utf8 hplain.content.1 hplain.content.2).2 0 h0).2.2 rfl

/-- In every run of plain frames every queue is the contents addressed to it, and each frame
    that comes next changes no other key and publishes itself once. -/
theorem routed_of_plain (hiredis : Redis.Hiredis) (server : MessengerServer) (clock : Time)
    (b : Backend) (hr : Runs.Reach (step hiredis) PlainFrames (start server clock) b) :
    b.QueuesCorrect ∧ ∀ id now message f b', b.PlainFrames (.frame id now message) →
      b.server.sentFrame id message = some f →
      b.step hiredis (.frame id now message) = some b' → Delivers b b' f := by
  have h : b.Routed := by
    refine hr.invariant Routed ?_ (fun b e b' h hp hs => routed_step h hp hs)
    exact ⟨fun r => rfl, fun f hf => (nomatch hf)⟩
  exact ⟨h.queuesCorrect, fun id now message f b' hp hf hs => (routed_frame h hp hf hs).2⟩

/-! ## Two runs -/

/-- Alice is signed in on connection 7. -/
def aliceServer : MessengerServer :=
  (Runs.run MessengerServer.step (MessengerServer.empty []) [(0, .connected 7),
    (0, .message 7 (some (.obj [("type", .str "auth"), ("username", .str "alice")])))]).getD
      (MessengerServer.empty [])

/-- Alice writes to Bob. -/
def toBob (content : String) : RoutingEvent :=
  .frame 7 0 (.obj [("type", .str "message"), ("to", .str "bob"), ("content", .str content)])

def after (es : List RoutingEvent) : Backend :=
  (Runs.run (step .splitting) (start aliceServer 0) es).getD (start aliceServer 0)

theorem routed_of_plain_alice : (after [toBob "hi"]).QueuesCorrect ∧
    ∀ id now message f b', (after [toBob "hi"]).PlainFrames (.frame id now message) →
      (after [toBob "hi"]).server.sentFrame id message = some f →
      (after [toBob "hi"]).step .splitting (.frame id now message) = some b' →
      Delivers (after [toBob "hi"]) b' f := by
  refine routed_of_plain .splitting aliceServer 0 _ (Runs.Reach.refl.run [toBob "hi"] ?_ rfl)
  refine ⟨⟨⟨⟨"alice", "bob", "hi"⟩, rfl, ?_⟩, 0, rfl⟩, fun b _ => trivial⟩
  exact ⟨by decide, by decide, by decide⟩

/-- Two words are two messages, the second one first. -/
theorem split_content : ∃ b,
    Runs.run (step .splitting) (start aliceServer 0) [toBob "a b"] = some b ∧
      Redis.lrange b.clock b.redis (queueKey "bob") 0 (-1) = [utf8 "b", utf8 "a"] ∧
      contentsTo b.frames "bob" = [utf8 "a b"] ∧ ¬ b.QueuesCorrect := by
  have hread : Redis.lrange 0 (after [toBob "a b"]).redis (queueKey "bob") 0 (-1) =
      [utf8 "b", utf8 "a"] := by decide
  refine ⟨after [toBob "a b"], rfl, hread, rfl, fun hall => ?_⟩
  have hbob := (hall "bob" (by decide)).symm.trans hread
  exact absurd hbob (by decide)

end Backend

end MessengerBackend.Ws
