/-
  Presence: what `user_status` says about a user, and who is there.

  `mark_user_online` publishes an event for every auth frame and `mark_user_offline` one for
  every disconnect; neither looks at the user's other connections, and a disconnect publishes
  a second event, which has no type. `Board` keeps, next to the server, the commands that have
  reached Redis, which loses none here.

  * `mark`: what a command says about a user: an event, or that the key is deleted. An event
    names its user and its kind (`statusText_injective`).
  * `Consistent`: the events alternate, and the last word is "online" exactly when a
    connection of the user is there.
  * `consistent_of_orderly`: so it is in runs whose events keep `Orderly`.
-/
import MessengerBackend.Redis.Delivery
import MessengerBackend.Redis.Plain
import MessengerBackend.Ws.Index

namespace MessengerBackend.Ws

open Redis (Call Hiredis)

/-! ## Events -/

/-- The kinds of events on `user_status`. -/
inductive Status where
  | online
  | offline
  /-- The second one of a disconnect. -/
  | left
deriving DecidableEq

/-- The payload of an event. -/
def statusEvent (userId : String) (now : UInt64) : Status → Json
  | .online => .obj [("type", .str "user_online"), ("user_id", .str userId),
      ("timestamp", .num (unixTime now))]
  | .offline => .obj [("type", .str "user_offline"), ("user_id", .str userId),
      ("last_seen", .num (unixTime now))]
  | .left => .obj [("user_id", .str userId), ("timestamp", .num (unixTime now))]

theorem markUserOnline_eq (u : String) (now : UInt64) : MessengerServer.markUserOnline u now =
    [.set ("online:" ++ u) (toString (unixTime now)) 300,
      .publish "user_status" (statusEvent u now .online).dump] := rfl

theorem markUserOffline_eq (u : String) (now : UInt64) : MessengerServer.markUserOffline u now =
    [.del ("online:" ++ u), .publish "user_status" (statusEvent u now .offline).dump] := rfl

/-- The text of an event after its brace, up to the user. -/
def Status.lead (now : UInt64) : Status → String
  | .online => "\"timestamp\":" ++ toString (unixTime now) ++ ",\"type\":\"user_online\""
  | .offline => "\"last_seen\":" ++ toString (unixTime now) ++ ",\"type\":\"user_offline\""
  | .left => "\"timestamp\":" ++ toString (unixTime now)

theorem statusEvent_dump (u : String) (now : UInt64) (k : Status) : (statusEvent u now k).dump =
    "\x7b" ++ (k.lead now ++ ",\"user_id\":" ++ Json.quote u) ++ "\x7d" := by
  have htype : Json.quote "type" = "\"type\"" := rfl
  have hid : Json.quote "user_id" = "\"user_id\"" := rfl
  have htime : Json.quote "timestamp" = "\"timestamp\"" := rfl
  have hseen : Json.quote "last_seen" = "\"last_seen\"" := rfl
  have hon : Json.quote "user_online" = "\"user_online\"" := rfl
  have hoff : Json.quote "user_offline" = "\"user_offline\"" := rfl
  apply String.toList_inj.mp
  cases k with
  | online =>
      have hsort : ∀ a b c : String,
          Json.sortFields [("type", a), ("user_id", b), ("timestamp", c)] =
            [("timestamp", c), ("type", a), ("user_id", b)] := by
        intro a b c
        simp [Json.sortFields]
      simp only [statusEvent, Json.dump, Json.dumpFields, hsort, Json.commas, List.map_cons,
        List.map_nil, htype, hid, htime, hon, String.intercalate_cons_cons,
        String.intercalate_singleton, Status.lead, String.toList_append, List.append_assoc]
      simp
  | offline =>
      have hsort : ∀ a b c : String,
          Json.sortFields [("type", a), ("user_id", b), ("last_seen", c)] =
            [("last_seen", c), ("type", a), ("user_id", b)] := by
        intro a b c
        simp [Json.sortFields]
      simp only [statusEvent, Json.dump, Json.dumpFields, hsort, Json.commas, List.map_cons,
        List.map_nil, htype, hid, hseen, hoff, String.intercalate_cons_cons,
        String.intercalate_singleton, Status.lead, String.toList_append, List.append_assoc]
      simp
  | left =>
      have hsort : ∀ a b : String, Json.sortFields [("user_id", a), ("timestamp", b)] =
          [("timestamp", b), ("user_id", a)] := by
        intro a b
        simp [Json.sortFields]
      simp only [statusEvent, Json.dump, Json.dumpFields, hsort, Json.commas, List.map_cons,
        List.map_nil, hid, htime, String.intercalate_cons_cons, String.intercalate_singleton,
        Status.lead, String.toList_append, List.append_assoc]
      simp

/-- An event names its user and says which kind it is. -/
theorem statusEvent_injective {u v : String} {now : UInt64} {k l : Status}
    (h : (statusEvent u now k).dump = (statusEvent v now l).dump) : u = v ∧ k = l := by
  rw [statusEvent_dump, statusEvent_dump] at h
  have hlist := congrArg String.toList h
  simp only [String.toList_append, List.append_assoc] at hlist
  have hkind : k = l := by
    cases k with
    | online =>
        cases l with
        | online => rfl
        | offline => simp [Status.lead] at hlist
        | left => simp [Status.lead] at hlist
    | offline =>
        cases l with
        | online => simp [Status.lead] at hlist
        | offline => rfl
        | left => simp [Status.lead] at hlist
    | left =>
        cases l with
        | online => simp [Status.lead] at hlist
        | offline => simp [Status.lead] at hlist
        | left => rfl
  subst hkind
  simp only [List.append_cancel_left_eq, List.append_cancel_right_eq] at hlist
  exact ⟨Json.quote_injective (String.toList_inj.mp hlist), rfl⟩

/-- What a text without '%' is sent as: no NUL is left in it. -/
theorem mem_statusEvent {u : String} (h : '%' ∉ u.toList) (now : UInt64) (k : Status) {c : Char}
    (hc : c ∈ (statusEvent u now k).dump.toList) : c.toNat ≠ 37 ∧ c.toNat ≠ 0 := by
  have hplain : ∀ {s : String}, Plain s → c ∈ s.toList → c.toNat ≠ 37 ∧ c.toNat ≠ 0 :=
    fun hs hc => (hs c hc).2
  have hlead : Plain (k.lead now) := by
    cases k with
    | online => exact plain_append (plain_append (by decide) (plain_int _)) (by decide)
    | offline => exact plain_append (plain_append (by decide) (plain_int _)) (by decide)
    | left => exact plain_append (by decide) (plain_int _)
  rw [statusEvent_dump] at hc
  simp only [String.toList_append, List.mem_append] at hc
  rcases hc with (hc | (hc | hc) | hc) | hc
  · exact hplain (s := "\x7b") (by decide) hc
  · exact hplain hlead hc
  · exact hplain (s := ",\"user_id\":") (by decide) hc
  · unfold Json.quote at hc
    rw [String.toList_ofList] at hc
    rcases List.mem_append.mp hc with hc | hc
    · rcases List.mem_cons.mp hc with rfl | hc
      · decide
      · obtain ⟨d, hd, hc⟩ := List.mem_flatMap.mp hc
        obtain ⟨h0, rfl | h37⟩ := Json.of_mem_escape hc
        · refine ⟨fun h37 => h ?_, h0⟩
          rw [← Char.ofNat_toNat c, h37] at hd
          exact hd
        · exact ⟨h37.2, h0⟩
    · rw [List.mem_singleton.mp hc]
      decide
  · exact hplain (s := "\x7d") (by decide) hc

theorem quotable_percent {u : String} (h : Quotable u) : '%' ∉ u.toList :=
  fun hc => (h '%' hc).2 rfl

/-- A name without a space gives a text without one. -/
theorem plain_statusEvent {u : String} (h : Quotable u) (now : UInt64) (k : Status) :
    Plain (statusEvent u now k).dump := by
  have hq := Json.plain_quote h
  have hn : Plain (toString (unixTime now)) := plain_int _
  rw [statusEvent_dump]
  refine plain_append (plain_append (by decide) ?_) (by decide)
  refine plain_append (plain_append ?_ (by decide)) hq
  cases k with
  | online => exact plain_append (plain_append (by decide) hn) (by decide)
  | offline => exact plain_append (plain_append (by decide) hn) (by decide)
  | left => exact plain_append (by decide) hn

/-! ## Commands -/

/-- A command that has reached Redis. -/
structure Sent where
  now : UInt64
  args : List Bytes

/-- Redis is healthy: every command arrives once. -/
def sending (hiredis : Hiredis) (now : UInt64) (calls : List Call) : List Sent :=
  calls.filterMap (fun call => (call.args hiredis).map (Sent.mk now))

def statusArgs (userId : String) (now : UInt64) (k : Status) : List Bytes :=
  [utf8 "PUBLISH", utf8 "user_status", utf8 (statusEvent userId now k).dump]

/-- What is said about a user. -/
inductive Mark where
  | published (online : Bool)
  /-- The key is deleted. -/
  | deleted
deriving DecidableEq

def Mark.event : Mark → Option Bool
  | .published online => some online
  | .deleted => none

def mark (userId : String) (x : Sent) : Option Mark :=
  if x.args = statusArgs userId x.now .online then some (.published true)
  else if x.args = statusArgs userId x.now .offline ∨ x.args = statusArgs userId x.now .left then
    some (.published false)
  else if x.args.head? = some (utf8 "DEL") ∧ x.args.tail.contains (utf8 ("online:" ++ userId)) then
    some .deleted
  else none

/-- Redis publishes an event that is marked. -/
theorem execute_of_published {u : String} {x : Sent} {online : Bool}
    (h : mark u x = some (.published online)) (now : Time) (st : Redis.State) :
    ∃ k : Status, decide (k = .online) = online ∧ (Redis.execute now st x.args).1 =
      { st with published :=
          st.published ++ [(utf8 "user_status", utf8 (statusEvent u x.now k).dump)] } := by
  have hexec : ∀ k : Status, (Redis.execute now st (statusArgs u x.now k)).1 =
      { st with published :=
          st.published ++ [(utf8 "user_status", utf8 (statusEvent u x.now k).dump)] } :=
    fun k => rfl
  unfold mark at h
  split at h
  · rename_i hargs
    cases h
    exact ⟨.online, rfl, by rw [hargs, hexec]⟩
  · split at h
    · rename_i hargs
      cases h
      rcases hargs with hargs | hargs
      · exact ⟨.offline, rfl, by rw [hargs, hexec]⟩
      · exact ⟨.left, rfl, by rw [hargs, hexec]⟩
    · split at h
      · cases h
      · cases h

/-- And deletes the key. -/
theorem execute_of_deleted {u : String} {x : Sent} (h : mark u x = some .deleted)
    (now : Time) (st : Redis.State) :
    (Redis.execute now st x.args).1.keys (utf8 ("online:" ++ u)) = none := by
  unfold mark at h
  split at h
  · cases h
  · split at h
    · cases h
    · split at h
      · rename_i hargs
        obtain ⟨hname, hkey⟩ := hargs
        have hkey := List.contains_iff_mem.mp hkey
        cases hx : x.args with
        | nil =>
            rw [hx] at hkey
            cases hkey
        | cons name keys =>
            rw [hx] at hname hkey
            cases Option.some.inj hname
            cases keys with
            | nil => cases hkey
            | cons key keys => exact if_pos hkey
      · cases h

section Commands

variable (hiredis : Hiredis) {u v : String} (now : UInt64)

/-- A command that begins with a plain word and has no '%' after it. -/
theorem args_of_command {call : Call} {name rest : String}
    (hcmd : call.command = some (name ++ " " ++ rest)) (hname : Plain name ∧ name ≠ "")
    (hrest : '%' ∉ rest.toList) :
    call.args hiredis = some (utf8 name :: Redis.words (Redis.cut (utf8 rest))) := by
  have hbytes : (37 : UInt8) ∉ utf8 rest := by
    intro h37
    obtain ⟨c, hc, heq⟩ := mem_utf8 h37 (by decide)
    rw [← Char.ofNat_toNat c, heq] at hc
    exact hrest hc
  have htext : utf8 (name ++ " " ++ rest) = utf8 name ++ 32 :: utf8 rest := by
    rw [utf8_append, utf8_append, List.append_assoc]
    rfl
  unfold Redis.Call.args
  rw [hcmd, Option.bind_some, htext]
  exact hiredis.args_cons (plainWord_utf8 hname.1 hname.2) hbytes

theorem not_mem_append {c : Char} {s t : String} (hs : c ∉ s.toList) (ht : c ∉ t.toList) :
    c ∉ (s ++ t).toList := by
  rw [String.toList_append]
  exact fun hc => (List.mem_append.mp hc).elim hs ht

/-- An event arrives as the words of its text. -/
theorem args_statusEvent (hv : '%' ∉ v.toList) (k : Status) :
    (Call.publish "user_status" (statusEvent v now k).dump).args hiredis =
      some (utf8 "PUBLISH" :: utf8 "user_status" ::
        Redis.words (utf8 (statusEvent v now k).dump)) := by
  have hmem := fun {c : Char} => mem_statusEvent hv now k (c := c)
  have hpercent : '%' ∉ (statusEvent v now k).dump.toList := fun hc => (hmem hc).1 rfl
  have hcmd : (Call.publish "user_status" (statusEvent v now k).dump).command =
      some ("PUBLISH" ++ " " ++ ("user_status" ++ " " ++ (statusEvent v now k).dump)) := by
    simp only [Call.command, String.append_assoc]
    rfl
  rw [args_of_command hiredis hcmd (by decide)
    (not_mem_append (by decide) hpercent)]
  have hnul : (0 : UInt8) ∉ utf8 ("user_status" ++ " " ++ (statusEvent v now k).dump) := by
    intro h0
    obtain ⟨c, hc, heq⟩ := mem_utf8 h0 (by decide)
    simp only [String.toList_append, List.mem_append] at hc
    rcases hc with (hc | hc) | hc
    · have hplain : Plain "user_status" := by decide
      exact (hplain c hc).2.2 heq
    · have hspace : c = ' ' := by simpa using hc
      rw [hspace] at heq
      cases heq
    · exact (hmem hc).2 heq
  rw [Redis.cut_of_forall hnul]
  have htext : utf8 ("user_status" ++ " " ++ (statusEvent v now k).dump) =
      utf8 "user_status" ++ 32 :: utf8 (statusEvent v now k).dump := by
    rw [utf8_append, utf8_append, List.append_assoc]
    rfl
  rw [htext, Redis.words_append,
    Redis.PlainWord.words (plainWord_utf8 (s := "user_status") (by decide) (by decide)),
    List.singleton_append]

/-- So it is an event of another user only if it is that event. -/
theorem words_statusEvent_iff (hu : Quotable u) (k l : Status) :
    Redis.words (utf8 (statusEvent v now k).dump) = [utf8 (statusEvent u now l).dump] ↔
      v = u ∧ k = l := by
  constructor
  · intro h
    have hends : utf8 (statusEvent v now k).dump =
        123 :: utf8 (k.lead now ++ ",\"user_id\":" ++ Json.quote v) ++ [125] := by
      rw [statusEvent_dump, utf8_append, utf8_append]
      rfl
    rw [hends] at h
    have htext := Redis.eq_of_words_singleton (by decide) (by decide) h
    rw [← hends] at htext
    exact statusEvent_injective (utf8_injective htext)
  · rintro ⟨rfl, rfl⟩
    refine Redis.PlainWord.words (plainWord_utf8 (plain_statusEvent hu now k) ?_)
    rw [statusEvent_dump]
    simp

theorem mark_statusEvent (hu : Quotable u) (k : Status) :
    mark u ⟨now, utf8 "PUBLISH" :: utf8 "user_status" ::
        Redis.words (utf8 (statusEvent v now k).dump)⟩ =
      if v = u then some (.published (k = .online)) else none := by
  have hargs : ∀ l : Status, utf8 "PUBLISH" :: utf8 "user_status" ::
      Redis.words (utf8 (statusEvent v now k).dump) = statusArgs u now l ↔ v = u ∧ k = l := by
    intro l
    rw [← words_statusEvent_iff now hu (v := v) k l]
    simp [statusArgs]
  have hdel : utf8 "PUBLISH" ≠ utf8 "DEL" := by decide
  simp only [mark, hargs, List.head?_cons, Option.some.injEq, hdel, false_and, if_false]
  by_cases hv : v = u
  · cases k <;> simp [hv]
  · simp [hv]

/-- SET says nothing. -/
theorem mark_set (ws : List Bytes) : mark u ⟨now, utf8 "SET" :: ws⟩ = none := by
  have hset : ∀ k, utf8 "SET" :: ws ≠ statusArgs u now k := by
    intro k h
    exact absurd (List.cons.inj h).1 (by decide)
  have hdel : utf8 "SET" ≠ utf8 "DEL" := by decide
  simp only [mark, hset, List.head?_cons, Option.some.injEq, hdel, false_and, or_self, if_false]

theorem mark_del (ws : List Bytes) : mark u ⟨now, utf8 "DEL" :: ws⟩ =
    if utf8 ("online:" ++ u) ∈ ws then some .deleted else none := by
  have hdel : ∀ k, utf8 "DEL" :: ws ≠ statusArgs u now k := by
    intro k h
    exact absurd (List.cons.inj h).1 (by decide)
  simp only [mark, hdel, List.head?_cons, List.tail_cons, List.contains_iff_mem, or_self, if_false,
    true_and]

/-- The keys that the disconnect of a user deletes. -/
def deletedKeys (userId : String) : List Bytes :=
  Redis.words (Redis.cut (utf8 ("online:" ++ userId)))

/-- What a sign-in says. -/
theorem marks_online (hu : Quotable u) (hv : '%' ∉ v.toList) :
    (sending hiredis now
      (MessengerServer.markUserOnline v now ++ [.subscribe ("user:" ++ v)])).filterMap (mark u) =
      if v = u then [.published true] else [] := by
  have hset : (Call.set ("online:" ++ v) (toString (unixTime now)) 300).command =
      some ("SET" ++ " " ++ ("online:" ++ v ++ " " ++ toString (unixTime now) ++ " EX 300")) := by
    simp only [Call.command, String.append_assoc]
    rfl
  have hpercent : '%' ∉ (toString (unixTime now)).toList := fun hc => (plain_int _ '%' hc).2.1 rfl
  have hargs := args_of_command hiredis hset (by decide) (not_mem_append
    (not_mem_append (not_mem_append (not_mem_append (by decide) hv) (by decide)) hpercent)
    (by decide))
  rw [markUserOnline_eq]
  simp only [sending, List.cons_append, List.nil_append, List.filterMap_cons, hargs,
    args_statusEvent hiredis now hv, Option.map_some, mark_set, mark_statusEvent now hu]
  by_cases hvu : v = u
  · simp [hvu, Redis.Call.args, Call.command]
  · simp [hvu, Redis.Call.args, Call.command]

/-- What a disconnect says. -/
theorem marks_offline (hu : Quotable u) (hv : '%' ∉ v.toList) :
    (sending hiredis now (MessengerServer.markUserOffline v now ++
      [.publish "user_status" (statusEvent v now .left).dump])).filterMap (mark u) =
      (if utf8 ("online:" ++ u) ∈ deletedKeys v then [.deleted] else []) ++
        if v = u then [.published false, .published false] else [] := by
  have hdel : (Call.del ("online:" ++ v)).command = some ("DEL" ++ " " ++ ("online:" ++ v)) := by
    simp only [Call.command, ← String.append_assoc]
    rfl
  have hargs := args_of_command hiredis hdel (by decide) (not_mem_append (by decide) hv)
  rw [markUserOffline_eq]
  simp only [sending, List.cons_append, List.nil_append, List.filterMap_cons, hargs,
    args_statusEvent hiredis now hv, Option.map_some, mark_del, mark_statusEvent now hu, deletedKeys]
  by_cases hvu : v = u
  · by_cases hkey : utf8 ("online:" ++ u) ∈ Redis.words (Redis.cut (utf8 ("online:" ++ v)))
    · simp [hvu, hvu ▸ hkey]
    · simp [hvu, hvu ▸ hkey]
  · by_cases hkey : utf8 ("online:" ++ u) ∈ Redis.words (Redis.cut (utf8 ("online:" ++ v)))
    · simp [hvu, hkey]
    · simp [hvu, hkey]

end Commands

/-! ## The server and what has reached Redis -/

/-- A frame of type "auth". -/
structure AuthFrame where
  json : Json
  isAuth : json.valueString "type" "unknown" = .ok "auth"

structure Board where
  server : MessengerServer
  sent : List Sent := []

namespace Board

inductive Event where
  | connected (id : Int)
  | auth (id : Int) (frame : AuthFrame)
  | disconnected (id : Int)

def Event.toServer : Event → Ws.Event
  | .connected id => .connected id
  | .auth id frame => .message id (some frame.json)
  | .disconnected id => .disconnected id

/-- The calls on `redis_`. -/
def calls (s : MessengerServer) : UInt64 × Event → List Call
  | (_, .connected _) => []
  | (now, .auth id frame) =>
      match s.onClientMessage id now (some frame.json) with
      | .ok (_, calls) => calls
      | .error _ => []
  | (now, .disconnected id) => ((s.onClientDisconnected id now).map Prod.snd).getD []

def step (hiredis : Hiredis) (b : Board) (e : UInt64 × Event) : Option Board :=
  (b.server.step (e.1, e.2.toServer)).map
    (fun server => ⟨server, b.sent ++ sending hiredis e.1 (calls b.server e)⟩)

def start (key : Bytes) : Board := { server := MessengerServer.empty key }

/-! ## The property -/

def marks (u : String) (b : Board) : List Mark := b.sent.filterMap (mark u)

/-- The events about a user, by whether they say online. -/
def events (u : String) (b : Board) : List Bool := (b.marks u).filterMap Mark.event

/-- online, offline, online, … -/
def Alternating (l : List Bool) : Prop := l.head? ≠ some false ∧ l.IsChain (· ≠ ·)

structure Consistent (u : String) (b : Board) : Prop where
  alternating : Alternating (b.events u)
  present : (b.marks u).getLast? = some (.published true) ↔ ∃ id, b.server.On id u

/-- The condition of one event. -/
def Orderly (u : String) (b : Board) : UInt64 × Event → Prop
  -- no connection of the user is replaced
  | (_, .connected id) => b.server.On id u →
      ConnectionPool.maxConnections ≤ b.server.pool.connections.size
  -- the user signs in on the first connection, and the connection does not change its user
  | (_, .auth id frame) => (b.server.pool.getConnection id).isSome = true →
      ∀ v, signInName (some frame.json) = some v → '%' ∉ v.toList ∧
        if v = u then ∀ i, ¬ b.server.On i u else ¬ b.server.On id u
  -- no connection of the user goes, and nobody's name deletes the key while one is there
  | (_, .disconnected id) => ¬ b.server.On id u ∧
      ∀ c, b.server.pool.getConnection id = some c →
        utf8 ("online:" ++ u) ∈ deletedKeys c.userId → ∀ i, ¬ b.server.On i u

/-! ## The invariant -/

/-- A connection's name has no '%', and it is that of an authenticated user if it is one. -/
def Proper (k : Core) : Prop :=
  '%' ∉ k.userId.toList ∧ (k.userId ≠ "" → k.authenticated = true)

structure Kept (u : String) (b : Board) : Prop where
  proper : ∀ id k, b.server.registry.conns id = some (some k) → Proper k
  /-- Nobody is there and nothing but deletions has been said, or somebody is there and "online"
      is the only event and the last word. -/
  said : ((∀ id, ¬ b.server.On id u) ∧ ∀ m ∈ b.marks u, m = .deleted) ∨
    (∃ id, b.server.On id u) ∧ ∃ l, b.marks u = l ++ [.published true] ∧ ∀ m ∈ l, m = .deleted

variable {u : String} {b : Board}

theorem events_of_deleted {l : List Mark} (h : ∀ m ∈ l, m = .deleted) :
    l.filterMap Mark.event = [] := by
  refine List.filterMap_eq_nil_iff.mpr (fun m hm => ?_)
  rw [h m hm]
  rfl

theorem Kept.consistent (h : Kept u b) : Consistent u b := by
  rcases h.said with ⟨hnobody, hdeleted⟩ | ⟨hsome, l, hl, hdeleted⟩
  · refine ⟨?_, ?_, ?_⟩
    · unfold Alternating events
      rw [events_of_deleted hdeleted]
      exact ⟨by simp, .nil⟩
    · intro hlast
      cases hdeleted _ (List.mem_of_getLast? hlast)
    · rintro ⟨id, hid⟩
      exact absurd hid (hnobody id)
  · refine ⟨?_, fun _ => hsome, fun _ => ?_⟩
    · unfold Alternating events
      rw [hl, List.filterMap_append, events_of_deleted hdeleted]
      exact ⟨by simp [Mark.event], .singleton _⟩
    · rw [hl, List.getLast?_append]
      rfl

/-- The user's connections stay, and nothing is said but deletions while there is none. -/
theorem Kept.stay (h : Kept u b) {server : MessengerServer} {new : List Sent}
    (hproper : ∀ id k, server.registry.conns id = some (some k) → Proper k)
    (hon : ∀ i, server.On i u ↔ b.server.On i u)
    (hnew : ∀ m ∈ new.filterMap (mark u), m = .deleted ∧ ∀ i, ¬ b.server.On i u) :
    Kept u ⟨server, b.sent ++ new⟩ := by
  have hmarks : marks u ⟨server, b.sent ++ new⟩ = b.marks u ++ new.filterMap (mark u) :=
    List.filterMap_append ..
  refine ⟨hproper, ?_⟩
  simp only [hon, hmarks]
  rcases h.said with ⟨hnobody, hdeleted⟩ | ⟨⟨id, hid⟩, l, hl, hdeleted⟩
  · refine Or.inl ⟨hnobody, fun m hm => ?_⟩
    rcases List.mem_append.mp hm with hm | hm
    · exact hdeleted m hm
    · exact (hnew m hm).1
  · have hnil : new.filterMap (mark u) = [] :=
      List.eq_nil_iff_forall_not_mem.mpr (fun m hm => (hnew m hm).2 id hid)
    rw [hnil, List.append_nil]
    exact Or.inr ⟨⟨id, hid⟩, l, hl, hdeleted⟩

/-- The user signs in on a first connection. -/
theorem Kept.enter (h : Kept u b) {server : MessengerServer} {new : List Sent} (id : Int)
    (hproper : ∀ id k, server.registry.conns id = some (some k) → Proper k)
    (hnobody : ∀ i, ¬ b.server.On i u) (hon : server.On id u)
    (hnew : new.filterMap (mark u) = [.published true]) : Kept u ⟨server, b.sent ++ new⟩ := by
  have hmarks : marks u ⟨server, b.sent ++ new⟩ = b.marks u ++ new.filterMap (mark u) :=
    List.filterMap_append ..
  refine ⟨hproper, Or.inr ⟨⟨id, hon⟩, b.marks u, by rw [hmarks, hnew], ?_⟩⟩
  rcases h.said with ⟨_, hdeleted⟩ | ⟨⟨i, hi⟩, _⟩
  · exact hdeleted
  · exact absurd hi (hnobody i)

theorem proper_change (h : Kept u b) {server : MessengerServer} {id : Int}
    (hother : ∀ i, i ≠ id → server.registry.conns i = b.server.registry.conns i)
    (hself : ∀ k, server.registry.conns id = some (some k) → Proper k) :
    ∀ i k, server.registry.conns i = some (some k) → Proper k := by
  intro i k hk
  by_cases hi : i = id
  · subst hi
    exact hself k hk
  · rw [hother i hi] at hk
    exact h.proper i k hk

/-- Only the connection at `id` changes, and it is the user's neither before nor after. -/
theorem Kept.change (h : Kept u b) {server : MessengerServer} {new : List Sent} (id : Int)
    (hother : ∀ i, i ≠ id → server.registry.conns i = b.server.registry.conns i)
    (hnot : ¬ b.server.On id u)
    (hself : ∀ k, server.registry.conns id = some (some k) →
      Proper k ∧ ¬ (k.authenticated = true ∧ k.userId = u))
    (hnew : ∀ m ∈ new.filterMap (mark u), m = .deleted ∧ ∀ i, ¬ b.server.On i u) :
    Kept u ⟨server, b.sent ++ new⟩ := by
  refine h.stay (proper_change h hother (fun k hk => (hself k hk).1)) (fun i => ?_) hnew
  rw [MessengerServer.on_iff] at hnot
  rw [MessengerServer.on_iff, MessengerServer.on_iff]
  by_cases hi : i = id
  · subst hi
    refine ⟨?_, fun hon => absurd hon hnot⟩
    rintro ⟨k, hk, hwho⟩
    exact absurd hwho (hself k hk).2
  · exact ⟨fun hon => hon.congr (hother i hi).symm, fun hon => hon.congr (hother i hi)⟩

/-- Nothing changes and nothing is said. -/
theorem Kept.same (h : Kept u b) {server : MessengerServer}
    (hsame : server.registry = b.server.registry) : Kept u ⟨server, b.sent ++ []⟩ := by
  refine h.stay (fun i k hk => h.proper i k (hsame ▸ hk)) (fun i => ?_) (fun m hm => (nomatch hm))
  rw [MessengerServer.on_iff, MessengerServer.on_iff, hsame]

theorem kept_connected (h : Kept u b) {now : UInt64} {id : Int}
    {server : MessengerServer} (ho : b.Orderly u (now, .connected id))
    (hs : b.server.step (now, .connected id) = some server) : Kept u ⟨server, b.sent ++ []⟩ := by
  have hmove := MessengerServer.move_of_step hs
  generalize hg : server.registry = g at hmove
  cases hmove with
  | same _ => exact h.same hg
  | connect hroom =>
      have hnot : ¬ b.server.On id u := fun hon => absurd (ho hon) (by omega)
      refine h.change id (fun i hi => ?_) hnot (fun k hk => ?_) (fun m hm => (nomatch hm))
      · rw [hg, Registry.connect_conns_of_ne _ _ hi]
      · rw [hg, Registry.connect_conns_self] at hk
        cases hk
        exact ⟨⟨by decide, fun hne => absurd rfl hne⟩, fun hwho => (nomatch hwho.1)⟩
  | drops hdrops =>
      cases hdrops
      exact h.same hg
  | null hlooked _ _ => cases hlooked

/-- An auth frame names its connection. -/
theorem Kept.signIn (hu : Quotable u) (h : Kept u b) (hiredis : Hiredis) (now : UInt64) {id : Int}
    {v : String} {c : Core} {server : MessengerServer} (hpercent : '%' ∉ v.toList)
    (hwho : if v = u then ∀ i, ¬ b.server.On i u else ¬ b.server.On id u)
    (hreg : server.registry = b.server.registry.signIn id v c) :
    Kept u ⟨server, b.sent ++ sending hiredis now
      (MessengerServer.markUserOnline v now ++ [.subscribe ("user:" ++ v)])⟩ := by
  have hmarks := marks_online hiredis now hu hpercent
  have hother : ∀ i, i ≠ id → server.registry.conns i = b.server.registry.conns i := by
    intro i hi
    rw [hreg, Registry.signIn_conns_of_ne _ _ _ _ hi]
  have hself : ∀ k, server.registry.conns id = some (some k) →
      k.userId = v ∧ k.authenticated = true := by
    intro k hk
    rw [hreg, Registry.signIn_conns_self] at hk
    cases hk
    exact ⟨rfl, rfl⟩
  have hproper : ∀ k, server.registry.conns id = some (some k) → Proper k := by
    intro k hk
    obtain ⟨hv, hauth⟩ := hself k hk
    exact ⟨hv ▸ hpercent, fun _ => hauth⟩
  by_cases hv : v = u
  · rw [if_pos hv] at hwho hmarks
    refine h.enter id (proper_change h hother hproper) hwho ?_ hmarks
    rw [MessengerServer.on_iff]
    exact ⟨_, by rw [hreg, Registry.signIn_conns_self], rfl, hv⟩
  · rw [if_neg hv] at hwho hmarks
    refine h.change id hother hwho (fun k hk => ⟨hproper k hk, fun hk' => hv ?_⟩) ?_
    · rw [← (hself k hk).1, hk'.2]
    · rw [hmarks]
      intro m hm
      cases hm

theorem kept_auth (hu : Quotable u) (h : Kept u b) (hiredis : Hiredis) {now : UInt64} {id : Int}
    {frame : AuthFrame} {server : MessengerServer} (ho : b.Orderly u (now, .auth id frame))
    (hs : b.server.step (now, .message id (some frame.json)) = some server) :
    Kept u ⟨server, b.sent ++ sending hiredis now (calls b.server (now, .auth id frame))⟩ := by
  cases hm : b.server.onClientMessage id now (some frame.json) with
  | error e =>
      simp only [MessengerServer.step, hm] at hs
      cases hs
      simp only [calls, hm]
      exact h.same rfl
  | ok x =>
      obtain ⟨s', made⟩ := x
      simp only [MessengerServer.step, hm] at hs
      cases hs
      simp only [calls, hm]
      have other : ∀ {type : String}, frame.json.valueString "type" "unknown" = .ok type →
          type = "auth" := by
        intro type htype
        rw [frame.isAuth] at htype
        exact (Except.ok.inj htype).symm
      cases MessengerServer.handled_of_onClientMessage hm with
      | ignored _ => exact h.same rfl
      | refused _ htype _ => exact absurd (other htype) (by decide)
      | routed _ _ htype _ _ _ => exact absurd (other htype) (by decide)
      | typing _ _ htype => exact absurd (other htype) (by decide)
      | read _ _ htype => exact absurd (other htype) (by decide)
      | @signedIn _ c v hc hname =>
          obtain ⟨hpercent, hwho⟩ := ho (by rw [hc]; rfl) v hname
          refine h.signIn hu hiredis now hpercent hwho (c := c.core) ?_
          rw [MessengerServer.registry_queue]
          exact ConnectionPool.registry_signIn v _ now (ConnectionPool.getConnection_eq_some.mp hc)

theorem kept_disconnected (hu : Quotable u) (h : Kept u b) (hiredis : Hiredis)
    {now : UInt64} {id : Int} {server : MessengerServer}
    (ho : b.Orderly u (now, .disconnected id))
    (hs : b.server.step (now, .disconnected id) = some server) :
    Kept u ⟨server, b.sent ++ sending hiredis now (calls b.server (now, .disconnected id))⟩ := by
  obtain ⟨hnot, hkeys⟩ := ho
  obtain ⟨⟨s', made⟩, hmade, rfl⟩ := Option.map_eq_some_iff.mp hs
  have hcalls : calls b.server (now, .disconnected id) = made := by
    simp only [calls, hmade, Option.map_some, Option.getD_some]
  rw [hcalls]
  rcases MessengerServer.disconnected_cases hmade with ⟨c, hc, rfl, rfl⟩ | ⟨_, rfl, rfl⟩
  · have hget := ConnectionPool.getConnection_eq_some.mpr hc
    have hpercent : '%' ∉ c.userId.toList :=
      (h.proper id c.core (ConnectionPool.registry_conns_of_lookup hc)).1
    have hauth : c.userId ≠ "" → c.authenticated = true :=
      (h.proper id c.core (ConnectionPool.registry_conns_of_lookup hc)).2
    have hreg := b.server.pool.registry_drop id c.userId
    refine h.change id (fun i hi => ?_) hnot (fun k hk => ?_) (fun m hm => ?_)
    · show (b.server.pool.drop id c.userId).registry.conns i = _
      rw [hreg, Registry.drop_conns, if_neg hi]
      rfl
    · have hk : (b.server.pool.drop id c.userId).registry.conns id = some (some k) := hk
      rw [hreg, Registry.drop_conns, if_pos rfl] at hk
      cases hk
    · by_cases hempty : c.userId = ""
      · rw [if_pos hempty] at hm
        cases hm
      · have hother : c.userId ≠ u := fun heq => hnot ⟨c, hc, hauth hempty, heq⟩
        have hmarks := marks_offline hiredis now hu hpercent
        rw [if_neg hother, List.append_nil] at hmarks
        have hm : m ∈ if utf8 ("online:" ++ u) ∈ deletedKeys c.userId then [Mark.deleted]
            else [] := by
          rw [if_neg hempty] at hm
          rw [← hmarks]
          exact hm
        split at hm
        · rename_i hkey
          exact ⟨List.mem_singleton.mp hm, hkeys c hget hkey⟩
        · cases hm
  · exact h.same rfl

/-- The step lemma. -/
theorem kept_step (hu : Quotable u) (hiredis : Hiredis) {e : UInt64 × Event}
    {b' : Board} (h : Kept u b) (ho : b.Orderly u e) (hs : b.step hiredis e = some b') :
    Kept u b' := by
  obtain ⟨server, hserver, rfl⟩ := Option.map_eq_some_iff.mp hs
  obtain ⟨now, e⟩ := e
  cases e with
  | connected id => exact kept_connected h ho hserver
  | auth id frame => exact kept_auth hu h hiredis ho hserver
  | disconnected id => exact kept_disconnected hu h hiredis ho hserver

/-- In every run whose events are orderly for a user, presence is consistent in every state. -/
theorem consistent_of_orderly (hiredis : Hiredis) (key : Bytes) (u : String)
    (hu : Quotable u) (b : Board) (hr : Runs.Reach (step hiredis) (Orderly u) (start key) b) :
    Consistent u b := by
  have h : Kept u b := by
    refine hr.invariant (Kept u) ?_ (fun b e b' h ho hs => kept_step hu hiredis h ho hs)
    refine ⟨fun id k hk => (nomatch hk), Or.inl ⟨?_, fun m hm => (nomatch hm)⟩⟩
    rintro id ⟨c, hc, _⟩
    cases hc
  exact h.consistent

/-! ## Two connections of one user -/

/-- `{"type": "auth", "username": …}` -/
def frameOf (username : String) : AuthFrame where
  json := .obj [("type", .str "auth"), ("username", .str username)]
  isAuth := rfl

/-- Alice is there, Bob comes and goes. -/
def bobVisits : List (UInt64 × Event) :=
  [(0, .connected 1), (0, .auth 1 (frameOf "alice")), (0, .connected 2),
    (0, .auth 2 (frameOf "bob")), (0, .disconnected 2)]

def afterVisit : Board := (Runs.run (step .splitting) (start []) bobVisits).getD (start [])

theorem consistent_of_orderly_alice : Consistent "alice" afterVisit := by
  refine consistent_of_orderly .splitting [] "alice" (by decide) _
    (Runs.Reach.refl.run bobVisits ?_ rfl)
  refine ⟨fun ⟨c, hc, _⟩ => (nomatch hc), fun b hb => ?_⟩
  cases hb
  refine ⟨fun _ v hv => ?_, fun b hb => ?_⟩
  · cases hv
    refine ⟨by decide, ?_⟩
    rw [if_pos rfl]
    rintro i ⟨c, hc, hauth, _⟩
    have hi : i ∈ ([1] : List Int) := Assoc.mem_keys_iff.mpr ⟨_, hc⟩
    obtain rfl := List.mem_singleton.mp hi
    cases hc
    cases hauth
  cases hb
  refine ⟨fun ⟨c, hc, _⟩ => (nomatch hc), fun b hb => ?_⟩
  cases hb
  refine ⟨fun _ v hv => ?_, fun b hb => ?_⟩
  · cases hv
    refine ⟨by decide, ?_⟩
    rw [if_neg (by decide)]
    rintro ⟨c, hc, hauth, _⟩
    cases hc
    cases hauth
  cases hb
  refine ⟨⟨?_, fun c hc hkey => ?_⟩, fun b _ => trivial⟩
  · rintro ⟨c, hc, _, hu⟩
    cases hc
    exact absurd hu (by decide)
  · cases hc
    exact absurd hkey (by decide)

/-- Alice has two connections, and one of them goes. -/
def aliceStays : List (UInt64 × Event) :=
  [(0, .connected 1), (0, .connected 2), (0, .auth 1 (frameOf "alice")),
    (0, .auth 2 (frameOf "alice")), (0, .disconnected 2)]

theorem offline_while_there : ∃ b, Runs.run (step .splitting) (start []) aliceStays = some b ∧
    b.server.On 1 "alice" ∧ b.events "alice" = [true, true, false, false] ∧
    ¬ Alternating (b.events "alice") ∧ ¬ Consistent "alice" b := by
  have hrun : ∃ b, Runs.run (step .splitting) (start []) aliceStays = some b ∧
      b.server.On 1 "alice" ∧ b.sent = [] ++ sending .splitting 0 [] ++ sending .splitting 0 [] ++
        sending .splitting 0 (MessengerServer.markUserOnline "alice" 0 ++
          [.subscribe ("user:" ++ "alice")]) ++
        sending .splitting 0 (MessengerServer.markUserOnline "alice" 0 ++
          [.subscribe ("user:" ++ "alice")]) ++
        sending .splitting 0 (MessengerServer.markUserOffline "alice" 0 ++
          [.publish "user_status" (statusEvent "alice" 0 .left).dump]) :=
    ⟨_, rfl, ⟨_, rfl, rfl, rfl⟩, rfl⟩
  obtain ⟨b, hb, hon, hsent⟩ := hrun
  have hname : Quotable "alice" := by decide
  have hkey : utf8 ("online:" ++ "alice") ∈ deletedKeys "alice" := by decide
  have hmarks : b.marks "alice" = [.published true, .published true, .deleted, .published false,
      .published false] := by
    unfold marks
    rw [hsent]
    simp only [List.filterMap_append, marks_online _ _ hname (quotable_percent hname),
      marks_offline _ _ hname (quotable_percent hname), if_pos, hkey]
    rfl
  have hevents : b.events "alice" = [true, true, false, false] := by
    unfold events
    rw [hmarks]
    rfl
  have hnot : ¬ Alternating (b.events "alice") := by
    rw [hevents]
    rintro ⟨_, hchain⟩
    simp at hchain
  exact ⟨b, hb, hon, hevents, hnot, fun h => hnot h.alternating⟩

end Board

end MessengerBackend.Ws
