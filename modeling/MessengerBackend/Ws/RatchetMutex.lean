/-
  `handle_authentication` and its mutex, among the other handlers.

  Crow calls the handlers from several threads. Here every event of the server is a thread; it
  is handled in one step, except that an auth frame goes through the points of
  `handle_authentication` from the guard on `ratchet_mutex_` to its end. A thread that locks
  a mutex somebody has waits, and `ratchet_mutex_` is not recursive: it makes no difference
  that it is the thread itself.

  * `never_answered`: whatever else runs, an auth frame of a connection that is there never
    comes to its end, and no answer is queued.
  * `next_of_waiting`: at the second lock a thread waits for itself.
  * `onClientMessage_of_signIn`: without the mutex it would be what Ws/Server says.
-/
import MessengerBackend.Lib.Interleave
import MessengerBackend.Ws.Index

namespace MessengerBackend.Ws

open Interleave (System)

namespace RatchetMutex

inductive Point where
  | enter
  /-- At `std::lock_guard`. -/
  | guard
  /-- At `ratchet_mutex_.lock()`. -/
  | lock
  /-- At the user's ratchet, which nothing reads. -/
  | ratchet
  | unlock
  | respond
  /-- At the end of the guard. -/
  | release
  | done

structure Thread where
  event : Event
  point : Point := .enter
  /-- It has locked `ratchet_mutex_` and not unlocked it since. -/
  holds : Bool := false
  userId : String := ""
  sessionToken : String := ""
  /-- The connection that it has got: its id, and which one of that id it is. -/
  conn : Int × Nat := (0, 0)

def Thread.at (point : Point) (t : Thread) : Thread := { t with point := point }

structure Shared where
  server : MessengerServer
  /-- How many connections have been made with an id. -/
  made : Int → Nat := fun _ => 0
  /-- Somebody has locked `ratchet_mutex_`. -/
  locked : Bool := false

/-- A message queued by `handle_authentication`, and the id of its connection. -/
abbrev Answer := Int × Message

/-! ## The handlers -/

/-- Another event, in one step; after a fault nothing comes. -/
def handle (now : UInt64) (t : Thread) (s : Shared) : Shared × Thread × List Answer :=
  match s.server.step (now, t.event) with
  | none => (s, t, [])
  | some server =>
      let made := match t.event with
        | .connected id =>
            if s.server.pool.connections.size < ConnectionPool.maxConnections then
              Function.update s.made id (s.made id + 1)
            else s.made
        | _ => s.made
      ({ s with server := server, made := made }, t.at .done, [])

/-- `handle_authentication` up to the guard. -/
def authenticate (id : Int) (now : UInt64) (authData : Json) (t : Thread) (s : Shared) :
    Shared × Thread × List Answer :=
  match s.server.pool.getConnection id with
  | none => (s, t.at .done, [])
  | some _ =>
      match authData.valueString "username" "", authData.valueString "password" "" with
      | .ok username, .ok password =>
          match MessengerServer.authenticateUser username password now with
          | some (userId, sessionToken) =>
              let pool := (s.server.pool.modify id
                (MessengerServer.signIn userId sessionToken now)).registerUser userId id
              ({ s with server := { s.server with pool := pool } },
                { t with
                  point := .guard, userId := userId, sessionToken := sessionToken,
                  conn := (id, s.made id) }, [])
          | none =>
              ({ s with server := s.server.queue id MessengerServer.authFailed }, t.at .done,
                [(id, MessengerServer.authFailed)])
      -- an exception
      | _, _ => (s, t.at .done, [])

def isAuth (message : Json) : Bool :=
  match message.valueString "type" "unknown" with
  | .ok type => type = "auth"
  | .error _ => false

/-- One step at time `now`. A thread that waits for the mutex does not move. -/
def step (t : Thread) (now : UInt64) (s : Shared) : Shared × Thread × List Answer :=
  match t.point with
  | .enter =>
      match t.event with
      | .message id (some message) =>
          if isAuth message then authenticate id now message t s else handle now t s
      | _ => handle now t s
  | .guard =>
      if s.locked then (s, t, [])
      else ({ s with locked := true }, { t with point := .lock, holds := true }, [])
  | .lock =>
      if s.locked then (s, t, [])
      else ({ s with locked := true }, { t with point := .ratchet, holds := true }, [])
  | .ratchet => (s, t.at .unlock, [])
  | .unlock => ({ s with locked := false }, { t with point := .respond, holds := false }, [])
  | .respond =>
      let msg := MessengerServer.authSuccess t.userId t.sessionToken s.server.serverPublicKey now
      -- the connection may have gone, or another one may have its id
      (if s.made t.conn.1 = t.conn.2 then { s with server := s.server.queue t.conn.1 msg } else s,
        t.at .release, [(t.conn.1, msg)])
  | .release => ({ s with locked := false }, { t with point := .done, holds := false }, [])
  | .done => (s, t, [])

def system : Interleave.System Event Thread Shared UInt64 Answer where
  start event := { event := event }
  step := step

abbrev World := Interleave.Config Event Thread Shared Answer

def start (key : Bytes) : World := .init { server := MessengerServer.empty key }

/-- Every interleaving. -/
abbrev Reach : World → World → Prop := system.Reach (fun _ _ => True)

/-! ## What a step does -/

/-- The points before the ratchet. -/
def Point.early : Point → Prop
  | .enter | .guard | .lock | .done => True
  | _ => False

/-- The points where it waits. -/
def Point.waits : Point → Prop
  | .guard | .lock => True
  | _ => False

/-- A thread does not pass the second lock, since the mutex is locked there. -/
structure Stays (t : Thread) (s : Shared) (x : Shared × Thread × List Answer) : Prop where
  silent : x.2.2 = []
  early : x.2.1.point.early
  locked : s.locked = true → x.1.locked = true
  atLock : x.2.1.point = .lock → x.1.locked = true ∧ x.2.1.holds = true
  waits : t.point.waits → x.2.1.point.waits
  event : x.2.1.event = t.event

theorem stays_of_enter {t t' : Thread} {s s' : Shared} (hp : t.point = .enter)
    (hlocked : s.locked = true → s'.locked = true) (hearly : t'.point.early)
    (hlock : t'.point ≠ .lock) (hevent : t'.event = t.event) : Stays t s (s', t', []) := by
  refine ⟨rfl, hearly, hlocked, fun h => absurd h hlock, fun h => ?_, hevent⟩
  rw [hp] at h
  cases h

theorem stays_handle {t : Thread} {s : Shared} (now : UInt64) (hp : t.point = .enter) :
    Stays t s (handle now t s) := by
  unfold handle
  split
  · exact stays_of_enter hp (fun h => h) (hp ▸ trivial) (by rw [hp]; simp) rfl
  · exact stays_of_enter hp (fun h => h) trivial (by simp [Thread.at]) rfl

theorem stays_authenticate {t : Thread} {s : Shared} (id : Int) (now : UInt64) (authData : Json)
    (hp : t.point = .enter) : Stays t s (authenticate id now authData t s) := by
  have leaves : Stays t s (s, t.at .done, []) :=
    stays_of_enter hp (fun h => h) trivial (by simp [Thread.at]) rfl
  unfold authenticate
  split
  · exact leaves
  · split
    · exact stays_of_enter hp (fun h => h) trivial (by simp) rfl
    · exact leaves

/-- The step lemma for one thread. -/
theorem stays_step {t : Thread} {s : Shared} (now : UInt64) (hearly : t.point.early)
    (hlock : t.point = .lock → s.locked = true ∧ t.holds = true) : Stays t s (step t now s) := by
  unfold step
  cases hp : t.point with
  | enter =>
      simp only
      split
      · split
        · exact stays_authenticate _ now _ hp
        · exact stays_handle now hp
      · exact stays_handle now hp
  | guard =>
      simp only
      split
      · exact ⟨rfl, hearly, fun h => h, hlock, fun h => h, rfl⟩
      · exact ⟨rfl, trivial, fun _ => rfl, fun _ => ⟨rfl, rfl⟩, fun _ => trivial, rfl⟩
  | lock =>
      have hlocked := (hlock hp).1
      simp only [hlocked, if_true]
      exact ⟨rfl, hearly, fun h => h, hlock, fun h => h, rfl⟩
  | ratchet => rw [hp] at hearly; cases hearly
  | unlock => rw [hp] at hearly; cases hearly
  | respond => rw [hp] at hearly; cases hearly
  | release => rw [hp] at hearly; cases hearly
  | done => exact ⟨rfl, hearly, fun h => h, hlock, fun h => h, rfl⟩

/-! ## Runs -/

/-- A thread of event `e` is before the ratchet, and at the second lock it has the mutex. -/
structure Placed (s : Shared) (e : Event) (t : Thread) : Prop where
  early : t.point.early
  atLock : t.point = .lock → s.locked = true ∧ t.holds = true
  event : t.event = e

/-- Nobody is past the second lock, and nobody has been answered. -/
structure Blocked (w : World) : Prop where
  placed : ∀ (i : Nat) (e : Event) (t : Thread), w.threads[i]? = some (e, t) → Placed w.shared e t
  silent : w.trace = []

theorem blocked_spawn {w : World} (h : Blocked w) (e : Event) :
    Blocked { w with threads := w.threads ++ [(e, system.start e)] } :=
  ⟨Interleave.each_spawned h.placed ⟨trivial, fun hlock => (nomatch hlock), rfl⟩, h.silent⟩

theorem Blocked.stays {w : World} (h : Blocked w) {i : Nat} {e : Event} {t : Thread}
    (now : UInt64) (hi : w.threads[i]? = some (e, t)) : Stays t w.shared (step t now w.shared) :=
  stays_step now (h.placed i e t hi).early (h.placed i e t hi).atLock

theorem blocked_advance {w : World} (h : Blocked w) {i : Nat} {e : Event} {t : Thread}
    (now : UInt64) (hi : w.threads[i]? = some (e, t)) :
    Blocked (system.advance w i e t now) := by
  have hstays := h.stays now hi
  refine ⟨Interleave.each_moved h.placed (fun e' t' hp => ?_) ?_, ?_⟩
  · refine ⟨hp.early, fun hlock => ?_, hp.event⟩
    obtain ⟨hlocked, hholds⟩ := hp.atLock hlock
    exact ⟨hstays.locked hlocked, hholds⟩
  · exact ⟨hstays.early, hstays.atLock, hstays.event.trans (h.placed i e t hi).event⟩
  · show w.trace ++ (step t now w.shared).2.2.map (Prod.mk i) = []
    rw [h.silent, hstays.silent]
    rfl

theorem blocked_of_reach {w w' : World} (h : Blocked w) (hr : Reach w w') : Blocked w' := by
  refine System.Reach.induct Blocked h (fun w e _ h _ => blocked_spawn h e) ?_ hr
  exact fun w i e t now _ h _ hi => blocked_advance h now hi

/-- Thread `i` waits for the mutex. -/
def Waiting (i : Nat) (w : World) : Prop :=
  ∃ (e : Event) (t : Thread), w.threads[i]? = some (e, t) ∧ t.point.waits

/-- And does so forever. -/
theorem waiting_of_reach {w w' : World} {i : Nat} (h : Blocked w) (hi : Waiting i w)
    (hr : Reach w w') : Waiting i w' := by
  refine (System.Reach.induct (fun w => Blocked w ∧ Waiting i w) ⟨h, hi⟩ ?_ ?_ hr).2
  · rintro w e _ ⟨h, e₁, t₁, hi, hwaits⟩ _
    exact ⟨blocked_spawn h e, e₁, t₁, Interleave.getElem?_spawned _ hi, hwaits⟩
  · rintro w j e t now _ ⟨h, e₁, t₁, hi, hwaits⟩ _ hj
    refine ⟨blocked_advance h now hj, ?_⟩
    by_cases hij : i = j
    · subst hij
      cases hi.symm.trans hj
      exact ⟨e, _, List.getElem?_set_self (List.getElem?_eq_some_iff.mp hi).1,
        (h.stays now hi).waits hwaits⟩
    · exact ⟨e₁, t₁, (List.getElem?_set_ne (Ne.symm hij)).trans hi, hwaits⟩

theorem isAuth_of_signInName {message : Json} {u : String}
    (h : signInName (some message) = some u) : isAuth message = true ∧
      message.valueString "username" "" = .ok u ∧
      ∃ password, message.valueString "password" "" = .ok password := by
  unfold signInName at h
  simp only at h
  split at h
  · rename_i type username password htype hname hpassword
    split at h
    · rename_i hauth
      cases h
      refine ⟨?_, hname, password, hpassword⟩
      unfold isAuth
      rw [htype]
      exact decide_eq_true hauth
    · cases h
  · cases h

/-- What an auth frame does before the guard. -/
theorem step_of_signIn {t : Thread} {s : Shared} {id : Int} {message : Json} {u : String}
    {c : WebSocketConnection} (now : UInt64) (hp : t.point = .enter)
    (he : t.event = .message id (some message)) (hc : s.server.pool.getConnection id = some c)
    (hname : signInName (some message) = some u) :
    (step t now s).2.1.point = .guard := by
  obtain ⟨hauth, huser, password, hpassword⟩ := isAuth_of_signInName hname
  unfold step
  simp only [hp, he, hauth, if_true]
  unfold authenticate
  simp only [hc, huser, hpassword, MessengerServer.authenticateUser]

/-- With the mutex got and given back, the steps are those of `handle_authentication` in
    Ws/Server. -/
theorem onClientMessage_of_signIn {t : Thread} {s : Shared} {id : Int} {message : Json} {u : String}
    {c : WebSocketConnection} (now : UInt64) (hp : t.point = .enter)
    (he : t.event = .message id (some message)) (hc : s.server.pool.getConnection id = some c)
    (hname : signInName (some message) = some u) : ∃ calls,
    s.server.onClientMessage id now (some message) =
      .ok ((step ((step t now s).2.1.at .respond) now (step t now s).1).1.server, calls) := by
  obtain ⟨hauth, huser, password, hpassword⟩ := isAuth_of_signInName hname
  have htype : message.valueString "type" "unknown" = .ok "auth" := by
    unfold isAuth at hauth
    split at hauth
    · rename_i type htype
      rw [htype, of_decide_eq_true hauth]
    · cases hauth
  have hstep : step t now s = authenticate id now message t s := by
    unfold step
    simp only [hp, he, hauth, if_true]
  refine ⟨MessengerServer.markUserOnline u now ++ [.subscribe ("user:" ++ u)], ?_⟩
  rw [hstep]
  show MessengerServer.handleMessage id now message s.server = _
  unfold MessengerServer.handleMessage authenticate
  simp only [hc, htype, huser, hpassword, MessengerServer.authenticateUser]
  show MessengerServer.handleAuthentication id now message s.server = _
  unfold MessengerServer.handleAuthentication
  simp only [hc, huser, hpassword, MessengerServer.authenticateUser]
  simp only [step, Thread.at, if_true]
  rfl

/-- Whatever else runs, an auth frame of a connection that is there never comes to its end: it
    waits, if not at the guard, at the mutex that it has locked itself. Nobody is answered. -/
theorem never_answered (key : Bytes) (w : World) (hr : Reach (start key) w) {i : Nat} {id : Int}
    {message : Json} {t : Thread} {c : WebSocketConnection} {u : String}
    (hi : w.threads[i]? = some (.message id (some message), t)) (hp : t.point = .enter)
    (hc : w.shared.server.pool.getConnection id = some c)
    (hname : signInName (some message) = some u) (now : UInt64) (w' : World)
    (hr' : Reach (system.next w (.run i now)) w') :
    (∃ e t', w'.threads[i]? = some (e, t') ∧
      (t'.point = .guard ∨ t'.point = .lock ∧ t'.holds = true)) ∧ w'.trace = [] := by
  have h : Blocked w := by
    refine blocked_of_reach ⟨fun j e t hj => ?_, rfl⟩ hr
    cases hj
  rw [system.next_run hi] at hr'
  have hblocked := blocked_advance h now hi
  have hwaiting : Waiting i (system.advance w i (.message id (some message)) t now) := by
    refine ⟨_, _, List.getElem?_set_self (List.getElem?_eq_some_iff.mp hi).1, ?_⟩
    show (step t now w.shared).2.1.point.waits
    rw [step_of_signIn now hp (h.placed i _ t hi).event hc hname]
    trivial
  have hblocked' := blocked_of_reach hblocked hr'
  obtain ⟨e, t', hi', hwaits⟩ := waiting_of_reach hblocked hwaiting hr'
  refine ⟨⟨e, t', hi', ?_⟩, hblocked'.silent⟩
  cases hpoint : t'.point with
  | guard => exact Or.inl rfl
  | lock => exact Or.inr ⟨rfl, ((hblocked'.placed i e t' hi').atLock hpoint).2⟩
  | _ =>
      rw [hpoint] at hwaits
      cases hwaits

/-! ## One auth frame -/

/-- A thread at the second lock does not move. -/
theorem next_of_waiting {w : World} {i : Nat} {e : Event} {t : Thread} (now : UInt64)
    (hi : w.threads[i]? = some (e, t)) (hp : t.point = .lock) (hlocked : w.shared.locked = true) :
    system.next w (.run i now) = w := by
  have hstep : step t now w.shared = (w.shared, t, []) := by
    unfold step
    simp only [hp, hlocked, if_true]
  have hsame : w.threads.set i (e, t) = w.threads := by
    obtain ⟨hlt, heq⟩ := List.getElem?_eq_some_iff.mp hi
    rw [← heq, List.set_getElem_self]
  rw [system.next_run hi]
  show Interleave.Config.mk (step t now w.shared).1 (w.threads.set i (e, (step t now w.shared).2.1))
    (w.trace ++ (step t now w.shared).2.2.map (Prod.mk i)) = w
  rw [hstep, List.map_nil, List.append_nil]
  show Interleave.Config.mk w.shared (w.threads.set i (e, t)) w.trace = w
  rw [hsame]

/-- Connection 1 is there, and alice's frame has come on it. -/
def alice : World :=
  [.spawn (.connected 1), .run 0 0, .spawn (.message 1 (MessengerServer.authFrame "alice"))].foldl
    system.next (start [])

theorem never_answered_alice :
    (∃ e t, (system.next alice (.run 1 0)).threads[1]? = some (e, t) ∧
      (t.point = .guard ∨ t.point = .lock ∧ t.holds = true)) ∧
    (system.next alice (.run 1 0)).trace = [] :=
  never_answered [] alice (system.reach_foldl _ _) rfl rfl rfl rfl 0 _ .refl

/-- Alone, she locks the mutex and then waits for it, however often she is run. -/
theorem alice_waits : ∃ w t, [.run 1 0, .run 1 0].foldl system.next alice = w ∧
    w.threads[1]? = some (.message 1 (MessengerServer.authFrame "alice"), t) ∧
    t.point = .lock ∧ t.holds = true ∧ w.trace = [] ∧
    ∀ nows : List UInt64, (nows.map (.run 1)).foldl system.next w = w := by
  refine ⟨_, _, rfl, rfl, rfl, rfl, rfl, fun nows => ?_⟩
  induction nows with
  | nil => rfl
  | cons now nows ih =>
      rw [List.map_cons, List.foldl_cons, next_of_waiting now rfl rfl rfl]
      exact ih

end RatchetMutex

end MessengerBackend.Ws
