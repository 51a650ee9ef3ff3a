/-
  The subscriber count of a channel, over runs of the whole API.

  `subscribe` is two statements: an INSERT that tolerates a conflict, and an UPDATE that
  counts whether or not a row was added. So a second `subscribe` by the same user, or one by
  the owner, counts one too many (`counted_twice`), and an UPDATE that fails one too few.

  * `CountExact`: when no request is in progress, each count is the number of the channel's
    rows with another role than owner.
  * `Counted`: the condition on a step under which a run keeps it (`countExact_of_counted`).
  * `CountInv` is the invariant: a count and the threads that are about to raise it together
    make up the number of rows.
-/
import MessengerBackend.Api.Creation

namespace MessengerBackend

namespace Db

/-- The rows of a channel whose role is not owner. -/
def nonOwners (db : Db) (ch : Uuid) : Nat :=
  db.channelSubscribers.rows.countP (fun s => s.channelId == ch && s.role != "owner")

/-- A database without channels. -/
def withoutChannels (db : Db) : Db :=
  { db with channels := .empty, channelSubscribers := .empty }

/-- What the UPDATE of `subscribe` makes of it. -/
def countedUp (db : Db) (ch : Uuid) : Db :=
  { db with
    channels := db.channels.modify (fun c => c.id == ch) Api.Channels.countUp
      Api.Channels.clash_countUp }

theorem hasChannel_iff {db : Db} {ch : Uuid} :
    db.hasChannel ch = true ↔ ∃ x ∈ db.channels, x.id = ch := by
  simp [hasChannel, Table.mem_iff]

/-- A channel of the result is one from before, counted once more if it is the one meant. -/
theorem mem_countedUp {db : Db} {ch : Uuid} {x' : Channel} : x' ∈ (db.countedUp ch).channels ↔
    ∃ x ∈ db.channels, (if x.id == ch then Api.Channels.countUp x else x) = x' :=
  Table.mem_modify Api.Channels.clash_countUp

/-- A new row counts for its channel unless it is an owner's. -/
theorem nonOwners_insert {db : Db} {row : ChannelSubscriber} {subscribers : Table ChannelSubscriber}
    (h : db.channelSubscribers.insert row = some subscribers) (ch : Uuid) :
    ({ db with channelSubscribers := subscribers } : Db).nonOwners ch =
      db.nonOwners ch + if row.channelId = ch ∧ row.role ≠ "owner" then 1 else 0 := by
  unfold nonOwners
  rw [Table.insert_rows h, List.countP_append, List.countP_singleton]
  congr 1
  simp

end Db

namespace Api

/-- The request has been answered. -/
def Thread.finished (t : Thread) : Bool :=
  match t.point with
  | .answered _ => true
  | .account (.exited _) => true
  | .chat (.exited _) => true
  | .channel (.exited _) => true
  | _ => false

/-- The thread is about to count a subscriber of the channel. -/
def Thread.counting (t : Thread) (ch : Uuid) : Bool :=
  match t.point with
  | .channel (.countSubscriber channelId) => PgDb.uuidBytes channelId == some ch
  | _ => false

/-- Once no request is in progress, every count is exact. -/
def CountExact (c : Config) : Prop :=
  (∀ x ∈ c.threads, x.2.finished = true) →
    ∀ x ∈ c.shared.channels, x.subscriberCount = (c.shared.nonOwners x.id : Int)

/-! ## The condition -/

/-- On the next statement of a handler of `Channels`: who subscribes has no row yet and gets
    one, and the UPDATE takes effect. With a row, the handler must not get to its UPDATE. -/
def Channels.Counted (uid : String) (inp : Input) (db : Db) : Channels.Point → Prop
  | .subscribe channelId => Split (Channels.Subscribed uid db channelId) (inp.first ≠ .done)
      (NotLost inp.first (insertSubscription channelId uid) db)
  | .countSubscriber channelId =>
      inp.first.executes = true ∧ Accepts (incrementCount channelId) db
  | _ => True

def Counted (c : Config) : Action → Prop
  | .spawn _ => True
  | .run j inp => ∀ r uid p, c.threads[j]? = some (r, ⟨uid, .channel p⟩) →
      Channels.Counted uid inp c.shared p

/-! ## The invariant -/

structure CountInv (db : Db) (ts : List (Request × Thread)) : Prop where
  known : ∀ s ∈ db.channelSubscribers, db.hasChannel s.channelId = true
  counting : ∀ j t ch, At ts j t → t.counting ch = true → db.hasChannel ch = true
  exact : ∀ x ∈ db.channels,
    x.subscriberCount + (ts.countP (fun y => y.2.counting x.id) : Int) = db.nonOwners x.id

/-- 1 for a thread that is about to count. -/
def Thread.due (t : Thread) (ch : Uuid) : Int := if t.counting ch then 1 else 0

section Moves

variable {db db' : Db} {ts : List (Request × Thread)} {j : Nat} {r : Request} {t t' : Thread}

/-- The number of threads that are about to count changes with the one that moves. -/
theorem countP_moved (ht : ts[j]? = some (r, t)) (t' : Thread) (ch : Uuid) :
    ((ts.set j (r, t')).countP (fun y => y.2.counting ch) : Int) + t.due ch =
      (ts.countP (fun y => y.2.counting ch) : Int) + t'.due ch := by
  have hmove := Interleave.countP_set_getElem? (fun y : Request × Thread => y.2.counting ch)
    (b := (r, t')) ht
  unfold Thread.due
  cases hold : t.counting ch <;> cases hnew : t'.counting ch <;>
    simp only [hold, hnew, if_true, Bool.false_eq_true, if_false] at hmove ⊢ <;> omega

/-- The general step: a channel that was there keeps the balance, a new one starts at 0. -/
theorem CountInv.moved (h : CountInv db ts) (ht : ts[j]? = some (r, t))
    (hknown : ∀ s ∈ db'.channelSubscribers, db'.hasChannel s.channelId = true)
    (hmono : ∀ ch, db.hasChannel ch = true → db'.hasChannel ch = true)
    (hcount : ∀ ch, t'.counting ch = true → db'.hasChannel ch = true)
    (hexact : ∀ x' ∈ db'.channels,
      (∃ x ∈ db.channels, x.id = x'.id ∧ x'.subscriberCount + t'.due x.id + db.nonOwners x.id =
        x.subscriberCount + t.due x.id + db'.nonOwners x.id) ∨
      db.hasChannel x'.id = false ∧ t'.counting x'.id = false ∧ x'.subscriberCount = 0 ∧
        db'.nonOwners x'.id = 0) :
    CountInv db' (ts.set j (r, t')) := by
  refine ⟨hknown, ?_, ?_⟩
  · intro k t₁ ch hk hc
    rcases at_moved hk with ⟨_, rfl⟩ | ⟨_, hk⟩
    · exact hcount ch hc
    · exact hmono ch (h.counting k t₁ ch hk hc)
  · intro x' hx'
    rcases hexact x' hx' with ⟨x, hx, hid, hbal⟩ | ⟨hnew, hidle, hzero, hnone⟩
    · have hold := h.exact x hx
      have hmove := countP_moved ht t' x.id
      rw [← hid]
      omega
    · -- nobody counts for a channel that was not there
      have hquiet : ∀ k t₁, At ts k t₁ → t₁.counting x'.id = false := by
        intro k t₁ hk
        by_contra hc
        rw [h.counting k t₁ x'.id hk (by simpa using hc)] at hnew
        cases hnew
      have hno : ts.countP (fun y => y.2.counting x'.id) = 0 := by
        rw [List.countP_eq_zero]
        intro y hy hc
        obtain ⟨k, hk⟩ := List.mem_iff_getElem?.mp hy
        rw [hquiet k y.2 ⟨y.1, hk⟩] at hc
        cases hc
      have hmove := countP_moved ht t' x'.id
      unfold Thread.due at hmove
      rw [hno, hidle, hquiet j t ⟨r, ht⟩] at hmove
      simp only [Bool.false_eq_true, if_false] at hmove
      omega

/-- A step that leaves channels and counts alone, by a thread that counts neither before nor
    after. -/
theorem CountInv.quiet (h : CountInv db ts) (ht : ts[j]? = some (r, t))
    (hidle : ∀ ch, t.counting ch = false) (hidle' : ∀ ch, t'.counting ch = false)
    (hchannels : db'.channels = db.channels)
    (hknown : ∀ s ∈ db'.channelSubscribers, db.hasChannel s.channelId = true)
    (hrows : ∀ ch, db'.nonOwners ch = db.nonOwners ch) : CountInv db' (ts.set j (r, t')) := by
  have hsame : ∀ ch, db'.hasChannel ch = db.hasChannel ch := by
    intro ch
    unfold Db.hasChannel
    rw [hchannels]
  refine h.moved ht (fun s hs => by rw [hsame]; exact hknown s hs)
    (fun ch hch => by rw [hsame]; exact hch) (fun ch hch => by rw [hidle' ch] at hch; cases hch) ?_
  intro x' hx'
  rw [hchannels] at hx'
  refine Or.inl ⟨x', hx', rfl, ?_⟩
  simp [Thread.due, hidle, hidle', hrows]

/-- A step that leaves the two tables alone. -/
theorem CountInv.still (h : CountInv db ts) (ht : ts[j]? = some (r, t))
    (hidle : ∀ ch, t.counting ch = false) (hidle' : ∀ ch, t'.counting ch = false)
    (hchannels : db'.channels = db.channels)
    (hsubscribers : db'.channelSubscribers = db.channelSubscribers) :
    CountInv db' (ts.set j (r, t')) := by
  refine h.quiet ht hidle hidle' hchannels (fun s hs => ?_) (fun ch => ?_)
  · rw [hsubscribers] at hs
    exact h.known s hs
  · unfold Db.nonOwners
    rw [hsubscribers]

end Moves

/-! ## The steps -/

section Steps

variable {db : Db} {ts : List (Request × Thread)} {j : Nat} {r : Request} {uid : String}

theorem counting_createFailed (e : SqlError) (ch : Uuid) :
    (⟨uid, .channel (Channels.createFailed e)⟩ : Thread).counting ch = false := by
  obtain ⟨x, hx, _⟩ := failure_createFailed e
  rw [hx]
  rfl

/-- A new channel has no rows and counts none. -/
theorem CountInv.created {p p' : Channels.Point} (h : CountInv db ts)
    (ht : ts[j]? = some (r, ⟨uid, .channel p⟩))
    (hidle : ∀ ch, (⟨uid, .channel p⟩ : Thread).counting ch = false)
    (hidle' : ∀ ch, (⟨uid, .channel p'⟩ : Thread).counting ch = false)
    {x : Channel} {channels : Table Channel} (hins : db.channels.insert x = some channels)
    (hzero : x.subscriberCount = 0) :
    CountInv { db with channels := channels } (ts.set j (r, ⟨uid, .channel p'⟩)) := by
  have hnew : db.hasChannel x.id = false := by
    by_contra hthere
    obtain ⟨y, hy, hid⟩ := Db.hasChannel_iff.mp (by simpa using hthere)
    have hfresh := Table.insert_fresh hins y hy
    simp [Keyed.clash, hid] at hfresh
  have hmono : ∀ ch, db.hasChannel ch = true →
      ({ db with channels := channels } : Db).hasChannel ch = true := by
    intro ch hch
    obtain ⟨y, hy, hid⟩ := Db.hasChannel_iff.mp hch
    exact Db.hasChannel_iff.mpr ⟨y, (Table.mem_insert hins).mpr (Or.inl hy), hid⟩
  refine h.moved ht (fun s hs => hmono _ (h.known s hs)) hmono
    (fun ch hch => nomatch (hidle' ch).symm.trans hch) (fun x' hx' => ?_)
  rcases (Table.mem_insert hins).mp hx' with hold | rfl
  · refine Or.inl ⟨x', hold, rfl, ?_⟩
    simp only [Thread.due, hidle, hidle', Db.nonOwners]
  · refine Or.inr ⟨hnew, hidle' _, hzero, ?_⟩
    show db.channelSubscribers.rows.countP _ = 0
    rw [List.countP_eq_zero]
    intro s hs hrow
    rw [Bool.and_eq_true, beq_iff_eq] at hrow
    have hknown := h.known s hs
    rw [hrow.1, hnew] at hknown
    cases hknown

/-- A row that is accepted has its channel. -/
theorem CountInv.known_insert (h : CountInv db ts) {row : ChannelSubscriber}
    {subscribers : Table ChannelSubscriber} (hrow : db.channelSubscribers.insert row = some subscribers)
    (hthere : db.hasChannel row.channelId = true) :
    ∀ s ∈ subscribers, db.hasChannel s.channelId = true := by
  intro s hs
  rcases (Table.mem_insert hrow).mp hs with hold | rfl
  · exact h.known s hold
  · exact hthere

/-- The owner's row is not one that is counted. -/
theorem CountInv.owned {p p' : Channels.Point} (h : CountInv db ts)
    (ht : ts[j]? = some (r, ⟨uid, .channel p⟩))
    (hidle : ∀ ch, (⟨uid, .channel p⟩ : Thread).counting ch = false)
    (hidle' : ∀ ch, (⟨uid, .channel p'⟩ : Thread).counting ch = false)
    {row : ChannelSubscriber} {db' : Db} (hins : Channels.insertSubscriber row db = .ok db')
    (howner : row.role = "owner") : CountInv db' (ts.set j (r, ⟨uid, .channel p'⟩)) := by
  obtain ⟨subscribers, hrow, hthere, _, rfl⟩ := Channels.insertSubscriber_ok hins
  refine h.quiet ht hidle hidle' rfl (h.known_insert hrow hthere) (fun ch => ?_)
  rw [Db.nonOwners_insert hrow]
  simp [howner]

/-- The caller's row, and the thread is about to count it. -/
theorem CountInv.subscribed {channelId : Bytes} {ch u : Uuid} {db' : Db} (h : CountInv db ts)
    (ht : ts[j]? = some (r, ⟨uid, .channel (.subscribe channelId)⟩))
    (hch : PgDb.uuidBytes channelId = some ch)
    (hins : Channels.insertSubscriber { channelId := ch, userId := u } db = .ok db') :
    CountInv db' (ts.set j (r, ⟨uid, .channel (.countSubscriber channelId)⟩)) := by
  obtain ⟨subscribers, hrow, hthere, _, rfl⟩ := Channels.insertSubscriber_ok hins
  refine h.moved ht (h.known_insert hrow hthere) (fun _ hch => hch) (fun ch' hch' => ?_)
    (fun x hx => ?_)
  · simp only [Thread.counting, hch, beq_iff_eq, Option.some.injEq] at hch'
    exact hch' ▸ hthere
  · refine Or.inl ⟨x, hx, rfl, ?_⟩
    rw [Db.nonOwners_insert hrow]
    by_cases hx : ch = x.id
    · simp [Thread.due, Thread.counting, hch, hx]
      omega
    · simp [Thread.due, Thread.counting, hch, hx]

/-- The thread counts the row it has added. -/
theorem CountInv.counted {channelId : Bytes} {ch : Uuid} (h : CountInv db ts)
    (ht : ts[j]? = some (r, ⟨uid, .channel (.countSubscriber channelId)⟩))
    (hch : PgDb.uuidBytes channelId = some ch) (e : Exit) :
    CountInv (db.countedUp ch) (ts.set j (r, ⟨uid, .channel (.exited e)⟩)) := by
  have hidle' : ∀ ch, (⟨uid, .channel (.exited e)⟩ : Thread).counting ch = false := fun _ => rfl
  have hmono : ∀ ch', db.hasChannel ch' = true → (db.countedUp ch).hasChannel ch' = true := by
    intro ch' hch'
    obtain ⟨y, hy, hid⟩ := Db.hasChannel_iff.mp hch'
    refine Db.hasChannel_iff.mpr ⟨_, Db.mem_countedUp.mpr ⟨y, hy, rfl⟩, ?_⟩
    split <;> exact hid
  refine h.moved ht (fun s hs => hmono _ (h.known s hs)) hmono
    (fun ch' hch' => nomatch (hidle' ch').symm.trans hch') (fun x' hx' => ?_)
  obtain ⟨x, hx, rfl⟩ := Db.mem_countedUp.mp hx'
  refine Or.inl ⟨x, hx, ?_, ?_⟩
  · split <;> rfl
  · by_cases hid : x.id = ch
    · simp [Thread.due, Thread.counting, hch, hid, Channels.countUp, Db.nonOwners, Db.countedUp]
    · simp [Thread.due, Thread.counting, hch, hid, Ne.symm hid, Db.nonOwners, Db.countedUp]

/-- `subscribe`, on its condition. -/
theorem CountInv.subscribe (h : CountInv db ts) {channelId : Bytes}
    (ht : ts[j]? = some (r, ⟨uid, .channel (.subscribe channelId)⟩)) {inp : Input}
    (hg : Channels.Counted uid inp db (.subscribe channelId)) :
    CountInv (Channels.step uid (.subscribe channelId) inp db).1
      (ts.set j (r, ⟨uid, .channel (Channels.step uid (.subscribe channelId) inp db).2⟩)) := by
  have stop : ∀ e, CountInv db (ts.set j (r, ⟨uid, .channel (Channels.failed e)⟩)) :=
    fun e => h.still ht (fun _ => rfl) (fun _ => rfl) rfl rfl
  refine attempt_rule (fun db' p' => CountInv db' (ts.set j (r, ⟨uid, .channel p'⟩)))
    (fun e _ => stop e) (fun db' a hq ho => ?_) (fun db' a msg hq ho => ?_)
  · -- answered: not with a row, so that the row is new
    have hno : ¬ Channels.Subscribed uid db channelId := fun hsub => hg.1 hsub ho
    obtain ⟨ch, u, hch, _, rfl | hins⟩ := Channels.insertSubscription_ok hq
    · exact absurd rfl ((subscribed_split hq).2 hno)
    · exact h.subscribed ht hch hins
  · -- the answer is lost: only with a row, and then nothing was added
    by_cases hsub : Channels.Subscribed uid db channelId
    · rw [(subscribed_split hq).1 hsub]
      exact stop _
    · exact absurd ⟨_, hq⟩ (hg.2 hsub msg ho)

/-- The UPDATE, on its condition. -/
theorem CountInv.countSubscriber (h : CountInv db ts) {channelId : Bytes}
    (ht : ts[j]? = some (r, ⟨uid, .channel (.countSubscriber channelId)⟩)) {inp : Input}
    (hg : Channels.Counted uid inp db (.countSubscriber channelId)) :
    CountInv (Channels.step uid (.countSubscriber channelId) inp db).1
      (ts.set j (r, ⟨uid, .channel (Channels.step uid (.countSubscriber channelId) inp db).2⟩)) := by
  obtain ⟨hexec, x, hx⟩ := hg
  have counted : ∀ db' a, Channels.incrementCount channelId db = .ok (db', a) →
      ∀ e, CountInv db' (ts.set j (r, ⟨uid, .channel (.exited e)⟩)) := by
    intro db' a hq e
    obtain ⟨ch, hch, rfl⟩ := Channels.incrementCount_ok hq
    exact h.counted ht hch e
  refine attempt_rule (fun db' p' => CountInv db' (ts.set j (r, ⟨uid, .channel p'⟩)))
    (fun e hrefused => ?_) (fun db' a hq _ => counted db' a hq _)
    (fun db' a msg hq _ => counted db' a hq _)
  obtain ⟨e', he'⟩ := hrefused hexec
  rw [hx] at he'
  cases he'

/-- The step lemma for `Channels`. -/
theorem countInv_channels {p : Channels.Point} (h : CountInv db ts)
    (ht : ts[j]? = some (r, ⟨uid, .channel p⟩)) {inp : Input}
    (hg : Channels.Counted uid inp db p) :
    CountInv (Channels.step uid p inp db).1
      (ts.set j (r, ⟨uid, .channel (Channels.step uid p inp db).2⟩)) := by
  let K : Db → Channels.Point → Prop := fun db' p' =>
    CountInv db' (ts.set j (r, ⟨uid, .channel p'⟩))
  have idle : ∀ e ch, (⟨uid, .channel (.exited e)⟩ : Thread).counting ch = false :=
    fun _ _ => rfl
  cases p with
  | createChannel username name description isPublic =>
      refine attempt_inv K (fun e => h.still ht (fun _ => rfl) (counting_createFailed e) rfl rfl)
        (fun db' a hq => ?_)
      obtain ⟨_, _, _, _, channels, _, _, hins, rfl⟩ := Channels.insertChannel_ok hq
      exact ⟨h.created ht (fun _ => rfl) (fun _ => rfl) hins rfl,
        fun e => h.created ht (fun _ => rfl) (counting_createFailed e) hins rfl⟩
  | ownChannel chanId username =>
      refine attempt_inv K (fun e => h.still ht (fun _ => rfl) (counting_createFailed e) rfl rfl)
        (fun db' a hq => ?_)
      obtain ⟨ch, u, _, _, hins⟩ := Channels.insertOwner_ok hq
      exact ⟨h.owned ht (fun _ => rfl) (idle _) hins rfl,
        fun e => h.owned ht (fun _ => rfl) (counting_createFailed e) hins rfl⟩
  | subscribe channelId => exact h.subscribe ht hg
  | countSubscriber channelId => exact h.countSubscriber ht hg
  | readRole channelId content isPaid =>
      refine attempt_inv K (fun _ => h.still ht (fun _ => rfl) (idle _) rfl rfl)
        (fun db' role hq => ?_)
      obtain ⟨rfl, _⟩ := Channels.selectRole_ok hq
      refine ⟨?_, fun _ => h.still ht (fun _ => rfl) (idle _) rfl rfl⟩
      split
      · exact h.still ht (fun _ => rfl) (fun _ => rfl) rfl rfl
      · exact h.still ht (fun _ => rfl) (idle _) rfl rfl
  | createPost channelId content isPaid =>
      refine attempt_inv K (fun _ => h.still ht (fun _ => rfl) (idle _) rfl rfl)
        (fun db' a hq => ?_)
      obtain ⟨_, _, posts, _, _, _, rfl⟩ := Channels.insertPost_ok hq
      exact ⟨h.still ht (fun _ => rfl) (idle _) rfl rfl,
        fun _ => h.still ht (fun _ => rfl) (idle _) rfl rfl⟩
  | deletePost channelId postId =>
      refine attempt_inv K (fun _ => h.still ht (fun _ => rfl) (idle _) rfl rfl)
        (fun db' a hq => ?_)
      obtain ⟨_, _, _, _, rfl⟩ := Channels.erasePost_ok hq
      exact ⟨h.still ht (fun _ => rfl) (idle _) rfl rfl,
        fun _ => h.still ht (fun _ => rfl) (idle _) rfl rfl⟩
  | exited e => exact h.still ht (fun _ => rfl) (idle e) rfl rfl

end Steps

/-! ## Runs -/

theorem counting_of_ne_channel {t : Thread} (h : ∀ p, t.point ≠ .channel p) (ch : Uuid) :
    t.counting ch = false := by
  obtain ⟨uid, point⟩ := t
  cases point with
  | channel p => exact absurd rfl (h p)
  | _ => rfl

theorem counting_start (r : Request) (ch : Uuid) : (start r).counting ch = false := by
  obtain ⟨uid, call⟩ := r
  cases call with
  | channel c =>
      cases c with
      | createChannel body =>
          show (⟨uid, .channel (Channels.routeCreateChannel body)⟩ : Thread).counting ch = false
          unfold Channels.routeCreateChannel
          split
          · rfl
          · split <;> rfl
      | subscribeChannel channelId => rfl
      | createPost channelId body =>
          show (⟨uid, .channel (Channels.routeCreatePost channelId body)⟩ : Thread).counting ch = false
          unfold Channels.routeCreatePost
          split <;> rfl
      | deletePost channelId postId => rfl
  | _ => rfl

/-- A new thread is not about to count. -/
theorem CountInv.spawned {db : Db} {ts : List (Request × Thread)} (h : CountInv db ts)
    (r : Request) : CountInv db (ts ++ [(r, start r)]) := by
  refine ⟨h.known, ?_, ?_⟩
  · rintro k t ch ⟨r₁, hk⟩ hc
    have hnew : ¬ (start r).counting ch = true := by
      rw [counting_start]
      decide
    have hold := Interleave.old_of_spawn (p := fun t : Thread => t.counting ch = true) hnew hk hc
    exact h.counting k t ch ⟨r₁, hold⟩ hc
  · intro x hx
    have hexact := h.exact x hx
    rw [List.countP_append, List.countP_singleton, counting_start]
    simpa using hexact

/-- The step lemma for the whole API. -/
theorem countInv_step {pg : Pg} {db : Db} {ts : List (Request × Thread)} {j : Nat} {r : Request}
    {t : Thread} (h : CountInv db ts) (ht : ts[j]? = some (r, t)) {inp : Input}
    (hg : ∀ p, t.point = .channel p → Channels.Counted t.uid inp db p) :
    CountInv (step pg t inp db).1 (ts.set j (r, (step pg t inp db).2.1)) := by
  by_cases hchan : ∃ p, t.point = .channel p
  · obtain ⟨uid, point⟩ := t
    obtain ⟨p, rfl⟩ := hchan
    exact countInv_channels h ht (hg p rfl)
  · have hne : ∀ p, t.point ≠ .channel p := fun p hp => hchan ⟨p, hp⟩
    obtain ⟨hchannels, hsubscribers, _, hnext⟩ := step_of_ne_channel pg hne inp db
    exact h.still ht (counting_of_ne_channel hne) (counting_of_ne_channel hnext) hchannels
      hsubscribers

theorem countInv_init (db : Db) : CountInv db.withoutChannels [] where
  known s hs := nomatch hs
  counting j t ch hj := by obtain ⟨r, hj⟩ := hj; cases hj
  exact x hx := nomatch hx

/-- Answered requests are not about to count. -/
theorem CountInv.countExact {c : Config} (h : CountInv c.shared c.threads) : CountExact c := by
  intro hdone x hx
  have hexact := h.exact x hx
  have hno : c.threads.countP (fun y => y.2.counting x.id) = 0 := by
    rw [List.countP_eq_zero]
    rintro ⟨r, uid, point⟩ hy hc
    have hfin := hdone _ hy
    cases point with
    | channel p =>
        cases p with
        | countSubscriber channelId => cases hfin
        | _ => cases hc
    | _ => cases hc
  rw [hno] at hexact
  omega

/-- In every run of the API whose steps meet the condition, the counts are exact whenever no
    request is in progress. -/
theorem countExact_of_counted (pg : Pg) (db : Db) (c : Config)
    (hr : (system pg).Reach Counted (Interleave.Config.init db.withoutChannels) c) :
    CountExact c := by
  refine CountInv.countExact (Interleave.System.Reach.induct
    (fun c => CountInv c.shared c.threads) (countInv_init db) ?_ ?_ hr)
  · intro c r _ h _
    exact h.spawned r
  · intro c j r t inp _ h hg ht
    refine countInv_step h ht (fun p hp => ?_)
    obtain ⟨uid, point⟩ := t
    cases hp
    exact hg r uid p ht

/-! ## Two runs -/

/-- `POST /api/channels` by Alice. -/
def newsChannel : Request :=
  ⟨Uuid.uuidOut alice,
    .channel (.createChannel (some (.obj [("username", .str "news"), ("name", .str "News")])))⟩

/-- `POST /api/channels/11111111111111111111111111111111/subscribe` by Eve. -/
def subscribeEve : Request := ⟨Uuid.uuidOut eve, .channel (.subscribeChannel (List.replicate 32 49))⟩

/-- Eve subscribes to Alice's channel. -/
theorem countExact_of_counted_eve :
    let c := [.spawn newsChannel, go 0, go 0, .spawn subscribeEve, go 1, go 1].foldl
      (system plainPg).next (Interleave.Config.init twoUsers.withoutChannels)
    CountExact c := by
  refine countExact_of_counted plainPg twoUsers _ (Interleave.System.Reach.foldl _ _ .refl ?_)
  refine ⟨trivial, ?_, ?_, trivial, ?_, ?_, trivial⟩
  · rintro r uid p hp
    cases hp
    trivial
  · rintro r uid p hp
    cases hp
    trivial
  · rintro r uid p hp
    cases hp
    have hnew : Channels.subscriberRow
        ([.spawn newsChannel, go 0, go 0, .spawn subscribeEve].foldl (system plainPg).next
          (Interleave.Config.init twoUsers.withoutChannels)).shared secretChat eve = none := by
      decide
    refine ⟨?_, fun _ msg ho => nomatch ho⟩
    rintro ⟨ch, u, hch, hu, hrow⟩
    have hch' : PgDb.uuidBytes (List.replicate 32 49) = some secretChat := by decide
    cases hch.symm.trans hch'
    cases hu.symm.trans (PgDb.uuid_uuidOut eve)
    cases (congrArg Option.isSome hnew).symm.trans hrow
  · rintro r uid p hp
    cases hp
    exact ⟨rfl, _, rfl⟩

/-- Eve subscribes twice and is counted twice. -/
theorem counted_twice :
    let c := [.spawn newsChannel, go 0, go 0, .spawn subscribeEve, go 1, go 1,
      .spawn subscribeEve, go 2, go 2].foldl (system plainPg).next
        (Interleave.Config.init twoUsers.withoutChannels)
    ¬ CountExact c := by
  intro c hcount
  -- one evaluation of the run
  have hend : (∀ x ∈ c.threads, x.2.finished = true) ∧
      ∃ x ∈ c.shared.channels.rows, x.subscriberCount = 2 ∧ c.shared.nonOwners x.id = 1 := by
    decide
  obtain ⟨hidle, x, hx, hcount', hrows⟩ := hend
  have hsame := hcount hidle x hx
  rw [hcount', hrows] at hsame
  omega

end Api

end MessengerBackend
