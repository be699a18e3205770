import AssetLoading.Interpreter.Execution
import AssetLoading.Proofs.Queue.Trade

/-! # Claims and callbacks tally

  On a scheduler without workers the main thread claims a task, runs one of its
  callbacks or two, and gives the task back or reports it as done. If a callback
  unwinds, nobody gives its task back. So the claims that are left over tally with
  the callbacks that were cut short: where code returns, there are as many of either
  as when it started, and where it unwinds, every new claim that it leaves stands for
  one callback that it cut short. A task has its reference from the time when it is
  accepted until it is done, so the references of tasks tally with the tasks.

  `Tallied s kept left x` says so of code `x` that is started in state `s`. Most
  code is `Steady`: it leaves everything as it is if it returns, and adds to the
  claims if it unwinds.
-/

namespace AssetLoading

/-! ### Callbacks of tasks -/

/-- The body of which a callback starts. -/
def Event.starts? : Event → Option BodyId
  | .acted b .. | .failed b .. | .freed b .. => some b
  | _ => none

/-- The body of which a callback returns. -/
def Event.returns? : Event → Option BodyId
  | .actionEnded b .. | .hookEnded b .. => some b
  | _ => none

/-- The bodies of which callbacks started, once for each callback. -/
def callbacksStarted (history : List Event) : List BodyId :=
  history.filterMap Event.starts?

/-- The bodies of which callbacks returned, once for each callback. -/
def callbacksReturned (history : List Event) : List BodyId :=
  history.filterMap Event.returns?

/-- The assets that tasks took references on, once for each reference. -/
def taskRefsTaken (history : List Event) : List Handle :=
  history.filterMap fun
    | .took .task h => some h
    | _ => none

/-- The assets that tasks dropped references on, once for each reference. -/
def taskRefsDropped (history : List Event) : List Handle :=
  history.filterMap fun
    | .dropped .task h => some h
    | _ => none

/-- `true` for an event that tells neither of a callback of a task nor of its reference. -/
def Event.isApart : Event → Bool
  | .acted .. | .actionEnded .. | .failed .. | .freed .. | .hookEnded .. => false
  | .took .task _ | .dropped .task _ => false
  | _ => true

theorem Event.isApart_took {holder : Holder} (hholder : holder ≠ .task) (h : Handle) :
    (Event.took holder h).isApart = true := by
  cases holder <;> first | rfl | exact absurd rfl hholder

theorem Event.isApart_dropped {holder : Holder} (hholder : holder ≠ .task) (h : Handle) :
    (Event.dropped holder h).isApart = true := by
  cases holder <;> first | rfl | exact absurd rfl hholder

section Apart

variable {e : Event}

theorem Event.starts?_of_isApart (he : e.isApart = true) : e.starts? = none := by
  cases e <;> first | rfl | cases he

theorem Event.returns?_of_isApart (he : e.isApart = true) : e.returns? = none := by
  cases e <;> first | rfl | cases he

theorem taskRefsTaken_cons (he : e.isApart = true) (history : List Event) :
    taskRefsTaken (e :: history) = taskRefsTaken history := by
  cases e with
  | took holder h =>
    cases holder with
    | task => cases he
    | _ => rfl
  | _ => rfl

theorem taskRefsDropped_cons (he : e.isApart = true) (history : List Event) :
    taskRefsDropped (e :: history) = taskRefsDropped history := by
  cases e with
  | dropped holder h =>
    cases holder with
    | task => cases he
    | _ => rfl
  | _ => rfl

end Apart

/-! ### The main thread on its own -/

/-- The main thread did all the work on tasks so far: none was advanced on another
thread, none was claimed for one, and the scheduler was not shut down. -/
structure State.Unaided (s : State) : Prop where
  opened : s.closed = false
  onGpu : ∀ id, .stepped id false ∉ s.history
  unclaimed : ∀ label wait reply, .answered (.claim label wait) reply ∉ s.history

/-- A later state of a run, as far as the history and the shutdown tell. -/
structure State.Precedes (s t : State) : Prop where
  history : s.history <:+ t.history
  closed : t.closed = false → s.closed = false

/-- What is outstanding: claims, and references of tasks on their way, which were
taken for tasks that are still to be queued or are still to be dropped by tasks that
are done. -/
structure Outstanding where
  claims : List Claimed
  refs : List Handle

/-- One more task is claimed. -/
def Outstanding.withClaim (k : Outstanding) (c : Claimed) : Outstanding :=
  { k with claims := c :: k.claims }

/-- One more reference of a task is on its way. -/
def Outstanding.withRef (k : Outstanding) (h : Handle) : Outstanding :=
  { k with refs := h :: k.refs }

/-- The assets of the tasks in a queue, once for each task. -/
def TaskQueue.assets (q : TaskQueue) : List Handle :=
  q.pending.map (·.asset) ++ q.active.map (·.asset)

/-- The queue is what came out of trading with it, and no claim is elsewhere than with
running code: none is with the client, and no job runs an action. Every task in the
queue has one reference, and some are on their way. -/
structure State.Sound (s : State) (refs : List Handle) : Prop where
  traded : ∃ log, TaskQueue.Traded s.queue log
  claims : s.client.claims = []
  jobs : ∀ j b i asset priority, (s.jobs.job j).work ≠ .action b i asset priority
  refs : (taskRefsTaken s.history).Perm
    (taskRefsDropped s.history ++ (refs ++ s.queue.assets))

/-- As long as the main thread is on its own, the state is sound and this is
outstanding. -/
def State.Owes (s : State) (k : Outstanding) : Prop :=
  s.Unaided → s.Sound k.refs ∧ s.queue.active.Perm k.claims

/-- Between two states one callback was cut short for each of some tasks. These are
claimed now, and more is outstanding. -/
structure State.Passes (s : State) (k : Outstanding) (es : List Entry) (t : State) : Prop where
  sound : t.Sound k.refs
  active : t.queue.active.Perm (es.map Entry.claim ++ k.claims)
  callbacks : ∃ new, t.history = new ++ s.history ∧
    (callbacksStarted new).Perm (es.map (·.body) ++ callbacksReturned new)

namespace State

variable {r s t : State} {k l : Outstanding}

theorem Precedes.refl (s : State) : s.Precedes s :=
  ⟨List.suffix_rfl, id⟩

theorem Precedes.trans (hrs : r.Precedes s) (hst : s.Precedes t) : r.Precedes t :=
  ⟨hrs.history.trans hst.history, hrs.closed ∘ hst.closed⟩

theorem Unaided.of_precedes (ht : t.Unaided) (hst : s.Precedes t) : s.Unaided where
  opened := hst.closed ht.opened
  onGpu id hmem := ht.onGpu id (hst.history.subset hmem)
  unclaimed label wait reply hmem := ht.unclaimed label wait reply (hst.history.subset hmem)

theorem Unaided.not_of_closed (h : s.closed = true) : ¬ s.Unaided := by
  intro hs
  rw [hs.opened] at h
  cases h

/-- Where others have helped, nothing is said. -/
theorem Owes.of_aided (h : ¬ s.Unaided) : s.Owes k :=
  fun hs => absurd hs h

theorem Passes.owes (h : s.Passes k [] t) : t.Owes k :=
  fun _ => ⟨h.sound, h.active⟩

/-- Nothing has happened yet. -/
theorem Passes.rfl (hsound : s.Sound k.refs) (hactive : s.queue.active.Perm k.claims) :
    s.Passes k [] s :=
  ⟨hsound, hactive, [], by simp, .refl _⟩

theorem Passes.trans {es : List Entry} (hrs : r.Passes l [] s) (hst : s.Passes k es t) :
    r.Passes k es t := by
  obtain ⟨first, hfirst, hbefore⟩ := hrs.callbacks
  obtain ⟨new, hnew, hafter⟩ := hst.callbacks
  refine ⟨hst.sound, hst.active, new ++ first, ?_, ?_⟩
  · rw [hnew, hfirst, List.append_assoc]
  · unfold callbacksStarted callbacksReturned at hbefore hafter ⊢
    rw [List.filterMap_append, List.filterMap_append, ← List.append_assoc]
    exact hafter.append hbefore

end State

/-! ### Changes apart from tasks -/

/-- A change that leaves the queue alone and tells neither of a callback of a task nor
of its reference. -/
structure State.Apart (s t : State) : Prop where
  new : ∃ new, t.history = new ++ s.history ∧ ∀ e ∈ new, e.isApart = true
  closed : t.closed = false → s.closed = false
  queue : t.queue = s.queue
  claims : t.client.claims = s.client.claims
  jobs : (∀ j b i asset priority, (s.jobs.job j).work ≠ .action b i asset priority) →
    ∀ j b i asset priority, (t.jobs.job j).work ≠ .action b i asset priority

namespace State.Apart

variable {s t : State} {k : Outstanding}

theorem precedes (h : s.Apart t) : s.Precedes t := by
  obtain ⟨new, hnew, -⟩ := h.new
  exact ⟨⟨new, hnew.symm⟩, h.closed⟩

theorem sound (h : s.Apart t) {refs : List Handle} (hs : s.Sound refs) : t.Sound refs := by
  obtain ⟨new, hnew, hapart⟩ := h.new
  have hkept : taskRefsTaken t.history = taskRefsTaken s.history ∧
      taskRefsDropped t.history = taskRefsDropped s.history := by
    rw [hnew]
    clear hnew
    induction new with
    | nil => exact ⟨rfl, rfl⟩
    | cons e new ih =>
      have hrest := ih fun d hd => hapart d (List.mem_cons_of_mem e hd)
      have he := hapart e List.mem_cons_self
      exact ⟨(taskRefsTaken_cons he _).trans hrest.1, (taskRefsDropped_cons he _).trans hrest.2⟩
  refine ⟨h.queue ▸ hs.traded, h.claims.trans hs.claims, h.jobs hs.jobs, ?_⟩
  rw [hkept.1, hkept.2, h.queue]
  exact hs.refs

theorem passes (h : s.Apart t) (hs : s.Owes k) (ht : t.Unaided) : s.Passes k [] t := by
  obtain ⟨hsound, hactive⟩ := hs (ht.of_precedes h.precedes)
  obtain ⟨new, hnew, hapart⟩ := h.new
  have hstarted : callbacksStarted new = [] :=
    List.filterMap_eq_nil_iff.2 fun e he => Event.starts?_of_isApart (hapart e he)
  have hreturned : callbacksReturned new = [] :=
    List.filterMap_eq_nil_iff.2 fun e he => Event.returns?_of_isApart (hapart e he)
  refine ⟨h.sound hsound, ?_, new, hnew, ?_⟩
  · rw [h.queue]
    exact hactive
  · rw [hstarted, hreturned]
    exact .refl _

theorem of_eq (hhistory : t.history = s.history) (hclosed : t.closed = false → s.closed = false)
    (hqueue : t.queue = s.queue) (hclaims : t.client.claims = s.client.claims)
    (hjobs : t.jobs.jobs = s.jobs.jobs) : s.Apart t where
  new := ⟨[], hhistory, by simp⟩
  closed := hclosed
  queue := hqueue
  claims := hclaims
  jobs h j := by
    unfold JobQueue.job
    rw [hjobs]
    exact h j

theorem record {e : Event} (he : e.isApart = true) : s.Apart (s.record e) where
  new := ⟨[e], rfl, by simpa using he⟩
  closed := id
  queue := rfl
  claims := rfl
  jobs h := h

end State.Apart

theorem State.precedes_record (s : State) (e : Event) : s.Precedes (s.record e) :=
  ⟨List.suffix_cons e s.history, id⟩

/-! ### Code that tallies -/

/-- What code does with tasks that is started in a state. If it returns, `kept` is
outstanding and no callback was cut short. If it unwinds, the tasks of which it cut
callbacks short are claimed, and `left` is outstanding beside them; without `left` it
never unwinds. -/
def Tallied {α : Type} (s : State) (kept : Outstanding) (left : Option Outstanding)
    (x : Exec α) : Prop :=
  match x s with
  | .ok _ t => s.Precedes t ∧ (t.Unaided → s.Passes kept [] t)
  | .error (.panic _) t => s.Precedes t ∧ ∃ rest ∈ left, t.Unaided → ∃ es, s.Passes rest es t
  | .error _ _ => True

/-- Code that leaves what is outstanding as it is if it returns. If it may unwind, it
may add claims to it. -/
def Steady {α : Type} (mayUnwind : Bool) (x : Exec α) : Prop :=
  ∀ s k, s.Owes k → Tallied s k (if mayUnwind then some k else none) x

section Rules

variable {α β : Type} {u : Bool} {s t : State} {k mid : Outstanding} {left : Option Outstanding}
  {x : Exec α} {f : α → Exec β}

theorem Tallied.pure {a : α} (hs : s.Owes k) : Tallied s k left (Pure.pure a : Exec α) := by
  refine ⟨.refl s, fun ht => ?_⟩
  obtain ⟨hsound, hactive⟩ := hs ht
  exact .rfl hsound hactive

/-- Code that goes on in the state in which such code has returned. -/
theorem Tallied.follow (hx : Tallied s mid left x)
    (hf : ∀ a t, x s = .ok a t → s.Precedes t → t.Owes mid → Tallied t k left (f a)) :
    Tallied s k left (x >>= f) := by
  unfold Tallied at hx ⊢
  show match EStateM.bind x f s with
    | .ok _ t => s.Precedes t ∧ (t.Unaided → s.Passes k [] t)
    | .error (.panic _) t => s.Precedes t ∧ ∃ rest ∈ left, t.Unaided → ∃ es, s.Passes rest es t
    | .error _ _ => True
  unfold EStateM.bind
  -- the first part returns and the second follows, or it unwinds and the second never runs
  split at hx
  next a t hrun =>
    obtain ⟨hst, hpasses⟩ := hx
    have hnext := hf a t hrun hst fun ht => (hpasses ht).owes ht
    rw [hrun]
    unfold Tallied at hnext
    split at hnext
    next b r hb =>
      simp only [hb]
      exact ⟨hst.trans hnext.1, fun hr => (hpasses (hr.of_precedes hnext.1)).trans (hnext.2 hr)⟩
    next cause r hb =>
      obtain ⟨htr, rest, hrest, hleft⟩ := hnext
      simp only [hb]
      refine ⟨hst.trans htr, rest, hrest, fun hr => ?_⟩
      obtain ⟨es, hes⟩ := hleft hr
      exact ⟨es, (hpasses (hr.of_precedes htr)).trans hes⟩
    next reason r hreason hb =>
      simp only [hb]
  next cause t hrun =>
    rw [hrun]
    exact hx
  next reason t hreason hrun =>
    rw [hrun]
    split
    next heq => cases heq
    next heq =>
      cases heq
      exact absurd rfl (hreason _)
    next => trivial

theorem Tallied.bind (hx : Tallied s mid left x)
    (hf : ∀ a t, s.Precedes t → t.Owes mid → Tallied t k left (f a)) :
    Tallied s k left (x >>= f) :=
  hx.follow fun a t _ => hf a t

theorem Tallied.look {g : State → Exec β} (h : Tallied s k left (g s)) :
    Tallied s k left (get >>= g) :=
  h

/-- A change after which the state is as it should be. -/
theorem Tallied.of_ok {a : α} (hrun : x s = .ok a t) (hst : s.Precedes t)
    (ht : t.Unaided → s.Passes k [] t) : Tallied s k left x := by
  unfold Tallied
  rw [hrun]
  exact ⟨hst, ht⟩

/-- Code that never unwinds may as well unwind. -/
theorem Tallied.of_calm (h : Tallied s k none x) : Tallied s k left x := by
  unfold Tallied at h ⊢
  split at h
  · exact h
  · obtain ⟨-, rest, hrest, -⟩ := h
    cases hrest
  · trivial

/-- Code that leaves everything as it is, and never unwinds. -/
theorem Steady.start (hx : Steady false x) (hs : s.Owes k) : Tallied s k left x :=
  (hx s k hs).of_calm

theorem Steady.unwinding (hx : Steady true x) (hs : s.Owes k) : Tallied s k (some k) x :=
  hx s k hs

theorem Steady.pure (a : α) : Steady u (Pure.pure a : Exec α) :=
  fun _ _ hs => .pure hs

theorem Steady.bind (hx : Steady u x) (hf : ∀ a, Steady u (f a)) : Steady u (x >>= f) :=
  fun s k hs => (hx s k hs).bind fun a t _ ht => hf a t k ht

theorem Steady.look {g : State → Exec β} (h : ∀ s, Steady u (g s)) : Steady u (get >>= g) :=
  fun s k hs => h s s k hs

theorem Steady.ite {c : Prop} [Decidable c] {y : Exec α} (hx : Steady u x) (hy : Steady u y) :
    Steady u (if c then x else y) := by
  split
  · exact hx
  · exact hy

/-- Code that comes to an early end in another way than by unwinding. -/
theorem Steady.throw {e : Halt} (he : ∀ cause, e ≠ .panic cause) :
    Steady u (MonadExcept.throw e : Exec α) := by
  intro s k hs
  cases e with
  | panic cause => exact absurd rfl (he cause)
  | _ => trivial

/-- The same, with code after it that is not reached. -/
theorem Steady.halt {e : Halt} (he : ∀ cause, e ≠ .panic cause) :
    Steady u ((MonadExcept.throw e : Exec α) >>= f) :=
  Steady.throw he

/-- Code that unwinds, outside of any task. -/
theorem Steady.panic (cause : PanicCause) : Steady true (MonadExcept.throw (.panic cause) : Exec α) := by
  intro s k hs
  refine ⟨.refl s, k, rfl, fun ht => ⟨[], ?_⟩⟩
  obtain ⟨hsound, hactive⟩ := hs ht
  exact .rfl hsound hactive

/-- A change apart from tasks. -/
theorem Steady.apart {g : State → State} (h : ∀ s : State, s.Apart (g s)) :
    Steady u (modify g : Exec Unit) :=
  fun s _ hs => .of_ok rfl (h s).precedes fun ht => (h s).passes hs ht

end Rules

/-! ### Changes -/

section Changes

variable {u : Bool}

theorem steady_record {e : Event} (he : e.isApart = true) : Steady u (record e) :=
  .apart fun _ => .record he

theorem steady_log (level : Level) (message : String) (fields : List (String × Field)) :
    Steady u (log level message fields) :=
  steady_record rfl

theorem steady_getAsset (h : Handle) : Steady u (getAsset h) :=
  .look fun _ => .pure _

theorem steady_modifyAsset (h : Handle) (f : Asset → Asset) : Steady u (modifyAsset h f) :=
  .apart fun _ => .of_eq rfl id rfl rfl rfl

theorem steady_modifyRegistry (r : RegistryId) (f : Registry → Registry) :
    Steady u (modifyRegistry r f) :=
  .apart fun _ => .of_eq rfl id rfl rfl rfl

theorem steady_modifyBody (b : BodyId) (f : TaskBody → TaskBody) : Steady u (modifyBody b f) :=
  .apart fun _ => .of_eq rfl id rfl rfl rfl

theorem steady_modifyNotices (f : Notices → Notices) : Steady u (modifyNotices f) :=
  .apart fun _ => .of_eq rfl id rfl rfl rfl

theorem steady_modifyClient {f : Client → Client} (hf : ∀ c, (f c).claims = c.claims) :
    Steady u (modifyClient f) :=
  .apart fun _ => .of_eq rfl id rfl (hf _) rfl

/-- No job comes to run an action. -/
theorem steady_modifyJobs {f : JobQueue → JobQueue}
    (hf : ∀ q : JobQueue, (∀ j b i asset priority, (q.job j).work ≠ .action b i asset priority) →
      ∀ j b i asset priority, ((f q).job j).work ≠ .action b i asset priority) :
    Steady u (modifyJobs f) :=
  .apart fun s => ⟨⟨[], rfl, by simp⟩, id, rfl, rfl, hf s.jobs⟩

end Changes

end AssetLoading
