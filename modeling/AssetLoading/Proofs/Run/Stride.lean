import AssetLoading.Proofs.Run.Move

/-! # Strides

  Moves tell every single change of a run. Between some of them no client code
  can run: an asset whose last reference is dropped is left to the main thread or
  destroyed at once, and a task that is completed stages its asset in the same
  breath. A stride is a stretch of a run in which no client code runs, taken as a
  whole, so that between two strides nothing is half done.

  A scene is a moment between two strides. It also knows the calls that
  deliveries under way still have to make, because a delivery decides all of them
  before the first one runs.
-/

namespace AssetLoading

/-- A moment, and for each delivery under way, the innermost first, the calls that
it still has to make. -/
structure Scene extends Moment where
  /-- The calls. -/
  due : List (List Subscription)

/-! ### Changes of the state -/

namespace State

/-- The state after a reference was taken on an asset, which may have waited for
its destruction. -/
@[irreducible] def referenced (s : State) (holder : Holder) (h : Handle) : State :=
  if (s.asset h).refs = 0 then
    ((s.record (.revived h (s.rival? h))).took holder h).record
      (.logged .debug "Asset rescued from pending destruction"
        [("asset", .text (s.asset h).displayName)])
  else s.took holder h

/-- The state after an asset was left to the main thread. -/
def deferred (s : State) (r : RegistryId) (h : Handle) : State :=
  s.modifyRegistry r fun reg => { reg with doomed := reg.doomed ++ [h] }

/-- The state after a reference was dropped; if it was the last one, the asset is
left to the main thread. -/
def letGo (s : State) (r : RegistryId) (holder : Holder) (h : Handle) : State :=
  if (s.asset h).refs = 1 then (s.dropped holder h).deferred r h else s.dropped holder h

/-- The state in which the destructor of an asset starts. -/
def expired (s : State) (h : Handle) (c : Contents) : State :=
  let t := (s.modifyAsset h fun a => { a with destroyed := true, contents := none }).record
    (.logged .trace "Destroying asset"
      [("asset", .text (s.asset h).displayName), ("ty", .text (s.asset h).category.name)])
  t.record (.destroyed h (t.asset h).refs c.tag c.kind.category c.value)

/-- The state after an asset was unlinked, if it was linked. -/
def unlinked (s : State) (r : RegistryId) (h : Handle) : State :=
  match (s.asset h).slot with
  | none => s
  | some slot =>
    if (s.registry r).linked.get? slot = some h then
      match (s.registry r).linked.take? slot with
      | none => s
      | some (_, linked) => s.modifyRegistry r fun reg => { reg with linked }
    else s

/-- The state after the destruction of an asset has ended. -/
def buried (s : State) (r : RegistryId) (h : Handle) : State :=
  (s.unlinked r h).modifyAsset h fun a => { a with slot := none, state := .none }

/-- The state after client code set the load state of an asset. -/
def stateSet (s : State) (h : Handle) (state : LoadState) (body : Option BodyId) : State :=
  (s.modifyAsset h fun a => { a with state }).record (.stateSet h state body)

/-- The state after a task was accepted. -/
def taskAccepted (s : State) (t : Task) : State :=
  let s := s.referenced .task t.asset
  ((s.record (.logged .trace "Enqueued asset task"
    [("asset", .text (s.asset t.asset).displayName), ("priority", .number t.priority.toInt),
      ("complexity", .number t.complexity.toInt),
      ("actions", .number (s.queue.push t).1.actionCount)])).withQueue (s.queue.push t).2).record
    (.accepted (s.queue.push t).1.id t.body t.asset (s.body t.body).data)

/-- The state after a load was staged. -/
def staged (s : State) (h : Handle) : State :=
  (s.referenced .notice h).withNotices { s.notices with staged := s.notices.staged ++ [h] }

/-- The state after a task was completed, its asset staged if that was loaded; its
reference is still to be dropped. -/
def taskCompleted (s : State) (e : Entry) : State :=
  (((if (s.asset e.asset).state.isLoaded then s.staged e.asset else s).record
    (.logged .debug "Asset task complete" [("asset", .text (s.asset e.asset).displayName),
      ("state", .text (s.asset e.asset).state.debug)])).withQueue (s.queue.finish e.id)).record
    (.completed e.id)

/-- The state after a job was made that another thread waits for, and all waiting
jobs were taken out of their queue. -/
def summoned (s : State) (w : Work) : State :=
  (if s.settings.warnAfter = 0 then s.record (.logged .warn longWaitMessage []) else s).withJobs
    { (s.jobs.make w).2 with waiting := [] }

@[simp] theorem queue_referenced (s : State) (holder : Holder) (h : Handle) :
    (s.referenced holder h).queue = s.queue := by
  unfold referenced
  split <;> rfl

@[simp] theorem notices_referenced (s : State) (holder : Holder) (h : Handle) :
    (s.referenced holder h).notices = s.notices := by
  unfold referenced
  split <;> rfl

@[simp] theorem closed_referenced (s : State) (holder : Holder) (h : Handle) :
    (s.referenced holder h).closed = s.closed := by
  unfold referenced
  split <;> rfl

@[simp] theorem registries_referenced (s : State) (holder : Holder) (h : Handle) :
    (s.referenced holder h).registries = s.registries := by
  unfold referenced
  split <;> rfl

/-- Unlinking an asset changes no more than the links of a registry. -/
theorem unlinked_eq (s : State) (r : RegistryId) (h : Handle) :
    ∃ f : Arena Handle → Arena Handle,
      s.unlinked r h = s.modifyRegistry r fun reg => { reg with linked := f reg.linked } := by
  -- where nothing is unlinked, the links are written back as they are
  have hnothing : s.modifyRegistry r (fun reg => { reg with linked := reg.linked }) = s := by
    unfold State.modifyRegistry
    have hsame : s.registries.modify r (fun reg => { reg with linked := reg.linked }) =
        s.registries := by
      apply Array.ext_getElem?
      intro i
      rw [Array.getElem?_modify]
      split
      next => cases s.registries[i]? <;> rfl
      next => rfl
    rw [hsame]
  unfold State.unlinked
  split
  next => exact ⟨id, hnothing.symm⟩
  next =>
    split
    next =>
      split
      next => exact ⟨id, hnothing.symm⟩
      next linked _ => exact ⟨fun _ => linked, rfl⟩
    next => exact ⟨id, hnothing.symm⟩

@[simp] theorem assets_unlinked (s : State) (r : RegistryId) (h : Handle) :
    (s.unlinked r h).assets = s.assets := by
  obtain ⟨f, hf⟩ := s.unlinked_eq r h
  rw [hf]
  rfl

@[simp] theorem asset_unlinked (s : State) (r : RegistryId) (h k : Handle) :
    (s.unlinked r h).asset k = s.asset k := by
  unfold asset
  rw [assets_unlinked]

@[simp] theorem queue_staged (s : State) (h : Handle) : (s.staged h).queue = s.queue :=
  s.queue_referenced .notice h

end State

/-! ### Assets and registries -/

/-- How an asset comes to be destroyed: its last reference is dropped, or it is
looked at while it waits for that. -/
inductive Falls (h : Handle) : Moment → Moment → Prop where
  /-- The last reference is dropped. -/
  | last {u : List Activity} {s : State} (holder : Holder) (hone : (s.asset h).refs = 1) :
      Falls h ⟨gained holder h u, s⟩ ⟨u, s.dropped holder h⟩
  /-- No reference was taken in the meantime. -/
  | visited {u : List Activity} {s : State} (hs : List Handle) (hnone : (s.asset h).refs = 0) :
      Falls h ⟨.flushing (h :: hs) :: u, s⟩ ⟨.flushing hs :: u, s⟩

/-- A reference is dropped without destroying the asset by an operation of its own,
called on its own or by a script. -/
def MayDefer (u : List Activity) : Prop :=
  u = [] ∨ ∃ ref, .performing (.releaseDeferred ref) ∈ u

/-- Strides that change assets and registries. -/
inductive AssetStride : Moment → Moment → Prop where
  /-- A reference is taken. -/
  | take {u : List Activity} {s : State} (holder : Holder) (h : Handle)
      (hholder : holder.isScheduler = false)
      (hwhole : (s.asset h).destroyed = false ∨ 0 < (s.asset h).refs) :
      AssetStride ⟨u, s⟩ ⟨u, s.referenced holder h⟩
  /-- A reference is dropped that is not the last one. -/
  | drop {u : List Activity} {s : State} (holder : Holder) (h : Handle)
      (hmore : 1 < (s.asset h).refs) :
      AssetStride ⟨gained holder h u, s⟩ ⟨u, s.dropped holder h⟩
  /-- A reference is dropped; with the last one the asset is left to the main thread. -/
  | defer {u : List Activity} {s : State} (r : RegistryId) (h : Handle) (hr : Serves u r)
      (hu : MayDefer u) (hsome : 0 < (s.asset h).refs) :
      AssetStride ⟨u, s⟩ ⟨u, s.letGo r .client h⟩
  /-- The destruction of an asset begins. -/
  | expire {m : Moment} {u : List Activity} {s : State} (h : Handle) (c : Contents)
      (hfalls : Falls h m ⟨u, s⟩) (hwhole : (s.asset h).destroyed = false)
      (hc : (s.asset h).contents = some c) :
      AssetStride m ⟨.destroying h :: u, s.expired h c⟩
  /-- An asset that has no contents left is marked as destroyed once more. -/
  | again {m : Moment} {u : List Activity} {s : State} (h : Handle) (hfalls : Falls h m ⟨u, s⟩)
      (hgone : (s.asset h).destroyed = true ∨ (s.asset h).contents = none) :
      AssetStride m ⟨u, s.modifyAsset h fun a => { a with destroyed := true }⟩
  /-- The assets that wait for destruction are taken out of their queue. -/
  | flush {u : List Activity} {s : State} (r : RegistryId) :
      AssetStride ⟨u, s⟩
        ⟨.flushing (s.registry r).doomed :: u,
          s.modifyRegistry r fun reg => { reg with doomed := [] }⟩
  /-- The next of them has references again. -/
  | skip {u : List Activity} {s : State} (h : Handle) (hs : List Handle)
      (hsome : (s.asset h).refs ≠ 0) :
      AssetStride ⟨.flushing (h :: hs) :: u, s⟩ ⟨.flushing hs :: u, s⟩
  /-- All of them have been looked at. -/
  | flushed {u : List Activity} {s : State} :
      AssetStride ⟨.flushing [] :: u, s⟩ ⟨u, s⟩
  /-- The destruction of an asset ends. -/
  | bury {u : List Activity} {s : State} (r : RegistryId) (h : Handle) (hr : Serves u r) :
      AssetStride ⟨.destroying h :: u, s⟩ ⟨u, s.buried r h⟩
  /-- An asset is made under an id that no live asset of its category has. -/
  | insert {u : List Activity} {s : State} (r : RegistryId) (kind : Kind) (key : Key) (slot : Slot)
      (linked : Arena Handle) (hr : Serves u r) (hfree : s.find? r key.id kind.category = none)
      (hpush : (s.registry r).linked.push s.assets.size = .ok (slot, linked)) :
      AssetStride ⟨u, s⟩ ⟨u, s.inserted r kind key slot linked⟩
  /-- An automatic name is given out, the first free one, and the next is tried after it. -/
  | countNames {u : List Activity} {s : State} (r : RegistryId) (n : UInt64) (category : Category)
      (hfirst : freeAutoNumber (s.nameTaken r category) UInt64.size (s.registry r).nextAuto = some n) :
      AssetStride ⟨u, s⟩ ⟨u, s.modifyRegistry r fun reg => { reg with nextAuto := n + 1 }⟩
  /-- An asset gets a key that no other live asset of its category has. -/
  | rekey {u : List Activity} {s : State} (r : RegistryId) (h : Handle) (key : Key) (hr : Serves u r)
      (hfree : (s.find? r key.id (s.asset h).category).any (· ≠ h) = false) :
      AssetStride ⟨u, s⟩ ⟨u, s.modifyAsset h fun a => { a with id := key.id, name := key.name }⟩
  /-- The contents of an asset change. -/
  | write {u : List Activity} {s : State} (h : Handle) (f : Asset → Asset)
      (hf : (s.asset h).EditedTo (f (s.asset h)))
      (hstate : (f (s.asset h)).state = (s.asset h).state) :
      AssetStride ⟨u, s⟩ ⟨u, s.modifyAsset h f⟩
  /-- Client code sets the load state of an asset, maybe inside a task. -/
  | setState {u : List Activity} {s : State} (h : Handle) (state : LoadState) (body : Option BodyId)
      (hbody : ∀ b, body = some b → ∃ a ∈ u, a.Runs b) :
      AssetStride ⟨u, s⟩ ⟨u, s.stateSet h state body⟩
  /-- The asset of a task that was made counts as loading if it had no state. -/
  | loading {u : List Activity} {s : State} (t : Task) (hopen : s.closed = false)
      (hnone : (s.asset t.asset).state = .none) :
      AssetStride ⟨.planned t :: u, s⟩
        ⟨.planned t :: u, s.modifyAsset t.asset fun a => { a with state := .loading }⟩
  /-- The asset of a task whose action failed is left in an error state. -/
  | fail {u : List Activity} {s : State} (e : Entry) :
      AssetStride ⟨.concluding e false :: u, s⟩
        ⟨.concluding e false :: u, s.modifyAsset e.asset fun a => { a with state := .error }⟩
  /-- A new registry is made for code that works with it. -/
  | newRegistry {u : List Activity} {s : State} :
      AssetStride ⟨u, s⟩
        ⟨.within s.registries.size :: u, { s with registries := s.registries.push {} }⟩
  /-- That code has ended. -/
  | leaveRegistry {u : List Activity} {s : State} (r : RegistryId) :
      AssetStride ⟨.within r :: u, s⟩ ⟨u, s⟩

/-! ### Jobs -/

/-- A job is submitted by an operation of its own, called on its own or by a script. -/
def MaySubmit (u : List Activity) : Prop :=
  u = [] ∨ ∃ label, .performing (.submitJob label) ∈ u

/-- Strides that change jobs. -/
inductive JobStride : Moment → Moment → Prop where
  /-- A job is submitted. -/
  | submit {u : List Activity} {s : State} (j : JobId) (hu : MaySubmit u) :
      JobStride ⟨u, s⟩ ⟨u, s.withJobs (s.jobs.submit j)⟩
  /-- A job is made and submitted by a thread that waits for it, and all waiting
  jobs are taken out of their queue. -/
  | summon {u : List Activity} {s : State} (w : Work) (hw : w.IsForeign) :
      JobStride ⟨u, s⟩
        ⟨.draining (s.jobs.waiting ++ [s.jobs.jobs.size]) :: u, s.summoned w⟩
  /-- Anything else is done with jobs; none joins those that wait. -/
  | move {m n : Moment} (h : JobMove m n)
      (hwaiting : n.state.jobs.waiting = m.state.jobs.waiting ∨ n.state.jobs.waiting = []) :
      JobStride m n

/-! ### The task queue -/

/-- The queue keeps its tasks: none is accepted, completed or discarded, and none is
taken out to be discarded. -/
structure Moment.KeepsTasks (m n : Moment) : Prop where
  total : n.state.queue.total = m.state.queue.total
  completed : n.state.queue.completed = m.state.queue.completed
  undrained : ∀ es, n.underWay ≠ .drained es :: m.underWay
  held : ∀ h, n.underWay ≠ .holding .task h :: m.underWay.tail

/-- Where an activity just ends, no task is taken out of the queue. -/
theorem Moment.KeepsTasks.ofEnd {a : Activity} {u : List Activity} {s t : State}
    (htotal : t.queue.total = s.queue.total) (hcompleted : t.queue.completed = s.queue.completed) :
    Moment.KeepsTasks ⟨a :: u, s⟩ ⟨u, t⟩ where
  total := htotal
  completed := hcompleted
  undrained es h := by
    have hlength := congrArg List.length h
    simp only [List.length_cons] at hlength
    omega
  held _ := List.ne_cons_self

/-- Strides that lead a task through its life. -/
inductive TaskStride : Moment → Moment → Prop where
  /-- A task is accepted, unless the scheduler is closed. -/
  | accept {u : List Activity} {s : State} (t : Task) (hopen : s.closed = false)
      (hwhole : (s.asset t.asset).destroyed = false) :
      TaskStride ⟨.planned t :: u, s⟩ ⟨u, s.taskAccepted t⟩
  /-- A task is completed: its asset is staged if that is loaded, and its reference is
  dropped. -/
  | complete {u : List Activity} {s : State} (e : Entry)
      (hwhole : (s.asset e.asset).state.isLoaded = true → (s.asset e.asset).destroyed = false)
      (hsome : 0 < ((s.taskCompleted e).asset e.asset).refs) :
      TaskStride ⟨.ended e :: u, s⟩ ⟨u, (s.taskCompleted e).letGo 0 .task e.asset⟩
  /-- A task is discarded, and its reference is dropped. -/
  | discard {u : List Activity} {s : State} (e : Entry) (hsome : 0 < (s.asset e.asset).refs) :
      TaskStride ⟨.discarded e :: u, s⟩ ⟨u, (s.record (.discarded e.id)).letGo 0 .task e.asset⟩
  /-- The scheduler is closed for good. -/
  | shutDown {u : List Activity} {s : State} (hopen : s.closed = false) :
      TaskStride ⟨u, s⟩ ⟨u, s.shutDown⟩
  /-- The waiting tasks are taken out of the queue to be discarded. -/
  | drain {u : List Activity} {s : State} (hu : MayDrain u) :
      TaskStride ⟨u, s⟩ ⟨.drained s.queue.pending :: u, s.withQueue s.queue.drain.2⟩
  /-- Anything else is done with a task. -/
  | move {m n : Moment} (h : TaskMove m n) (hkept : m.KeepsTasks n) : TaskStride m n

/-! ### Load events -/

/-- Strides that change subscriptions and staged loads, and call subscribers. -/
inductive NoticeStride : Scene → Scene → Prop where
  /-- A subscription is made; it is called at once if the asset is loaded and no
  delivery is still to come. -/
  | subscribe {u : List Activity} {s : State} {due : List (List Subscription)} (h : Handle)
      (label : String) (code : Script) :
      NoticeStride ⟨⟨u, s⟩, due⟩
        ⟨⟨u, s.withNotices (s.notices.subscribe h label code).2⟩,
          (if (s.asset h).state.isLoaded && !s.notices.staged.contains h then
            [(s.notices.subscribe h label code).1] else []) :: due⟩
  /-- Subscriptions to an asset are removed. -/
  | unsubscribe {u : List Activity} {s : State} {due : List (List Subscription)} (h : Handle)
      (id : Option Nat) :
      NoticeStride ⟨⟨u, s⟩, due⟩ ⟨⟨u, s.withNotices (s.notices.unsubscribe h id).2⟩, due⟩
  /-- The staged assets are taken up, and all calls are decided. -/
  | takeUp {u : List Activity} {s : State} {due : List (List Subscription)} :
      NoticeStride ⟨⟨u, s⟩, due⟩
        ⟨⟨.releasing s.notices.staged :: u, s.withNotices
          { s.notices.prune fun sub => !(s.asset sub.asset).destroyed with staged := [] }⟩,
          (s.notices.prune fun sub => !(s.asset sub.asset).destroyed).calls s.notices.staged :: due⟩
  /-- All subscriptions and staged loads are dropped. -/
  | clear {u : List Activity} {s : State} {due : List (List Subscription)} :
      NoticeStride ⟨⟨u, s⟩, due⟩
        ⟨⟨.releasing s.notices.staged :: u,
          s.withNotices { s.notices with subscriptions := [], staged := [] }⟩, due⟩
  /-- The next subscriber is called. -/
  | call {u : List Activity} {s : State} {due : List (List Subscription)} (sub : Subscription)
      (subs : List Subscription) :
      NoticeStride ⟨⟨u, s⟩, (sub :: subs) :: due⟩
        ⟨⟨u, s.record (.loaded sub.id sub.label sub.asset (s.client.labelOf sub.asset)
          (s.asset sub.asset).state)⟩, subs :: due⟩
  /-- All of them have been called. -/
  | called {m : Moment} {due : List (List Subscription)} : NoticeStride ⟨m, [] :: due⟩ ⟨m, due⟩
  /-- The reference of the next staged load is to be dropped. -/
  | releaseNext {u : List Activity} {s : State} {due : List (List Subscription)} (h : Handle)
      (hs : List Handle) :
      NoticeStride ⟨⟨.releasing (h :: hs) :: u, s⟩, due⟩
        ⟨⟨.holding .notice h :: .releasing hs :: u, s⟩, due⟩
  /-- All of their references are dropped. -/
  | released {u : List Activity} {s : State} {due : List (List Subscription)} :
      NoticeStride ⟨⟨.releasing [] :: u, s⟩, due⟩ ⟨⟨u, s⟩, due⟩

/-! ### The rest -/

/-- Log lines, and events that tell where code runs. -/
def Event.IsLine : Event → Prop
  | .logged .. | .gpuCalled .. => True
  | _ => False

theorem Event.IsLine.isNote {e : Event} (h : e.IsLine) : e.IsNote := by
  cases e <;> trivial

/-- Strides that change neither assets, tasks, jobs nor load events. -/
inductive PlainStride : Moment → Moment → Prop where
  /-- An event is noted. -/
  | note {u : List Activity} {s : State} (e : Event) (he : e.IsLine) :
      PlainStride ⟨u, s⟩ ⟨u, s.record e⟩
  /-- The client's tables change, but for its claims. -/
  | client {u : List Activity} {s : State} (c : Client) (hc : c.claims = s.client.claims) :
      PlainStride ⟨u, s⟩ ⟨u, s.withClient c⟩
  /-- Files change. -/
  | files {u : List Activity} {s : State} (storage : Storage) :
      PlainStride ⟨u, s⟩ ⟨u, { s with storage }⟩
  /-- A script performs an operation. -/
  | perform {u : List Activity} {s : State} (op : Op) :
      PlainStride ⟨u, s⟩ ⟨.performing op :: u, s⟩
  /-- The operation is answered. -/
  | answer {u : List Activity} {s : State} (op : Op) (reply : Reply) :
      PlainStride ⟨.performing op :: u, s⟩ ⟨u, s.record (.answered op reply)⟩

/-! ### Runs -/

/-- A stretch of a run in which no client code runs. -/
inductive Stride : Scene → Scene → Prop where
  | asset {m n : Moment} {due : List (List Subscription)} (h : AssetStride m n) :
      Stride ⟨m, due⟩ ⟨n, due⟩
  | body {m n : Moment} {due : List (List Subscription)} (h : BodyMove m n) :
      Stride ⟨m, due⟩ ⟨n, due⟩
  | job {m n : Moment} {due : List (List Subscription)} (h : JobStride m n) :
      Stride ⟨m, due⟩ ⟨n, due⟩
  | task {m n : Moment} {due : List (List Subscription)} (h : TaskStride m n) :
      Stride ⟨m, due⟩ ⟨n, due⟩
  | notice {c d : Scene} (h : NoticeStride c d) : Stride c d
  | plain {m n : Moment} {due : List (List Subscription)} (h : PlainStride m n) :
      Stride ⟨m, due⟩ ⟨n, due⟩

/-- Any number of strides. -/
abbrev Strides : Scene → Scene → Prop :=
  Relation.ReflTransGen Stride

/-! ### Strides are made of moves -/

section Moves

variable {m n : Moment} {u : List Activity} {s : State}

theorem moves_note (e : Event) (he : e.IsLine) : Moves ⟨u, s⟩ ⟨u, s.record e⟩ :=
  .single (.plain (.note e he.isNote))

theorem moves_referenced (holder : Holder) (h : Handle)
    (hwhole : (s.asset h).destroyed = false ∨ 0 < (s.asset h).refs) :
    Moves ⟨u, s⟩ ⟨gained holder h u, s.referenced holder h⟩ := by
  unfold State.referenced
  split
  next hnone =>
    have halive : (s.asset h).destroyed = false := by
      rcases hwhole with hwhole | hsome
      · exact hwhole
      · omega
    have hlog (line : String) (fields : List (String × Field)) :
        Event.IsLine (.logged .debug line fields) := trivial
    exact .trans (.single (.asset (.revive holder h halive hnone))) (moves_note _ (hlog _ _))
  next hsome => exact .single (.asset (.take holder h hwhole hsome))

/-- An asset that falls has no reference left. -/
theorem Falls.refs_eq_zero {h : Handle} (hfalls : Falls h m n) : (n.state.asset h).refs = 0 := by
  cases hfalls with
  | @last u s holder hone =>
    have hknown : h < s.assets.size := by
      refine Nat.lt_of_not_le fun hh => ?_
      rw [State.asset_of_size_le hh] at hone
      exact absurd hone (by decide)
    show ((s.dropped holder h).asset h).refs = 0
    rw [State.asset_dropped, if_pos ⟨rfl, hknown⟩, hone]
    rfl
  | visited hs hnone => exact hnone

theorem Falls.moves {h : Handle} (hfalls : Falls h m n) : Moves m n := by
  cases hfalls with
  | last holder hone => exact .single (.asset (.drop holder h (by omega)))
  | visited hs hnone => exact .single (.asset (.visit h hs))

theorem moves_letGo (r : RegistryId) (holder : Holder) (h : Handle)
    (hsome : 0 < (s.asset h).refs) : Moves ⟨gained holder h u, s⟩ ⟨u, s.letGo r holder h⟩ := by
  have hdrop : Moves ⟨gained holder h u, s⟩ ⟨u, s.dropped holder h⟩ :=
    .single (.asset (.drop holder h hsome))
  unfold State.letGo
  split
  next hone =>
    have hfalls : Falls h ⟨gained holder h u, s⟩ ⟨u, s.dropped holder h⟩ := .last holder hone
    exact hdrop.tail (.asset (.doom r h hfalls.refs_eq_zero))
  next => exact hdrop

theorem moves_unlinked (r : RegistryId) (h : Handle) :
    Moves ⟨.destroying h :: u, s⟩ ⟨.destroying h :: u, s.unlinked r h⟩ := by
  unfold State.unlinked
  split
  next => exact .refl
  next slot hslot =>
    split
    next hget =>
      split
      next => exact .refl
      next k linked htake => exact .single (.asset (.unlink r h k slot linked hslot hget htake))
    next => exact .refl

/-- Once the destruction of an asset has begun, its destructor starts. -/
theorem moves_expired (h : Handle) (c : Contents) (hwhole : (s.asset h).destroyed = false)
    (hc : (s.asset h).contents = some c) (hnone : (s.asset h).refs = 0) :
    Moves ⟨u, s⟩ ⟨.destroying h :: u, s.expired h c⟩ := by
  refine .head (.asset (.beginDestroy h c hwhole hc hnone)) ?_
  refine (moves_note (.logged _ _ _) trivial).tail (.asset (.destructor h _ _ _))

theorem AssetStride.moves (h : AssetStride m n) : Moves m n := by
  -- a stride is one move, or the few that always follow each other
  cases h with
  | @take u s holder h hholder hwhole =>
    have hmoves : Moves ⟨gained holder h u, s⟩ _ := moves_referenced holder h hwhole
    simp only [gained, hholder] at hmoves
    exact hmoves
  | drop holder h hmore => exact .single (.asset (.drop holder h (by omega)))
  | defer r h _ _ hsome => exact moves_letGo r .client h hsome
  | expire h c hfalls hwhole hc =>
    exact hfalls.moves.trans (moves_expired h c hwhole hc hfalls.refs_eq_zero)
  | again h hfalls hgone => exact hfalls.moves.tail (.asset (.redestroy h hgone hfalls.refs_eq_zero))
  | flush r => exact .single (.asset (.flush r))
  | skip h hs _ => exact .single (.asset (.visit h hs))
  | flushed => exact .single (.asset .flushed)
  | bury r h => exact (moves_unlinked r h).tail (.asset (.endDestroy h))
  | insert r kind key slot linked hr hfree hpush =>
    exact .single (.asset (.insert r kind key slot linked hr hfree hpush))
  | countNames r n category hfirst => exact .single (.asset (.countNames r n category hfirst))
  | rekey r h key hr hfree => exact .single (.asset (.rekey r h key hr hfree))
  | write h f hf => exact .single (.asset (.edit h f hf))
  | @setState u s h state body =>
    have hedit : Move ⟨u, s⟩ ⟨u, s.modifyAsset h fun a => { a with state }⟩ :=
      .asset (.edit h _ ⟨rfl, rfl⟩)
    exact .tail (.single hedit) (.plain (.note (.stateSet h state body) trivial))
  | loading t => exact .single (.asset (.edit t.asset _ ⟨rfl, rfl⟩))
  | fail e => exact .single (.asset (.edit e.asset _ ⟨rfl, rfl⟩))
  | newRegistry => exact .single (.asset .newRegistry)
  | leaveRegistry r => exact .single (.asset (.leaveRegistry r))

theorem JobStride.moves (h : JobStride m n) : Moves m n := by
  cases h with
  | submit j => exact .single (.job (.submit j))
  | @summon u s w hw =>
    have hmake : Moves ⟨u, s⟩ ⟨u, s.withJobs ((s.jobs.make w).2.submit s.jobs.jobs.size)⟩ :=
      .tail (.single (.job (.make w hw))) (.job (.submit s.jobs.jobs.size))
    unfold State.summoned
    split
    next => exact (hmake.trans (moves_note (.logged _ _ _) trivial)).tail (.job .drain)
    next => exact hmake.tail (.job .drain)
  | move h => exact .single (.job h)

theorem moves_taskCompleted (e : Entry)
    (hwhole : (s.asset e.asset).state.isLoaded = true → (s.asset e.asset).destroyed = false) :
    Moves ⟨.ended e :: u, s⟩ ⟨.holding .task e.asset :: u, s.taskCompleted e⟩ := by
  have hfinish (t : State) : Moves ⟨.ended e :: u, t⟩ ⟨.holding .task e.asset :: u,
      ((t.record (.logged .debug "Asset task complete" [("asset",
        .text (s.asset e.asset).displayName), ("state", .text (s.asset e.asset).state.debug)])
        ).withQueue (t.queue.finish e.id)).record (.completed e.id)⟩ :=
    (moves_note (.logged _ _ _) trivial).tail (.task (.complete e))
  unfold State.taskCompleted
  split
  next hloaded =>
    have hstage : Moves ⟨.ended e :: u, s⟩ ⟨.ended e :: u, s.staged e.asset⟩ := by
      refine (moves_referenced .notice e.asset (.inl (hwhole hloaded))).tail (.notice ?_)
      unfold State.staged
      rw [← State.notices_referenced s .notice e.asset]
      exact .stage e.asset
    have hend := hstage.trans (hfinish (s.staged e.asset))
    rwa [State.queue_staged] at hend
  next => exact hfinish s

theorem TaskStride.moves (h : TaskStride m n) : Moves m n := by
  cases h with
  | accept t _ hwhole =>
    refine (moves_referenced .task t.asset (.inl hwhole)).trans ?_
    exact (moves_note (.logged _ _ _) trivial).tail (.task (.accept t))
  | complete e hwhole hsome =>
    exact (moves_taskCompleted e hwhole).trans (moves_letGo 0 .task e.asset hsome)
  | @discard u s e hsome =>
    have hdiscard : Moves ⟨.discarded e :: u, s⟩
        ⟨.holding .task e.asset :: u, s.record (.discarded e.id)⟩ := .single (.task (.discard e))
    exact hdiscard.trans (moves_letGo 0 .task e.asset hsome)
  | @shutDown u s hopen =>
    have hclose : Moves ⟨u, s⟩ ⟨u, { s with closed := true }⟩ := .single (.plain .close)
    exact (hclose.trans (moves_note (.logged .debug "Shutting down asset scheduler" []) trivial)).tail
      (.plain .stopWorkers)
  | drain hu => exact .single (.task (.drain hu))
  | move h => exact .single (.task h)

theorem NoticeStride.moves {c d : Scene} (h : NoticeStride c d) : Moves c.toMoment d.toMoment := by
  cases h with
  | subscribe h label code => exact .single (.notice (.subscribe _ rfl))
  | unsubscribe h id => exact .single (.notice (.subscribe _ rfl))
  | takeUp => exact .single (.notice (.takeUp _ rfl))
  | clear => exact .single (.notice (.takeUp _ rfl))
  | call sub subs => exact .single (.plain (.note (.loaded _ _ _ _ _) trivial))
  | called => exact .refl
  | releaseNext h hs => exact .single (.notice (.releaseNext h hs))
  | released => exact .single (.notice .released)

theorem PlainStride.moves (h : PlainStride m n) : Moves m n := by
  cases h with
  | note e he => exact moves_note e he
  | client c hc => exact .single (.plain (.client c hc))
  | files storage => exact .single (.plain (.files storage))
  | perform op => exact .single (.plain (.perform op))
  | answer op reply => exact .single (.plain (.answer op reply))

theorem Stride.moves {c d : Scene} (h : Stride c d) : Moves c.toMoment d.toMoment := by
  cases h with
  | asset h => exact h.moves
  | body h => exact .single (.body h)
  | job h => exact h.moves
  | task h => exact h.moves
  | notice h => exact h.moves
  | plain h => exact h.moves

theorem Strides.moves {c d : Scene} (h : Strides c d) : Moves c.toMoment d.toMoment := by
  induction h with
  | refl => exact .refl
  | tail _ hstride ih => exact ih.trans hstride.moves

end Moves

end AssetLoading
