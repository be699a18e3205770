import AssetLoading.Proofs.Run.Moment
import Mathlib.Logic.Relation

/-! # Moves between moments

  Everything that can happen in a run, one change at a time. A move says what
  must be under way and how things must stand, and what changes. Some moves only
  tell how far a function has come and leave the state alone.

  The moves fall into groups by what they change: assets and registries, task
  bodies, jobs, the task queue, load events, and the rest. A law about one part
  of the state is proved by going through the moves of one group; the other
  groups are dealt with by what they leave unchanged.
-/

namespace AssetLoading

/-! ### Changes of the state -/

namespace State

/-- The state after a reference was taken. -/
def took (s : State) (holder : Holder) (h : Handle) : State :=
  (s.modifyAsset h fun a => { a with refs := a.refs + 1 }).record (.took holder h)

/-- The state after a reference was dropped. -/
def dropped (s : State) (holder : Holder) (h : Handle) : State :=
  (s.modifyAsset h fun a => { a with refs := a.refs - 1 }).record (.dropped holder h)

/-- The state after an asset was made and linked. -/
def inserted (s : State) (r : RegistryId) (kind : Kind) (key : Key) (slot : Slot)
    (linked : Arena Handle) : State :=
  (({ s with assets := s.assets.push { Asset.fresh kind key with slot := some slot } } : State)
    |>.modifyRegistry r fun reg => { reg with linked }).record (.took .client s.assets.size)

/-- The state with another task queue. -/
def withQueue (s : State) (queue : TaskQueue) : State :=
  { s with queue }

/-- The state with other jobs. -/
def withJobs (s : State) (jobs : JobQueue) : State :=
  { s with jobs }

/-- The state with other subscriptions and staged loads. -/
def withNotices (s : State) (notices : Notices) : State :=
  { s with notices }

/-- The state with other client's tables. -/
def withClient (s : State) (client : Client) : State :=
  { s with client }

/-- A job has started. -/
def jobStarted (s : State) (j : JobId) : State :=
  (s.withJobs (s.jobs.modify j fun job => { job with started := true })).record
    (.jobStarted j (s.jobs.job j).work.label)

/-- A job has finished. -/
def jobEnded (s : State) (j : JobId) (success : Bool) : State :=
  (s.withJobs (s.jobs.modify j fun job => { job with success, finished := true })).record
    (.jobEnded j success)

/-- The body of a task was taken away to be freed. -/
def bodyTaken (s : State) (b : BodyId) : State :=
  s.modifyBody b fun body => { body with taken := true }

/-! ### What becomes of the assets -/

/-- An unknown handle has less than no reference. -/
theorem asset_of_size_le {s : State} {h : Handle} (hh : s.assets.size ≤ h) :
    s.asset h = .absent := by
  simp [asset, hh]

theorem asset_took (s : State) (holder : Holder) (h k : Handle) :
    (s.took holder h).asset k =
      if h = k ∧ k < s.assets.size then { s.asset k with refs := (s.asset k).refs + 1 }
      else s.asset k :=
  asset_modifyAsset s h k _

theorem asset_dropped (s : State) (holder : Holder) (h k : Handle) :
    (s.dropped holder h).asset k =
      if h = k ∧ k < s.assets.size then { s.asset k with refs := (s.asset k).refs - 1 }
      else s.asset k :=
  asset_modifyAsset s h k _

theorem asset_inserted (s : State) (r : RegistryId) (kind : Kind) (key : Key) (slot : Slot)
    (linked : Arena Handle) (k : Handle) :
    (s.inserted r kind key slot linked).asset k =
      if k = s.assets.size then { Asset.fresh kind key with slot := some slot } else s.asset k := by
  show ((s.assets.push _)[k]?).getD .absent = _
  rw [Array.getElem?_push]
  split <;> rfl

@[simp] theorem size_modifyAsset (s : State) (h : Handle) (f : Asset → Asset) :
    (s.modifyAsset h f).assets.size = s.assets.size :=
  Array.size_modify

@[simp] theorem size_took (s : State) (holder : Holder) (h : Handle) :
    (s.took holder h).assets.size = s.assets.size :=
  Array.size_modify

@[simp] theorem size_dropped (s : State) (holder : Holder) (h : Handle) :
    (s.dropped holder h).assets.size = s.assets.size :=
  Array.size_modify

@[simp] theorem size_inserted (s : State) (r : RegistryId) (kind : Kind) (key : Key) (slot : Slot)
    (linked : Arena Handle) :
    (s.inserted r kind key slot linked).assets.size = s.assets.size + 1 :=
  Array.size_push _

end State

/-- One asset is like another but for its load state and what is in its contents. -/
def Asset.EditedTo (a b : Asset) : Prop :=
  b = { a with state := b.state, contents := b.contents } ∧
    b.contents.isSome = a.contents.isSome

/-- An entry with the outcome of its job taken out of it. -/
def Entry.collected (e : Entry) (complexity : Option Int32) : Entry :=
  { e with job := none }.withComplexity complexity

/-- The entry at the next action. -/
def Entry.advanced (e : Entry) : Entry :=
  { e with cursor := e.cursor + 1 }

/-- The entry whose action was handed to the GPU thread. -/
def Entry.handedOver (e : Entry) (j : JobId) : Entry :=
  { e with job := some j }

/-- Events that tell of no reference, task or job. -/
def Event.IsNote : Event → Prop
  | .logged .. | .gpuCalled .. | .stateSet .. | .loaded .. => True
  | _ => False

/-! ### Assets and registries -/

/-- Moves that change assets and registries. -/
inductive AssetMove : Moment → Moment → Prop where
  /-- A reference is taken on an asset that has some. -/
  | take {u : List Activity} {s : State} (holder : Holder) (h : Handle)
      (hwhole : (s.asset h).destroyed = false ∨ 0 < (s.asset h).refs)
      (hsome : (s.asset h).refs ≠ 0) :
      AssetMove ⟨u, s⟩ ⟨gained holder h u, s.took holder h⟩
  /-- A reference is taken on an asset that waits for destruction. -/
  | revive {u : List Activity} {s : State} (holder : Holder) (h : Handle)
      (hwhole : (s.asset h).destroyed = false) (hnone : (s.asset h).refs = 0) :
      AssetMove ⟨u, s⟩ ⟨gained holder h u, (s.record (.revived h (s.rival? h))).took holder h⟩
  /-- A reference is dropped. -/
  | drop {u : List Activity} {s : State} (holder : Holder) (h : Handle)
      (hsome : 0 < (s.asset h).refs) :
      AssetMove ⟨gained holder h u, s⟩ ⟨u, s.dropped holder h⟩
  /-- An asset without references is left to the main thread. -/
  | doom {u : List Activity} {s : State} (r : RegistryId) (h : Handle)
      (hnone : (s.asset h).refs = 0) :
      AssetMove ⟨u, s⟩ ⟨u, s.modifyRegistry r fun reg => { reg with doomed := reg.doomed ++ [h] }⟩
  /-- The assets that wait for destruction are taken out of their queue. -/
  | flush {u : List Activity} {s : State} (r : RegistryId) :
      AssetMove ⟨u, s⟩
        ⟨.flushing (s.registry r).doomed :: u, s.modifyRegistry r fun reg => { reg with doomed := [] }⟩
  /-- The next of them is looked at. -/
  | visit {u : List Activity} {s : State} (h : Handle) (hs : List Handle) :
      AssetMove ⟨.flushing (h :: hs) :: u, s⟩ ⟨.flushing hs :: u, s⟩
  /-- All of them have been looked at. -/
  | flushed {u : List Activity} {s : State} :
      AssetMove ⟨.flushing [] :: u, s⟩ ⟨u, s⟩
  /-- The destruction of an asset begins. -/
  | beginDestroy {u : List Activity} {s : State} (h : Handle) (c : Contents)
      (hwhole : (s.asset h).destroyed = false) (hc : (s.asset h).contents = some c)
      (hnone : (s.asset h).refs = 0) :
      AssetMove ⟨u, s⟩
        ⟨.destroying h :: u, s.modifyAsset h fun a => { a with destroyed := true, contents := none }⟩
  /-- An asset that has no contents left is marked as destroyed once more. -/
  | redestroy {u : List Activity} {s : State} (h : Handle)
      (hgone : (s.asset h).destroyed = true ∨ (s.asset h).contents = none)
      (hnone : (s.asset h).refs = 0) :
      AssetMove ⟨u, s⟩ ⟨u, s.modifyAsset h fun a => { a with destroyed := true }⟩
  /-- The destructor of an asset starts. -/
  | destructor {u : List Activity} {s : State} (h : Handle) (tag : String) (category : Category)
      (value : Int) :
      AssetMove ⟨.destroying h :: u, s⟩
        ⟨.destroying h :: u, s.record (.destroyed h (s.asset h).refs tag category value)⟩
  /-- An asset is unlinked. -/
  | unlink {u : List Activity} {s : State} (r : RegistryId) (h k : Handle) (slot : Slot)
      (linked : Arena Handle) (hslot : (s.asset h).slot = some slot)
      (hget : (s.registry r).linked.get? slot = some h)
      (htake : (s.registry r).linked.take? slot = some (k, linked)) :
      AssetMove ⟨.destroying h :: u, s⟩
        ⟨.destroying h :: u, s.modifyRegistry r fun reg => { reg with linked }⟩
  /-- The destruction of an asset ends. -/
  | endDestroy {u : List Activity} {s : State} (h : Handle) :
      AssetMove ⟨.destroying h :: u, s⟩
        ⟨u, s.modifyAsset h fun a => { a with slot := none, state := .none }⟩
  /-- An asset is made under an id that no live asset of its category has. -/
  | insert {u : List Activity} {s : State} (r : RegistryId) (kind : Kind) (key : Key) (slot : Slot)
      (linked : Arena Handle) (hr : Serves u r) (hfree : s.find? r key.id kind.category = none)
      (hpush : (s.registry r).linked.push s.assets.size = .ok (slot, linked)) :
      AssetMove ⟨u, s⟩ ⟨u, s.inserted r kind key slot linked⟩
  /-- An automatic name is given out, the first free one, and the next is tried after it. -/
  | countNames {u : List Activity} {s : State} (r : RegistryId) (n : UInt64) (category : Category)
      (hfirst : freeAutoNumber (s.nameTaken r category) UInt64.size (s.registry r).nextAuto = some n) :
      AssetMove ⟨u, s⟩ ⟨u, s.modifyRegistry r fun reg => { reg with nextAuto := n + 1 }⟩
  /-- An asset gets a key that no other live asset of its category has. -/
  | rekey {u : List Activity} {s : State} (r : RegistryId) (h : Handle) (key : Key) (hr : Serves u r)
      (hfree : (s.find? r key.id (s.asset h).category).any (· ≠ h) = false) :
      AssetMove ⟨u, s⟩ ⟨u, s.modifyAsset h fun a => { a with id := key.id, name := key.name }⟩
  /-- The load state or the contents of an asset change. -/
  | edit {u : List Activity} {s : State} (h : Handle) (f : Asset → Asset)
      (hf : (s.asset h).EditedTo (f (s.asset h))) :
      AssetMove ⟨u, s⟩ ⟨u, s.modifyAsset h f⟩
  /-- A new registry is made for code that works with it. -/
  | newRegistry {u : List Activity} {s : State} :
      AssetMove ⟨u, s⟩
        ⟨.within s.registries.size :: u, { s with registries := s.registries.push {} }⟩
  /-- That code has ended. -/
  | leaveRegistry {u : List Activity} {s : State} (r : RegistryId) :
      AssetMove ⟨.within r :: u, s⟩ ⟨u, s⟩

/-! ### Task bodies -/

/-- Moves that change task bodies and run their code. -/
inductive BodyMove : Moment → Moment → Prop where
  /-- A task is made. -/
  | plan {u : List Activity} {s : State} (t : Task) (body : TaskBody)
      (hbody : t.body = s.bodies.size) (htaken : body.taken = false)
      (haffinities : t.affinities = body.actions.map Action.affinity) :
      BodyMove ⟨u, s⟩ ⟨.planned t :: u, { s with bodies := s.bodies.push body }⟩
  /-- A task that was not queued is forgotten. -/
  | forget {u : List Activity} {s : State} (t : Task) :
      BodyMove ⟨.refused t :: u, s⟩ ⟨u, s⟩
  /-- A cost estimate is noted or taken. -/
  | estimate {u : List Activity} {s : State} (b : BodyId) (f : TaskBody → TaskBody)
      (hf : ∀ body, ∃ noted reported, f body = { body with noted, reported }) :
      BodyMove ⟨u, s⟩ ⟨u, s.modifyBody b f⟩
  /-- Code of a task changes its data. -/
  | write {u : List Activity} {s : State} (b : BodyId) (f : TaskBody → TaskBody)
      (hruns : ∃ a ∈ u, a.Runs b) (hf : ∀ body, ∃ data, f body = { body with data }) :
      BodyMove ⟨u, s⟩ ⟨u, s.modifyBody b f⟩
  /-- An action starts. -/
  | act {u : List Activity} {s : State} (a : Activity) (b : BodyId) (i : Nat) (onGpu : Bool)
      (hmay : a.MayAct b i onGpu) (htaken : (s.body b).taken = false)
      (hi : i < (s.body b).actions.length) :
      BodyMove ⟨a :: u, s⟩
        ⟨.acting a b i :: u,
          s.record (.acted b (s.body b).name i onGpu (s.body b).data)⟩
  /-- An action returns. -/
  | actEnd {u : List Activity} {s : State} (a : Activity) (b : BodyId) (i : Nat) (onGpu ok : Bool)
      (hmay : a.MayAct b i onGpu) :
      BodyMove ⟨.acting a b i :: u, s⟩
        ⟨a.concluded ok :: u, s.record (.actionEnded b i ok (s.body b).data)⟩
  /-- An action cannot run, which counts as a failure. -/
  | actSkip {u : List Activity} {s : State} (a : Activity) (b : BodyId) (i : Nat) (onGpu : Bool)
      (hmay : a.MayAct b i onGpu)
      (hgone : (s.body b).taken = true ∨ (s.body b).actions.length ≤ i) :
      BodyMove ⟨a :: u, s⟩ ⟨a.concluded false :: u, s⟩
  /-- The failure hook starts. -/
  | fail {u : List Activity} {s : State} (e : Entry) (htaken : (s.body e.body).taken = false)
      (hhook : (s.body e.body).onFailure.isSome) :
      BodyMove ⟨.concluding e false :: u, s⟩
        ⟨.failing e :: u,
          s.record (.failed e.body (s.body e.body).name (s.asset e.asset).state (s.body e.body).data)⟩
  /-- The failure hook returns. -/
  | failEnd {u : List Activity} {s : State} (e : Entry) :
      BodyMove ⟨.failing e :: u, s⟩
        ⟨.ending e.abort :: u, s.record (.hookEnded e.body (s.body e.body).data)⟩
  /-- There is no failure hook to run. -/
  | failSkip {u : List Activity} {s : State} (e : Entry)
      (hgone : (s.body e.body).taken = true ∨ (s.body e.body).onFailure = none) :
      BodyMove ⟨.concluding e false :: u, s⟩ ⟨.ending e.abort :: u, s⟩
  /-- The body is taken away and the hook starts that frees its data. -/
  | free {u : List Activity} {s : State} (a : Activity) (b : BodyId) (h : Handle)
      (hmay : a.MayFree b) (htaken : (s.body b).taken = false)
      (hhook : (s.body b).onFree.isSome) :
      BodyMove ⟨a :: u, s⟩
        ⟨.freeing a b :: u,
          (s.bodyTaken b).record (.freed b (s.body b).name (s.asset h).state (s.body b).data)⟩
  /-- The hook that frees the data returns. -/
  | freeEnd {u : List Activity} {s : State} (a : Activity) (b : BodyId) (hmay : a.MayFree b) :
      BodyMove ⟨.freeing a b :: u, s⟩ ⟨a.freed :: u, s.record (.hookEnded b (s.body b).data)⟩
  /-- The body is taken away and there is no hook to run. -/
  | freeSkip {u : List Activity} {s : State} (a : Activity) (b : BodyId) (hmay : a.MayFree b)
      (hgone : (s.body b).taken = true ∨ (s.body b).onFree = none) :
      BodyMove ⟨a :: u, s⟩ ⟨a.freed :: u, s.bodyTaken b⟩

/-! ### Jobs -/

/-- Work that is not an action of a task. -/
def Work.IsForeign : Work → Prop
  | .action .. => False
  | .call .. | .custom .. => True

/-- What is under way before and after a job is picked: the job is the next of a
drain, or somebody runs it out of turn. -/
inductive Picks (j : JobId) : List Activity → List Activity → Prop where
  | next (js : List JobId) (u : List Activity) : Picks j (.draining (j :: js) :: u) (.draining js :: u)
  | outOfTurn (u : List Activity) : Picks j u u

/-- Moves that change jobs. -/
inductive JobMove : Moment → Moment → Prop where
  /-- A job is made that is not an action of a task. -/
  | make {u : List Activity} {s : State} (w : Work) (hw : w.IsForeign) :
      JobMove ⟨u, s⟩ ⟨u, s.withJobs (s.jobs.make w).2⟩
  /-- A job is submitted. -/
  | submit {u : List Activity} {s : State} (j : JobId) :
      JobMove ⟨u, s⟩ ⟨u, s.withJobs (s.jobs.submit j)⟩
  /-- The waiting jobs are taken out of their queue. -/
  | drain {u : List Activity} {s : State} :
      JobMove ⟨u, s⟩
        ⟨.draining s.jobs.waiting :: u, s.withJobs { s.jobs with waiting := [] }⟩
  /-- A job starts. -/
  | start {u v : List Activity} {s : State} (j : JobId) (hpick : Picks j u v)
      (hnew : (s.jobs.job j).started = false) :
      JobMove ⟨u, s⟩ ⟨.running j (s.jobs.job j).work :: v, s.jobStarted j⟩
  /-- A job has been started before. -/
  | skip {u v : List Activity} {s : State} (j : JobId) (hpick : Picks j u v)
      (hold : (s.jobs.job j).started = true) :
      JobMove ⟨u, s⟩ ⟨v, s⟩
  /-- Work that is not an action of a task has returned. -/
  | work {u : List Activity} {s : State} (j : JobId) (w : Work) (hw : w.IsForeign) (ok : Bool) :
      JobMove ⟨.running j w :: u, s⟩ ⟨.ran j w ok :: u, s⟩
  /-- A job finishes. -/
  | finish {u : List Activity} {s : State} (j : JobId) (w : Work) (ok : Bool) :
      JobMove ⟨.ran j w ok :: u, s⟩ ⟨u, s.jobEnded j ok⟩
  /-- All jobs of a drain have been run. -/
  | drained {u : List Activity} {s : State} :
      JobMove ⟨.draining [] :: u, s⟩ ⟨u, s⟩

/-! ### The task queue -/

/-- Shutdown may empty the queue when it is called on its own, or by a script. -/
def MayDrain (u : List Activity) : Prop :=
  u = [] ∨ .performing .shutdown ∈ u

/-- A claimed task goes to the client by an operation of its own, called on its own or
by a script. -/
def MayShelve (u : List Activity) : Prop :=
  u = [] ∨ ∃ label wait, .performing (.claim label wait) ∈ u

/-- Moves that change the task queue and lead a task through its life. -/
inductive TaskMove : Moment → Moment → Prop where
  /-- A task is accepted. -/
  | accept {u : List Activity} {s : State} (t : Task) :
      TaskMove ⟨.holding .task t.asset :: .planned t :: u, s⟩
        ⟨u, (s.withQueue (s.queue.push t).2).record
          (.accepted (s.queue.push t).1.id t.body t.asset (s.body t.body).data)⟩
  /-- A task is claimed. -/
  | acquire {u : List Activity} {s : State} (e : Entry) (queue : TaskQueue)
      (hq : s.queue.acquire s.runnable = some (e, queue)) :
      TaskMove ⟨u, s⟩ ⟨.claimed e :: u, s.withQueue queue⟩
  /-- A claimed task is put under a label of the client; a claim that was there
  is lost. -/
  | shelve {u : List Activity} {s : State} (e : Entry) (label : String) (hu : MayShelve u) :
      TaskMove ⟨.claimed e :: u, s⟩
        ⟨u, s.withClient { s.client with claims := s.client.claims.put label e }⟩
  /-- A claimed task is taken from under a label. -/
  | unshelve {u : List Activity} {s : State} (e : Entry) (label : String)
      (he : s.client.claims.lookup label = some e) :
      TaskMove ⟨u, s⟩
        ⟨.claimed e :: u,
          s.withClient { s.client with claims := s.client.claims.remove label }⟩
  /-- The client forgets its claims. -/
  | forget {u : List Activity} {s : State} :
      TaskMove ⟨u, s⟩ ⟨u, s.withClient { s.client with claims := [] }⟩
  /-- Of several claimed tasks one that was claimed before is the next to be advanced. -/
  | exchange {u : List Activity} {s : State} (es : List Entry) (e : Entry) :
      TaskMove ⟨es.map .claimed ++ .claimed e :: u, s⟩ ⟨.claimed e :: (es.map .claimed ++ u), s⟩
  /-- A claimed task begins to be advanced. -/
  | step {u : List Activity} {s : State} (e : Entry) (onGpu : Bool) :
      TaskMove ⟨.claimed e :: u, s⟩ ⟨.stepping e onGpu :: u, s.record (.stepped e.id onGpu)⟩
  /-- A task without actions left comes to its end. -/
  | runOut {u : List Activity} {s : State} (e : Entry) (onGpu : Bool)
      (he : e.currentAffinity = none) :
      TaskMove ⟨.stepping e onGpu :: u, s⟩ ⟨.ending e :: u, s⟩
  /-- The action at the cursor is handed to the GPU thread. -/
  | handOver {u : List Activity} {s : State} (e : Entry) (he : e.currentAffinity = some .gpu)
      (hjob : e.job = none) :
      TaskMove ⟨.stepping e false :: u, s⟩
        ⟨u, (s.withJobs ((s.jobs.make (.action e.body e.cursor e.asset e.priority)).2.submit
            s.jobs.jobs.size)).withQueue (s.queue.giveBack (e.handedOver s.jobs.jobs.size))⟩
  /-- The job that runs the action at the cursor is not finished. -/
  | wait {u : List Activity} {s : State} (e : Entry) (j : JobId)
      (he : e.currentAffinity = some .gpu) (hjob : e.job = some j)
      (hj : (s.jobs.job j).finished = false) :
      TaskMove ⟨.stepping e false :: u, s⟩ ⟨u, s.withQueue (s.queue.giveBack e)⟩
  /-- The outcome of the job that ran the action at the cursor is collected. -/
  | collect {u : List Activity} {s : State} (e : Entry) (j : JobId) (complexity : Option Int32)
      (he : e.currentAffinity = some .gpu) (hjob : e.job = some j)
      (hj : (s.jobs.job j).finished = true) :
      TaskMove ⟨.stepping e false :: u, s⟩
        ⟨.concluding (e.collected complexity) (s.jobs.job j).success :: u, s⟩
  /-- A task gets the cost estimate that its action reported. -/
  | reckon {u : List Activity} {s : State} (e : Entry) (ok : Bool) (complexity : Option Int32) :
      TaskMove ⟨.concluding e ok :: u, s⟩ ⟨.concluding (e.withComplexity complexity) ok :: u, s⟩
  /-- An action succeeded and there are more. -/
  | proceed {u : List Activity} {s : State} (e : Entry) (he : e.advanced.isComplete = false) :
      TaskMove ⟨.concluding e true :: u, s⟩ ⟨u, s.withQueue (s.queue.giveBack e.advanced)⟩
  /-- The last action succeeded. -/
  | succeed {u : List Activity} {s : State} (e : Entry) (he : e.advanced.isComplete = true) :
      TaskMove ⟨.concluding e true :: u, s⟩ ⟨.ending e.advanced :: u, s⟩
  /-- A task is completed; its reference is still to be dropped. -/
  | complete {u : List Activity} {s : State} (e : Entry) :
      TaskMove ⟨.ended e :: u, s⟩
        ⟨.holding .task e.asset :: u,
          (s.withQueue (s.queue.finish e.id)).record (.completed e.id)⟩
  /-- The waiting tasks are taken out of the queue to be discarded. -/
  | drain {u : List Activity} {s : State} (hu : MayDrain u) :
      TaskMove ⟨u, s⟩ ⟨.drained s.queue.pending :: u, s.withQueue s.queue.drain.2⟩
  /-- The next of them is discarded. -/
  | discardNext {u : List Activity} {s : State} (e : Entry) (es : List Entry) :
      TaskMove ⟨.drained (e :: es) :: u, s⟩ ⟨.discarding e :: .drained es :: u, s⟩
  /-- A task is discarded; its reference is still to be dropped. -/
  | discard {u : List Activity} {s : State} (e : Entry) :
      TaskMove ⟨.discarded e :: u, s⟩
        ⟨.holding .task e.asset :: u, s.record (.discarded e.id)⟩
  /-- All of them are discarded. -/
  | discardEnd {u : List Activity} {s : State} :
      TaskMove ⟨.drained [] :: u, s⟩ ⟨u, s⟩

/-! ### Claimed tasks in another order -/

section Exchange

variable (es : List Entry) (e : Entry) (u : List Activity)

theorem perm_exchange : (Activity.claimed e :: (es.map Activity.claimed ++ u)).Perm
    (es.map Activity.claimed ++ Activity.claimed e :: u) :=
  List.perm_middle.symm

/-- What no claimed task is part of is the same in whatever order those are. -/
theorem flatMap_exchange {α : Type} {f : Activity → List α} (hf : ∀ e, f (.claimed e) = []) :
    (Activity.claimed e :: (es.map Activity.claimed ++ u)).flatMap f =
      (es.map Activity.claimed ++ Activity.claimed e :: u).flatMap f := by
  rw [List.flatMap_cons, List.flatMap_append, List.flatMap_append, List.flatMap_cons, hf,
    List.nil_append, List.nil_append]

theorem filterMap_exchange {α : Type} {f : Activity → Option α} (hf : ∀ e, f (.claimed e) = none) :
    (Activity.claimed e :: (es.map Activity.claimed ++ u)).filterMap f =
      (es.map Activity.claimed ++ Activity.claimed e :: u).filterMap f := by
  rw [List.filterMap_cons_none (hf e), List.filterMap_append, List.filterMap_append,
    List.filterMap_cons_none (hf e)]

theorem filter_exchange {p : Activity → Bool} (hp : ∀ e, p (.claimed e) = false) :
    (Activity.claimed e :: (es.map Activity.claimed ++ u)).filter p =
      (es.map Activity.claimed ++ Activity.claimed e :: u).filter p := by
  have hclaimed (e : Entry) : ¬ p (.claimed e) = true := by simp [hp e]
  rw [List.filter_cons_of_neg (hclaimed e), List.filter_append, List.filter_append,
    List.filter_cons_of_neg (hclaimed e)]

theorem mem_exchange {a : Activity} :
    a ∈ Activity.claimed e :: (es.map Activity.claimed ++ u) ↔
      a ∈ es.map Activity.claimed ++ Activity.claimed e :: u :=
  (perm_exchange es e u).mem_iff

end Exchange

/-! ### Load events -/

/-- Moves that change subscriptions and staged loads. -/
inductive NoticeMove : Moment → Moment → Prop where
  /-- Subscriptions come and go. -/
  | subscribe {u : List Activity} {s : State} (notices : Notices)
      (hn : notices.staged = s.notices.staged) :
      NoticeMove ⟨u, s⟩ ⟨u, s.withNotices notices⟩
  /-- An asset is staged. -/
  | stage {u : List Activity} {s : State} (h : Handle) :
      NoticeMove ⟨.holding .notice h :: u, s⟩
        ⟨u, s.withNotices { s.notices with staged := s.notices.staged ++ [h] }⟩
  /-- The staged assets are taken up. -/
  | takeUp {u : List Activity} {s : State} (notices : Notices) (hn : notices.staged = []) :
      NoticeMove ⟨u, s⟩ ⟨.releasing s.notices.staged :: u, s.withNotices notices⟩
  /-- The reference of the next of them is to be dropped. -/
  | releaseNext {u : List Activity} {s : State} (h : Handle) (hs : List Handle) :
      NoticeMove ⟨.releasing (h :: hs) :: u, s⟩ ⟨.holding .notice h :: .releasing hs :: u, s⟩
  /-- All of their references are dropped. -/
  | released {u : List Activity} {s : State} :
      NoticeMove ⟨.releasing [] :: u, s⟩ ⟨u, s⟩

/-! ### The rest -/

/-- Moves that change neither assets, tasks, jobs nor load events. -/
inductive PlainMove : Moment → Moment → Prop where
  /-- An event is noted. -/
  | note {u : List Activity} {s : State} (e : Event) (he : e.IsNote) :
      PlainMove ⟨u, s⟩ ⟨u, s.record e⟩
  /-- The client's tables change, but for its claims. -/
  | client {u : List Activity} {s : State} (c : Client) (hc : c.claims = s.client.claims) :
      PlainMove ⟨u, s⟩ ⟨u, s.withClient c⟩
  /-- Files change. -/
  | files {u : List Activity} {s : State} (storage : Storage) :
      PlainMove ⟨u, s⟩ ⟨u, { s with storage }⟩
  /-- The scheduler is shut down. -/
  | close {u : List Activity} {s : State} :
      PlainMove ⟨u, s⟩ ⟨u, { s with closed := true }⟩
  /-- The workers are stopped. -/
  | stopWorkers {u : List Activity} {s : State} :
      PlainMove ⟨u, s⟩ ⟨u, { s with queue := s.queue.close, workers := 0 }⟩
  /-- A script performs an operation. -/
  | perform {u : List Activity} {s : State} (op : Op) :
      PlainMove ⟨u, s⟩ ⟨.performing op :: u, s⟩
  /-- The operation is answered. -/
  | answer {u : List Activity} {s : State} (op : Op) (reply : Reply) :
      PlainMove ⟨.performing op :: u, s⟩ ⟨u, s.record (.answered op reply)⟩

/-! ### Runs -/

/-- One change in a run. -/
inductive Move : Moment → Moment → Prop where
  | asset {m n : Moment} (h : AssetMove m n) : Move m n
  | body {m n : Moment} (h : BodyMove m n) : Move m n
  | job {m n : Moment} (h : JobMove m n) : Move m n
  | task {m n : Moment} (h : TaskMove m n) : Move m n
  | notice {m n : Moment} (h : NoticeMove m n) : Move m n
  | plain {m n : Moment} (h : PlainMove m n) : Move m n

/-- Any number of changes. -/
abbrev Moves : Moment → Moment → Prop :=
  Relation.ReflTransGen Move

/-- What every move preserves holds at the end of any number of moves. -/
theorem Moves.preserve {P : Moment → Prop} (hstep : ∀ m n, Move m n → P m → P n)
    {m n : Moment} (hmn : Moves m n) (hm : P m) : P n := by
  induction hmn with
  | refl => exact hm
  | tail _ hmove ih => exact hstep _ _ hmove ih

end AssetLoading
