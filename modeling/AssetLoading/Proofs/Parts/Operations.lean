import AssetLoading.Proofs.Parts.Assets
import AssetLoading.Proofs.Run.Moment

/-! # What operations are made of

  Which parts operations are made of is said here once, for all laws of client code.
  `DrivingParts` lists what updates and waits are made of; `OperationParts` and
  `DrivingOperationParts` list what is left for the operations that drive no tasks,
  and for those that do.

  What has to be known of a part may depend on the operation. Where a field asks for
  `op = ..`, it speaks of that operation alone.
-/

namespace AssetLoading

/-- An early end that no reference count is behind. -/
def Halt.isPlain : Halt → Bool
  | .fatal (.releasedTooMany ..) | .fatal (.addedToDestroyed ..) => false
  | _ => true

section Names

variable {Holds : {α : Type} → Exec α → Prop} (h : Composes Holds)

include h

theorem Composes.withAsset (scope : Scope) (ref : AssetRef) {answer : Handle → Exec Reply}
    (hanswer : ∀ a, Holds (answer a)) : Holds (withAsset scope ref answer) := by
  refine h.look fun s => ?_
  split
  · exact hanswer _
  · exact h.pure _

theorem Composes.withTarget (scope : Scope) (ref : Option AssetRef)
    {answer : Option Handle → Exec Reply} (hanswer : ∀ a, Holds (answer a)) :
    Holds (withTarget scope ref answer) := by
  cases ref with
  | none => exact hanswer none
  | some ref => exact h.withAsset scope ref fun a => hanswer (some a)

theorem Composes.tellRefs (a : Handle) : Holds (tellRefs a) :=
  h.look fun _ => h.pure _

end Names

/-! ### Updates and waits -/

/-- A task is claimed and advanced, if there is one. -/
def takeTurn (call : Runner) (thread : Thread) : Exec (Option Entry) := do
  match ← acquireTask with
  | none => pure none
  | some e =>
    stepTask call thread e
    pure (some e)

/-- Code that claims a task, if it can, advances it, and goes on. -/
theorem acquireTask_bind_eq {α : Type} (call : Runner) (thread : Thread)
    {f g : Option Entry → Exec α} (hnone : f none = g none)
    (hsome : ∀ e, f (some e) = stepTask call thread e >>= fun _ => g (some e)) :
    acquireTask >>= f = takeTurn call thread >>= g := by
  funext s
  show EStateM.bind acquireTask f s = EStateM.bind (EStateM.bind acquireTask _) g s
  unfold EStateM.bind
  cases acquireTask s with
  | error e t => rfl
  | ok claimed t =>
    cases claimed with
    | none => exact congrFun hnone t
    | some e =>
      dsimp only
      rw [hsome]
      show EStateM.bind (stepTask call thread e) (fun _ => g (some e)) t =
        EStateM.bind (EStateM.bind (stepTask call thread e) fun _ => EStateM.pure (some e)) g t
      unfold EStateM.bind
      cases stepTask call thread e t <;> rfl

/-- The parts of updates and waits have a property. -/
structure DrivingParts (Holds : {α : Type} → Exec α → Prop) (call : Runner) : Prop
    extends Composes Holds where
  throw : ∀ {α : Type} {reason : Halt}, reason.isPlain = true →
    Holds (MonadExcept.throw reason : Exec α)
  flush : Holds (flush call { thread := .main })
  drainJobs : Holds (drainJobs call .main)
  deliver : Holds (deliver call .main)
  turn : ∀ thread, Holds (takeTurn call thread)

namespace DrivingParts

variable {Holds : {α : Type} → Exec α → Prop} {call : Runner} (h : DrivingParts Holds call)

include h

/-- Code takes a turn and goes on. -/
theorem acquire {α : Type} (thread : Thread) {f : Option Entry → Exec α}
    (g : Option Entry → Exec α) (hnone : f none = g none)
    (hsome : ∀ e, f (some e) = stepTask call thread e >>= fun _ => g (some e))
    (hg : ∀ e, Holds (g e)) : Holds (acquireTask >>= f) := by
  rw [acquireTask_bind_eq call thread hnone hsome]
  exact h.bind (h.turn thread) hg

theorem update (thread : Thread) : Holds (update call thread) := by
  unfold AssetLoading.update
  split
  · exact h.throw rfl
  next hmain =>
    obtain rfl : thread = .main := Decidable.of_not_not hmain
    have hend : Holds (do let _ ← AssetLoading.deliver call .main) :=
      h.bind h.deliver fun _ => h.pure _
    refine h.bind h.flush fun _ => h.bind h.drainJobs fun _ => h.look fun s => ?_
    dsimp only
    split
    · exact h.acquire .main (fun _ => do let _ ← AssetLoading.deliver call .main) rfl (fun _ => rfl)
        fun _ => hend
    · exact hend

theorem updates (thread : Thread) (n : Nat) : Holds (updates call thread n) := by
  induction n with
  | zero => exact h.pure _
  | succ n ih => exact h.bind (h.update thread) fun _ => ih

theorem workerTurn : Holds (workerTurn call) := by
  refine h.look fun s => ?_
  split
  · exact h.pure _
  · exact h.acquire (.worker 0) (fun e => Pure.pure e.isSome) rfl (fun _ => rfl) fun _ => h.pure _

theorem runWorkers (fuel : Nat) : Holds (runWorkers call fuel) := by
  induction fuel with
  | zero => exact h.throw rfl
  | succ fuel ih =>
    refine h.bind h.workerTurn fun advanced => ?_
    split
    · exact ih
    · exact h.pure _

theorem updateUntil (goal : Goal) (fuel : Nat) : Holds (updateUntil call goal fuel) := by
  induction fuel with
  | zero => exact h.throw rfl
  | succ fuel ih =>
    refine h.look fun s => ?_
    split
    · refine h.bind (h.update .main) fun _ => h.look fun t => ?_
      dsimp only
      split
      · refine h.bind h.workerTurn fun advanced => ?_
        split
        · exact h.bind h.deliver fun _ => ih
        · exact ih
      · exact ih
    · exact h.pure _

theorem waitFor (thread : Thread) (goal : Goal) (fuel : Nat) :
    Holds (waitFor call thread goal fuel) := by
  unfold AssetLoading.waitFor
  split
  · exact h.updateUntil goal fuel
  · refine h.look fun s => ?_
    split
    · refine h.bind (h.runWorkers fuel) fun _ => h.look fun t => ?_
      split
      · exact h.throw rfl
      · exact h.pure _
    · exact h.pure _

theorem blockOn (thread : Thread) (callName : String) (goal : Goal) (fuel : Nat) :
    Holds (blockOn call thread callName goal fuel) := by
  unfold AssetLoading.blockOn
  split
  · exact h.throw rfl
  · exact h.waitFor _ goal fuel

theorem settle (thread : Thread) (fuel : Nat) : Holds (settle call thread fuel) := by
  unfold AssetLoading.settle
  split
  · exact h.updateUntil .settled fuel
  · refine h.bind (h.runWorkers fuel) fun _ => h.look fun t => ?_
    split
    · exact h.update thread
    · exact h.pure _

end DrivingParts

/-! ### Operations that drive no tasks -/

/-- Operations that drive tasks: they queue, claim or advance them, wait for them or
end them all, or change what is known of one. -/
def Op.drives : Op → Bool
  | .enqueue _ | .step _ | .blockUntil _ _ | .blockForPriority _ | .settle | .claim _ _
  | .stepClaim _ | .work | .setComplexity _ | .shutdown => true
  | _ => false

/-- What operations do with the registry has a property. -/
structure RegistryOperations (Holds : {α : Type} → Exec α → Prop) (call : Runner) (scope : Scope) :
    Prop where
  findOrCreate : ∀ kind key, Holds (findOrCreate scope.registry kind key)
  createAsset : ∀ kind, Holds (createAsset scope.registry kind)
  findAddref : ∀ id category, Holds (findAddref scope.registry id category)
  addref : ∀ a, Holds (addref .client a)
  release : ∀ a, Holds (release call scope .client a)
  swapReference : ∀ holder old new, holder.isScheduler = false →
    Holds (swapReference call scope holder old new)
  rekey : ∀ a key, Holds (rekey scope.registry a key)
  reportLeaks : Holds (reportLeaks scope.registry)
  flush : Holds (flush call scope)

theorem RegistryParts.operations {Holds : {α : Type} → Exec α → Prop} {call : Runner} {tasks : Prop}
    (h : RegistryParts Holds call tasks) (scope : Scope) : RegistryOperations Holds call scope where
  findOrCreate := h.findOrCreate _
  createAsset := h.createAsset _
  findAddref := h.findAddref _
  addref := h.addref .client nofun
  release := h.release scope .client nofun
  swapReference holder old new hholder :=
    h.swapReference scope holder (fun heq => nomatch heq ▸ hholder) old new
  rekey := h.rekey _
  reportLeaks := h.reportLeaks _
  flush := h.flush scope

/-- The parts of an operation that drives no tasks have a property. -/
structure OperationParts (Holds : {α : Type} → Exec α → Prop) (fuel : Nat) (call : Runner)
    (scope : Scope) (op : Op) : Prop
    extends Composes Holds, RegistryOperations Holds call scope where
  throw : ∀ {α : Type} {reason : Halt}, reason.isPlain = true →
    Holds (MonadExcept.throw reason : Exec α)
  /-- A reference is dropped and destruction left to the main thread. -/
  defer : ∀ ref, op = .releaseDeferred ref → ∀ a, Holds (releaseDeferred scope.registry .client a)
  writeContents : ∀ a kind f, (∀ c, (f c).onDestroy = c.onDestroy) → Holds (writeContents a kind f)
  /-- Contents get another destructor. -/
  setOnDestroy : ∀ ref kind code, op = .setOnDestroy ref kind code → ∀ a,
    Holds (AssetLoading.writeContents a kind fun c => { c with onDestroy := code })
  setState : ∀ a state, Holds (setState scope a state)
  newRegistry : ∀ code, op = .withNewRegistry code → Holds (execute fuel call scope op)
  /-- The client's tables change, but for its claims and jobs. -/
  client : ∀ f : Client → Client, (∀ c, (f c).claims = c.claims ∧ (f c).jobs = c.jobs) →
    Holds (modifyClient f)
  changeFiles : ∀ change, Holds (changeFiles change)
  /-- Code of a task changes the data of that task. -/
  data : ∀ b, scope.body = some b → ∀ f : List Int → List Int,
    Holds (modifyBody b fun body => { body with data := f body.data })
  gpuCall : ∀ code succeeds, op = .gpuCall code succeeds →
    Holds (callOnGpuThread call scope.thread (.call scope.asset code succeeds))
  subscribe : ∀ ref label code, op = .onLoad ref label code → ∀ a,
    Holds (subscribe call scope.thread a label code)
  unsubscribe : ∀ a id, Holds (unsubscribe a id)
  makeJob : ∀ label code succeeds, op = .makeJob label code succeeds →
    Holds (execute fuel call scope op)
  submitJob : ∀ label, op = .submitJob label → Holds (execute fuel call scope op)
  runJob : ∀ label, op = .runJob label → ∀ j, Holds (runJob call scope.thread j)
  drainJobs : op = .drainJobs → Holds (drainJobs call scope.thread)

namespace OperationParts

variable {Holds : {α : Type} → Exec α → Prop} {fuel : Nat} {call : Runner} {scope : Scope} {op : Op}
  (h : OperationParts Holds fuel call scope op)

include h

theorem setLabel (label : String) (a : Handle) : Holds (setLabel label a) :=
  h.client _ fun _ => ⟨rfl, rfl⟩

theorem locate (label : Option String) (found : Option Handle) : Holds (locate label found) := by
  cases found with
  | none => exact h.pure _
  | some a =>
    cases label with
    | none => exact h.look fun _ => h.pure _
    | some label => exact h.bind (h.setLabel label a) fun _ => h.look fun _ => h.pure _

theorem answerRead {α : Type} (result : Except Failure α) {answer : α → Exec Reply}
    (hanswer : ∀ a, Holds (answer a)) : Holds (answerRead scope result answer) := by
  cases result with
  | ok a => exact hanswer a
  | error failure =>
    unfold AssetLoading.answerRead
    dsimp only
    split
    · exact h.bind (h.setState _ _) fun _ => h.pure _
    · exact h.pure _

theorem swapHolder (holder : String) (new : Option Handle) :
    Holds (swapHolder call scope holder new) := by
  refine h.look fun s => h.bind (h.client _ fun _ => ⟨rfl, rfl⟩) fun _ => ?_
  refine h.bind (h.swapReference .client _ new rfl) fun _ => ?_
  exact h.bind (h.client _ fun _ => ⟨rfl, rfl⟩) fun _ => h.look fun _ => h.pure _

theorem swapDependency (a : Handle) (kind : Kind) (position : Nat) (new : Option Handle) :
    Holds (swapDependency call scope a kind position new) := by
  refine h.bind (h.writeContents a kind _ fun _ => rfl) fun old => ?_
  split
  · exact h.pure _
  · exact h.bind (h.swapReference .dependency _ new rfl) fun _ =>
      h.bind (h.writeContents a kind _ fun _ => rfl) fun _ => h.pure _

/-- The operation has the property if its parts have it. -/
theorem execute (hop : op.drives = false) : Holds (execute fuel call scope op) := by
  cases op with
  | findOrCreate label kind key =>
    refine h.bind (h.findOrCreate kind key) fun found => ?_
    dsimp only
    split
    · exact h.bind (h.writeContents _ kind _ fun _ => rfl) fun _ =>
        h.bind (h.setLabel label _) fun _ => h.pure _
    · exact h.bind (h.setLabel label _) fun _ => h.pure _
  | create label kind =>
    refine h.bind (h.createAsset kind) fun a => h.bind (h.writeContents a kind _ fun _ => rfl) fun _ => ?_
    exact h.bind (h.setLabel label a) fun _ => h.bind (h.getAsset a) fun _ => h.pure _
  | find id category label => exact h.look fun _ => h.locate label _
  | findAddref id category label => exact h.bind (h.findAddref id category) fun _ => h.locate label _
  | nth position label => exact h.look fun _ => h.locate label _
  | addref ref => exact h.withAsset scope ref fun a => h.bind (h.addref a) fun _ => h.tellRefs a
  | release ref => exact h.withAsset scope ref fun a => h.bind (h.release a) fun _ => h.tellRefs a
  | releaseDeferred ref =>
    exact h.withAsset scope ref fun a => h.bind (h.defer ref rfl a) fun _ => h.tellRefs a
  | swapHolder holder ref => exact h.withTarget scope ref fun new => h.swapHolder holder new
  | swapDependency ref kind position target =>
    exact h.withAsset scope ref fun a => h.withTarget scope target fun new =>
      h.swapDependency a kind position new
  | setOnDestroy ref kind code =>
    exact h.withAsset scope ref fun a => h.bind (h.setOnDestroy ref kind code rfl a) fun _ => h.pure _
  | write ref kind value =>
    refine h.withAsset scope ref fun a => h.bind (h.writeContents a kind _ fun _ => rfl) fun old => ?_
    split
    · exact h.pure _
    · exact h.pure _
  | read ref kind =>
    refine h.withAsset scope ref fun a => h.bind (h.getAsset a) fun asset => ?_
    split
    · exact h.pure _
    · exact h.pure _
  | holdsKind ref kind =>
    refine h.withAsset scope ref fun a => h.bind (h.getAsset a) fun asset => ?_
    split
    · exact h.pure _
    · exact h.pure _
  | rekey ref key => exact h.withAsset scope ref fun a => h.bind (h.rekey a key) fun _ => h.pure _
  | uniqueName category stem =>
    refine h.look fun s => ?_
    split
    · exact h.pure _
    · exact h.throw rfl
  | count => exact h.look fun _ => h.pure _
  | reportLeaks => exact h.bind h.reportLeaks fun _ => h.pure _
  | flush => exact h.bind h.flush fun _ => h.pure _
  | snapshot => exact h.look fun _ => h.pure _
  | info ref => exact h.withAsset scope ref fun a => h.look fun _ => h.pure _
  | debug ref => exact h.withAsset scope ref fun a => h.bind (h.getAsset a) fun _ => h.pure _
  | same left right =>
    exact h.withAsset scope left fun l => h.withAsset scope right fun r => h.pure _
  | distinct refs => exact h.look fun _ => h.pure _
  | withNewRegistry code => exact h.newRegistry code rfl
  | setState ref state => exact h.withAsset scope ref fun a => h.bind (h.setState a state) fun _ => h.pure _
  | describeTask plan =>
    exact h.withAsset scope plan.asset fun a => h.bind (h.getAsset a) fun _ => h.pure _
  | gpuCall code succeeds => exact h.bind (h.gpuCall code succeeds rfl) fun _ => h.pure _
  | onLoad ref label code =>
    exact h.withAsset scope ref fun a => h.bind (h.subscribe ref label code rfl a) fun id =>
      h.bind (h.client _ fun _ => ⟨rfl, rfl⟩) fun _ => h.pure _
  | onLoadRemove ref label =>
    refine h.withAsset scope ref fun a => ?_
    cases label with
    | none => exact h.bind (h.unsubscribe a none) fun _ => h.pure _
    | some label =>
      refine h.look fun s => ?_
      split
      · exact h.bind (h.unsubscribe a _) fun _ => h.pure _
      · exact h.pure _
  | isGpuThread => exact h.pure _
  | isWorkerThread => exact h.pure _
  | threadName =>
    refine h.look fun s => ?_
    split
    · exact h.pure _
    · exact h.pure _
  | workerCount => exact h.look fun _ => h.pure _
  | settings => exact h.look fun _ => h.pure _
  | pending => exact h.look fun _ => h.pure _
  | putFile path bytes => exact h.changeFiles fun tree => tree.storeFile path bytes
  | makeDirectory path => exact h.changeFiles fun tree => tree.makePath path
  | readBytes path =>
    refine h.look fun s => h.answerRead _ fun bytes => ?_
    split
    next b _ hb =>
      exact h.bind (h.data b hb fun data => data ++ [(bytes.length : Int)]) fun _ => h.pure _
    next => exact h.pure _
  | readText path => exact h.look fun s => h.answerRead _ fun text => h.pure _
  | fileExists path => exact h.look fun _ => h.pure _
  | resolve path => exact h.look fun _ => h.pure _
  | priority =>
    unfold AssetLoading.execute
    dsimp only
    split
    · exact h.pure _
    · exact h.pure _
  | pushData value =>
    unfold AssetLoading.execute
    dsimp only
    split
    next b hb => exact h.bind (h.data b hb fun data => data ++ [value]) fun _ => h.pure _
    next => exact h.pure _
  | clearData =>
    unfold AssetLoading.execute
    dsimp only
    split
    next b hb => exact h.bind (h.data b hb fun _ => []) fun _ => h.pure _
    next => exact h.pure _
  | data =>
    unfold AssetLoading.execute
    dsimp only
    split
    · exact h.look fun _ => h.pure _
    · exact h.pure _
  | panic message => exact h.throw rfl
  | makeJob label code succeeds => exact h.makeJob label code succeeds rfl
  | submitJob label => exact h.submitJob label rfl
  | runJob label =>
    refine h.look fun s => ?_
    dsimp only
    split
    · exact h.bind (h.runJob label rfl _) fun _ => h.pure _
    · exact h.pure _
  | awaitJob label =>
    refine h.look fun s => ?_
    split
    · split
      · exact h.pure _
      · exact h.throw rfl
    · exact h.throw rfl
  | drainJobs => exact h.bind (h.drainJobs rfl) fun _ => h.pure _
  | _ => cases hop

end OperationParts

/-! ### Operations that drive tasks -/

/-- The parts of an operation that drives tasks have a property. -/
structure DrivingOperationParts (Holds : {α : Type} → Exec α → Prop) (fuel : Nat) (call : Runner)
    (scope : Scope) (op : Op) : Prop extends DrivingParts Holds call where
  /-- A task is made and queued. -/
  enqueue : ∀ plan, op = .enqueue plan → ∀ a (answer : BodyId → Reply), Holds (do
    let b ← makeBody plan.body
    enqueue call scope.thread (plan.task a b)
    Pure.pure (answer b))
  /-- The client's tables change, but for its claims and jobs. -/
  client : ∀ f : Client → Client, (∀ c, (f c).claims = c.claims ∧ (f c).jobs = c.jobs) →
    Holds (modifyClient f)
  shutdown : op = .shutdown → Holds (shutdown call scope.thread)
  claim : ∀ label wait, op = .claim label wait → Holds (execute fuel call scope op)
  stepClaim : ∀ label, op = .stepClaim label → Holds (execute fuel call scope op)
  /-- The running task gets a new cost estimate. -/
  estimate : ∀ complexity b, scope.body = some b →
    Holds (modifyBody b fun body => { body with noted := some complexity })

/-- The operation has the property if its parts have it. -/
theorem DrivingOperationParts.execute {Holds : {α : Type} → Exec α → Prop} {fuel : Nat}
    {call : Runner} {scope : Scope} {op : Op} (h : DrivingOperationParts Holds fuel call scope op)
    (hop : op.drives = true) : Holds (execute fuel call scope op) := by
  cases op with
  | enqueue plan =>
    exact h.withAsset scope plan.asset fun a => h.bind (h.getAsset a) fun _ => h.enqueue plan rfl a _
  | step times => exact h.bind (h.updates scope.thread times) fun _ => h.pure _
  | blockUntil ref state =>
    exact h.withAsset scope ref fun a => h.bind (h.blockOn _ _ _ fuel) fun _ => h.pure _
  | blockForPriority priority => exact h.bind (h.blockOn _ _ _ fuel) fun _ => h.pure _
  | shutdown =>
    exact h.bind (h.shutdown rfl) fun _ => h.bind (h.client _ fun _ => ⟨rfl, rfl⟩) fun _ => h.pure _
  | claim label wait => exact h.claim label wait rfl
  | stepClaim label => exact h.stepClaim label rfl
  | work =>
    exact h.acquire scope.thread (fun e => pure (match e with | none => .nothing | some e => .entry e))
      rfl (fun _ => rfl) fun _ => h.pure _
  | settle => exact h.bind (h.settle scope.thread fuel) fun _ => h.pure _
  | setComplexity complexity =>
    unfold AssetLoading.execute
    dsimp only
    split
    next b _ hb => exact h.bind (h.estimate complexity b hb) fun _ => h.pure _
    next => exact h.pure _
  | _ => cases hop

end AssetLoading
