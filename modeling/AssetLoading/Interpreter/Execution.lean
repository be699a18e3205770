import AssetLoading.Interpreter.Answers
import AssetLoading.Scheduler.Update

/-! # Running scripts

  What each operation does and answers, and how scripts run. Client code may
  start further client code to any depth, so evaluation goes through one knot:
  `run` hands client code to `runCallback`, which gets `run` with less fuel as
  its runner. Fuel bounds the depth and the length of waits; it never changes
  an answer that is given without running out.
-/

namespace AssetLoading

/-! ### Operations -/

section Running

variable (fuel : Nat) (call : Runner)

/-- Point a holder of the client at an asset. The holder is empty while its
references change. -/
def swapHolder (scope : Scope) (holder : String) (new : Option Handle) : Exec Reply := do
  let old := ((← get).client.holders.lookup holder).join
  modifyClient fun c => { c with holders := c.holders.remove holder }
  swapReference call scope .client old new
  modifyClient fun c => { c with holders := c.holders.put holder new }
  let s ← get
  pure (match new.bind s.client.labelOf with
    | some label => .text label
    | none => .nothing)

/-- Point a dependency of an asset at another asset. The dependency is empty
while its references change. -/
def swapDependency (scope : Scope) (h : Handle) (kind : Kind) (position : Nat)
    (new : Option Handle) : Exec Reply := do
  let grown (c : Contents) : List (Option Handle) :=
    c.dependencies ++ List.replicate (position + 1 - c.dependencies.length) none
  let emptied (c : Contents) : Contents := { c with dependencies := (grown c).set position none }
  match ← writeContents h kind emptied with
  | none => pure .nothing
  | some contents =>
    swapReference call scope .dependency (contents.dependencies[position]?).join new
    let written ← writeContents h kind fun c =>
      { c with dependencies := c.dependencies.set position new }
    pure (.flag written.isSome)

/-- Claim a task for a worker. A claim that waits ends when a task comes, or
when the queue is closed. -/
def claimTask (wait : Bool) : Exec (Option Entry) := do
  if wait ∧ (← get).queue.closed then pure none
  else
    match ← acquireTask with
    | some e => pure (some e)
    | none => if wait then throw .stuck else pure none

/-- Change the file tree; whether all that was asked for was done. -/
def changeFiles (change : FileTree → Bool × FileTree) : Exec Reply := do
  let s ← get
  let (done, tree) := change s.storage.tree
  set { s with storage := { s.storage with tree } }
  pure (.flag done)

/-- Perform an operation. -/
def execute (scope : Scope) : Op → Exec Reply
  | .findOrCreate label kind key => do
    let (lookup, h) ← findOrCreate scope.registry kind key
    if lookup = .created then
      let _ ← writeContents h kind fun c => { c with tag := label }
    setLabel label h
    pure (.lookup lookup)
  | .create label kind => do
    let h ← createAsset scope.registry kind
    let _ ← writeContents h kind fun c => { c with tag := label }
    setLabel label h
    pure (.text (← getAsset h).displayName)
  | .find id category label => do
    locate label ((← get).find? scope.registry id category)
  | .findAddref id category label => do
    locate label (← findAddref scope.registry id category)
  | .nth position label => do
    locate label ((← get).linked scope.registry)[position]?
  | .addref ref => withAsset scope ref fun h => do
    addref .client h
    tellRefs h
  | .release ref => withAsset scope ref fun h => do
    release call scope .client h
    tellRefs h
  | .releaseDeferred ref => withAsset scope ref fun h => do
    releaseDeferred scope.registry .client h
    tellRefs h
  | .swapHolder holder ref => withTarget scope ref (swapHolder call scope holder)
  | .swapDependency ref kind position target => withAsset scope ref fun h =>
    withTarget scope target (swapDependency call scope h kind position)
  | .setOnDestroy ref kind code => withAsset scope ref fun h => do
    let old ← writeContents h kind fun c => { c with onDestroy := code }
    pure (.flag old.isSome)
  | .write ref kind value => withAsset scope ref fun h => do
    match ← writeContents h kind fun c => { c with value } with
    | some old => pure (.number old.value)
    | none => pure .nothing
  | .read ref kind => withAsset scope ref fun h => do
    match (← getAsset h).contentsOf kind with
    | some contents => pure (.number contents.value)
    | none => pure .nothing
  | .holdsKind ref kind => withAsset scope ref fun h => do
    match (← getAsset h).contents with
    | some contents => pure (.flag (contents.kind = kind))
    | none => pure .nothing
  | .rekey ref key => withAsset scope ref fun h => do
    rekey scope.registry h key
    pure .nothing
  | .uniqueName category stem => do
    match uniqueName ((← get).nameTaken scope.registry category) stem with
    | some name => pure (.text name)
    | none => throw (.panic .overflow)
  | .count => do pure (answerNat ((← get).registry scope.registry).linked.size)
  | .reportLeaks => do pure (answerNat (← reportLeaks scope.registry))
  | .flush => do pure (answerNat (← flush call scope))
  | .snapshot => do
    let s ← get
    pure (.assets ((s.linked scope.registry).map fun h =>
      (s.client.labelOf h, (s.asset h).displayName, (s.asset h).refs)))
  | .info ref => withAsset scope ref fun h => do
    let s ← get
    pure (.info { asset := s.asset h, label := s.client.labelOf h })
  | .debug ref => withAsset scope ref fun h => do pure (.text (← getAsset h).debug)
  | .same left right => withAsset scope left fun l => withAsset scope right fun r =>
    pure (.flag (l = r))
  | .distinct refs => do
    let s ← get
    pure (answerNat (refs.filterMap (s.resolve scope)).eraseDups.length)
  | .withNewRegistry code => do
    let r := (← get).registries.size
    modify fun s => { s with registries := s.registries.push {} }
    let ran ← call (.script { scope with registry := r } code)
    let registry := (← get).registry r
    pure (.leftover ran registry.linked.size registry.doomed.length)
  | .setState ref state => withAsset scope ref fun h => do
    setState scope h state
    pure .nothing
  | .enqueue plan => withAsset scope plan.asset fun h => do
    let name := (← getAsset h).displayName
    let b ← makeBody plan.body
    enqueue call scope.thread (plan.task h b)
    pure (.task ((plan.task h b).summary name))
  | .describeTask plan => withAsset scope plan.asset fun h => do
    pure (.texts (plan.describe (← getAsset h).displayName))
  | .step times => do
    updates call scope.thread times
    pure .nothing
  | .blockUntil ref state => withAsset scope ref fun h => do
    blockUntil call scope.thread h state fuel
    pure .nothing
  | .blockForPriority priority => do
    blockForPriority call scope.thread priority fuel
    pure .nothing
  | .gpuCall code succeeds => do
    pure (.flag (← callOnGpuThread call scope.thread (.call scope.asset code succeeds)))
  | .onLoad ref label code => withAsset scope ref fun h => do
    let id ← subscribe call scope.thread h label code
    modifyClient fun c => { c with subscriptions := c.subscriptions.put label id }
    pure (.text s!"LoadSubscription({id})")
  | .onLoadRemove ref label => withAsset scope ref fun h => do
    match label with
    | none => pure (answerNat (← unsubscribe h none))
    | some label =>
      match (← get).client.subscriptions.lookup label with
      | some id => pure (answerNat (← unsubscribe h (some id)))
      | none => pure .unknownSubscription
  | .shutdown => do
    shutdown call scope.thread
    modifyClient fun c => { c with discreet := false }
    pure .nothing
  | .isGpuThread => pure (.flag (scope.thread = .main))
  | .isWorkerThread => pure (.flag (scope.thread matches .worker _))
  | .threadName => do
    match threadName (← get).settings scope.thread with
    | some name => pure (.text name)
    | none => pure .nothing
  | .workerCount => do pure (answerNat (← get).workers)
  | .settings => do pure (.settings (← get).settings)
  | .pending => do
    let s ← get
    pure (.entries (s.queue.pending.map fun e => (e, s.runnable e)))
  | .claim label wait => do
    match ← claimTask wait with
    | none => pure .nothing
    | some e =>
      modifyClient fun c => { c with claims := c.claims.put label e }
      pure (.entry e)
  | .stepClaim label => do
    match (← get).client.claims.lookup label with
    | none => pure .unknownClaim
    | some e =>
      modifyClient fun c => { c with claims := c.claims.remove label }
      stepTask call scope.thread e
      pure .nothing
  | .work => do
    match ← acquireTask with
    | none => pure .nothing
    | some e =>
      stepTask call scope.thread e
      pure (.entry e)
  | .settle => do
    settle call scope.thread fuel
    pure .nothing
  | .putFile path bytes => changeFiles fun tree => tree.storeFile path bytes
  | .makeDirectory path => changeFiles fun tree => tree.makePath path
  | .readBytes path => do
    answerRead scope ((← get).storage.read path) fun bytes => do
      match scope.priority, scope.body with
      | some _, some b =>
        modifyBody b fun body => { body with data := body.data ++ [(bytes.length : Int)] }
      | _, _ => pure ()
      pure (.bytes bytes)
  | .readText path => do
    answerRead scope ((← get).storage.readText path) fun text => pure (.fileText text)
  | .fileExists path => do pure (.flag ((← get).storage.fileExists path))
  | .resolve path => do pure (.text ((← get).storage.resolve path))
  | .setComplexity complexity => do
    match scope.priority, scope.body with
    | some _, some b => modifyBody b fun body => { body with noted := some complexity }
    | _, _ => pure ()
    pure .nothing
  | .priority =>
    match scope.priority with
    | some priority => pure (.number priority.toInt)
    | none => pure .nothing
  | .pushData value => do
    match scope.body with
    | some b => modifyBody b fun body => { body with data := body.data ++ [value] }
    | none => pure ()
    pure .nothing
  | .clearData => do
    match scope.body with
    | some b => modifyBody b fun body => { body with data := [] }
    | none => pure ()
    pure .nothing
  | .data =>
    match scope.body with
    | some b => do pure (.data ((← get).body b).data)
    | none => pure .nothing
  | .panic message => throw (.panic (.client message))
  | .makeJob label code succeeds => do
    let j ← makeJob (.custom label code succeeds)
    modifyClient fun c => { c with jobs := c.jobs.put label j }
    pure .nothing
  | .submitJob label => do
    match (← get).client.jobs.lookup label with
    | some j => submitJob j
    | none => pure ()
    pure .nothing
  | .runJob label => do
    match (← get).client.jobs.lookup label with
    | some j => runJob call scope.thread j
    | none => pure ()
    pure .nothing
  | .awaitJob label => do
    let s ← get
    match (s.client.jobs.lookup label).map s.jobs.job with
    | some job => if job.finished then pure (.flag job.success) else throw .stuck
    | none => throw .stuck
  | .drainJobs => do pure (answerNat (← drainJobs call scope.thread))

/-- Run a script; `false` if an operation it insists on failed and cut it
short. -/
def runScript (scope : Scope) : Script → Exec Bool
  | [] => pure true
  | step :: rest => do
    let reply ← execute fuel call scope step.op
    record (.answered step.op reply)
    if step.must && reply.isFailure then pure false else runScript scope rest

/-- Run client code. A destructor runs its script and then gives up the
references that the contents hold. -/
def runCallback : Callback → Exec Bool
  | .script scope code => runScript fuel call scope code
  | .destructor scope h contents => do
    record (.destroyed h (← getAsset h).refs contents.tag contents.kind.category contents.value)
    let _ ← runScript fuel call scope contents.onDestroy
    releaseDependencies call scope contents.dependencies
    pure true

end Running

/-- Run client code with a given amount of fuel. -/
def run : Nat → Runner
  | 0, _ => throw .outOfFuel
  | fuel + 1, callback => runCallback fuel (run fuel) callback

/-- Perform an operation with a given amount of fuel. -/
def Op.perform (fuel : Nat) (scope : Scope) (op : Op) : Exec Reply :=
  execute fuel (run fuel) scope op

end AssetLoading
