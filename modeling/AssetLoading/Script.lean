import AssetLoading.Category
import AssetLoading.Identity
import AssetLoading.LoadState

/-! # Scripts

  What client code does, as data. Destructors, load actions, task hooks and
  load callbacks are all scripts: lists of operations on the registry, the
  scheduler and the client's own tables. Tasks, subscriptions and asset
  contents store scripts, so a run of the whole system is a function of its
  first script.
-/

namespace AssetLoading

/-! ### Tasks as clients describe them -/

/-- The thread an action has to run on. -/
inductive Affinity where
  /-- Any worker. -/
  | worker
  /-- The thread that owns the graphics context. -/
  | gpu
deriving DecidableEq, Repr, Inhabited

/-- The diagnostic form. -/
def Affinity.debug : Affinity → String
  | worker => "Worker"
  | gpu => "Gpu"

/-- One action of a task, with its code of type `σ`. -/
structure Action (σ : Type) where
  /-- Where the action runs. -/
  affinity : Affinity
  /-- What it does. -/
  code : σ
  /-- The outcome it reports when its code was not cut short. -/
  succeeds : Bool

/-- How a client names an asset. -/
inductive AssetRef where
  /-- The asset that the surrounding code works for. -/
  | surrounding
  /-- The asset with a label in the client's table. -/
  | labelled (label : String)
deriving DecidableEq, Repr, Inhabited

/-- A load task: actions on one asset, run in order, and hooks for its end. -/
structure TaskPlan (σ : Type) where
  /-- A name for the history. -/
  name : String
  /-- The asset the task loads. -/
  asset : AssetRef
  /-- Lower values run first. -/
  priority : Int32
  /-- Cost estimate; orders tasks of equal priority. -/
  complexity : Int32
  /-- The data the actions share. -/
  data : List Int
  /-- The actions. -/
  actions : List (Action σ)
  /-- Runs once if an action fails. -/
  onFailure : Option σ
  /-- Runs once when the task ends, with the data. -/
  onFree : Option σ

/-! ### Operations -/

/-- One step of a script: an operation of type `ω`. -/
structure Step (ω : Type) where
  /-- The operation. -/
  op : ω
  /-- Whether a failed answer stops the script. -/
  must : Bool

/-- An operation of client code. -/
inductive Op where
  /-- Find a live asset by key and take a reference, or create it. -/
  | findOrCreate (label : String) (kind : Kind) (key : Key)
  /-- Create an asset under an automatic name. -/
  | create (label : String) (kind : Kind)
  /-- Find a live asset. -/
  | find (id : AssetId) (category : Category) (label : Option String)
  /-- Find a live asset and take a reference. -/
  | findAddref (id : AssetId) (category : Category) (label : Option String)
  /-- The asset at a position of the registry. -/
  | nth (position : Nat) (label : Option String)
  /-- Take a reference. -/
  | addref (asset : AssetRef)
  /-- Drop a reference, destroying the asset with the last one. -/
  | release (asset : AssetRef)
  /-- Drop a reference, leaving destruction to the main thread. -/
  | releaseDeferred (asset : AssetRef)
  /-- Point a holder of the client at an asset. -/
  | swapHolder (holder : String) (asset : Option AssetRef)
  /-- Point a dependency of an asset at another one. -/
  | swapDependency (asset : AssetRef) (kind : Kind) (position : Nat) (target : Option AssetRef)
  /-- Set what an asset does when it is destroyed. -/
  | setOnDestroy (asset : AssetRef) (kind : Kind) (code : List (Step Op))
  /-- Replace the value in an asset's contents. -/
  | write (asset : AssetRef) (kind : Kind) (value : Int)
  /-- The value in an asset's contents. -/
  | read (asset : AssetRef) (kind : Kind)
  /-- Whether an asset's contents are of a kind. -/
  | holdsKind (asset : AssetRef) (kind : Kind)
  /-- Address an asset by another key. -/
  | rekey (asset : AssetRef) (key : Key)
  /-- A name that no live asset of a category uses. -/
  | uniqueName (category : Category) (stem : String)
  /-- Number of linked assets. -/
  | count
  /-- Log every asset that still has references. -/
  | reportLeaks
  /-- Destroy what was released with `releaseDeferred`. -/
  | flush
  /-- Every linked asset. -/
  | snapshot
  /-- Everything that is to be said about an asset. -/
  | info (asset : AssetRef)
  /-- The diagnostic form of an asset. -/
  | debug (asset : AssetRef)
  /-- Whether two names mean one asset. -/
  | same (left right : AssetRef)
  /-- Number of different assets among some names. -/
  | distinct (assets : List AssetRef)
  /-- Run code against a new registry, then drop that registry. -/
  | withNewRegistry (code : List (Step Op))
  /-- Set the load state of an asset. -/
  | setState (asset : AssetRef) (state : LoadState)
  /-- Queue a task. -/
  | enqueue (plan : TaskPlan (List (Step Op)))
  /-- The diagnostic form of a task that is not queued. -/
  | describeTask (plan : TaskPlan (List (Step Op)))
  /-- Update the scheduler some number of times. -/
  | step (times : Nat)
  /-- Wait for an asset to reach a state or fail. -/
  | blockUntil (asset : AssetRef) (state : LoadState)
  /-- Wait for all tasks at or below a priority. -/
  | blockForPriority (priority : Int32)
  /-- Run code on the GPU thread. -/
  | gpuCall (code : List (Step Op)) (succeeds : Bool)
  /-- Subscribe to the loads of an asset. -/
  | onLoad (asset : AssetRef) (label : String) (code : List (Step Op))
  /-- Drop one subscription to an asset, or all. -/
  | onLoadRemove (asset : AssetRef) (label : Option String)
  /-- Shut the scheduler down. -/
  | shutdown
  /-- Whether the code runs on the GPU thread. -/
  | isGpuThread
  /-- Whether the code runs on a worker thread. -/
  | isWorkerThread
  /-- Name of the thread. -/
  | threadName
  /-- Number of running workers. -/
  | workerCount
  /-- The settings of the scheduler. -/
  | settings
  /-- The waiting tasks in order. -/
  | pending
  /-- Claim a task for a worker; `wait` until there is one. -/
  | claim (label : String) (wait : Bool)
  /-- Advance a claimed task. -/
  | stepClaim (label : String)
  /-- Claim a task and advance it. -/
  | work
  /-- Update the scheduler until every task is complete. -/
  | settle
  /-- Write a file. -/
  | putFile (path : String) (bytes : List UInt8)
  /-- Make a directory. -/
  | makeDirectory (path : String)
  /-- Read a file below the asset root. -/
  | readBytes (path : String)
  /-- Read a file below the asset root as text. -/
  | readText (path : String)
  /-- Whether a path below the asset root exists. -/
  | fileExists (path : String)
  /-- The path that a relative path stands for. -/
  | resolve (path : String)
  /-- Report a new cost estimate for the running task. -/
  | setComplexity (complexity : Int32)
  /-- Priority of the running task. -/
  | priority
  /-- Append to the data of the running task. -/
  | pushData (value : Int)
  /-- Empty the data of the running task. -/
  | clearData
  /-- The data of the running task. -/
  | data
  /-- Unwind. -/
  | panic (message : String)
  /-- Make a GPU job. -/
  | makeJob (label : String) (code : List (Step Op)) (succeeds : Bool)
  /-- Hand a GPU job to the GPU thread. -/
  | submitJob (label : String)
  /-- Run a GPU job here and now. -/
  | runJob (label : String)
  /-- Wait for a GPU job. -/
  | awaitJob (label : String)
  /-- Run every submitted GPU job. -/
  | drainJobs

/-- A list of operations. -/
abbrev Script := List (Step Op)

/-- The operation, with its answer ignored. -/
def Op.anyway (op : Op) : Step Op :=
  ⟨op, false⟩

instance : Inhabited Op := ⟨.count⟩

end AssetLoading
