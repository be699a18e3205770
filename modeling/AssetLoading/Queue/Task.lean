import AssetLoading.Asset

/-! # Tasks

  A task loads one asset in several actions. Its mutable half, the body, is
  shared between the queue entry and the GPU job that runs one of its actions;
  the rest travels with the entry.

  Tasks are ordered by one signed 64-bit key: the priority fills the high half
  and dominates, and the cost estimate fills the low half and breaks ties,
  cheaper first. A negative estimate counts as zero.
-/

namespace AssetLoading

/-- The ordering key of a priority and a cost estimate. -/
def sortKey (priority complexity : Int32) : Int64 :=
  (priority.toInt64 <<< 32) ||| (if complexity < 0 then 0 else complexity).toInt64

/-- Identity of a task body. -/
abbrev BodyId := Nat

/-- Identity of a GPU job. -/
abbrev JobId := Nat

/-- The mutable half of a task. -/
structure TaskBody where
  /-- The name of the task, for the history. -/
  name : String
  /-- The actions. -/
  actions : List (Action Script)
  /-- Runs once if an action fails. -/
  onFailure : Option Script
  /-- Runs once when the task ends. -/
  onFree : Option Script
  /-- The data the actions share. -/
  data : List Int
  /-- Set when the body has been taken to be freed. -/
  taken : Bool := false
  /-- Cost estimate reported by the running action. -/
  noted : Option Int32 := none
  /-- Cost estimate left behind by an action that ran as a GPU job. -/
  reported : Option Int32 := none
deriving Inhabited

/-- A task that is ready to be queued. -/
structure Task where
  /-- The asset it loads. -/
  asset : Handle
  /-- Its body. -/
  body : BodyId
  /-- Where each action runs. -/
  affinities : List Affinity
  /-- Lower values run first. -/
  priority : Int32
  /-- Cost estimate. -/
  complexity : Int32
deriving Inhabited

/-- The ordering key of a task. -/
def Task.sort (t : Task) : Int64 :=
  sortKey t.priority t.complexity

/-- The diagnostic form of a task, given the name of its asset. -/
def Task.debug (t : Task) (assetName : String) : String :=
  "AssetTask \x7b asset: " ++ Text.quoted assetName ++ ", priority: " ++ toString t.priority.toInt
    ++ ", complexity: " ++ toString t.complexity.toInt ++ ", affinities: ["
    ++ ", ".intercalate (t.affinities.map Affinity.debug) ++ "] \x7d"

/-- A task in the queue. -/
structure Entry extends Task where
  /-- Number of the task, in order of arrival. -/
  id : Nat
  /-- The next action. -/
  cursor : Nat := 0
  /-- The job that runs the next action, if it was handed to the GPU thread. -/
  job : Option JobId := none
deriving Inhabited

namespace Entry

/-- Number of actions. -/
def actionCount (e : Entry) : Nat :=
  e.affinities.length

/-- `true` once no action is left. -/
def isComplete (e : Entry) : Bool :=
  decide (e.actionCount ≤ e.cursor)

/-- Where the next action runs. -/
def currentAffinity (e : Entry) : Option Affinity :=
  e.affinities[e.cursor]?

/-- Whether a worker can make progress: a GPU action that was handed over has
to finish first. -/
def isRunnable (finished : JobId → Bool) (e : Entry) : Bool :=
  match e.currentAffinity, e.job with
  | some .gpu, some job => finished job
  | _, _ => true

/-- The entry with a new cost estimate, if there is one. -/
def withComplexity (e : Entry) (complexity : Option Int32) : Entry :=
  { e with complexity := complexity.getD e.complexity }

/-- The entry past its last action. -/
def abort (e : Entry) : Entry :=
  { e with cursor := e.actionCount }

end Entry

end AssetLoading
