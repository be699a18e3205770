import AssetLoading.Queue.Bisection
import AssetLoading.Queue.Task

/-! # The task queue

  Waiting tasks in order of urgency, and the tasks that workers have claimed.
  A claimed task that is not finished goes back to the front, so it continues
  before tasks that have not begun. A new task is placed by bisection behind
  the tasks that are at least as urgent.
-/

namespace AssetLoading

/-- A task that a worker has claimed. -/
structure Claimed where
  /-- Number of the task. -/
  id : Nat
  /-- Its priority. -/
  priority : Int32
  /-- The asset it loads. -/
  asset : Handle
deriving DecidableEq, Repr, Inhabited

/-- Waiting and claimed tasks. -/
structure TaskQueue where
  /-- The waiting tasks, first to run first. -/
  pending : List Entry := []
  /-- The claimed tasks. -/
  active : List Claimed := []
  /-- Set when workers shall stop waiting. -/
  closed : Bool := false
  /-- Number of the task accepted last. -/
  lastId : Nat := 0
  /-- Number of tasks ever accepted. -/
  total : Nat := 0
  /-- Number of tasks completed. -/
  completed : Nat := 0
deriving Inhabited

namespace TaskQueue

/-- Where a task with a given key belongs among the waiting ones. -/
def placeFor (pending : List Entry) (key : Int64) : Nat :=
  partitionPoint (fun i => (pending[i]?).any fun e => e.sort ≤ key) pending.length

/-- Accept a task. -/
def push (q : TaskQueue) (t : Task) : Entry × TaskQueue :=
  let e : Entry := { t with id := q.lastId + 1 }
  (e, { q with
    pending := q.pending.insertIdx (placeFor q.pending t.sort) e
    lastId := q.lastId + 1
    total := q.total + 1 })

/-- Claim the first task that can make progress. -/
def acquire (runnable : Entry → Bool) (q : TaskQueue) : Option (Entry × TaskQueue) :=
  match q.pending.find? runnable with
  | none => none
  | some e =>
    some (e, { q with
      pending := q.pending.eraseP runnable
      active := ⟨e.id, e.priority, e.asset⟩ :: q.active })

/-- The claimed tasks without one of them. -/
def without (active : List Claimed) (id : Nat) : List Claimed :=
  active.eraseP fun c => c.id == id

/-- Put a claimed task back to the front. -/
def giveBack (q : TaskQueue) (e : Entry) : TaskQueue :=
  { q with pending := e :: q.pending, active := without q.active e.id }

/-- Mark a claimed task as completed. -/
def finish (q : TaskQueue) (id : Nat) : TaskQueue :=
  { q with active := without q.active id, completed := q.completed + 1 }

/-- Let workers stop waiting. -/
def close (q : TaskQueue) : TaskQueue :=
  { q with closed := true }

/-- Take out every waiting task. -/
def drain (q : TaskQueue) : List Entry × TaskQueue :=
  (q.pending, { q with pending := [] })

/-- The most urgent priority of all tasks; the largest number when idle. -/
def currentPriority (q : TaskQueue) : Int32 :=
  (q.pending.map (·.priority) ++ q.active.map (·.priority)).foldl
    (fun least p => if p < least then p else least) 2147483647

end TaskQueue

end AssetLoading
