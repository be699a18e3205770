/-! # Threads and settings

  Code runs on the main thread, on worker threads, or elsewhere. The settings
  say how many workers there are: without a stated number one core is left to
  the main thread, so there is always at least one.

  What the threads do at the same time is in the run itself, as the order of
  its operations, but for one thing: a shutdown waits inside for the workers to
  stop. In what order things come to pass meanwhile is settled beforehand.
-/

namespace AssetLoading

/-! ### Where code runs -/

/-- The threads code may run on. -/
inductive Thread where
  /-- The thread that made the scheduler, which is the GPU thread. -/
  | main
  /-- A worker thread, by number. -/
  | worker (number : Nat)
  /-- Any other thread. -/
  | other
deriving DecidableEq, Repr, Inhabited

/-! ### How a scheduler is set up -/

/-- The settings of a scheduler. -/
structure Settings where
  /-- Number of worker threads; `none` leaves the choice to the machine, which
  is never zero. -/
  workers : Option Nat := none
  /-- Milliseconds a thread may wait for the GPU thread before a warning. -/
  warnAfter : Nat := 2000
  /-- Directory that relative paths start from. -/
  root : String := "assets"
  /-- Worker threads are named by this text and their number. -/
  threadStem : String := "vireo-asset"
deriving DecidableEq, Repr, Inhabited

namespace Settings

/-- Settings that run everything on the main thread. -/
def singleThreaded : Settings :=
  { workers := some 0 }

/-- `true` when there are no worker threads. -/
def isSingleThreaded (s : Settings) : Bool :=
  s.workers == some 0

end Settings

/-! ### How the workers stop -/

/-- What happens next while the main thread waits for the workers to stop. -/
inductive PartingTurn where
  /-- The main thread runs the waiting GPU jobs. -/
  | pump
  /-- Of the workers that still have a task in hand, the one at this position
  advances it and stops. -/
  | step (position : Nat)
deriving DecidableEq, Repr, Inhabited

/-- How the workers stop. Those that have no task in hand when the queue is closed
stop at once; the others advance theirs once more. -/
structure Parting where
  /-- Number of workers that claim a task right before the queue is closed, as far
  as there are workers and tasks. -/
  busy : Nat := 0
  /-- What happens until they have stopped; a worker of which nothing is said here
  advances its task after all this. -/
  turns : List PartingTurn := [.pump]
deriving DecidableEq, Repr, Inhabited

end AssetLoading
