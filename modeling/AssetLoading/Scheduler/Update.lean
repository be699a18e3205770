import AssetLoading.Scheduler.Lifecycle

/-! # Driving the scheduler

  The main thread updates the scheduler once per frame: it destroys what was
  released elsewhere, runs the waiting GPU jobs, advances one task when there
  are no workers, and delivers the staged loads. Blocking waits are repeated
  updates, between which the workers advance the tasks. Shutdown brings
  everything to an end in a fixed order: the workers stop, while the main
  thread runs the GPU jobs that they wait for; waiting tasks are discarded,
  jobs finish, loads are delivered, and what is left without references is
  destroyed.
-/

namespace AssetLoading

/-- Remember a task body. -/
def makeBody (body : TaskBody) : Exec BodyId := do
  let b := (← get).bodies.size
  modify fun s => { s with bodies := s.bodies.push body }
  pure b

/-- What a thread may wait for. -/
inductive Goal where
  /-- An asset reaches a state, or fails. -/
  | reached (asset : Handle) (state : LoadState)
  /-- Every task at or below a priority is done. -/
  | doneTo (priority : Int32)
  /-- Every task is done. -/
  | settled
deriving DecidableEq, Repr

namespace Goal

/-- `true` as long as a goal is not met. -/
def isOpen (s : State) : Goal → Bool
  | reached h state =>
    decide ((s.asset h).state.code < state.code) && !(s.asset h).state.isError
  | doneTo priority => decide (s.queue.currentPriority ≤ priority)
  | settled => s.queue.completed ≠ s.queue.total

/-- `true` for the goals that tasks being done can meet. -/
def isForTasks : Goal → Bool
  | reached _ _ => false
  | doneTo _ | settled => true

end Goal

section Running

variable (call : Runner)

/-! ### Updates -/

/-- Queue a task for an asset. After shutdown the task is freed at once. -/
def enqueue (thread : Thread) (t : Task) : Exec Unit := do
  let s ← get
  let a := s.asset t.asset
  if s.closed then
    log .warn "Task enqueued after shutdown, dropping it" [("asset", .text a.displayName)]
    freeBody call thread t.body t.asset
  else
    -- a state that anyone has set before is kept
    if a.state = .none then
      modifyAsset t.asset fun a => { a with state := .loading }
    acceptTask t

/-- One update by the main thread. -/
def update (thread : Thread) : Exec Unit := do
  if thread ≠ .main then
    throw (.fatal .updateOffGpuThread)
  let _ ← flush call { thread }
  let _ ← drainJobs call thread
  if (← get).settings.isSingleThreaded then
    match ← acquireTask with
    | some e => stepTask call thread e
    | none => pure ()
  let _ ← deliver call thread

/-- Several updates. -/
def updates (thread : Thread) : Nat → Exec Unit
  | 0 => pure ()
  | n + 1 => do
    update call thread
    updates thread n

/-! ### Waiting -/

/-- One turn of the workers: one of them advances one task, if there is a worker
and a task that can make progress. Whether one did. -/
def workerTurn : Exec Bool := do
  if (← get).workers = 0 then pure false
  else
    match ← acquireTask with
    | none => pure false
    | some e =>
      stepTask call (.worker 0) e
      pure true

/-- Let the workers advance tasks until none can make progress. -/
def runWorkers : Nat → Exec Unit
  | 0 => throw .outOfFuel
  | fuel + 1 => do
    if ← workerTurn call then runWorkers fuel

/-- Update the scheduler while a goal is open; after each update the workers
have a turn. A load is staged before its task is done. So whoever waits for
tasks still delivers the load of the last one, while a state may be reached
before anything is staged. -/
def updateUntil (goal : Goal) : Nat → Exec Unit
  | 0 => throw .outOfFuel
  | fuel + 1 => do
    if goal.isOpen (← get) then
      update call .main
      if goal.isOpen (← get) then
        let advanced ← workerTurn call
        if advanced && goal.isForTasks then
          let _ ← deliver call .main
      updateUntil goal fuel

/-- Wait until a goal is met. The main thread updates the scheduler in the
meantime. Any other thread depends on the workers alone: when none of them can
make progress, nothing will end its wait. -/
def waitFor (thread : Thread) (goal : Goal) (fuel : Nat) : Exec Unit := do
  if thread = .main then updateUntil call goal fuel
  else if goal.isOpen (← get) then
    runWorkers call fuel
    if goal.isOpen (← get) then throw .stuck

/-- Wait until a goal is met, unless on a worker thread. -/
def blockOn (thread : Thread) (callName : String) (goal : Goal) (fuel : Nat) : Exec Unit := do
  match thread with
  | .worker _ => throw (.fatal (.blockedOnWorker callName))
  | _ => waitFor call thread goal fuel

/-- Wait until an asset reaches a state or fails. -/
def blockUntil (thread : Thread) (h : Handle) (state : LoadState) (fuel : Nat) : Exec Unit :=
  blockOn call thread "block_until" (.reached h state) fuel

/-- Wait until every task at or below a priority is done. -/
def blockForPriority (thread : Thread) (priority : Int32) (fuel : Nat) : Exec Unit :=
  blockOn call thread "block_for_priority" (.doneTo priority) fuel

/-- Update the scheduler until every task is done. Only the main thread can do
so; on any other thread all must be done once the workers have nothing left to
do. -/
def settle (thread : Thread) (fuel : Nat) : Exec Unit := do
  if thread = .main then updateUntil call .settled fuel
  else
    runWorkers call fuel
    if Goal.settled.isOpen (← get) then update call thread

/-! ### Shutdown -/

/-- What is to happen while the main thread waits for the workers to stop. -/
def State.turnsLeft (s : State) : List PartingTurn :=
  if s.workers = 0 then [] else s.parting.turns

/-- More workers claim tasks, as far as there are tasks that can make progress; what
all of them have in hand then, each task with the number of its worker. -/
def lastClaims : Nat → List (Nat × Entry) → Exec (List (Nat × Entry))
  | 0, held => pure held
  | count + 1, held => do
    match ← acquireTask with
    | none => pure held
    | some e => lastClaims count ((held.length, e) :: held)

/-- Each of several workers advances the task that it has claimed. -/
def lastSteps : List (Nat × Entry) → Exec Unit
  | [] => pure ()
  | (number, e) :: held => do
    stepTask call (.worker number) e
    lastSteps held

/-- Wait until the workers have stopped that have tasks in hand. Meanwhile the main
thread runs the jobs that wait, since a worker may depend on one of them. -/
def joinWorkers : List PartingTurn → List (Nat × Entry) → Exec Unit
  | [], held => lastSteps call held
  | .pump :: turns, held => do
    let _ ← drainJobs call .main
    joinWorkers turns held
  | .step position :: turns, held =>
    match held[position]? with
    | none => joinWorkers turns held
    | some (number, e) => do
      stepTask call (.worker number) e
      joinWorkers turns (held.eraseIdx position)

/-- The state after the scheduler and its queue were closed. -/
def State.shutDown (s : State) : State :=
  { s.record (.logged .debug "Shutting down asset scheduler" []) with
    closed := true, queue := s.queue.close, workers := 0 }

/-- Close the scheduler; the tasks that workers have in hand by then. -/
def closeDown : Exec (List (Nat × Entry)) := do
  let s ← get
  -- until the queue is closed, a worker that comes by claims a task
  let held ← lastClaims (min s.parting.busy s.workers) []
  modify (·.shutDown)
  pure held

/-- Shut the scheduler down. Only the first time has an effect, and that must
be on the main thread. -/
def shutdown (thread : Thread) : Exec Unit := do
  if !(← get).closed then
    match thread with
    | .worker _ => throw (.fatal (.shutdownOffGpuThread true))
    | .other => throw (.fatal (.shutdownOffGpuThread false))
    | .main =>
      let turns := (← get).turnsLeft
      let held ← closeDown
      joinWorkers call turns held
      -- the workers are gone, so what is left to do waits in the queue
      let (unfinished, queue) := (← get).queue.drain
      modifyQueue fun _ => queue
      if !unfinished.isEmpty then
        log .debug s!"Discarding {unfinished.length} unfinished asset tasks" []
      discardTasks call thread unfinished
      -- a job of a discarded task finds its body taken and does nothing
      let _ ← drainJobs call thread
      let _ ← deliver call thread
      -- whatever the last calls have staged is not delivered any more
      clearNotices call thread
      let _ ← flush call { thread }
      let _ ← reportLeaks 0
      log .debug "Asset scheduler shutdown complete" []

end Running

/-! ### The last claims -/

/-- The last claims of workers change the queue and nothing else. -/
theorem lastClaims_run (count : Nat) (held : List (Nat × Entry)) (s : State) :
    ∃ now queue, lastClaims count held s = .ok now { s with queue } := by
  induction count generalizing held s with
  | zero => exact ⟨held, s.queue, rfl⟩
  | succ count ih =>
    cases hq : s.queue.acquire s.runnable with
    | none => exact ⟨held, s.queue, Exec.bind_of_ok (acquireTask_of_eq_none hq)⟩
    | some found =>
      obtain ⟨now, queue, hrun⟩ := ih ((held.length, found.1) :: held) { s with queue := found.2 }
      exact ⟨now, queue, (Exec.bind_of_ok (acquireTask_of_eq_some hq)).trans hrun⟩

/-- The scheduler is closed once the last claims were made. -/
theorem closeDown_run (s : State) : ∃ held queue,
    lastClaims (min s.parting.busy s.workers) [] s = .ok held { s with queue } ∧
      closeDown s = .ok held ({ s with queue } : State).shutDown := by
  obtain ⟨held, queue, hrun⟩ := lastClaims_run (min s.parting.busy s.workers) [] s
  exact ⟨held, queue, hrun, Exec.bind_of_ok hrun⟩

end AssetLoading
