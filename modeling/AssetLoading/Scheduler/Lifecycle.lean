import AssetLoading.Scheduler.Delivery
import AssetLoading.Scheduler.Marshal

/-! # The life of a task

  A claimed task advances by one action at a time. An action for the GPU
  thread that is claimed elsewhere is handed over as a job, and its outcome is
  taken in when the job has finished. The first failed action ends the task.
  At its end a task frees its data, stages its asset if that is loaded now,
  and gives up its reference.
-/

namespace AssetLoading

/-- Change the task queue. -/
def modifyQueue (f : TaskQueue → TaskQueue) : Exec Unit :=
  modify fun s => { s with queue := f s.queue }

/-- `true` if a worker can make progress on a waiting task. -/
def State.runnable (s : State) (e : Entry) : Bool :=
  e.isRunnable fun j => (s.jobs.job j).finished

/-- Claim the first waiting task that can make progress. -/
def acquireTask : Exec (Option Entry) := do
  let s ← get
  match s.queue.acquire s.runnable with
  | none => pure none
  | some (e, queue) =>
    modifyQueue fun _ => queue
    pure (some e)

theorem acquireTask_of_eq_none {s : State} (hq : s.queue.acquire s.runnable = none) :
    acquireTask s = .ok none s := by
  unfold acquireTask
  rw [Exec.get_bind, hq]
  rfl

theorem acquireTask_of_eq_some {s : State} {e : Entry} {queue : TaskQueue}
    (hq : s.queue.acquire s.runnable = some (e, queue)) :
    acquireTask s = .ok (some e) { s with queue } := by
  unfold acquireTask
  rw [Exec.get_bind, hq]
  rfl

/-- Accept a task, which takes a reference on its asset. -/
def acceptTask (t : Task) : Exec Unit := do
  -- before anyone can claim the task, which then has its reference all the time
  addref .task t.asset
  let s ← get
  let (e, queue) := s.queue.push t
  log .trace "Enqueued asset task"
    [("asset", .text (s.asset t.asset).displayName), ("priority", .number t.priority.toInt),
      ("complexity", .number t.complexity.toInt), ("actions", .number e.actionCount)]
  modifyQueue fun _ => queue
  record (.accepted e.id e.body e.asset (s.body t.body).data)

section Running

variable (call : Runner)

/-- End a task. -/
def completeTask (thread : Thread) (e : Entry) : Exec Unit := do
  freeBody call thread e.body e.asset
  -- only now, because the hook may have changed the state
  let a ← getAsset e.asset
  if a.state.isLoaded then stage e.asset
  log .debug "Asset task complete"
    [("asset", .text a.displayName), ("state", .text a.state.debug)]
  -- staged by now, so that the load is there for whoever waits for the task
  modifyQueue (·.finish e.id)
  record (.completed e.id)
  releaseDeferred 0 .task e.asset

/-- Free a task that will never run again. -/
def discardTask (thread : Thread) (e : Entry) : Exec Unit := do
  freeBody call thread e.body e.asset
  record (.discarded e.id)
  releaseDeferred 0 .task e.asset

/-- Discard several tasks, one after the other. -/
def discardTasks (thread : Thread) : List Entry → Exec Unit
  | [] => pure ()
  | e :: es => do
    discardTask call thread e
    discardTasks thread es

/-- Take note that the action at the cursor failed: the asset is left in an
error state and the failure hook runs. -/
def failTask (thread : Thread) (e : Entry) : Exec Unit := do
  if !(← getAsset e.asset).state.isError then
    modifyAsset e.asset fun a => { a with state := .error }
  let a ← getAsset e.asset
  log .warn "Asset load action failed"
    [("asset", .text a.displayName), ("ty", .text a.category.name),
      ("action", .number e.cursor), ("state", .text a.state.debug)]
  runFailureHook call thread e.body e.asset

/-- Take in the outcome of the action at the cursor: go on to the next action,
or to the end. -/
def takeOutcome (thread : Thread) (e : Entry) (succeeded : Bool) : Exec Unit := do
  if succeeded then
    let e := { e with cursor := e.cursor + 1 }
    if e.isComplete then completeTask call thread e else modifyQueue (·.giveBack e)
  else
    failTask call thread e
    completeTask call thread e.abort

/-- Advance a claimed task by at most one action. -/
def stepTask (thread : Thread) (e : Entry) : Exec Unit := do
  record (.stepped e.id (thread == .main))
  match e.currentAffinity with
  | none => completeTask call thread e
  | some affinity =>
    if affinity = .gpu ∧ thread ≠ .main then
      match e.job with
      | none =>
        -- given back with its job, the task is passed over until that has finished
        let j ← makeJob (.action e.body e.cursor e.asset e.priority)
        submitJob j
        modifyQueue (·.giveBack { e with job := some j })
      | some j =>
        let job := (← get).jobs.job j
        if job.finished then
          let complexity ← takeReported e.body
          takeOutcome call thread ({ e with job := none }.withComplexity complexity) job.success
        else modifyQueue (·.giveBack e)
    else
      let succeeded ← runAction call thread e.body e.cursor e.asset e.priority
      let complexity ← takeNoted e.body
      takeOutcome call thread (e.withComplexity complexity) succeeded

end Running

end AssetLoading
