import AssetLoading.Scheduler.Body

/-! # Handing work to the GPU thread

  Work for the GPU thread is wrapped in jobs, which wait until that thread
  drains them. A drain takes up the jobs that wait when it begins; what they
  submit waits for the next one. Code that wants its answer at once is run
  where it stands if that is the GPU thread, and otherwise waits for a drain.
-/

namespace AssetLoading

/-- What is logged when the GPU thread lets another thread wait. -/
def longWaitMessage : String :=
  "Waiting on the GPU thread for a long time, "
    ++ "is the main loop stepping the asset scheduler?"

/-- Change the jobs. -/
def modifyJobs (f : JobQueue → JobQueue) : Exec Unit :=
  modify fun s => { s with jobs := f s.jobs }

/-- Make a job. -/
def makeJob (work : Work) : Exec JobId := do
  let (j, jobs) := (← get).jobs.make work
  modifyJobs fun _ => jobs
  pure j

/-- Submit a job. -/
def submitJob (j : JobId) : Exec Unit :=
  modifyJobs (·.submit j)

section Running

variable (call : Runner)

/-- Do a piece of work on a thread; what it returned. -/
def doWork (thread : Thread) : Work → Exec Bool
  | .action b index asset priority => runActionAsJob call thread b index asset priority
  | .call asset code succeeds => do
    record (.gpuCalled (thread == .main))
    let ran ← call (.script { thread, asset } code)
    pure (ran && succeeds)
  | .custom _ code succeeds => do
    let ran ← call (.script { thread } code)
    pure (ran && succeeds)

/-- Run a job if it has not been started. -/
def runJob (thread : Thread) (j : JobId) : Exec Unit := do
  let job := (← get).jobs.job j
  if !job.started then
    -- marked before, because the work may come back to its own job
    modifyJobs (·.modify j fun job => { job with started := true })
    record (.jobStarted j job.work.label)
    let success ← doWork call thread job.work
    modifyJobs (·.modify j fun job => { job with success, finished := true })
    record (.jobEnded j success)

/-- Run several jobs, one after the other. -/
def runJobs (thread : Thread) : List JobId → Exec Unit
  | [] => pure ()
  | j :: js => do
    runJob call thread j
    runJobs thread js

/-- Run every waiting job; how many there were. -/
def drainJobs (thread : Thread) : Exec Nat := do
  let waiting := (← get).jobs.waiting
  modifyJobs fun q => { q with waiting := [] }
  runJobs call thread waiting
  pure waiting.length

/-- Do a piece of work on the GPU thread and wait for its answer. From another
thread the work goes through a job, and the main thread drains the jobs while
the other one waits; with no patience at all the wait is reported first. -/
def callOnGpuThread (thread : Thread) (work : Work) : Exec Bool := do
  if thread = .main then doWork call .main work
  else
    let j ← makeJob work
    submitJob j
    if (← get).settings.warnAfter = 0 then
      log .warn longWaitMessage []
    let _ ← drainJobs call .main
    let job := (← get).jobs.job j
    if job.finished then pure job.success else throw .stuck

end Running

end AssetLoading
