import AssetLoading.Queue.Task

/-! # GPU jobs

  Pieces of work for the GPU thread. A job is marked as started before its
  work begins, so the work is done at most once. Jobs wait in order of
  submission.
-/

namespace AssetLoading

/-- What a job does. -/
inductive Work where
  /-- Run an action of a task. -/
  | action (body : BodyId) (index : Nat) (asset : Handle) (priority : Int32)
  /-- Run code that a thread waits for. -/
  | call (asset : Option Handle) (code : Script) (succeeds : Bool)
  /-- Run code of a job that a client made. -/
  | custom (label : String) (code : Script) (succeeds : Bool)
deriving Inhabited

/-- The client's label of work in a job that a client made. -/
def Work.label : Work → Option String
  | custom label _ _ => some label
  | _ => none

/-- A piece of work for the GPU thread. -/
structure Job where
  /-- What it does. -/
  work : Work
  /-- Set when the work begins. -/
  started : Bool := false
  /-- Set when the work has returned. -/
  finished : Bool := false
  /-- What the work returned. -/
  success : Bool := false
deriving Inhabited

/-- Jobs and the order they wait in. -/
structure JobQueue where
  /-- Every job ever made. -/
  jobs : Array Job := #[]
  /-- The submitted jobs, oldest first. -/
  waiting : List JobId := []
deriving Inhabited

namespace JobQueue

/-- A job; one that was never made counts as started and never finishes. -/
def job (q : JobQueue) (j : JobId) : Job :=
  (q.jobs[j]?).getD { work := .call none [] false, started := true }

/-- Change a job. -/
def modify (q : JobQueue) (j : JobId) (f : Job → Job) : JobQueue :=
  { q with jobs := q.jobs.modify j f }

/-- Make a job. -/
def make (q : JobQueue) (work : Work) : JobId × JobQueue :=
  (q.jobs.size, { q with jobs := q.jobs.push { work } })

theorem job_modify (q : JobQueue) (j k : JobId) (f : Job → Job) :
    (q.modify j f).job k = if j = k ∧ k < q.jobs.size then f (q.job k) else q.job k := by
  simp only [job, modify, Array.getElem?_modify]
  by_cases hk : k < q.jobs.size <;> by_cases e : j = k <;> simp [hk, e]

theorem job_make (q : JobQueue) (work : Work) (k : JobId) :
    (q.make work).2.job k = if k = q.jobs.size then { work } else q.job k := by
  simp only [job, make, Array.getElem?_push]
  by_cases e : k = q.jobs.size <;> simp [e]

theorem job_congr {q r : JobQueue} (h : r.jobs = q.jobs) (j : JobId) : r.job j = q.job j := by
  unfold job
  rw [h]

/-- The jobs that were there are the same after one was made. -/
theorem job_pushed {q r : JobQueue} {w : Work} (h : r.jobs = q.jobs.push { work := w }) (j : JobId) :
    r.job j = if j = q.jobs.size then { work := w } else q.job j := by
  rw [← job_make]
  exact job_congr h j

/-- Submit a job. -/
def submit (q : JobQueue) (j : JobId) : JobQueue :=
  { q with waiting := q.waiting ++ [j] }

end JobQueue

end AssetLoading
