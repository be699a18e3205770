import AssetLoading.Interpreter.Execution

/-! # Sessions

  A session makes a scheduler, performs operations on it one after the other,
  and shuts it down. After each operation it reports how the operation ended,
  what happened meanwhile and how things stand. Code that unwinds ends its own
  operation only; a fatal error ends the session.
-/

namespace AssetLoading

/-! ### What is asked for -/

/-- Who runs the tasks. -/
inductive Mode where
  /-- The main thread, one action for each update. -/
  | single
  /-- The client, which plays the workers. -/
  | manual
  /-- Worker threads. -/
  | pool
deriving DecidableEq, Repr, Inhabited

/-- A session to be held. -/
structure Session where
  /-- Who runs the tasks. -/
  mode : Mode
  /-- Number of workers, if there are any. -/
  workers : Nat
  /-- Milliseconds until a wait for the GPU thread is reported. -/
  warnAfter : Nat
  /-- The asset root, if not the default. -/
  root : Option String
  /-- Stem of the thread names, if not the default. -/
  threadStem : Option String
  /-- Whether to tell how things stand after each operation. -/
  views : Bool
  /-- The operations, each with the thread to perform it on. -/
  ops : List (Thread × Op)
  /-- How the workers stop, if there are any. -/
  parting : Parting := {}

/-! ### What is reported -/

/-- How an operation ended. -/
inductive Outcome where
  /-- It returned. -/
  | answered (reply : Reply)
  /-- It did not return. -/
  | halted (reason : Halt)
deriving Inhabited

/-- `true` if nothing runs after this outcome: only an unwinding leaves
something to go on with. -/
def Outcome.isFinal : Outcome → Bool
  | .answered _ | .halted (.panic _) => false
  | .halted _ => true

/-- Whether an asset lives. -/
inductive Vitality where
  | alive
  | destroyed
  /-- Without references, but not destroyed. -/
  | waiting
deriving DecidableEq, Repr, Inhabited

/-- Whether an asset lives. -/
def Asset.vitality (a : Asset) : Vitality :=
  if a.destroyed then .destroyed else if 0 < a.refs then .alive else .waiting

/-- How things stand. -/
structure View where
  /-- The labelled assets. -/
  assets : List (String × Asset)
  /-- Number of linked assets. -/
  linked : Nat
  /-- Number of assets waiting for destruction. -/
  doomed : Nat
  /-- Number of waiting jobs. -/
  jobs : Nat
  /-- The task queue. -/
  queue : TaskQueue
deriving Inhabited

/-- How things stand in a state. -/
def State.view (s : State) : View :=
  { assets := s.client.assets.map fun p => (p.1, s.asset p.2)
    linked := (s.registry 0).linked.size
    doomed := (s.registry 0).doomed.length
    jobs := s.jobs.waiting.length
    queue := s.queue }

/-- The report on one operation. -/
structure StepReport where
  /-- How it ended. -/
  outcome : Outcome
  /-- What happened, oldest first. -/
  events : List Event
  /-- How things stand afterwards. -/
  view : Option View
deriving Inhabited

/-- The reports of a session; the last one is on its shutdown, if that was
reached. -/
structure SessionReport where
  steps : List StepReport
  closing : Option StepReport
deriving Inhabited

/-! ### Holding a session -/

/-- The settings a session asks for. -/
def Session.settings (p : Session) : Settings :=
  let default : Settings := {}
  { workers := some (if p.mode = .single then 0 else p.workers)
    warnAfter := p.warnAfter
    root := p.root.getD default.root
    threadStem := p.threadStem.getD default.threadStem }

/-- The state a session starts in. -/
def Session.start (p : Session) : State :=
  let s : State :=
    { storage := { root := p.settings.root }
      settings := p.settings
      workers := if p.mode = .pool then p.workers else 0
      parting := p.parting
      client := { discreet := p.mode = .pool } }
  if p.mode = .single then s.record (.logged .debug "Asset scheduler running single-threaded" [])
  else s

/-- Perform one operation; how it ended and the state it left. -/
def performOn (fuel : Nat) (s : State) (thread : Thread) (op : Op) : Outcome × State :=
  match (op.perform fuel { thread }).run s with
  | .ok reply s => (.answered reply, s)
  | .error reason s => (.halted reason, s)

/-- What happened since the history had a given length, oldest first. -/
def State.eventsSince (s : State) (length : Nat) : List Event :=
  (s.history.take (s.history.length - length)).reverse

/-- Report on an operation that ended in a state, given how long the history
was at the last report. While reference counts are not told, nothing is told
but the outcome. -/
def report (views : Bool) (told : Nat) (outcome : Outcome) (s : State) : StepReport × Nat :=
  if s.client.discreet then (⟨outcome, [], none⟩, told)
  else
    let view := if views && !outcome.isFinal then some s.view else none
    (⟨outcome, s.eventsSince told, view⟩, s.history.length)

/-- Perform the operations that are left, then close the session. -/
def holdFrom (fuel : Nat) (views : Bool) (told : Nat) (s : State) :
    List (Thread × Op) → SessionReport
  | [] =>
    let s := { s with client := { s.client with claims := [] } }
    let (outcome, s) := performOn fuel s .main .shutdown
    let s := { s with client := { s.client with discreet := false } }
    ⟨[], some (report true told outcome s).1⟩
  | (thread, op) :: rest =>
    let (outcome, s) := performOn fuel s thread op
    let (r, told) := report views told outcome s
    if outcome.isFinal then ⟨[r], none⟩
    else
      let later := holdFrom fuel views told s rest
      ⟨r :: later.steps, later.closing⟩

/-- Hold a session. -/
def Session.hold (fuel : Nat) (p : Session) : SessionReport :=
  holdFrom fuel p.views 0 p.start p.ops

/-! ### Trying out jobs -/

/-- The report on one operation on jobs. -/
structure JobReport where
  /-- How it ended. -/
  outcome : Outcome
  /-- Number of waiting jobs. -/
  waiting : Nat
  /-- The labelled jobs. -/
  jobs : List (String × Job)
  /-- Labels of the jobs that started, in order. -/
  started : List String
deriving Inhabited

/-- The label of the job that an event tells the start of. -/
def Event.startedJob : Event → Option String
  | .jobStarted _ label => label
  | _ => none

/-- Perform operations on jobs and report on each. -/
def tryJobs (fuel : Nat) (s : State) : List Op → List JobReport
  | [] => []
  | op :: rest =>
    let told := s.history.length
    let (outcome, s) := performOn fuel s .main op
    { outcome
      waiting := s.jobs.waiting.length
      jobs := s.client.jobs.map fun p => (p.1, s.jobs.job p.2)
      started := (s.eventsSince told).filterMap Event.startedJob } :: tryJobs fuel s rest

end AssetLoading
