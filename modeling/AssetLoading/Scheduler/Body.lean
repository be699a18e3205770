import AssetLoading.Registry.References

/-! # Running the parts of a task

  The actions of a task and its hooks run as client code on the task's body.
  The body is taken away once, to be freed; after that its actions do nothing
  and report failure, and its failure hook does not run.
-/

namespace AssetLoading

section Running

variable (call : Runner)

/-- Run one action of a task on a thread; whether it succeeded. -/
def runAction (thread : Thread) (b : BodyId) (index : Nat) (asset : Handle) (priority : Int32) :
    Exec Bool := do
  -- what was noted by an earlier action is not said by this one
  modifyBody b fun body => { body with noted := none }
  let body := (← get).body b
  match body.taken, body.actions[index]? with
  | false, some action =>
    record (.acted b body.name index (thread == .main) body.data)
    let scope : Scope :=
      { thread, asset := some asset, body := some b, priority := some priority }
    let ran ← call (.script scope action.code)
    let succeeded := ran && action.succeeds
    record (.actionEnded b index succeeded ((← get).body b).data)
    pure succeeded
  | _, _ => pure false

/-- The cost estimate that the action run last reported. -/
def takeNoted (b : BodyId) : Exec (Option Int32) := do
  let noted := ((← get).body b).noted
  modifyBody b fun body => { body with noted := none }
  pure noted

/-- Run an action as a job of the GPU thread, leaving its cost estimate behind
for whoever collects the outcome. -/
def runActionAsJob (thread : Thread) (b : BodyId) (index : Nat) (asset : Handle)
    (priority : Int32) : Exec Bool := do
  let succeeded ← runAction call thread b index asset priority
  match ← takeNoted b with
  | some complexity => modifyBody b fun body => { body with reported := some complexity }
  | none => pure ()
  pure succeeded

/-- The cost estimate that a job left behind. -/
def takeReported (b : BodyId) : Exec (Option Int32) := do
  let reported := ((← get).body b).reported
  modifyBody b fun body => { body with reported := none }
  pure reported

/-- Run the failure hook of a task. -/
def runFailureHook (thread : Thread) (b : BodyId) (asset : Handle) : Exec Unit := do
  let s ← get
  let body := s.body b
  match body.taken, body.onFailure with
  | false, some code =>
    record (.failed b body.name (s.asset asset).state body.data)
    let _ ← call (.script { thread, asset := some asset, body := some b } code)
    record (.hookEnded b ((← get).body b).data)
  | _, _ => pure ()

/-- Take the body of a task away and hand its data over to be freed. -/
def freeBody (thread : Thread) (b : BodyId) (asset : Handle) : Exec Unit := do
  let s ← get
  let body := s.body b
  -- taken before the hook runs, which may lead to here again
  modifyBody b fun body => { body with taken := true }
  match body.taken, body.onFree with
  | false, some code =>
    record (.freed b body.name (s.asset asset).state body.data)
    let _ ← call (.script { thread, asset := some asset, body := some b } code)
    record (.hookEnded b ((← get).body b).data)
  | _, _ => pure ()

end Running

end AssetLoading
