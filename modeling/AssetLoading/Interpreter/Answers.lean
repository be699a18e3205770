import AssetLoading.State

/-! # Names and answers

  How operations name assets, reach their contents, put their answers, and turn
  a planned task into one that can be queued.
-/

namespace AssetLoading

/-! ### Names -/

/-- The asset that a name means. -/
def State.resolve (s : State) (scope : Scope) : AssetRef → Option Handle
  | .surrounding => scope.asset
  | .labelled label => s.client.assets.lookup label

/-- Answer for the asset that a name means. -/
def withAsset (scope : Scope) (ref : AssetRef) (answer : Handle → Exec Reply) : Exec Reply := do
  match (← get).resolve scope ref with
  | some h => answer h
  | none => pure .unknownAsset

/-- Answer for the asset that a name means, or for none if there is no name. -/
def withTarget (scope : Scope) (ref : Option AssetRef) (answer : Option Handle → Exec Reply) :
    Exec Reply :=
  match ref with
  | some ref => withAsset scope ref fun h => answer (some h)
  | none => answer none

/-- Give an asset a label. -/
def setLabel (label : String) (h : Handle) : Exec Unit :=
  modifyClient fun c => { c with assets := c.assets.put label h }

/-- Change the contents of an asset, if they are of a kind; the contents as
they were. -/
def writeContents (h : Handle) (kind : Kind) (f : Contents → Contents) :
    Exec (Option Contents) := do
  match (← getAsset h).contentsOf kind with
  | some contents =>
    modifyAsset h fun a => { a with contents := some (f contents) }
    pure (some contents)
  | none => pure none

/-- Set the load state of an asset on behalf of client code. -/
def setState (scope : Scope) (h : Handle) (state : LoadState) : Exec Unit := do
  modifyAsset h fun a => { a with state }
  record (.stateSet h state scope.body)

/-! ### Answers -/

/-- Label and reference count of an asset, which may be given a label first. -/
def locate (label : Option String) : Option Handle → Exec Reply
  | none => pure .nothing
  | some h => do
    match label with
    | some label => setLabel label h
    | none => pure ()
    let s ← get
    pure (.located (s.client.labelOf h) (s.asset h).refs)

/-- The reference count of an asset, unless counts are not told. -/
def tellRefs (h : Handle) : Exec Reply := do
  let s ← get
  pure (if s.client.discreet then .nothing else .number (s.asset h).refs)

/-- A number, as an answer. -/
def answerNat (n : Nat) : Reply :=
  .number n

/-- A file operation's outcome; a failure leaves its state on the asset the
code works for. -/
def answerRead {α : Type} (scope : Scope) (result : Except Failure α)
    (answer : α → Exec Reply) : Exec Reply := do
  match result with
  | .ok a => answer a
  | .error failure =>
    match scope.asset with
    | some h => setState scope h failure.state
    | none => pure ()
    pure (.failed failure)

/-- Name of a thread; only the main thread and the workers have one. -/
def threadName (settings : Settings) : Thread → Option String
  | .main => some "main"
  | .worker number => some (settings.threadStem ++ "-" ++ toString number)
  | .other => none

/-! ### Tasks -/

/-- A plan as a task for an asset, with its body under a given number. -/
def TaskPlan.task (plan : TaskPlan Script) (h : Handle) (body : BodyId) : Task :=
  { asset := h, body, affinities := plan.actions.map Action.affinity, priority := plan.priority,
    complexity := plan.complexity }

/-- The mutable half of a plan. -/
def TaskPlan.body (plan : TaskPlan Script) : TaskBody :=
  { name := plan.name, actions := plan.actions, onFailure := plan.onFailure, onFree := plan.onFree,
    data := plan.data }

/-- What is told about a task when it is queued. -/
def Task.summary (t : Task) (assetName : String) : TaskSummary :=
  { asset := assetName, priority := t.priority, complexity := t.complexity,
    actions := t.affinities.length, sort := t.sort }

/-- Diagnostic forms of a planned task, of a GPU action and of its affinity. -/
def TaskPlan.describe (plan : TaskPlan Script) (assetName : String) : List String :=
  [(plan.task 0 0).debug assetName,
    "LoadAction \x7b affinity: " ++ Affinity.gpu.debug ++ ", .. \x7d",
    Affinity.gpu.debug]

end AssetLoading
