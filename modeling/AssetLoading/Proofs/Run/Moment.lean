import AssetLoading.Interpreter.Execution

/-! # Moments of a run

  Functions of the scheduler run client code in the middle of what they do, and
  client code calls them again, to any depth. Between two changes of the state a
  run is therefore in a *moment*: the state as it is, and everything that has
  begun and not ended, the innermost first.

  An activity says no more than is needed to know what its function still has
  to do with tasks, jobs, and references: it stands for the rest of that
  function's code.
-/

namespace AssetLoading

/-! ### Activities -/

/-- Something that has begun and has not ended. -/
inductive Activity where
  /-- An operation of a script. -/
  | performing (op : Op)
  /-- A task was claimed and nothing was done with it. -/
  | claimed (e : Entry)
  /-- A claimed task is being advanced, on the GPU thread or off it. -/
  | stepping (e : Entry) (onGpu : Bool)
  /-- The action at the cursor has an outcome, which is to be taken in. -/
  | concluding (e : Entry) (succeeded : Bool)
  /-- The failure hook of a task runs. -/
  | failing (e : Entry)
  /-- A task has no action left and its body is to be freed. -/
  | ending (e : Entry)
  /-- The body of a task that has no action left was freed. -/
  | ended (e : Entry)
  /-- A task was made and is to be queued. -/
  | planned (t : Task)
  /-- A task was made, was not queued, and its body was freed. -/
  | refused (t : Task)
  /-- Tasks were taken out of the queue to be discarded. -/
  | drained (es : List Entry)
  /-- A task is discarded and its body is to be freed. -/
  | discarding (e : Entry)
  /-- The body of a discarded task was freed. -/
  | discarded (e : Entry)
  /-- An action of a task runs on behalf of another activity. -/
  | acting (doer : Activity) (body : BodyId) (index : Nat)
  /-- The hook runs that frees the data of a task, on behalf of another activity. -/
  | freeing (doer : Activity) (body : BodyId)
  /-- Jobs were taken out of the queue to be run. -/
  | draining (js : List JobId)
  /-- A job has started and its work is to be done. -/
  | running (j : JobId) (work : Work)
  /-- The work of a job has returned. -/
  | ran (j : JobId) (work : Work) (success : Bool)
  /-- Running code holds a reference on behalf of a task or a load event. -/
  | holding (holder : Holder) (h : Handle)
  /-- The references of delivered load events are to be dropped. -/
  | releasing (hs : List Handle)
  /-- Assets were taken out of the queue for destruction. -/
  | flushing (hs : List Handle)
  /-- The destructor of an asset runs. -/
  | destroying (h : Handle)
  /-- Code works with a registry of its own. -/
  | within (r : RegistryId)
deriving Inhabited

namespace Activity

/-- The code of a task's body runs in this activity, so that it can reach the
data of the task. -/
def Runs : Activity → BodyId → Prop
  | acting _ b _, c => b = c
  | failing e, c => e.body = c
  | freeing _ b, c => b = c
  | _, _ => False

/-- This activity is about to run an action of a task, on the GPU thread or off
it. A task that is advanced off that thread hands its GPU actions over, so only
a job runs those. -/
def MayAct : Activity → BodyId → Nat → Bool → Prop
  | stepping e onGpu, b, i, g =>
    e.body = b ∧ e.cursor = i ∧ onGpu = g ∧ ∃ a, e.currentAffinity = some a ∧ (a = .gpu → g = true)
  | running _ (.action c k _ _), b, i, _ => c = b ∧ k = i
  | _, _, _, _ => False

/-- What an activity turns into when the action that it ran has an outcome. -/
def concluded : Activity → Bool → Activity
  | stepping e _, ok => concluding e ok
  | running j w, ok => ran j w ok
  | a, _ => a

/-- This activity is about to free the body of a task. -/
def MayFree : Activity → BodyId → Prop
  | ending e, b => e.body = b
  | discarding e, b => e.body = b
  | planned t, b => t.body = b
  | _, _ => False

/-- What an activity turns into when the body is handed over to be freed. -/
def freed : Activity → Activity
  | ending e => ended e
  | discarding e => discarded e
  | planned t => refused t
  | a => a

end Activity

/-! ### Moments -/

/-- What is under way, innermost first, and how things stand. -/
structure Moment where
  /-- What has begun and has not ended. -/
  underWay : List Activity
  /-- The state. -/
  state : State

/-- References of tasks and of load events are held by the scheduler; whoever
takes one has to see to it that it is dropped. -/
def Holder.isScheduler : Holder → Bool
  | .task | .notice => true
  | .client | .dependency => false

/-- What is under way once a reference has been taken. -/
def gained (holder : Holder) (h : Handle) (u : List Activity) : List Activity :=
  if holder.isScheduler then .holding holder h :: u else u

@[simp] theorem gained_client (h : Handle) (u : List Activity) : gained .client h u = u := rfl

@[simp] theorem gained_dependency (h : Handle) (u : List Activity) :
    gained .dependency h u = u := rfl

@[simp] theorem gained_task (h : Handle) (u : List Activity) :
    gained .task h u = .holding .task h :: u := rfl

@[simp] theorem gained_notice (h : Handle) (u : List Activity) :
    gained .notice h u = .holding .notice h :: u := rfl

/-! ### Admitted code -/

/-- A registry that code can work with: the scheduler's, or one that was made for
code that has not ended. -/
def Serves (u : List Activity) (r : RegistryId) : Prop :=
  r = 0 ∨ .within r ∈ u

theorem Serves.cons {u : List Activity} {r : RegistryId} (h : Serves u r) (a : Activity) :
    Serves (a :: u) r :=
  Or.imp_right (List.mem_cons_of_mem a) h

/-- A scope may reach the data of a task only while code of that task runs, and
works with a registry that serves. -/
structure Scope.Admitted (scope : Scope) (u : List Activity) : Prop where
  body : ∀ b, scope.body = some b → ∃ a ∈ u, a.Runs b
  registry : Serves u scope.registry

/-- Client code that may run now: a script in an admitted scope, or the
destructor of the asset that is being destroyed. -/
def Callback.Admitted (u : List Activity) : Callback → Prop
  | .script scope _ => scope.Admitted u
  | .destructor scope h _ => scope.Admitted u ∧ u.head? = some (.destroying h)

theorem Scope.Admitted.cons {scope : Scope} {u : List Activity} (h : scope.Admitted u)
    (a : Activity) : scope.Admitted (a :: u) where
  body := by
    intro b hb
    obtain ⟨c, hc, hr⟩ := h.body b hb
    exact ⟨c, List.mem_cons_of_mem a hc, hr⟩
  registry := h.registry.cons a

theorem Scope.admitted_of_body_eq_none {scope : Scope} {u : List Activity}
    (hbody : scope.body = none) (hregistry : Serves u scope.registry) : scope.Admitted u where
  body := by
    intro b hb
    rw [hbody] at hb
    cases hb
  registry := hregistry

/-- Code of a task may run in its own activity. -/
theorem Scope.admitted_of_runs {scope : Scope} {a : Activity} {u : List Activity} {b : BodyId}
    (hbody : scope.body = some b) (hregistry : scope.registry = 0) (hruns : a.Runs b) :
    scope.Admitted (a :: u) where
  body := by
    intro c hc
    rw [hbody, Option.some.injEq] at hc
    rw [← hc]
    exact ⟨a, List.mem_cons_self, hruns⟩
  registry := .inl hregistry

end AssetLoading
