import AssetLoading.Proofs.Relations.Assets
import AssetLoading.Proofs.Parts.Operations

/-! # Client code keeps to permitted relations

  Jobs, every operation that has nothing to do with tasks, and scripts to any depth.
  Some operations drive tasks, and a job may be an action of a task. `Steers R early`
  says how a relation stands to these: what an operation does that drives tasks is
  looked at together with its answer, so that a relation may make light of code that
  is told to have driven a task.
-/

namespace AssetLoading

/-- A script performs an operation, and its answer is recorded. -/
def performAndRecord (fuel : Nat) (call : Runner) (scope : Scope) (op : Op) : Exec Reply := do
  let reply ← execute fuel call scope op
  record (.answered op reply)
  pure reply

/-- A relation that holds for all that jobs do. -/
structure RunsJobs (R : State → State → Prop) (early : Prop) : Prop extends Permits R where
  /-- A job runs an action of a task. -/
  act : ∀ {call : Runner}, call.Stays R early → ∀ s j thread b i asset priority,
    (s.jobs.job j).work = .action b i asset priority →
      StaysFrom R early s (runActionAsJob call thread b i asset priority)

/-- A relation that holds for everything that client code does. -/
structure Steers (R : State → State → Prop) (early : Prop) : Prop extends RunsJobs R early where
  /-- An operation that drives no tasks is answered. -/
  answer : ∀ s op reply, op.drives = false → R s (s.record (.answered op reply))
  /-- A script performs an operation that drives tasks. -/
  drive : ∀ {call : Runner}, call.Stays R early → ∀ fuel scope op, op.drives = true →
    Stays R early (performAndRecord fuel call scope op)

variable {R : State → State → Prop} {early : Prop} {call : Runner}

/-- What code does together with another code that follows it, and then goes on. -/
theorem StaysFrom.regroup {α β : Type} (hR : Permits R) {s : State} {x : Exec α}
    {y : α → Exec Unit} {f : α → Exec β}
    (h : StaysFrom R early s (x >>= fun a => y a >>= fun _ => Pure.pure a))
    (hf : ∀ a, Stays R early (f a)) : StaysFrom R early s (x >>= fun a => y a >>= fun _ => f a) := by
  have hassoc : (x >>= fun a => y a >>= fun _ => f a) =
      (x >>= fun a => y a >>= fun _ => Pure.pure a) >>= f := by
    funext s
    show EStateM.bind x (fun a => EStateM.bind (y a) fun _ => f a) s =
      EStateM.bind (EStateM.bind x fun a => EStateM.bind (y a) fun _ => EStateM.pure a) f s
    unfold EStateM.bind
    cases x s with
    | error e t => rfl
    | ok a t =>
      dsimp only
      cases y a t <;> rfl
  rw [hassoc]
  exact .bind hR h fun a t _ => hf a t

/-! ### Jobs -/

section Jobs

variable (h : RunsJobs R early)

include h

/-- A job that was made just now is submitted. -/
theorem stays_makeAndSubmit {β : Type} {w : Work} (hw : ∀ s, R s (s.withJobs (s.jobs.make w).2))
    {f : JobId → Exec β} (hf : ∀ j, Stays R early (f j)) :
    Stays R early (do
      let j ← makeJob w
      submitJob j
      f j) := by
  intro s
  have hmake : StaysFrom R early s (makeJob w) := hw s
  refine .bind h.toPermits hmake fun j t hmade => ?_
  obtain ⟨rfl, rfl⟩ := EStateM.Result.ok.inj hmade
  have hlt : s.jobs.jobs.size < (s.jobs.make w).2.jobs.size := by
    show _ < (s.jobs.jobs.push _).size
    rw [Array.size_push]
    exact Nat.lt_succ_self _
  exact .bind h.toPermits (h.submitJob _ _ (.inl hlt)) fun _ t _ => hf _ t

variable (hcall : call.Stays R early)

include hcall

theorem stays_doWork {s : State} (thread : Thread) (j : JobId) :
    StaysFrom R early s (doWork call thread (s.jobs.job j).work) := by
  have hscript (scope : Scope) (code : Script) (ok : Bool) : Stays R early (do
      let ran ← call (.script scope code)
      pure (ran && ok)) := .bind h.toPermits (hcall.stays _) fun _ => .pure h.toPermits _
  cases hwork : (s.jobs.job j).work with
  | action b i asset priority => exact h.act hcall s j thread b i asset priority hwork
  | call asset code ok =>
    exact Stays.bind h.toPermits (stays_record h.toPermits (e := .gpuCalled _) (.inr (.inr rfl)))
      (fun _ => hscript _ code ok) s
  | custom label code ok => exact hscript _ code ok s

/-- Code that is handed to the GPU thread is run where it stands. -/
theorem stays_doForeign (thread : Thread) {w : Work} (hw : w.IsForeign) :
    Stays R early (doWork call thread w) := by
  have hscript (scope : Scope) (code : Script) (ok : Bool) : Stays R early (do
      let ran ← call (.script scope code)
      pure (ran && ok)) := .bind h.toPermits (hcall.stays _) fun _ => .pure h.toPermits _
  cases w with
  | action => exact hw.elim
  | call asset code ok =>
    exact .bind h.toPermits (stays_record h.toPermits (e := .gpuCalled _) (.inr (.inr rfl))) fun _ =>
      hscript _ code ok
  | custom label code ok => exact hscript _ code ok

theorem stays_runJob (thread : Thread) (j : JobId) : Stays R early (runJob call thread j) := by
  refine fun s => .look ?_
  dsimp only
  split
  · refine .bind h.toPermits (h.startJob s j) fun _ t hstart => ?_
    obtain ⟨-, rfl⟩ := EStateM.Result.ok.inj hstart
    refine .bind h.toPermits (stays_record h.toPermits (e := .jobStarted j _) (.inr (.inl rfl)) _)
      fun _ t hstart => ?_
    obtain ⟨-, rfl⟩ := EStateM.Result.ok.inj hstart
    -- that the job has started does not change what it does
    have hwork : ((s.jobStarted j).jobs.job j).work = (s.jobs.job j).work := by
      show ((s.jobs.modify j _).job j).work = _
      rw [JobQueue.job_modify]
      split <;> rfl
    have hdo := stays_doWork h hcall (s := s.jobStarted j) thread j
    rw [hwork] at hdo
    refine .bind h.toPermits hdo fun ok t _ => ?_
    exact Stays.bind h.toPermits (.change fun s => h.finishJob s j ok)
      (fun _ => stays_record h.toPermits (e := .jobEnded j ok) (.inr (.inl rfl))) t
  · exact .pure h.toPermits

theorem stays_runJobs (thread : Thread) (js : List JobId) :
    Stays R early (runJobs call thread js) := by
  induction js with
  | nil => exact .pure h.toPermits _
  | cons j js ih => exact .bind h.toPermits (stays_runJob h hcall thread j) fun _ => ih

theorem stays_drainJobs (thread : Thread) : Stays R early (drainJobs call thread) :=
  .look fun _ => .bind h.toPermits (.change fun s => h.drainJobs s) fun _ =>
    .bind h.toPermits (stays_runJobs h hcall thread _) fun _ => .pure h.toPermits _

theorem stays_callOnGpuThread (thread : Thread) {w : Work} (hw : w.IsForeign) :
    Stays R early (callOnGpuThread call thread w) := by
  have hanswer (j : JobId) : Stays R early (do
      let job := (← get).jobs.job j
      if job.finished then pure job.success else throw .stuck) :=
    .look fun t => .ite (.pure h.toPermits _) (.throw h.toPermits _)
  have hwait (j : JobId) : Stays R early (do
      let _ ← drainJobs call .main
      let job := (← get).jobs.job j
      if job.finished then pure job.success else throw .stuck) :=
    .bind h.toPermits (stays_drainJobs h hcall .main) fun _ => hanswer j
  unfold callOnGpuThread
  split
  · exact stays_doForeign h hcall .main hw
  · refine stays_makeAndSubmit h (fun s => h.makeJob s w hw) fun j => .look fun s => ?_
    dsimp only
    split
    · exact .bind h.toPermits (stays_log h.toPermits _ _ _) fun _ => hwait j
    · exact hwait j

end Jobs

/-! ### Operations -/

/-- What operations that drive no tasks are made of keeps to the relation. -/
theorem Stays.operationParts (h : RunsJobs R early) (hcall : call.Stays R early) (fuel : Nat)
    (scope : Scope) (op : Op) : OperationParts (fun x => Stays R early x) fuel call scope op where
  toComposes := Stays.composes h.toPermits early
  throw _ := .throw h.toPermits _
  toRegistryOperations := (Stays.registryParts h.toPermits hcall).operations scope
  defer _ _ a := stays_releaseDeferred h.toPermits _ .client a
  writeContents a kind f _ := stays_writeContents h.toPermits a kind f
  setOnDestroy _ kind _ _ a := stays_writeContents h.toPermits a kind _
  setState a state := stays_setState h.toPermits scope a state
  newRegistry code hop := by
    subst hop
    exact .look fun _ => .bind h.toPermits (.change fun s => h.registries s _) fun _ =>
      .bind h.toPermits (hcall.stays _) fun _ => .look fun _ => .pure h.toPermits _
  client f hf := stays_modifyClient h.toPermits hf
  changeFiles change := stays_changeFiles h.toPermits change
  data b _ f := stays_modifyData h.toPermits b fun body => ⟨f body.data, rfl⟩
  gpuCall _ _ _ := stays_callOnGpuThread h hcall scope.thread trivial
  subscribe _ label code _ a :=
    (Stays.noticeParts h.toPermits hcall).subscribe scope.thread a label code
  unsubscribe := (Stays.noticeParts h.toPermits hcall).unsubscribe
  makeJob label code succeeds hop := by
    subst hop
    intro s
    have hmake : StaysFrom R early s (AssetLoading.makeJob (.custom label code succeeds)) :=
      h.makeJob s _ trivial
    refine .bind h.toPermits hmake fun j t hmade => ?_
    obtain ⟨rfl, rfl⟩ := EStateM.Result.ok.inj hmade
    -- the client names the job right after it was made
    have hlt : s.jobs.jobs.size < (s.jobs.make (.custom label code succeeds)).2.jobs.size := by
      show _ < (s.jobs.jobs.push _).size
      rw [Array.size_push]
      exact Nat.lt_succ_self _
    exact .bind h.toPermits (h.labelJob _ label _ hlt) fun _ t _ => .pure h.toPermits
  submitJob label hop := by
    subst hop
    intro s
    refine .look ?_
    dsimp only
    split
    next j hj =>
      exact .bind h.toPermits (h.submitJob s j (.inr ⟨label, hj⟩)) fun _ t _ => .pure h.toPermits
    next => exact .pure h.toPermits
  runJob _ _ j := stays_runJob h hcall scope.thread j
  drainJobs _ := stays_drainJobs h hcall scope.thread

/-- An operation that drives no tasks. -/
theorem stays_execute (h : Steers R early) (hcall : call.Stays R early) (fuel : Nat) (scope : Scope)
    {op : Op} (hop : op.drives = false) : Stays R early (execute fuel call scope op) :=
  (Stays.operationParts h.toRunsJobs hcall fuel scope op).execute hop

section Operations

variable (h : Steers R early) (hcall : call.Stays R early)

include h hcall

/-! ### Scripts -/

/-- An operation of a script, with its answer. -/
theorem stays_performAndRecord (fuel : Nat) (scope : Scope) (op : Op) :
    Stays R early (performAndRecord fuel call scope op) := by
  cases hop : op.drives with
  | true => exact h.drive hcall fuel scope op hop
  | false =>
    exact .bind h.toPermits (stays_execute h hcall fuel scope hop) fun reply =>
      .bind h.toPermits (.change fun s => h.answer s op reply hop) fun _ => .pure h.toPermits _

theorem stays_runScript (fuel : Nat) (scope : Scope) (code : Script) :
    Stays R early (runScript fuel call scope code) := by
  induction code with
  | nil => exact .pure h.toPermits _
  | cons step rest ih =>
    intro s
    refine .regroup h.toPermits (stays_performAndRecord h hcall fuel scope step.op s) fun reply => ?_
    split
    · exact .pure h.toPermits _
    · exact ih

theorem stays_runCallback (fuel : Nat) (callback : Callback) :
    Stays R early (runCallback fuel call callback) := by
  cases callback with
  | script scope code => exact stays_runScript h hcall fuel scope code
  | destructor scope asset contents =>
    exact .bind h.toPermits (stays_getAsset h.toPermits asset) fun _ =>
      .bind h.toPermits (stays_record h.toPermits (.inl rfl)) fun _ =>
      .bind h.toPermits (stays_runScript h hcall fuel scope _) fun _ =>
      .bind h.toPermits ((Stays.registryParts h.toPermits hcall).releaseDependencies scope _) fun _ =>
      .pure h.toPermits _

end Operations

/-- Client code keeps to the relation, to any depth. -/
theorem run_stays (h : Steers R early) (fuel : Nat) : (run fuel).Stays R early := by
  induction fuel with
  | zero => exact ⟨⟨0, rfl⟩, fun _ => .throw h.toPermits _⟩
  | succ fuel ih => exact ⟨⟨fuel + 1, rfl⟩, fun callback => stays_runCallback h ih fuel callback⟩

end AssetLoading
