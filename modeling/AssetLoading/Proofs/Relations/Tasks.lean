import AssetLoading.Proofs.Relations.Scripts
import AssetLoading.Session

/-! # Code that drives tasks keeps to relations

  Running the parts of a task, updates, waits and shutdown. What a relation says when
  a task joins the queue, is taken up or is put under a label depends on the relation,
  and so does what it says of a turn, in which a task is taken up and advanced.
  `Drives R early` asks for these. All other code is made of changes that the relations
  in question do not mind.
-/

namespace AssetLoading

/-- A relation that holds for changes of task bodies and for all events. -/
structure PermitsBodies (R : State → State → Prop) : Prop extends Permits R where
  /-- Anything is noted. -/
  anything : ∀ s (e : Event), R s (s.record e)
  /-- A task body changes. -/
  body : ∀ s b (f : TaskBody → TaskBody), R s (s.modifyBody b f)
  /-- A task body is made. -/
  plan : ∀ s (body : TaskBody), R s { s with bodies := s.bodies.push body }

/-- A relation that holds for everything that is done with tasks. -/
structure Drives (R : State → State → Prop) (early : Prop) : Prop extends PermitsBodies R where
  /-- A task is accepted. -/
  accept : ∀ t, Stays R early (acceptTask t)
  /-- No task can be taken up, or one is taken up and advanced. -/
  turn : ∀ {call : Runner}, call.Stays R early → ∀ thread, Stays R early (takeTurn call thread)
  /-- A task that is under a label is advanced. -/
  stepClaim : ∀ {call : Runner}, call.Stays R early → ∀ fuel scope label,
    Stays R early (execute fuel call scope (.stepClaim label))
  /-- A task is put under a label, which is recorded. -/
  claim : ∀ call fuel scope label wait,
    Stays R early (performAndRecord fuel call scope (.claim label wait))
  /-- The scheduler is closed, and the workers stop once they have advanced what they
  have in hand. -/
  join : ∀ {call : Runner}, call.Stays R early → ∀ turns, Stays R early (do
    let held ← closeDown
    joinWorkers call turns held)
  /-- The waiting tasks are taken out of the queue. -/
  empty : ∀ s, R s (s.withQueue s.queue.drain.2)

variable {R : State → State → Prop} {early : Prop} {call : Runner}

/-! ### The parts of a task -/

section Bodies

variable (h : PermitsBodies R)

include h

theorem stays_recordAny (e : Event) : Stays R early (record e) :=
  .change fun s => h.anything s e

theorem stays_modifyBody (b : BodyId) (f : TaskBody → TaskBody) :
    Stays R early (modifyBody b f) :=
  .change fun s => h.body s b f

theorem stays_takeNoted (b : BodyId) : Stays R early (takeNoted b) :=
  .look fun _ => .bind h.toPermits (stays_modifyBody h b _) fun _ => .pure h.toPermits _

theorem stays_takeReported (b : BodyId) : Stays R early (takeReported b) :=
  .look fun _ => .bind h.toPermits (stays_modifyBody h b _) fun _ => .pure h.toPermits _

theorem stays_makeBody (body : TaskBody) : Stays R early (makeBody body) :=
  .look fun _ => .bind h.toPermits (.change fun s => h.plan s body) fun _ => .pure h.toPermits _

variable (hcall : call.Stays R early)

include hcall

theorem stays_runAction (thread : Thread) (b : BodyId) (index : Nat) (asset : Handle)
    (priority : Int32) : Stays R early (runAction call thread b index asset priority) := by
  refine .bind h.toPermits (stays_modifyBody h b _) fun _ => .look fun s => ?_
  dsimp only
  split
  · exact .bind h.toPermits (stays_recordAny h _) fun _ => .bind h.toPermits (hcall.stays _) fun _ =>
      .look fun _ => .bind h.toPermits (stays_recordAny h _) fun _ => .pure h.toPermits _
  · exact .pure h.toPermits _

theorem stays_runActionAsJob (thread : Thread) (b : BodyId) (index : Nat) (asset : Handle)
    (priority : Int32) : Stays R early (runActionAsJob call thread b index asset priority) := by
  refine .bind h.toPermits (stays_runAction h hcall thread b index asset priority) fun _ =>
    .bind h.toPermits (stays_takeNoted h b) fun noted => ?_
  split
  · exact .bind h.toPermits (stays_modifyBody h b _) fun _ => .pure h.toPermits _
  · exact .pure h.toPermits _

theorem stays_runFailureHook (thread : Thread) (b : BodyId) (asset : Handle) :
    Stays R early (runFailureHook call thread b asset) := by
  refine .look fun s => ?_
  dsimp only
  split
  · exact .bind h.toPermits (stays_recordAny h _) fun _ => .bind h.toPermits (hcall.stays _) fun _ =>
      .look fun _ => stays_recordAny h _
  · exact .pure h.toPermits _

theorem stays_freeBody (thread : Thread) (b : BodyId) (asset : Handle) :
    Stays R early (freeBody call thread b asset) := by
  refine .look fun s => ?_
  dsimp only
  refine .bind h.toPermits (stays_modifyBody h b _) fun _ => ?_
  split
  · exact .bind h.toPermits (stays_recordAny h _) fun _ => .bind h.toPermits (hcall.stays _) fun _ =>
      .look fun _ => stays_recordAny h _
  · exact .pure h.toPermits _

theorem stays_discardTasks (thread : Thread) (es : List Entry) :
    Stays R early (discardTasks call thread es) := by
  induction es with
  | nil => exact .pure h.toPermits _
  | cons e es ih =>
    have hfirst : Stays R early (discardTask call thread e) :=
      .bind h.toPermits (stays_freeBody h hcall thread e.body e.asset) fun _ =>
        .bind h.toPermits (stays_recordAny h _) fun _ =>
        stays_releaseDeferred h.toPermits 0 .task e.asset
    exact .bind h.toPermits hfirst fun _ => ih

theorem stays_failTask (thread : Thread) (e : Entry) : Stays R early (failTask call thread e) := by
  have hend : Stays R early (do
      let a ← getAsset e.asset
      log .warn "Asset load action failed"
        [("asset", .text a.displayName), ("ty", .text a.category.name),
          ("action", .number e.cursor), ("state", .text a.state.debug)]
      runFailureHook call thread e.body e.asset) :=
    .bind h.toPermits (stays_getAsset h.toPermits _) fun _ =>
      .bind h.toPermits (stays_log h.toPermits _ _ _) fun _ =>
      stays_runFailureHook h hcall thread e.body e.asset
  refine .bind h.toPermits (stays_getAsset h.toPermits _) fun a => ?_
  split
  · exact .bind h.toPermits (stays_modifyAsset h.toPermits _ _) fun _ => hend
  · exact hend

end Bodies

/-! ### Updates and waits -/

section Updates

theorem PermitsBodies.runsJobs (h : PermitsBodies R) : RunsJobs R early where
  toPermits := h.toPermits
  act hcall s _ thread b i asset priority _ :=
    stays_runActionAsJob h hcall thread b i asset priority s

variable (h : Drives R early) (hcall : call.Stays R early)

include h hcall

/-- What updates and waits are made of keeps to the relation. -/
theorem Stays.drivingParts : DrivingParts (fun x => Stays R early x) call where
  toComposes := Stays.composes h.toPermits early
  throw _ := .throw h.toPermits _
  flush := (Stays.registryParts h.toPermits hcall).flush _
  drainJobs := stays_drainJobs h.runsJobs hcall .main
  deliver := (Stays.noticeParts h.toPermits hcall).deliver .main
  turn := h.turn hcall

/-! ### Operations -/

theorem stays_enqueue (thread : Thread) (t : Task) : Stays R early (enqueue call thread t) := by
  refine .look fun s => ?_
  dsimp only
  split
  · exact .bind h.toPermits (stays_log h.toPermits _ _ _) fun _ =>
      stays_freeBody h.toPermitsBodies hcall thread _ _
  · split
    · exact .bind h.toPermits (stays_modifyAsset h.toPermits _ _) fun _ => h.accept t
    · exact h.accept t

theorem stays_shutdown (thread : Thread) : Stays R early (shutdown call thread) := by
  refine .look fun s => ?_
  split
  · split
    · exact .throw h.toPermits _
    · exact .throw h.toPermits _
    · -- the queue is read before it is emptied, so the rest is for any list of tasks
      have hparts : NoticeParts (fun x => Stays R early x) call True :=
        Stays.noticeParts h.toPermits hcall
      have hend (es : List Entry) : Stays R early (do
          discardTasks call .main es
          let _ ← drainJobs call .main
          let _ ← deliver call .main
          clearNotices call .main
          let _ ← flush call { thread := .main }
          let _ ← reportLeaks 0
          log .debug "Asset scheduler shutdown complete" []) :=
        .bind h.toPermits (stays_discardTasks h.toPermitsBodies hcall .main es) fun _ =>
          .bind h.toPermits (stays_drainJobs h.runsJobs hcall .main) fun _ =>
          .bind h.toPermits (hparts.deliver .main) fun _ =>
          .bind h.toPermits (hparts.clearNotices .main) fun _ =>
          .bind h.toPermits (hparts.flush _) fun _ =>
          .bind h.toPermits (hparts.reportLeaks 0) fun _ => stays_log h.toPermits _ _ _
      refine .look fun s => ?_
      dsimp only
      rw [← bind_assoc]
      refine .bind h.toPermits (h.join hcall s.turnsLeft) fun _ => fun t => .look ?_
      refine .bind h.toPermits (h.empty t) fun _ r _ => ?_
      split
      · exact Stays.bind h.toPermits (stays_log h.toPermits _ _ _) (fun _ => hend _) r
      · exact hend _ r
  · exact .pure h.toPermits _

/-- What operations are made of that drive tasks keeps to the relation, but for those
that put a task under a label. -/
theorem Stays.drivingOperationParts (fuel : Nat) (scope : Scope) {op : Op}
    (hclaim : ∀ label wait, op ≠ .claim label wait) :
    DrivingOperationParts (fun x => Stays R early x) fuel call scope op where
  toDrivingParts := Stays.drivingParts h hcall
  enqueue plan _ a answer :=
    .bind h.toPermits (stays_makeBody h.toPermitsBodies _) fun _ =>
      .bind h.toPermits (stays_enqueue h hcall scope.thread _) fun _ => .pure h.toPermits _
  client f hf := stays_modifyClient h.toPermits hf
  shutdown _ := stays_shutdown h hcall scope.thread
  claim label wait hop := absurd hop (hclaim label wait)
  stepClaim label hop := by
    subst hop
    exact h.stepClaim hcall fuel scope label
  estimate _ b _ := stays_modifyBody h.toPermitsBodies b _

/-- An operation that drives tasks, but for one that puts a task under a label. -/
theorem stays_driving (fuel : Nat) (scope : Scope) {op : Op} (hop : op.drives = true)
    (hclaim : ∀ label wait, op ≠ .claim label wait) : Stays R early (execute fuel call scope op) :=
  (Stays.drivingOperationParts h hcall fuel scope hclaim).execute hop

end Updates

/-- All code keeps to a relation that holds for everything that is done with tasks. -/
theorem Drives.steers (h : Drives R early) : Steers R early where
  toRunsJobs := h.runsJobs
  answer s op reply _ := h.anything s _
  drive hcall fuel scope op hop := by
    by_cases hclaim : ∃ label wait, op = .claim label wait
    · obtain ⟨label, wait, rfl⟩ := hclaim
      exact h.claim _ fuel scope label wait
    · refine .bind h.toPermits (stays_driving h hcall fuel scope hop fun label wait heq => ?_) fun _ =>
        .bind h.toPermits (stays_recordAny h.toPermitsBodies _) fun _ => .pure h.toPermits _
      exact hclaim ⟨label, wait, heq⟩

/-- An operation that is performed on its own, but for one that puts a task under a
label. -/
theorem stays_perform (h : Drives R early) (fuel : Nat) (scope : Scope) {op : Op}
    (hclaim : ∀ label wait, op ≠ .claim label wait) : Stays R early (op.perform fuel scope) := by
  cases hop : op.drives with
  | true => exact stays_driving h (run_stays h.steers fuel) fuel scope hop hclaim
  | false => exact stays_execute h.steers (run_stays h.steers fuel) fuel scope hop

/-- However the operation ends. -/
theorem StaysFrom.performed {fuel : Nat} {s t : State} {thread : Thread} {op : Op} {outcome : Outcome}
    (h : StaysFrom R True s (op.perform fuel { thread }))
    (hrun : performOn fuel s thread op = (outcome, t)) : R s t := by
  unfold performOn EStateM.run at hrun
  split at hrun
  next hok =>
    cases hrun
    exact h.returned hok
  next herror =>
    cases hrun
    exact h.halted trivial herror

/-- Code waits for workers whose steps keep to the relation. -/
theorem stays_joinWorkers (h : RunsJobs R early) (hcall : call.Stays R early)
    (hstep : ∀ number e, Stays R early (stepTask call (.worker number) e))
    (turns : List PartingTurn) (held : List (Nat × Entry)) :
    Stays R early (joinWorkers call turns held) := by
  induction turns generalizing held with
  | nil =>
    -- what is in hand in the end is advanced in its order
    show Stays R early (lastSteps call held)
    induction held with
    | nil => exact .pure h.toPermits _
    | cons first held ih => exact .bind h.toPermits (hstep _ _) fun _ => ih
  | cons turn turns ih =>
    cases turn with
    | pump => exact .bind h.toPermits (stays_drainJobs h hcall .main) fun _ => ih held
    | step position =>
      unfold joinWorkers
      split
      · exact ih held
      · exact .bind h.toPermits (hstep _ _) fun _ => ih _

/-! ### Relations that do not mind what is in the queue -/

/-- A relation that holds whatever happens to the queue and to claims. -/
structure PermitsQueue (R : State → State → Prop) : Prop extends PermitsBodies R where
  /-- The queue changes. -/
  queue : ∀ s (queue : TaskQueue), R s (s.withQueue queue)
  /-- The client's claims change. -/
  claims : ∀ s (claims : Table String Entry), R s (s.withClient { s.client with claims })
  /-- The scheduler is closed. -/
  close : ∀ s, R s { s with closed := true }
  /-- The workers are stopped. -/
  stop : ∀ s, R s { s with workers := 0 }

namespace PermitsQueue

variable (h : PermitsQueue R)

include h

theorem stays_modifyQueue (f : TaskQueue → TaskQueue) : Stays R early (modifyQueue f) :=
  .change fun s => h.queue s _

theorem stays_acquireTask : Stays R early acquireTask := by
  refine .look fun s => ?_
  split
  · exact .pure h.toPermits _
  · exact .bind h.toPermits (h.stays_modifyQueue _) fun _ => .pure h.toPermits _

theorem stays_closeDown : Stays R early closeDown := by
  intro s
  obtain ⟨held, queue, -, hrun⟩ := closeDown_run s
  refine .of_ok hrun ?_
  have hlogged := h.trans (h.queue s queue)
    (h.anything _ (.logged .debug "Shutting down asset scheduler" []))
  have hclosed := h.trans hlogged (h.trans (h.close _) (h.queue _ queue.close))
  exact h.trans hclosed (h.stop _)

theorem stays_acceptTask (t : Task) : Stays R early (acceptTask t) :=
  .bind h.toPermits (stays_addref h.toPermits .task _) fun _ => .look fun _ =>
    .bind h.toPermits (stays_log h.toPermits _ _ _) fun _ =>
    .bind h.toPermits (h.stays_modifyQueue _) fun _ => stays_recordAny h.toPermitsBodies _

variable (hcall : call.Stays R early)

include hcall

theorem stays_completeTask (thread : Thread) (e : Entry) :
    Stays R early (completeTask call thread e) := by
  have hend : Stays R early (do
      let a ← getAsset e.asset
      if a.state.isLoaded then stage e.asset
      log .debug "Asset task complete"
        [("asset", .text a.displayName), ("state", .text a.state.debug)]
      modifyQueue (·.finish e.id)
      record (.completed e.id)
      releaseDeferred 0 .task e.asset) := by
    -- staged or not, what follows is the same
    have hlast (a : Asset) : Stays R early (do
        log .debug "Asset task complete"
          [("asset", .text a.displayName), ("state", .text a.state.debug)]
        modifyQueue (·.finish e.id)
        record (.completed e.id)
        releaseDeferred 0 .task e.asset) :=
      .bind h.toPermits (stays_log h.toPermits _ _ _) fun _ =>
        .bind h.toPermits (.change fun s => h.queue s _) fun _ =>
        .bind h.toPermits (stays_recordAny h.toPermitsBodies _) fun _ =>
          stays_releaseDeferred h.toPermits 0 .task _
    refine .bind h.toPermits (stays_getAsset h.toPermits _) fun a => ?_
    split
    · exact .bind h.toPermits (stays_stage h.toPermits _) fun _ => hlast a
    · exact hlast a
  exact .bind h.toPermits (stays_freeBody h.toPermitsBodies hcall thread e.body e.asset) fun _ => hend

theorem stays_takeOutcome (thread : Thread) (e : Entry) (succeeded : Bool) :
    Stays R early (takeOutcome call thread e succeeded) := by
  unfold takeOutcome
  split
  · dsimp only
    split
    · exact h.stays_completeTask hcall thread _
    · exact h.stays_modifyQueue _
  · exact .bind h.toPermits (stays_failTask h.toPermitsBodies hcall thread e) fun _ =>
      h.stays_completeTask hcall thread _

/-- The main thread advances a task where it stands. -/
theorem stays_stepMain (e : Entry) : Stays R early (stepTask call .main e) := by
  refine .bind h.toPermits (stays_recordAny h.toPermitsBodies _) fun _ => ?_
  split
  · exact h.stays_completeTask hcall .main e
  · rw [if_neg fun hoff => hoff.2 rfl]
    exact .bind h.toPermits (stays_runAction h.toPermitsBodies hcall .main _ _ _ _) fun _ =>
      .bind h.toPermits (stays_takeNoted h.toPermitsBodies _) fun _ =>
      h.stays_takeOutcome hcall .main _ _

omit hcall in
theorem stays_claiming (fuel : Nat) (scope : Scope) (label : String) (wait : Bool) :
    Stays R early (execute fuel call scope (.claim label wait)) := by
  have hclaim : Stays R early (claimTask wait) := by
    refine .look fun s => ?_
    split
    · exact .pure h.toPermits _
    · refine .bind h.toPermits h.stays_acquireTask fun claimed => ?_
      split
      · exact .pure h.toPermits _
      · exact .ite (.throw h.toPermits _) (.pure h.toPermits _)
  refine .bind h.toPermits hclaim fun claimed => ?_
  split
  · exact .pure h.toPermits _
  · exact .bind h.toPermits (.change fun s => h.claims s _) fun _ => .pure h.toPermits _

omit hcall

variable (hstep : ∀ {call : Runner}, call.Stays R early →
  ∀ thread e, Stays R early (stepTask call thread e))

include hstep

/-- It is left to say that the relation holds where tasks are advanced. -/
theorem drives : Drives R early where
  toPermitsBodies := h.toPermitsBodies
  accept := h.stays_acceptTask
  turn hcall thread := by
    refine .bind h.toPermits h.stays_acquireTask fun claimed => ?_
    cases claimed with
    | none => exact .pure h.toPermits _
    | some e => exact .bind h.toPermits (hstep hcall thread e) fun _ => .pure h.toPermits _
  stepClaim hcall fuel scope label := by
    refine .look fun s => ?_
    split
    · exact .pure h.toPermits _
    · exact .bind h.toPermits (.change fun s => h.claims s _) fun _ =>
        .bind h.toPermits (hstep hcall scope.thread _) fun _ => .pure h.toPermits _
  claim call fuel scope label wait :=
    .bind h.toPermits (h.stays_claiming fuel scope label wait) fun _ =>
      .bind h.toPermits (stays_recordAny h.toPermitsBodies _) fun _ => .pure h.toPermits _
  join hcall turns :=
    .bind h.toPermits h.stays_closeDown fun held =>
      stays_joinWorkers h.runsJobs hcall (fun _ _ => hstep hcall _ _) turns held
  empty s := h.queue s _

/-- An operation that is performed on its own. -/
theorem stays_performing (fuel : Nat) (scope : Scope) (op : Op) :
    Stays R early (op.perform fuel scope) := by
  by_cases hclaim : ∃ label wait, op = .claim label wait
  · obtain ⟨label, wait, rfl⟩ := hclaim
    exact h.stays_claiming fuel scope label wait
  · exact stays_perform (h.drives hstep) fuel scope fun label wait heq => hclaim ⟨label, wait, heq⟩

end PermitsQueue

/-- A relation that holds for all changes but those of what a job does. -/
structure PermitsTasks (R : State → State → Prop) : Prop extends PermitsQueue R where
  /-- A job of any kind is made. -/
  anyJob : ∀ s (w : Work), R s (s.withJobs (s.jobs.make w).2)

namespace PermitsTasks

variable (h : PermitsTasks R) (hcall : call.Stays R early)

include h hcall

/-- First it is recorded that a task is advanced. -/
theorem stays_stepped (thread : Thread) (e : Entry) (s : State) :
    StaysFrom (fun s => R (s.record (.stepped e.id (thread == .main)))) early s
      (stepTask call thread e) := by
  refine .chain (P := fun s t => t = s.record (.stepped e.id (thread == .main))) (Q := R) rfl
    (fun _ t _ => ?_) (fun _ _ hrecorded ht => hrecorded ▸ ht) (fun _ _ hrecorded => ?_)
  · split
    · exact h.toPermitsQueue.stays_completeTask hcall thread e t
    · split
      · split
        · exact stays_makeAndSubmit h.toPermitsQueue.runsJobs (fun s => h.anyJob s _)
            (fun _ => h.toPermitsQueue.stays_modifyQueue _) t
        · refine .look ?_
          dsimp only
          split
          · exact Stays.bind h.toPermits (stays_takeReported h.toPermitsBodies _)
              (fun _ => h.toPermitsQueue.stays_takeOutcome hcall thread _ _) t
          · exact h.toPermitsQueue.stays_modifyQueue _ t
      · exact Stays.bind h.toPermits (stays_runAction h.toPermitsBodies hcall thread _ _ _ _)
          (fun _ => .bind h.toPermits (stays_takeNoted h.toPermitsBodies _) fun _ =>
            h.toPermitsQueue.stays_takeOutcome hcall thread _ _) t
  · rw [hrecorded]
    exact h.refl _

theorem stays_stepTask (thread : Thread) (e : Entry) : Stays R early (stepTask call thread e) :=
  fun s => (h.stays_stepped hcall thread e s).weaken fun _ ht => h.trans (h.anything s _) ht

omit hcall

theorem drives : Drives R early :=
  h.toPermitsQueue.drives fun hcall thread e => h.stays_stepTask hcall thread e

/-- An operation that is performed on its own. -/
theorem stays_performing (fuel : Nat) (scope : Scope) (op : Op) :
    Stays R early (op.perform fuel scope) :=
  h.toPermitsQueue.stays_performing (fun hcall thread e => h.stays_stepTask hcall thread e) fuel scope op

end PermitsTasks

end AssetLoading
