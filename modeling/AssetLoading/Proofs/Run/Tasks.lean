import AssetLoading.Proofs.Run.Delivery
import AssetLoading.Proofs.Queue.Operations
import AssetLoading.Proofs.Run.Jobs

/-! # Tracing tasks

  The life of a task from the queue to its end. What is under way says at every
  moment in whose hands the task is and what is still to be done with it.
-/

namespace AssetLoading

/-! ### Accepting and claiming -/

theorem stride_acquire {s : State} {e : Entry} {queue : TaskQueue}
    (hq : s.queue.acquire s.runnable = some (e, queue)) (u : List Activity) :
    TaskStride ⟨u, s⟩ ⟨.claimed e :: u, s.withQueue queue⟩ := by
  refine .move (.acquire e queue hq) ?_
  obtain ⟨front, back, -, -, -, rfl⟩ := TaskQueue.acquire_eq_some hq
  exact ⟨rfl, rfl, nofun, nofun⟩

theorem traced_acquireTask (u : List Activity) (s : State) (due : List (List Subscription)) :
    Traced ⟨⟨u, s⟩, due⟩ acquireTask fun found =>
      Scene.Has (match found with
        | none => u
        | some e => .claimed e :: u) due := by
  unfold acquireTask
  refine .look ?_
  dsimp only
  split
  next => exact .pure ⟨rfl, rfl⟩
  next e queue hq =>
    exact .first (.task (stride_acquire hq u)) rfl (.pure ⟨rfl, rfl⟩)

/-- A task that was made is accepted by the queue. -/
theorem traced_acceptTask {u : List Activity} {s : State} {due : List (List Subscription)} (t : Task)
    (hopen : s.closed = false) :
    Traced ⟨⟨.planned t :: u, s⟩, due⟩ (acceptTask t) fun _ => Scene.Has u due := by
  unfold acceptTask
  have hrun := addref_run .task t.asset s
  split at hrun
  next hgone =>
    refine .halt ?_
    unfold TracedFrom
    simp only [hrun]
    exact ⟨⟨.planned t :: u, s⟩, .refl, rfl, hgone, nofun⟩
  next hwhole =>
    rw [Bool.not_eq_true] at hwhole
    exact .part hrun (.look (.part rfl (.one (.task (.accept t hopen hwhole)) rfl ⟨rfl, rfl⟩)))

/-- Collecting the outcome of a job changes no job. -/
theorem traced_takeReported {u : List Activity} {s : State} {due : List (List Subscription)}
    (b : BodyId) :
    Traced ⟨⟨u, s⟩, due⟩ (takeReported b) fun _ d => d.Has u due ∧ d.state.jobs = s.jobs := by
  unfold takeReported
  refine .look ?_
  exact .first (.body (.estimate b _ fun body => ⟨body.noted, none, rfl⟩)) rfl
    (.pure ⟨⟨rfl, rfl⟩, rfl⟩)

/-- What staging a load comes to. -/
theorem stage_run (h : Handle) (s : State) :
    stage h s =
      if (s.asset h).destroyed then
        .error (.fatal (.addedToDestroyed .notice h (s.asset h).category (s.asset h).displayName)) s
      else .ok () (s.staged h) := by
  have hrun := addref_run .notice h s
  show EStateM.bind (addref .notice h) _ s = _
  rw [EStateM.bind]
  by_cases hgone : (s.asset h).destroyed = true
  · rw [if_pos hgone] at hrun ⊢
    rw [hrun]
  · rw [if_neg hgone] at hrun ⊢
    rw [hrun, State.staged, ← State.notices_referenced s .notice h]
    rfl

/-- From the end of its body to its completion a task runs no client code. -/
theorem traced_complete {u : List Activity} {s : State} {due : List (List Subscription)} (e : Entry) :
    Traced ⟨⟨.ended e :: u, s⟩, due⟩ (do
      let a ← getAsset e.asset
      if a.state.isLoaded then stage e.asset
      log .debug "Asset task complete"
        [("asset", .text a.displayName), ("state", .text a.state.debug)]
      modifyQueue (·.finish e.id)
      record (.completed e.id)
      releaseDeferred 0 .task e.asset) fun _ => Scene.Has u due := by
  -- staged or not, the rest of the code is the same
  have hend {t : State} (hwhole : (s.asset e.asset).state.isLoaded = true →
        (s.asset e.asset).destroyed = false)
      (ht : t = if (s.asset e.asset).state.isLoaded then s.staged e.asset else s) :
      TracedFrom ⟨⟨.ended e :: u, s⟩, due⟩ t (do
        log .debug "Asset task complete" [("asset", .text (s.asset e.asset).displayName),
          ("state", .text (s.asset e.asset).state.debug)]
        modifyQueue (·.finish e.id)
        record (.completed e.id)
        releaseDeferred 0 .task e.asset) fun _ => Scene.Has u due := by
    have hqueue : t.queue = s.queue := by
      rw [ht]
      split
      next => exact s.queue_staged e.asset
      next => rfl
    refine .part rfl (.part rfl (.part (t := s.taskCompleted e) (a := ()) ?_ ?_))
    · unfold State.taskCompleted
      rw [← ht, ← hqueue]
      rfl
    · exact traced_letGo (moves_taskCompleted e hwhole) fun hsome =>
        .task (.complete e hwhole hsome)
  refine .lookAsset ?_
  split
  next hloaded =>
    have hrun := stage_run e.asset s
    split at hrun
    next hgone =>
      -- an asset that was destroyed under its task stops the process here
      refine .halt ?_
      unfold TracedFrom
      simp only [hrun]
      exact ⟨⟨.ended e :: u, s⟩, .refl, rfl, hgone, fun _ => ⟨e, List.mem_cons_self, rfl⟩⟩
    next hwhole =>
      rw [Bool.not_eq_true] at hwhole
      exact .part hrun (hend (fun _ => hwhole) (if_pos hloaded).symm)
  next hunloaded => exact hend (fun hloaded => absurd hloaded hunloaded) (if_neg hunloaded).symm

section Running

variable {call : Runner} (hcall : call.IsTraced) (thread : Thread)

include hcall

/-! ### The end of a task -/

theorem leads_completeTask (u : List Activity) (e : Entry) :
    Leads (.ending e :: u) (completeTask call thread e) u := by
  unfold completeTask
  refine (leads_freeBody hcall thread e.body e.asset (a := .ending e) u rfl).bind fun _ => ?_
  exact fun s due => traced_complete e

theorem leads_discardTask (u : List Activity) (e : Entry) :
    Leads (.discarding e :: u) (discardTask call thread e) u := by
  unfold discardTask
  refine (leads_freeBody hcall thread e.body e.asset (a := .discarding e) u rfl).bind fun _ => ?_
  exact fun s due => .part rfl (traced_letGo (.single (.task (.discard e))) fun hsome =>
    .task (.discard e hsome))

theorem leads_discardTasks (u : List Activity) (es : List Entry) :
    Leads (.drained es :: u) (discardTasks call thread es) u := by
  induction es with
  | nil =>
    exact fun s due => .turn (.task (.move .discardEnd (.ofEnd rfl rfl))) (.pure ⟨rfl, rfl⟩)
  | cons e es ih =>
    intro s due
    unfold discardTasks
    refine .turn (.task (.move (.discardNext e es) ⟨rfl, rfl, nofun, nofun⟩)) ?_
    exact (leads_discardTask hcall thread _ e).first fun _ t => ih t due

/-! ### Advancing a task -/

theorem leads_failTask (u : List Activity) (e : Entry) :
    Leads (.concluding e false :: u) (failTask call thread e) (.ending e.abort :: u) := by
  unfold failTask
  refine (Leads.getAsset _ _).bind fun a => ?_
  have hedit : Leads (.concluding e false :: u)
      (modifyAsset e.asset fun a => { a with state := .error }) (.concluding e false :: u) :=
    fun s due => .one (.asset (.fail e)) rfl ⟨rfl, rfl⟩
  refine fun s due => .when (Q := fun _ => Scene.Has (.concluding e false :: u) due)
    (fun _ => hedit s due) (fun _ => ⟨rfl, rfl⟩) ?_
  rintro ⟨⟨v, t⟩, l⟩ ⟨rfl, rfl⟩
  refine .lookAsset ?_
  refine (leads_log _ _ _ _).first fun _ t => ?_
  exact leads_runFailureHook hcall thread u e t _

theorem leads_takeOutcome (u : List Activity) (e : Entry) (ok : Bool) :
    Leads (.concluding e ok :: u) (takeOutcome call thread e ok) u := by
  unfold takeOutcome
  cases ok with
  | false =>
    exact (leads_failTask hcall thread u e).bind fun _ => leads_completeTask hcall thread u e.abort
  | true =>
    intro s due
    rw [if_pos rfl]
    dsimp only
    split
    next hlast =>
      exact .turn (.task (.move (.succeed e hlast) ⟨rfl, rfl, nofun, nofun⟩))
        (leads_completeTask hcall thread u _ s due)
    next hmore =>
      rw [Bool.not_eq_true] at hmore
      exact .one (.task (.move (.proceed e hmore) (.ofEnd rfl rfl))) rfl ⟨rfl, rfl⟩

/-- The next action of a task waits for the GPU thread: it is handed over, or its
outcome is collected once it has one. -/
theorem leads_stepTask_handedOver (u : List Activity) {e : Entry}
    (he : e.currentAffinity = some .gpu) :
    Leads (.stepping e false :: u)
      (match e.job with
        | none => do
          let j ← makeJob (.action e.body e.cursor e.asset e.priority)
          submitJob j
          modifyQueue (·.giveBack { e with job := some j })
        | some j => do
          let job := (← get).jobs.job j
          if job.finished then
            let complexity ← takeReported e.body
            takeOutcome call thread ({ e with job := none }.withComplexity complexity) job.success
          else modifyQueue (·.giveBack e)) u := by
  intro s due
  split
  next hjob =>
    exact .one (.task (.move (.handOver e he hjob) (.ofEnd rfl rfl))) rfl ⟨rfl, rfl⟩
  next j hjob =>
    refine .look ?_
    dsimp only
    split
    next hfinished =>
      refine .bind (traced_takeReported e.body) ?_
      rintro complexity ⟨⟨v, t⟩, l⟩ ⟨⟨rfl, rfl⟩, hjobs⟩
      dsimp only at hjobs
      -- taking the estimate leaves the jobs, so what was asked of the job still holds
      rw [← hjobs] at hfinished ⊢
      refine .turn (.task (.move (.collect e j complexity he hjob hfinished) ⟨rfl, rfl, nofun, nofun⟩)) ?_
      exact leads_takeOutcome hcall thread u _ _ t _
    next hopen =>
      rw [Bool.not_eq_true] at hopen
      exact .one (.task (.move (.wait e j he hjob hopen) (.ofEnd rfl rfl))) rfl ⟨rfl, rfl⟩

theorem leads_stepTask (u : List Activity) (e : Entry) :
    Leads (.claimed e :: u) (stepTask call thread e) u := by
  intro s due
  unfold stepTask
  refine .first (.task (.move (.step e (thread == .main)) ⟨rfl, rfl, nofun, nofun⟩)) rfl ?_
  split
  next hnone =>
    exact .turn (.task (.move (.runOut e _ hnone) ⟨rfl, rfl, nofun, nofun⟩))
      (leads_completeTask hcall thread u e _ _)
  next affinity haffinity =>
    split
    next hgpu =>
      obtain ⟨rfl, hthread⟩ := hgpu
      rw [beq_eq_false_iff_ne.2 hthread]
      exact leads_stepTask_handedOver hcall thread u haffinity _ _
    next hhere =>
      -- the action may run here: it is for any thread, or this is the main one
      have hmay : (Activity.stepping e (thread == .main)).MayAct e.body e.cursor
          (thread == .main) := by
        refine ⟨rfl, rfl, rfl, affinity, haffinity, fun hgpu => ?_⟩
        rw [beq_iff_eq]
        exact Decidable.not_not.1 fun hthread => hhere ⟨hgpu, hthread⟩
      refine .bind (traced_runAction hcall thread e.body e.asset e.priority hmay) ?_
      rintro ok ⟨⟨v, t⟩, l⟩ ⟨rfl, rfl⟩
      refine (leads_takeNoted _ e.body).first fun complexity t => ?_
      refine .turn (.task (.move (.reckon e ok complexity) ⟨rfl, rfl, nofun, nofun⟩)) ?_
      exact leads_takeOutcome hcall thread u _ ok t _

end Running

end AssetLoading
