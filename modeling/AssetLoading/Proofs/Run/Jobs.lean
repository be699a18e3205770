import AssetLoading.Proofs.Run.Bodies

/-! # Tracing jobs

  Jobs are made, submitted, drained and run. The work of a job that a task
  handed over is traced with the parts of a task.
-/

namespace AssetLoading

theorem leads_makeJob (u : List Activity) {w : Work} (hw : w.IsForeign) : Leads u (makeJob w) u := by
  intro s due
  unfold makeJob
  exact .look (.first (.job (.move (.make w hw) (.inl rfl))) rfl (.pure ⟨rfl, rfl⟩))

/-- Only an operation of its own submits a job and does not wait for it. -/
theorem leads_submitJob {u : List Activity} (hu : MaySubmit u) (j : JobId) :
    Leads u (submitJob j) u :=
  fun _ _ => .one (.job (.submit j hu)) rfl ⟨rfl, rfl⟩

section Running

variable {call : Runner} (hcall : call.IsTraced) (thread : Thread)

include hcall

/-- Work that is not an action of a task can be done anywhere. -/
theorem leads_doWork (u : List Activity) {w : Work} (hw : w.IsForeign) :
    Leads u (doWork call thread w) u := by
  have hscript (asset : Option Handle) (code : Script) :
      Leads u (call (.script { thread, asset } code)) u :=
    hcall.script _ _ _ (Scope.admitted_of_body_eq_none rfl (.inl rfl))
  cases w with
  | action => exact hw.elim
  | call asset code succeeds =>
    unfold doWork
    exact (leads_record_line u (e := .gpuCalled _) trivial).bind fun _ =>
      (hscript asset code).bind fun _ => .pure u _
  | custom label code succeeds => exact (hscript none code).bind fun _ => .pure u _

/-- The work of a job leaves what it returned with the job. -/
theorem traced_doWork {u : List Activity} {s : State} {due : List (List Subscription)} (j : JobId)
    (w : Work) :
    Traced ⟨⟨.running j w :: u, s⟩, due⟩ (doWork call thread w) fun ok =>
      Scene.Has (.ran j w ok :: u) due := by
  have hforeign (hw : w.IsForeign) :
      Traced ⟨⟨.running j w :: u, s⟩, due⟩ (doWork call thread w) fun ok =>
        Scene.Has (.ran j w ok :: u) due := by
    refine (leads_doWork hcall thread _ hw s due).before ?_
    rintro ok ⟨⟨v, t⟩, l⟩ ⟨rfl, rfl⟩
    exact ⟨_, .job (.move (.work j w hw ok) (.inl rfl)), rfl, rfl, rfl⟩
  cases w with
  | action b i asset priority => exact traced_runActionAsJob hcall thread b asset priority
  | call => exact hforeign trivial
  | custom => exact hforeign trivial

theorem leads_runJob {u v : List Activity} {j : JobId} (hpick : Picks j u v) :
    Leads u (runJob call thread j) v := by
  intro s due
  unfold runJob
  refine .look ?_
  dsimp only
  split
  next hnew =>
    rw [Bool.not_eq_true'] at hnew
    refine .firstTwo (.job (.move (.start j hpick hnew) (.inl rfl))) rfl ?_
    refine .bind (traced_doWork hcall thread j _) ?_
    rintro ok ⟨⟨w, t⟩, l⟩ ⟨rfl, rfl⟩
    exact .one (.job (.move (.finish j _ ok) (.inl rfl))) rfl ⟨rfl, rfl⟩
  next hold =>
    rw [Bool.not_eq_true', Bool.not_eq_false] at hold
    exact .turn (.job (.move (.skip j hpick hold) (.inl rfl))) (.pure ⟨rfl, rfl⟩)

theorem leads_runJobs (u : List Activity) (js : List JobId) :
    Leads (.draining js :: u) (runJobs call thread js) u := by
  induction js with
  | nil => exact fun s due => .turn (.job (.move .drained (.inl rfl))) (.pure ⟨rfl, rfl⟩)
  | cons j js ih => exact (leads_runJob hcall thread (.next js u)).bind fun _ => ih

theorem leads_drainJobs (u : List Activity) : Leads u (drainJobs call thread) u := by
  intro s due
  unfold drainJobs
  refine .look (.first (.job (.move .drain (.inr rfl))) rfl ?_)
  exact (leads_runJobs hcall thread u _).first fun _ t => .pure ⟨rfl, rfl⟩

/-- A job that another thread waits for is made, submitted and drained with the jobs
in front of it, before any client code runs. -/
theorem traced_summon {u : List Activity} {s : State} {due : List (List Subscription)} {w : Work}
    (hw : w.IsForeign) :
    Traced ⟨⟨u, s⟩, due⟩ (do
      let j ← makeJob w
      submitJob j
      if (← get).settings.warnAfter = 0 then
        log .warn longWaitMessage []
      let _ ← drainJobs call .main
      let job := (← get).jobs.job j
      if job.finished then pure job.success else throw .stuck) fun _ => Scene.Has u due := by
  -- what the waiting thread is told once the jobs have been run
  have hanswer (j : JobId) : Leads u (do
      let job := (← get).jobs.job j
      if job.finished then pure job.success else throw .stuck) u := by
    intro t l
    refine .look ?_
    dsimp only
    split
    next => exact .pure ⟨rfl, rfl⟩
    next => exact .throw .refl rfl
  have hdrain {t : State}
      (hsummoned : t.withJobs { (s.jobs.make w).2 with waiting := [] } = s.summoned w) :
      TracedFrom ⟨⟨u, s⟩, due⟩
        (t.withJobs ((s.jobs.make w).2.submit s.jobs.jobs.size)) (do
          let _ ← drainJobs call .main
          let job := (← get).jobs.job s.jobs.jobs.size
          if job.finished then pure job.success else throw .stuck) fun _ => Scene.Has u due := by
    refine .bind (Q := fun _ => Scene.Has u due) ?_ ?_
    · unfold drainJobs
      refine .look (.first (.job (.summon w hw)) (congrArg (EStateM.Result.ok ()) hsummoned) ?_)
      exact (leads_runJobs hcall .main u _).first fun _ t => .pure ⟨rfl, rfl⟩
    · rintro _ ⟨⟨v, t⟩, l⟩ ⟨rfl, rfl⟩
      exact hanswer _ t _
  refine .part (a := s.jobs.jobs.size) rfl (.part rfl (.look ?_))
  dsimp only
  split
  next hpatience =>
    refine .part rfl (hdrain (t := s.record (.logged .warn longWaitMessage [])) ?_)
    unfold State.summoned
    rw [if_pos hpatience]
  next hpatience =>
    refine hdrain ?_
    unfold State.summoned
    rw [if_neg hpatience]

theorem leads_callOnGpuThread (u : List Activity) {w : Work} (hw : w.IsForeign) :
    Leads u (callOnGpuThread call thread w) u := by
  intro s due
  unfold callOnGpuThread
  split
  next => exact leads_doWork hcall .main u hw s due
  next => exact traced_summon hcall hw

end Running

end AssetLoading
