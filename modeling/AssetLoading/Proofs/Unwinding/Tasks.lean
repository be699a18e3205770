import AssetLoading.Proofs.Unwinding.Assets
import AssetLoading.Scheduler.Lifecycle

/-! # A claim goes where its task goes

  Advancing a task uses up its claim: the task is given back, or is done and drops
  its reference. In between run its callbacks, and these are the only places where
  the code of a task unwinds: everything else that advancing a task does returns, or
  stops the whole program.
-/

namespace AssetLoading

variable {call : Runner} {u : Bool}

/-! ### Callbacks -/

section Callbacks

variable {s t : State} {e : Entry} {b : BodyId} {i : Nat} {k : Outstanding} {start stop : Event}

/-- An event that tells of no reference of a task. -/
theorem State.Sound.record {refs : List Handle} (h : s.Sound refs) {e : Event}
    (he : taskRefsTaken [e] = [] ∧ taskRefsDropped [e] = []) : (s.record e).Sound refs := by
  refine ⟨h.traded, h.claims, h.jobs, ?_⟩
  have htaken : taskRefsTaken (e :: s.history) = taskRefsTaken [e] ++ taskRefsTaken s.history :=
    List.filterMap_append (l := [e])
  have hdropped : taskRefsDropped (e :: s.history) = taskRefsDropped [e] ++ taskRefsDropped s.history :=
    List.filterMap_append (l := [e])
  show (taskRefsTaken (e :: s.history)).Perm (taskRefsDropped (e :: s.history) ++ _)
  rw [htaken, hdropped, he.1, he.2]
  exact h.refs

theorem Event.noRef_of_starts? (h : start.starts? = some b) :
    taskRefsTaken [start] = [] ∧ taskRefsDropped [start] = [] := by
  cases start <;> first | exact ⟨rfl, rfl⟩ | cases h

theorem Event.noRef_of_returns? (h : stop.returns? = some b) :
    taskRefsTaken [stop] = [] ∧ taskRefsDropped [stop] = [] := by
  cases stop <;> first | exact ⟨rfl, rfl⟩ | cases h

/-- A callback that has returned was not cut short. -/
theorem State.Passes.returned (h : (s.record start).Passes k [] t)
    (hstart : start.starts? = some b ∧ start.returns? = none)
    (hstop : stop.starts? = none ∧ stop.returns? = some b) : s.Passes k [] (t.record stop) := by
  obtain ⟨new, hnew, hperm⟩ := h.callbacks
  refine ⟨h.sound.record (Event.noRef_of_returns? hstop.2), h.active, stop :: (new ++ [start]), ?_, ?_⟩
  · show stop :: t.history = stop :: (new ++ [start]) ++ s.history
    rw [hnew, List.cons_append, List.append_assoc]
    rfl
  · unfold callbacksStarted callbacksReturned at hperm ⊢
    rw [List.filterMap_cons_none hstop.1, List.filterMap_cons_some hstop.2, List.filterMap_append,
      List.filterMap_append, List.filterMap_cons_some hstart.1, List.filterMap_cons_none hstart.2]
    simp only [List.filterMap_nil, List.append_nil]
    exact (List.perm_append_singleton b _).trans (hperm.cons b)

/-- A callback that unwinds is cut short, and the claim on its task is left. -/
theorem State.Passes.cutShort {es : List Entry}
    (h : (s.record start).Passes (k.withClaim e.claim) es t)
    (hstart : start.starts? = some e.body ∧ start.returns? = none) : s.Passes k (e :: es) t := by
  obtain ⟨new, hnew, hperm⟩ := h.callbacks
  refine ⟨h.sound, h.active.trans List.perm_middle, new ++ [start], ?_, ?_⟩
  · rw [hnew, List.append_assoc]
    rfl
  · unfold callbacksStarted callbacksReturned at hperm ⊢
    rw [List.filterMap_append, List.filterMap_append, List.filterMap_cons_some hstart.1,
      List.filterMap_cons_none hstart.2]
    simp only [List.filterMap_nil, List.append_nil]
    exact (List.perm_append_singleton e.body _).trans (hperm.cons e.body)

/-- A callback of a claimed task. -/
theorem tallied_callback {α β : Type} {x : Exec α} {f : α → Exec β}
    (hs : s.Owes (k.withClaim e.claim)) (hx : Steady true x)
    (hstart : start.starts? = some e.body ∧ start.returns? = none)
    (hf : ∀ a t, ∃ b stop, f a t = .ok b (t.record stop) ∧
      stop.starts? = none ∧ stop.returns? = some e.body) :
    Tallied s (k.withClaim e.claim) (some k) (record start >>= fun _ => x >>= f) := by
  have hbegun := s.precedes_record start
  have hbegins : (s.record start).Owes (k.withClaim e.claim) := by
    intro ht
    obtain ⟨hsound, hactive⟩ := hs (ht.of_precedes hbegun)
    exact ⟨hsound.record (Event.noRef_of_starts? hstart.1), hactive⟩
  have hrun := hx (s.record start) _ hbegins
  have hbind : (record start >>= fun _ => x >>= f) s = EStateM.bind x f (s.record start) := rfl
  unfold Tallied at hrun ⊢
  rw [hbind]
  unfold EStateM.bind
  -- the callback returns and is closed, or unwinds and leaves its claim behind
  split at hrun
  next a t hx =>
    obtain ⟨b, stop, hstop, hevent⟩ := hf a t
    simp only [hx, hstop]
    have hended := t.precedes_record stop
    refine ⟨(hbegun.trans hrun.1).trans hended, fun ht => ?_⟩
    exact (hrun.2 (ht.of_precedes hended)).returned hstart hevent
  next cause t hx =>
    obtain ⟨hst, l, hl, hleft⟩ := hrun
    obtain rfl : k.withClaim e.claim = l := Option.some.inj hl
    simp only [hx]
    refine ⟨hbegun.trans hst, k, rfl, fun ht => ?_⟩
    obtain ⟨es, hes⟩ := hleft ht
    exact ⟨e :: es, hes.cutShort hstart⟩
  next reason t hreason hx =>
    simp only [hx]

variable (thread : Thread) (asset : Handle)

/-- An action of a claimed task. -/
theorem tallied_runAction (hcall : call.IsSteady) (hs : s.Owes (k.withClaim e.claim))
    (priority : Int32) :
    Tallied s (k.withClaim e.claim) (some k) (runAction call thread e.body i asset priority) := by
  refine ((steady_modifyBody e.body _).start hs).bind fun _ t _ ht => .look ?_
  dsimp only
  split
  · exact tallied_callback ht (hcall _) ⟨rfl, rfl⟩ fun ran r => ⟨_, _, rfl, rfl, rfl⟩
  · exact .pure ht

/-- The failure hook of a claimed task. -/
theorem tallied_runFailureHook (hcall : call.IsSteady) (hs : s.Owes (k.withClaim e.claim)) :
    Tallied s (k.withClaim e.claim) (some k) (runFailureHook call thread e.body asset) := by
  refine .look ?_
  dsimp only
  split
  · exact tallied_callback hs (hcall _) ⟨rfl, rfl⟩ fun ran r => ⟨_, _, rfl, rfl, rfl⟩
  · exact .pure hs

/-- The data of a claimed task is handed over to be freed. -/
theorem tallied_freeBody (hcall : call.IsSteady) (hs : s.Owes (k.withClaim e.claim)) :
    Tallied s (k.withClaim e.claim) (some k) (freeBody call thread e.body asset) := by
  refine .look (((steady_modifyBody e.body _).start hs).bind fun _ t _ ht => ?_)
  split
  · exact tallied_callback ht (hcall _) ⟨rfl, rfl⟩ fun ran r => ⟨_, _, rfl, rfl, rfl⟩
  · exact .pure ht

end Callbacks

theorem steady_takeNoted (b : BodyId) : Steady u (takeNoted b) :=
  .look fun _ => .bind (steady_modifyBody b _) fun _ => .pure _

theorem steady_takeReported (b : BodyId) : Steady u (takeReported b) :=
  .look fun _ => .bind (steady_modifyBody b _) fun _ => .pure _

/-! ### Code that others have helped with -/

/-- Of code that is started when others have helped, no more is said than that the
history goes on. -/
theorem Tallied.of_aided {α : Type} {s : State} {k k' left left' : Outstanding}
    {x : Exec α} (h : Tallied s k (some left) x) (hs : ¬ s.Unaided) :
    Tallied s k' (some left') x := by
  unfold Tallied at h ⊢
  split at h
  · exact ⟨h.1, fun ht => absurd (ht.of_precedes h.1) hs⟩
  · exact ⟨h.1, left', rfl, fun ht => absurd (ht.of_precedes h.1) hs⟩
  · trivial

/-- Code that has come to a state in which others have helped. -/
theorem Tallied.resume {α : Type} {s t : State} {k : Outstanding} {x y : Exec α}
    (h : Tallied t k (some k) x) (hrun : y s = x t) (hst : s.Precedes t) (ht : ¬ t.Unaided) :
    Tallied s k (some k) y := by
  unfold Tallied at h ⊢
  rw [hrun]
  split at h
  · exact ⟨hst.trans h.1, fun hr => absurd (hr.of_precedes h.1) ht⟩
  · exact ⟨hst.trans h.1, k, rfl, fun hr => absurd (hr.of_precedes h.1) ht⟩
  · trivial

/-- A task without a claim is freed only when the scheduler is shut down. -/
theorem tallied_freeBody_of_closed (hcall : call.IsSteady) {s : State} {k : Outstanding}
    (thread : Thread) (b : BodyId) (asset : Handle) (hs : s.closed = true) :
    Tallied s k (some k) (freeBody call thread b asset) := by
  let e : Entry := { (default : Entry) with body := b }
  have haided := State.Unaided.not_of_closed hs
  have hfree : Tallied s (k.withClaim e.claim) (some k) (freeBody call thread e.body asset) :=
    tallied_freeBody thread asset hcall (.of_aided haided)
  exact hfree.of_aided haided

/-! ### Jobs -/

theorem steady_submitJob (j : JobId) : Steady u (submitJob j) :=
  steady_modifyJobs fun _ h => h

/-- While the main thread is on its own, no job is made for an action. -/
theorem tallied_makeJob {s : State} {k : Outstanding} {left : Option Outstanding} {w : Work}
    (hs : s.Owes k) (hw : s.Unaided → ∀ b i asset priority, w ≠ .action b i asset priority) :
    Tallied s k left (makeJob w) := by
  have hst : s.Precedes { s with jobs := (s.jobs.make w).2 } := ⟨List.suffix_rfl, id⟩
  refine .of_ok rfl hst fun ht => ?_
  have hmade : s.Apart { s with jobs := (s.jobs.make w).2 } := by
    refine ⟨⟨[], rfl, by simp⟩, id, rfl, rfl, fun h j => ?_⟩
    show ∀ b i asset priority, ((s.jobs.make w).2.job j).work ≠ .action b i asset priority
    rw [JobQueue.job_make]
    split
    · exact hw (ht.of_precedes hst)
    · exact h j
  exact hmade.passes hs ht

/-- Work that is no action runs outside of any task. -/
theorem tallied_doWork (hcall : call.IsSteady) {s : State} {k : Outstanding} (hs : s.Owes k)
    (thread : Thread) {w : Work}
    (hw : s.Unaided → ∀ b i asset priority, w ≠ .action b i asset priority) :
    Tallied s k (some k) (doWork call thread w) := by
  cases w with
  | action b i asset priority =>
    have haided (hun : s.Unaided) : False := hw hun b i asset priority rfl
    let e : Entry := { (default : Entry) with body := b }
    have haction : Tallied s (k.withClaim e.claim) (some k)
        (runAction call thread e.body i asset priority) :=
      tallied_runAction thread asset hcall (.of_aided haided) priority
    have hrun : Tallied s k (some k) (runAction call thread b i asset priority) :=
      haction.of_aided haided
    refine hrun.bind fun ok t _ ht => ?_
    refine Steady.unwinding (.bind (steady_takeNoted b) fun noted => ?_) ht
    split
    · exact .bind (steady_modifyBody b _) fun _ => .pure _
    · exact .pure _
  | call asset code ok =>
    exact Steady.unwinding (.bind (steady_record rfl) fun _ => .bind (hcall _) fun _ =>
      .pure _) hs
  | custom label code ok => exact Steady.unwinding (.bind (hcall _) fun _ => .pure _) hs

theorem steady_runJob (hcall : call.IsSteady) (thread : Thread) (j : JobId) :
    Steady true (runJob call thread j) := by
  have hmark {f : Job → Job} (hf : ∀ job, (f job).work = job.work) :
      Steady true (modifyJobs (·.modify j f)) := by
    refine steady_modifyJobs fun q h i => ?_
    rw [JobQueue.job_modify]
    split
    · rw [hf]
      exact h i
    · exact h i
  intro s k hs
  show Tallied s k (some k) (runJob call thread j)
  refine .look ?_
  dsimp only
  split
  · have hstart := hmark (f := fun job => { job with started := true }) fun _ => rfl
    refine (hstart.unwinding hs).bind fun _ t hst ht => ?_
    refine ((steady_record rfl).unwinding ht).bind fun _ r htr hr => ?_
    have hwork (hun : r.Unaided) : ∀ b i asset priority,
        (s.jobs.job j).work ≠ .action b i asset priority :=
      (hs (hun.of_precedes (hst.trans htr))).1.jobs j
    refine (tallied_doWork hcall hr thread hwork).bind fun ok v _ hv => ?_
    have hfinish := hmark (f := fun job => { job with success := ok, finished := true }) fun _ => rfl
    exact Steady.unwinding (.bind hfinish fun _ => steady_record rfl) hv
  · exact .pure hs

theorem steady_runJobs (hcall : call.IsSteady) (thread : Thread) (js : List JobId) :
    Steady true (runJobs call thread js) := by
  induction js with
  | nil => exact .pure _
  | cons j js ih => exact .bind (steady_runJob hcall thread j) fun _ => ih

theorem steady_drainJobs (hcall : call.IsSteady) (thread : Thread) :
    Steady true (drainJobs call thread) :=
  .look fun _ => .bind (steady_modifyJobs fun _ h => h) fun _ =>
    .bind (steady_runJobs hcall thread _) fun _ => .pure _

theorem steady_callOnGpuThread (hcall : call.IsSteady) (thread : Thread) {w : Work}
    (hw : ∀ b i asset priority, w ≠ .action b i asset priority) :
    Steady true (callOnGpuThread call thread w) := by
  have hdrain (j : JobId) : Steady true (do
      let _ ← drainJobs call .main
      let job := (← get).jobs.job j
      if job.finished then pure job.success else throw .stuck) := by
    refine .bind (steady_drainJobs hcall .main) fun _ => .look fun s => ?_
    exact .ite (.pure _) (.throw nofun)
  unfold callOnGpuThread
  split
  · exact fun s k hs => tallied_doWork hcall hs .main fun _ => hw
  · refine .bind (fun s k hs => tallied_makeJob hs fun _ => hw) fun j =>
      .bind (steady_submitJob j) fun _ => .look fun s => ?_
    dsimp only
    split
    · exact .bind (steady_log _ _ _) fun _ => hdrain j
    · exact hdrain j

/-! ### The life of a task -/

section Life

variable {s : State} {e : Entry} {h : Handle} {k : Outstanding} {left : Option Outstanding}

/-- A change of the queue, with what is outstanding before and after. -/
theorem tallied_modifyQueue {f : TaskQueue → TaskQueue} {l : Outstanding} (hs : s.Owes l)
    (hf : s.Sound l.refs → s.queue.active.Perm l.claims →
      (∃ log, TaskQueue.Traded (f s.queue) log) ∧ (f s.queue).active.Perm k.claims ∧
        (l.refs ++ s.queue.assets).Perm (k.refs ++ (f s.queue).assets)) :
    Tallied s k left (modifyQueue f) := by
  have hst : s.Precedes { s with queue := f s.queue } := ⟨List.suffix_rfl, id⟩
  refine .of_ok rfl hst fun ht => ?_
  obtain ⟨hsound, hactive⟩ := hs (ht.of_precedes hst)
  obtain ⟨htraded, hclaims, hrefs⟩ := hf hsound hactive
  refine ⟨⟨htraded, hsound.claims, hsound.jobs, ?_⟩, hclaims, [], rfl, .refl _⟩
  exact hsound.refs.trans (hrefs.append_left _)

/-- A claimed task is the only one that leaves the claimed tasks. -/
theorem State.Sound.active_perm {refs : List Handle} (hsound : s.Sound refs)
    (hactive : s.queue.active.Perm (k.withClaim e.claim).claims) :
    e.id ∈ s.queue.active.map Claimed.id ∧
      s.queue.active.Perm (e.claim :: TaskQueue.without s.queue.active e.id) := by
  obtain ⟨log, htraded⟩ := hsound.traded
  have hmem : e.claim ∈ s.queue.active := hactive.mem_iff.2 List.mem_cons_self
  have hids := (List.nodup_append.1 htraded.agreesWith.nodup_ids).2.1
  exact ⟨List.mem_map.2 ⟨e.claim, hmem, rfl⟩, TaskQueue.perm_without hids hmem⟩

/-- A task that is given back keeps its reference. -/
theorem tallied_giveBack (hs : s.Owes (k.withClaim e.claim)) {d : Entry} (hd : d.claim = e.claim) :
    Tallied s k left (modifyQueue (·.giveBack d)) := by
  refine tallied_modifyQueue hs fun hsound hactive => ?_
  obtain ⟨log, htraded⟩ := hsound.traded
  rw [← hd] at hactive
  obtain ⟨hmem, hperm⟩ := hsound.active_perm hactive
  refine ⟨⟨_, htraded.giveBack d hmem⟩, (hperm.symm.trans hactive).cons_inv, ?_⟩
  refine List.Perm.append_left _ (((hperm.map (·.asset)).append_left _).trans ?_)
  exact List.perm_middle

/-- A task that is done has still to drop its reference. -/
theorem tallied_finish (hs : s.Owes (k.withClaim e.claim)) :
    Tallied s (k.withRef e.asset) left (modifyQueue (·.finish e.id)) := by
  refine tallied_modifyQueue hs fun hsound hactive => ?_
  obtain ⟨log, htraded⟩ := hsound.traded
  obtain ⟨hmem, hperm⟩ := hsound.active_perm hactive
  refine ⟨⟨_, htraded.finish e.id hmem⟩, (hperm.symm.trans hactive).cons_inv, ?_⟩
  have hassets : s.queue.assets.Perm (e.asset :: (s.queue.finish e.id).assets) :=
    ((hperm.map (·.asset)).append_left _).trans List.perm_middle
  exact (hassets.append_left _).trans List.perm_middle

/-- A task that is queued has the reference that was taken for it. -/
theorem tallied_push (t : Task) (hs : s.Owes (k.withRef t.asset)) :
    Tallied s k left (modifyQueue fun _ => (s.queue.push t).2) := by
  refine tallied_modifyQueue hs fun hsound hactive => ?_
  obtain ⟨log, htraded⟩ := hsound.traded
  refine ⟨⟨_, htraded.push t⟩, hactive, ?_⟩
  obtain ⟨front, back, hpending, -, hpush⟩ := s.queue.push_pending t
  have hassets : (s.queue.push t).2.assets.Perm (t.asset :: s.queue.assets) := by
    unfold TaskQueue.assets
    rw [hpush, hpending, List.map_append, List.map_append, List.append_assoc, List.append_assoc]
    exact List.perm_middle
  exact (hassets.append_left k.refs).trans List.perm_middle |>.symm

/-- A reference is taken for a task. -/
theorem tallied_take (hs : s.Owes k) : Tallied s (k.withRef h) left (take .task h) := by
  refine ((steady_modifyAsset h _).start hs).bind fun _ t _ ht => ?_
  have hst := t.precedes_record (.took .task h)
  refine .of_ok rfl hst fun hr => ?_
  obtain ⟨hsound, hactive⟩ := ht (hr.of_precedes hst)
  refine ⟨⟨hsound.traded, hsound.claims, hsound.jobs, ?_⟩, hactive, [.took .task h], rfl, .refl _⟩
  exact (hsound.refs.cons h).trans List.perm_middle.symm

theorem tallied_addref (hs : s.Owes k) : Tallied s (k.withRef h) left (addref .task h) := by
  refine .look ?_
  dsimp only
  split
  · trivial
  split
  · refine ((steady_record rfl).start hs).bind fun _ t _ ht => ?_
    exact (tallied_take ht).bind fun _ r _ hr => (steady_log _ _ _).start hr
  · exact tallied_take hs

/-- A reference of a task is dropped. -/
theorem tallied_releaseDeferred (r : RegistryId) (hs : s.Owes (k.withRef h)) :
    Tallied s k left (releaseDeferred r .task h) := by
  have hdrop : Tallied s k left (dropRef .task h) := by
    refine ((steady_modifyAsset h _).start hs).bind fun _ t _ ht => ?_
    have hst := t.precedes_record (.dropped .task h)
    have hdropped : Tallied t k left (record (.dropped .task h)) := by
      refine .of_ok rfl hst fun hr => ?_
      obtain ⟨hsound, hactive⟩ := ht (hr.of_precedes hst)
      refine ⟨⟨hsound.traded, hsound.claims, hsound.jobs, ?_⟩, hactive, [.dropped .task h], rfl, .refl _⟩
      exact hsound.refs.trans List.perm_middle
    refine hdropped.bind fun _ q _ hq => ((steady_getAsset h).start hq).bind fun a v _ hv => ?_
    split
    · trivial
    · exact .pure hv
  refine hdrop.bind fun refs t _ ht => ?_
  split
  · exact (steady_modifyRegistry r _).start ht
  · exact .pure ht

/-- A task is accepted with a reference. -/
theorem steady_acceptTask (t : Task) : Steady u (acceptTask t) := by
  intro s k hs
  refine (tallied_addref hs).bind fun _ r _ hr => .look ?_
  dsimp only
  refine ((steady_log _ _ _).start hr).follow fun _ q hrun _ hq => ?_
  cases hrun
  refine (tallied_push t hq).bind fun _ v _ hv => ?_
  exact (steady_record rfl).start hv

/-- The end of a task uses up its claim and its reference. -/
theorem tallied_completeTask (hcall : call.IsSteady) (hs : s.Owes (k.withClaim e.claim))
    (thread : Thread) : Tallied s k (some k) (completeTask call thread e) := by
  have hend (a : Asset) {t : State} (ht : t.Owes (k.withClaim e.claim)) :
      Tallied t k (some k) (do
        log .debug "Asset task complete"
          [("asset", .text a.displayName), ("state", .text a.state.debug)]
        modifyQueue (·.finish e.id)
        record (.completed e.id)
        releaseDeferred 0 .task e.asset) := by
    refine ((steady_log _ _ _).start ht).bind fun _ r _ hr => ?_
    refine (tallied_finish hr).bind fun _ v _ hv => ?_
    refine ((steady_record rfl).start hv).bind fun _ w _ hw => ?_
    exact tallied_releaseDeferred 0 hw
  refine (tallied_freeBody thread e.asset hcall hs).bind fun _ t _ ht => ?_
  refine ((steady_getAsset e.asset).start ht).bind fun a r _ hr => ?_
  dsimp only
  split
  · exact ((steady_stage e.asset).start hr).bind fun _ v _ hv => hend a hv
  · exact hend a hr

/-- A failure leaves the task claimed. -/
theorem tallied_failTask (hcall : call.IsSteady) (hs : s.Owes (k.withClaim e.claim))
    (thread : Thread) : Tallied s (k.withClaim e.claim) (some k) (failTask call thread e) := by
  have hend {t : State} (ht : t.Owes (k.withClaim e.claim)) :
      Tallied t (k.withClaim e.claim) (some k) (do
        let a ← getAsset e.asset
        log .warn "Asset load action failed"
          [("asset", .text a.displayName), ("ty", .text a.category.name),
            ("action", .number e.cursor), ("state", .text a.state.debug)]
        runFailureHook call thread e.body e.asset) := by
    refine ((steady_getAsset e.asset).start ht).bind fun a r _ hr => ?_
    refine ((steady_log _ _ _).start hr).bind fun _ v _ hv => ?_
    exact tallied_runFailureHook thread e.asset hcall hv
  refine ((steady_getAsset e.asset).start hs).bind fun a t _ ht => ?_
  dsimp only
  split
  · exact ((steady_modifyAsset e.asset _).start ht).bind fun _ r _ hr => hend hr
  · exact hend ht

theorem tallied_takeOutcome (hcall : call.IsSteady) (hs : s.Owes (k.withClaim e.claim))
    (thread : Thread) (succeeded : Bool) :
    Tallied s k (some k) (takeOutcome call thread e succeeded) := by
  unfold takeOutcome
  split
  · dsimp only
    split
    · exact tallied_completeTask (e := { e with cursor := e.cursor + 1 }) hcall hs thread
    · exact tallied_giveBack hs rfl
  · refine (tallied_failTask hcall hs thread).bind fun _ t _ ht => ?_
    exact tallied_completeTask (e := e.abort) hcall ht thread

/-- Advancing a task uses up its claim, unless one of its callbacks is cut short. -/
theorem tallied_stepTask (hcall : call.IsSteady) (hs : s.Owes (k.withClaim e.claim))
    (thread : Thread) : Tallied s k (some k) (stepTask call thread e) := by
  have hstepped : Tallied s (k.withClaim e.claim) (some k) (record (.stepped e.id (thread == .main))) :=
    (steady_record rfl).start hs
  refine hstepped.follow fun _ t hrun _ ht => ?_
  split
  · exact tallied_completeTask hcall ht thread
  next affinity hcurrent =>
    split
    next hgpu =>
      -- Off the GPU thread the main thread is not on its own, and nothing is said.
      have haided : ¬ t.Unaided := by
        intro hun
        cases hrun
        refine hun.onGpu e.id ?_
        have hoff : (thread == .main) = false := by simpa using hgpu.2
        rw [hoff]
        exact List.mem_cons_self
      split
      · refine (tallied_makeJob ht fun hun => absurd hun haided).bind fun j r _ hr => ?_
        refine ((steady_submitJob j).start hr).bind fun _ q _ hq => ?_
        exact tallied_giveBack (e := e) hq rfl
      next j hjob =>
        refine .look ?_
        dsimp only
        split
        · refine ((steady_takeReported e.body).start ht).bind fun complexity r _ hr => ?_
          let collected : Entry := { e with job := none }.withComplexity complexity
          have hclaim : collected.claim = e.claim := rfl
          exact tallied_takeOutcome (e := collected) hcall (hclaim ▸ hr) thread (t.jobs.job j).success
        · exact tallied_giveBack ht rfl
    next hgpu =>
      refine (tallied_runAction thread e.asset hcall ht e.priority).bind fun ok r _ hr => ?_
      refine ((steady_takeNoted e.body).start hr).bind fun complexity q _ hq => ?_
      exact tallied_takeOutcome (e := e.withComplexity complexity) hcall hq thread ok

end Life

end AssetLoading
