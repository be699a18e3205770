import AssetLoading.Proofs.Parts.Operations
import AssetLoading.Proofs.Unwinding.Tasks
import AssetLoading.Session

/-! # Scripts leave no claims unless they unwind

  Updates, waits and shutdown, every operation but the claim of a task on behalf of
  another thread, and scripts to any depth. After such a claim was answered the main
  thread is no longer on its own, and nothing more is said.
-/

namespace AssetLoading

variable {call : Runner}

/-- Outside of tasks any early end leaves no claims. -/
theorem Steady.stop {α : Type} (reason : Halt) :
    Steady true (MonadExcept.throw reason : Exec α) := by
  cases reason with
  | panic cause => exact .panic cause
  | _ => exact .throw nofun

/-! ### Tasks that are made or claimed -/

theorem steady_makeBody (body : TaskBody) : Steady true (makeBody body) :=
  .look fun _ => .bind (.apart fun _ => .of_eq rfl id rfl rfl rfl) fun _ => .pure _

theorem steady_enqueue (hcall : call.IsSteady) (thread : Thread) (t : Task) :
    Steady true (enqueue call thread t) := by
  intro s k hs
  show Tallied s k (some k) (enqueue call thread t)
  refine .look ?_
  dsimp only
  split
  next hclosed =>
    refine ((steady_log _ _ _).unwinding hs).bind fun _ r hsr _ => ?_
    refine tallied_freeBody_of_closed hcall thread _ _ ?_
    cases hr : r.closed with
    | true => rfl
    | false => exact absurd hclosed (by simp [hsr.closed hr])
  · split
    · exact Steady.unwinding (.bind (steady_modifyAsset _ _) fun _ => steady_acceptTask t) hs
    · exact (steady_acceptTask t).unwinding hs

/-- Code that claims a task, if there is one, and then uses up the claim. -/
theorem steady_acquiring {α : Type} {f : Option Entry → Exec α} (hnone : Steady true (f none))
    (hsome : ∀ (e : Entry) (s : State) (k : Outstanding), s.Owes (k.withClaim e.claim) →
      Tallied s k (some k) (f (some e))) : Steady true (acquireTask >>= f) := by
  intro s k hs
  show Tallied s k (some k) (acquireTask >>= f)
  cases hq : s.queue.acquire s.runnable with
  | none =>
    have hrun := acquireTask_of_eq_none hq
    have hstay : Tallied s k (some k) acquireTask :=
      .of_ok hrun (.refl s) fun ht => .rfl (hs ht).1 (hs ht).2
    refine hstay.follow fun found t hfound _ ht => ?_
    cases hrun.symm.trans hfound
    exact hnone.unwinding ht
  | some found =>
    obtain ⟨e, queue⟩ := found
    have hrun := acquireTask_of_eq_some hq
    have hclaim : Tallied s (k.withClaim e.claim) (some k) acquireTask := by
      refine .of_ok hrun ⟨List.suffix_rfl, id⟩ fun ht => ?_
      obtain ⟨hsound, hactive⟩ := hs (ht.of_precedes ⟨List.suffix_rfl, id⟩)
      obtain ⟨log, htraded⟩ := hsound.traded
      have htraded := htraded.acquire _ e hq
      obtain ⟨front, back, hpending, -, -, rfl⟩ := TaskQueue.acquire_eq_some hq
      refine ⟨⟨⟨_, htraded⟩, hsound.claims, hsound.jobs, ?_⟩, hactive.cons e.claim, [], rfl, .refl _⟩
      -- The task is counted with the claimed ones instead of the waiting ones.
      have hassets : s.queue.assets.Perm
          ((front ++ back).map (·.asset) ++ (e.claim :: s.queue.active).map (·.asset)) := by
        unfold TaskQueue.assets
        rw [hpending, List.perm_iff_count]
        intro h
        simp only [List.map_append, List.map_cons, List.count_append, List.count_cons, Entry.claim]
        omega
      exact hsound.refs.trans ((hassets.append_left _).append_left _)
    refine hclaim.follow fun found t hfound _ ht => ?_
    cases hrun.symm.trans hfound
    exact hsome e _ k ht

/-! ### Updates and waits -/

/-- What updates and waits are made of is steady. -/
theorem Steady.drivingParts (hcall : call.IsSteady) : DrivingParts (fun x => Steady true x) call where
  toComposes := Steady.composes true
  throw _ := Steady.stop _
  flush := (Steady.registryParts hcall).flush _
  drainJobs := steady_drainJobs hcall .main
  deliver := (Steady.noticeParts hcall).deliver .main
  turn thread := steady_acquiring (.pure _) fun _ _ _ hs =>
    (tallied_stepTask hcall hs thread).bind fun _ _ _ ht => .pure ht

/-! ### Shutdown -/

theorem State.Precedes.stays_closed {s t : State} (h : s.Precedes t) (hs : s.closed = true) :
    t.closed = true := by
  cases ht : t.closed with
  | true => rfl
  | false => exact absurd (h.closed ht) (by simp [hs])

theorem tallied_discardTask (hcall : call.IsSteady) (thread : Thread) {s : State}
    {k : Outstanding} (e : Entry) (hs : s.closed = true) :
    Tallied s k (some k) (discardTask call thread e) := by
  refine (tallied_freeBody_of_closed (k := k) hcall thread e.body e.asset hs).bind fun _ t hst ht => ?_
  refine ((steady_record rfl).unwinding ht).bind fun _ r htr _ => ?_
  have haided := State.Unaided.not_of_closed (htr.stays_closed (hst.stays_closed hs))
  exact tallied_releaseDeferred 0 (.of_aided haided)

theorem tallied_discardTasks (hcall : call.IsSteady) (thread : Thread) {s : State}
    {k : Outstanding} (es : List Entry) (hs : s.closed = true) :
    Tallied s k (some k) (discardTasks call thread es) := by
  induction es generalizing s with
  | nil => exact .pure (.of_aided (State.Unaided.not_of_closed hs))
  | cons e es ih =>
    exact (tallied_discardTask hcall thread e hs).bind fun _ t hst _ => ih (hst.stays_closed hs)

theorem tallied_lastSteps (hcall : call.IsSteady) {s : State} {k : Outstanding}
    (held : List (Nat × Entry)) (hs : s.closed = true) :
    Tallied s k (some k) (lastSteps call held) := by
  induction held generalizing s with
  | nil => exact .pure (.of_aided (State.Unaided.not_of_closed hs))
  | cons p held ih =>
    have howes : s.Owes (k.withClaim p.2.claim) := .of_aided (State.Unaided.not_of_closed hs)
    exact (tallied_stepTask hcall howes (.worker p.1)).bind fun _ t hst _ =>
      ih (hst.stays_closed hs)

theorem tallied_joinWorkers (hcall : call.IsSteady) {s : State} {k : Outstanding}
    (turns : List PartingTurn) (held : List (Nat × Entry)) (hs : s.closed = true) :
    Tallied s k (some k) (joinWorkers call turns held) := by
  induction turns generalizing s held with
  | nil => exact tallied_lastSteps hcall held hs
  | cons turn turns ih =>
    cases turn with
    | pump =>
      have howes : s.Owes k := .of_aided (State.Unaided.not_of_closed hs)
      exact ((steady_drainJobs hcall .main).unwinding howes).bind fun _ t hst _ =>
        ih held (hst.stays_closed hs)
    | step position =>
      unfold joinWorkers
      cases held[position]? with
      | none => exact ih held hs
      | some p =>
        have howes : s.Owes (k.withClaim p.2.claim) := .of_aided (State.Unaided.not_of_closed hs)
        exact (tallied_stepTask hcall howes (.worker p.1)).bind fun _ t hst _ =>
          ih (held.eraseIdx position) (hst.stays_closed hs)

/-- A change when others have helped, of which nothing is said. -/
theorem Tallied.of_change {α : Type} {s : State} {k : Outstanding} {g : State → State}
    {f : Unit → Exec α} (hs : ¬ s.Unaided) (hst : s.Precedes (g s))
    (hf : ¬ (g s).Unaided → Tallied (g s) k (some k) (f ())) :
    Tallied s k (some k) (modify g >>= f) := by
  have haided : ¬ (g s).Unaided := fun ht => hs (ht.of_precedes hst)
  exact (hf haided).resume rfl hst haided

theorem steady_shutdown (hcall : call.IsSteady) (thread : Thread) :
    Steady true (shutdown call thread) := by
  intro s k hs
  show Tallied s k (some k) (shutdown call thread)
  refine .look ?_
  dsimp only
  split
  · split
    · exact Steady.unwinding (.throw (fun _ h => nomatch h)) hs
    · exact Steady.unwinding (.throw (fun _ h => nomatch h)) hs
    · -- once closed, the rest of the shutdown works without any claim of its own
      have hend {t : State} (ht : t.closed = true) (es : List Entry) : Tallied t k (some k) (do
          discardTasks call .main es
          let _ ← drainJobs call .main
          let _ ← deliver call .main
          clearNotices call .main
          let _ ← flush call { thread := .main }
          let _ ← reportLeaks 0
          log .debug "Asset scheduler shutdown complete" []) := by
        refine (tallied_discardTasks hcall .main es ht).bind fun _ r _ hr => ?_
        have hparts := Steady.noticeParts hcall
        exact Steady.unwinding (.bind (steady_drainJobs hcall .main) fun _ =>
          .bind (hparts.deliver .main) fun _ => .bind (hparts.clearNotices .main) fun _ =>
          .bind (hparts.flush _) fun _ => .bind (hparts.reportLeaks 0) fun _ =>
          steady_log _ _ _) hr
      obtain ⟨held, queue, -, hclose⟩ := closeDown_run s
      let closed : State := ({ s with queue } : State).shutDown
      have hprecedes : s.Precedes closed := ⟨List.suffix_cons _ _, nofun⟩
      refine .look (Tallied.resume ?_ (Exec.bind_of_ok hclose) hprecedes
        (State.Unaided.not_of_closed rfl))
      refine (tallied_joinWorkers hcall s.turnsLeft held rfl).bind fun _ t hst _ => .look ?_
      have hclosed : t.closed = true := hst.stays_closed rfl
      refine .of_change (State.Unaided.not_of_closed hclosed) ⟨List.suffix_rfl, id⟩ fun haided => ?_
      split
      · refine Tallied.bind ((steady_log _ _ _).unwinding (.of_aided haided)) fun _ w hvw _ => ?_
        exact hend (hvw.stays_closed hclosed) _
      · refine hend ?_ _
        exact hclosed
  · exact .pure hs

/-! ### Operations -/

theorem steady_changeFiles (change : FileTree → Bool × FileTree) :
    Steady true (changeFiles change) := by
  intro s k hs
  have hapart (storage : Storage) : s.Apart { s with storage } := .of_eq rfl id rfl rfl rfl
  exact .of_ok rfl (hapart _).precedes ((hapart _).passes hs)

/-- Without claims of the client, none of them is advanced. -/
theorem tallied_stepClaim (hcall : call.IsSteady) (scope : Scope) (fuel : Nat) (label : String)
    {s : State} {k : Outstanding} (hs : s.Owes k) :
    Tallied s k (some k) (execute fuel call scope (.stepClaim label)) := by
  refine .look ?_
  split
  · exact .pure hs
  next e hlookup =>
    have haided : ¬ s.Unaided := by
      intro hun
      rw [(hs hun).1.claims] at hlookup
      cases hlookup
    refine .of_change haided ⟨List.suffix_rfl, id⟩ fun haided => ?_
    exact (tallied_stepTask hcall (.of_aided haided) scope.thread).bind fun _ t _ ht => .pure ht

/-- What operations that drive no tasks are made of is steady. -/
theorem Steady.operationParts (hcall : call.IsSteady) (fuel : Nat) (scope : Scope) (op : Op) :
    OperationParts (fun x => Steady true x) fuel call scope op where
  toComposes := Steady.composes true
  throw _ := Steady.stop _
  toRegistryOperations := (Steady.registryParts hcall).operations scope
  defer _ _ a := (Steady.countingParts true).releaseDeferred _ .client nofun a
  writeContents a kind f _ := steady_writeContents a kind f
  setOnDestroy _ kind _ _ a := steady_writeContents a kind _
  setState a state := steady_setState scope a state
  newRegistry code hop := by
    subst hop
    exact .look fun _ => .bind (.apart fun _ => .of_eq rfl id rfl rfl rfl) fun _ =>
      .bind (hcall _) fun _ => .look fun _ => .pure _
  client f hf := steady_modifyClient fun c => (hf c).1
  changeFiles change := steady_changeFiles change
  data b _ _ := steady_modifyBody b _
  gpuCall _ _ _ := steady_callOnGpuThread hcall scope.thread nofun
  subscribe _ label code _ a := (Steady.noticeParts hcall).subscribe scope.thread a label code
  unsubscribe := (Steady.noticeParts hcall).unsubscribe
  makeJob label code succeeds hop := by
    subst hop
    exact .bind (fun s k hs => tallied_makeJob hs fun _ => nofun) fun _ =>
      .bind (steady_modifyClient fun _ => rfl) fun _ => .pure _
  submitJob label hop := by
    subst hop
    refine .look fun s => ?_
    dsimp only
    split
    · exact .bind (steady_submitJob _) fun _ => .pure _
    · exact .pure _
  runJob _ _ j := steady_runJob hcall scope.thread j
  drainJobs _ := steady_drainJobs hcall scope.thread

/-- What operations are made of that drive tasks is steady, but for the claim of a task
on behalf of another thread. -/
theorem Steady.drivingOperationParts (hcall : call.IsSteady) (fuel : Nat) (scope : Scope) {op : Op}
    (hclaim : ∀ label wait, op ≠ .claim label wait) :
    DrivingOperationParts (fun x => Steady true x) fuel call scope op where
  toDrivingParts := Steady.drivingParts hcall
  enqueue plan _ a answer := .bind (steady_makeBody plan.body) fun _ =>
    .bind (steady_enqueue hcall scope.thread _) fun _ => .pure _
  client f hf := steady_modifyClient fun c => (hf c).1
  shutdown _ := steady_shutdown hcall scope.thread
  claim label wait hop := absurd hop (hclaim label wait)
  stepClaim label hop := by
    subst hop
    exact fun s k hs => tallied_stepClaim hcall scope fuel label hs
  estimate _ b _ := steady_modifyBody b _

/-- Every operation is steady, but for the claim of a task on behalf of another thread. -/
theorem steady_execute (hcall : call.IsSteady) (fuel : Nat) (scope : Scope) {op : Op}
    (hop : ∀ label wait, op ≠ .claim label wait) : Steady true (execute fuel call scope op) := by
  cases hdrives : op.drives with
  | false => exact (Steady.operationParts hcall fuel scope op).execute hdrives
  | true => exact (Steady.drivingOperationParts hcall fuel scope hop).execute hdrives

/-! ### Scripts -/

/-- A claim finds nothing, takes up a task, or waits for ever. -/
theorem claimTask_cases (wait : Bool) (s : State) : claimTask wait s = .ok none s ∨
    (∃ e queue, claimTask wait s = .ok (some e) { s with queue }) ∨
      claimTask wait s = .error .stuck s := by
  unfold claimTask
  rw [Exec.get_bind]
  split
  · exact .inl rfl
  · show EStateM.bind _ _ s = _ ∨ (∃ e queue, EStateM.bind _ _ s = _) ∨ EStateM.bind _ _ s = _
    unfold EStateM.bind
    cases hq : s.queue.acquire s.runnable with
    | none =>
      rw [acquireTask_of_eq_none hq]
      cases wait with
      | true => exact .inr (.inr rfl)
      | false => exact .inl rfl
    | some found =>
      rw [acquireTask_of_eq_some hq]
      exact .inr (.inl ⟨_, _, rfl⟩)

theorem execute_claim_cases (fuel : Nat) (scope : Scope) (label : String) (wait : Bool) (s : State) :
    (∃ reply t, execute fuel call scope (.claim label wait) s = .ok reply t ∧ s.Precedes t) ∨
      execute fuel call scope (.claim label wait) s = .error .stuck s := by
  show (∃ reply t, EStateM.bind (claimTask wait) _ s = .ok reply t ∧ _) ∨
    EStateM.bind (claimTask wait) _ s = _
  unfold EStateM.bind
  rcases claimTask_cases wait s with hrun | ⟨e, queue, hrun⟩ | hrun
  · rw [hrun]
    exact .inl ⟨_, _, rfl, .refl s⟩
  · rw [hrun]
    exact .inl ⟨_, _, rfl, List.suffix_rfl, id⟩
  · rw [hrun]
    exact .inr rfl

/-- Once a claim on behalf of another thread was answered, nothing more is said. -/
theorem steady_claim (fuel : Nat) (scope : Scope) (label : String) (wait : Bool)
    {f : Reply → Exec Bool} (hf : ∀ reply, Steady true (f reply)) :
    Steady true (execute fuel call scope (.claim label wait) >>= fun reply =>
      record (.answered (.claim label wait) reply) >>= fun _ => f reply) := by
  intro s k _
  show Tallied s k (some k) _
  rcases execute_claim_cases fuel scope label wait s with ⟨reply, t, hrun, hst⟩ | hrun
  · let told := t.record (.answered (.claim label wait) reply)
    have htold : s.Precedes told := hst.trans (t.precedes_record _)
    have haided : ¬ told.Unaided := fun h => h.unclaimed label wait reply List.mem_cons_self
    have hanswer : (execute fuel call scope (.claim label wait) >>= fun reply =>
        record (.answered (.claim label wait) reply) >>= fun _ => f reply) s = f reply told := by
      show EStateM.bind _ _ s = _
      unfold EStateM.bind
      rw [hrun]
      rfl
    exact ((hf reply).unwinding (.of_aided haided)).resume hanswer htold haided
  · have hwait : (execute fuel call scope (.claim label wait) >>= fun reply =>
        record (.answered (.claim label wait) reply) >>= fun _ => f reply) s = .error .stuck s := by
      show EStateM.bind _ _ s = _
      unfold EStateM.bind
      rw [hrun]
    unfold Tallied
    rw [hwait]
    trivial

theorem steady_runScript (hcall : call.IsSteady) (fuel : Nat) (scope : Scope) (code : Script) :
    Steady true (runScript fuel call scope code) := by
  induction code with
  | nil => exact .pure _
  | cons step rest ih =>
    have hrest (reply : Reply) : Steady true
        (if (step.must && reply.isFailure) = true then pure false else runScript fuel call scope rest) :=
      .ite (.pure _) ih
    unfold runScript
    by_cases hop : ∃ label wait, step.op = .claim label wait
    · obtain ⟨label, wait, hclaim⟩ := hop
      rw [hclaim]
      exact steady_claim fuel scope label wait hrest
    · have hop (label : String) (wait : Bool) (h : step.op = .claim label wait) : False :=
        hop ⟨label, wait, h⟩
      exact .bind (steady_execute hcall fuel scope hop) fun reply =>
        .bind (steady_record rfl) fun _ => hrest reply

theorem steady_runCallback (hcall : call.IsSteady) (fuel : Nat) (callback : Callback) :
    Steady true (runCallback fuel call callback) := by
  cases callback with
  | script scope code => exact steady_runScript hcall fuel scope code
  | destructor scope asset contents =>
    exact .bind (steady_getAsset asset) fun _ => .bind (steady_record rfl) fun _ =>
      .bind (steady_runScript hcall fuel scope _) fun _ =>
      .bind ((Steady.registryParts hcall).releaseDependencies scope _) fun _ => .pure _

/-- Client code is steady, to any depth. -/
theorem run_isSteady (fuel : Nat) : (run fuel).IsSteady := by
  induction fuel with
  | zero => exact fun _ => .throw nofun
  | succ fuel ih => exact steady_runCallback ih fuel

theorem steady_perform (fuel : Nat) (scope : Scope) {op : Op}
    (hop : ∀ label wait, op ≠ .claim label wait) : Steady true (op.perform fuel scope) :=
  steady_execute (run_isSteady fuel) fuel scope hop

end AssetLoading
