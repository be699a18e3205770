import AssetLoading.Proofs.Parts.Operations
import AssetLoading.Proofs.Threads.Tasks

/-! # Scripts keep the discipline

  Updates, waits and shutdown, every operation that clients have, and scripts of
  them to any depth.
-/

namespace AssetLoading

variable {p : Prop} {call : Runner}

/-! ### Tasks that are made or claimed -/

/-- A task is made for a body of its own. -/
theorem guarded_makeBody {s : State} (hs : p → s.Disciplined) {body : TaskBody}
    (hcode : p → ∀ code ∈ body.scripts, Script.Public code) :
    Guarded p s (makeBody body) fun b t => ∀ task : Task, task.body = b →
      task.affinities = body.outline.affinities → t.Knows task := by
  have hext : s.Extends { s with bodies := s.bodies.push body } := by
    refine .of_bodies List.suffix_rfl rfl fun b hb => ?_
    rw [State.body_push, if_neg (Nat.ne_of_lt hb)]
    refine ⟨?_, .refl _⟩
    show b < (s.bodies.push body).size
    rw [Array.size_push]
    exact Nat.lt_succ_of_lt hb
  refine .of_ok rfl (.of_jobs hext fun _ hj => ⟨hj, rfl⟩)
    (fun hp => (hs hp).pushBody hext (hcode hp)) fun _ task hbody haffinities => ⟨?_, ?_⟩
  · show task.body < (s.bodies.push body).size
    rw [hbody, Array.size_push]
    exact Nat.lt_succ_self _
  · rw [State.body_push, if_pos hbody]
    exact haffinities

theorem guarded_enqueue (hcall : call.IsGuarded p) {s : State} (hs : p → s.Disciplined)
    (thread : Thread) {t : Task} (ht : p → s.Knows t) :
    Guarded p s (enqueue call thread t) fun _ _ => True := by
  refine .look ?_
  dsimp only
  split
  · exact Keeps.guarded (.bind (keeps_log _ _ _) fun _ => keeps_freeBody hcall thread _ _) hs
  · split
    · have hload : Keeps p (modifyAsset t.asset fun a => { a with state := .loading }) :=
        keeps_modifyAsset t.asset fun _ => .of_eq rfl
      exact hload.first hs fun _ r hsr hr => guarded_acceptTask hr fun hp => (ht hp).extends hsr.grows
    · exact guarded_acceptTask hs ht

/-- Code goes on with the task that was claimed, if there is one. -/
theorem keeps_claiming {α : Type} {x : Exec (Option Entry)} {f : Option Entry → Exec α}
    (hx : ∀ s : State, (p → s.Disciplined) →
      Guarded p s x fun claimed t => ∀ e, claimed = some e → t.Knows e.toTask)
    (hnone : Keeps p (f none))
    (hsome : ∀ (e : Entry) (s : State), (p → s.Disciplined) → (p → s.Knows e.toTask) →
      Guarded p s (f (some e)) fun _ _ => True) : Keeps p (x >>= f) := by
  refine fun s hs => (hx s hs).bind fun claimed t _ ht hknown => ?_
  cases claimed with
  | none => exact hnone.guarded ht
  | some e => exact hsome e t ht fun hp => hknown hp e rfl

/-! ### Updates and waits -/

/-- What updates and waits are made of keeps the discipline. -/
theorem Keeps.drivingParts (hcall : call.IsGuarded p) : DrivingParts (fun x => Keeps p x) call where
  toComposes := Keeps.composes p
  throw _ := .throw _
  flush := (Keeps.registryParts hcall).flush _
  drainJobs := keeps_drainJobs hcall fun _ => rfl
  deliver := keeps_deliver hcall .main
  turn thread := keeps_claiming (fun _ => guarded_acquireTask) (.pure _) fun _ _ ht he =>
    (guarded_stepTask hcall ht thread he).bind fun _ _ _ hr _ => .pure hr fun _ => trivial

/-! ### Shutdown -/

/-- A change of nothing that stores anything. -/
theorem State.Quiet.of_flags {s : State} (closed : Bool) (workers : Nat) (queue : TaskQueue)
    (hqueue : queue.pending ⊆ s.queue.pending) : s.Quiet { s with closed, workers, queue } :=
  .of_eq rfl rfl rfl rfl (fun l hl _ hsub => ⟨l, hl, hsub⟩) hqueue (List.Subset.refl _)

/-- Whatever workers have in hand in the end is known. -/
theorem guarded_lastClaims (count : Nat) {held : List (Nat × Entry)} {s : State}
    (hs : p → s.Disciplined) (hheld : p → ∀ c ∈ held, s.Knows c.2.toTask) :
    Guarded p s (lastClaims count held) fun now t => ∀ c ∈ now, t.Knows c.2.toTask := by
  induction count generalizing held s with
  | zero => exact .pure hs hheld
  | succ count ih =>
    refine (guarded_acquireTask hs).bind fun claimed t hst ht hknown => ?_
    have hlater (hp : p) (c : Nat × Entry) (hc : c ∈ held) : t.Knows c.2.toTask :=
      (hheld hp c hc).extends hst.grows
    cases claimed with
    | none => exact .pure ht hlater
    | some e =>
      refine ih ht fun hp c hc => ?_
      rcases List.mem_cons.1 hc with rfl | hc
      · exact hknown hp e rfl
      · exact hlater hp c hc

theorem guarded_closeDown {s : State} (hs : p → s.Disciplined) :
    Guarded p s closeDown fun held t => ∀ c ∈ held, t.Knows c.2.toTask := by
  refine .look ((guarded_lastClaims _ hs fun _ _ hc => absurd hc List.not_mem_nil).bind
    fun held t _ ht hknown => ?_)
  have hflags (r : State) : r.Quiet { r with closed := true, workers := 0, queue := r.queue.close } :=
    .of_flags true 0 r.queue.close (List.Subset.refl _)
  -- the flags and the log line that goes with them
  have hshut : Keeps p (modify (·.shutDown) : Exec Unit) := by
    have hboth : Keeps p (do
        log .debug "Shutting down asset scheduler" []
        modify fun s : State => { s with closed := true, workers := 0, queue := s.queue.close }) :=
      .bind (keeps_log _ _ _) fun _ => .quiet hflags
    exact hboth
  exact hshut.first ht fun _ r htr hr =>
    .pure hr fun hp c hc => (hknown hp c hc).extends htr.grows

theorem guarded_lastSteps (hcall : call.IsGuarded p) {held : List (Nat × Entry)} {s : State}
    (hs : p → s.Disciplined) (hheld : p → ∀ c ∈ held, s.Knows c.2.toTask) :
    Guarded p s (lastSteps call held) fun _ _ => True := by
  induction held generalizing s with
  | nil => exact .pure hs fun _ => trivial
  | cons first held ih =>
    refine (guarded_stepTask hcall hs _ fun hp => hheld hp first List.mem_cons_self).bind
      fun _ t hst ht _ => ih ht fun hp c hc => ?_
    exact (hheld hp c (List.mem_cons_of_mem first hc)).extends hst.grows

/-- The main thread runs jobs while the workers advance what they have in hand. -/
theorem guarded_joinWorkers (hcall : call.IsGuarded p) (turns : List PartingTurn)
    {held : List (Nat × Entry)} {s : State} (hs : p → s.Disciplined)
    (hheld : p → ∀ c ∈ held, s.Knows c.2.toTask) :
    Guarded p s (joinWorkers call turns held) fun _ _ => True := by
  induction turns generalizing held s with
  | nil => exact guarded_lastSteps hcall hs hheld
  | cons turn turns ih =>
    cases turn with
    | pump =>
      exact (keeps_drainJobs hcall fun _ => rfl).first hs fun _ t hst ht =>
        ih ht fun hp c hc => (hheld hp c hc).extends hst.grows
    | step position =>
      unfold joinWorkers
      split
      · exact ih hs hheld
      next number e hfound =>
        have he : (number, e) ∈ held := List.mem_of_getElem? hfound
        refine (guarded_stepTask hcall hs _ fun hp => hheld hp _ he).bind fun _ t hst ht _ =>
          ih ht fun hp c hc => ?_
        exact (hheld hp c (List.mem_of_mem_eraseIdx hc)).extends hst.grows

theorem keeps_shutdown (hcall : call.IsGuarded p) (thread : Thread) :
    Keeps p (shutdown call thread) := by
  refine .look fun s => ?_
  split
  · split
    · exact .throw _
    · exact .throw _
    · -- what follows the closing of the scheduler, whichever log line comes before it
      have hend (es : List Entry) : Keeps p (do
          discardTasks call .main es
          let _ ← drainJobs call .main
          let _ ← deliver call .main
          clearNotices call .main
          let _ ← flush call { thread := .main }
          let _ ← reportLeaks 0
          log .debug "Asset scheduler shutdown complete" []) :=
        .bind (keeps_discardTasks hcall .main es) fun _ =>
          .bind (keeps_drainJobs hcall fun _ => rfl) fun _ => .bind (keeps_deliver hcall .main) fun _ =>
          .bind (keeps_clearNotices hcall .main) fun _ => .bind ((Keeps.registryParts hcall).flush _) fun _ =>
          .bind ((Keeps.countingParts p).reportLeaks 0) fun _ => keeps_log _ _ _
      refine .look fun s r hr => (guarded_closeDown hr).bind fun held r' _ hr' hheld => ?_
      refine (guarded_joinWorkers hcall s.turnsLeft hr' hheld).bind fun _ t _ ht _ => .look ?_
      refine (guarded_modifyQueue ht fun _ e he => absurd he List.not_mem_nil).bind fun _ r _ hr _ => ?_
      refine Keeps.guarded ?_ hr
      split
      · exact .bind (keeps_log _ _ _) fun _ => hend _
      · exact hend _
  · exact .pure _

/-! ### Operations -/

theorem keeps_changeFiles (change : FileTree → Bool × FileTree) : Keeps p (changeFiles change) := by
  intro s hs
  have hquiet (storage : Storage) : s.Quiet { s with storage } :=
    .of_eq rfl rfl rfl rfl (fun l hl _ hsub => ⟨l, hl, hsub⟩) (List.Subset.refl _) (List.Subset.refl _)
  exact .of_ok rfl (hquiet _).before (fun hp => (hs hp).quiet (hquiet _)) fun _ => trivial

theorem guarded_claimTask (wait : Bool) {s : State} (hs : p → s.Disciplined) :
    Guarded p s (claimTask wait) fun claimed t => ∀ e, claimed = some e → t.Knows e.toTask := by
  refine .look ?_
  split
  · exact .pure hs fun _ _ he => nomatch he
  · refine (guarded_acquireTask hs).bind fun claimed t _ ht hknown => ?_
    cases claimed with
    | some e => exact .pure ht hknown
    | none =>
      dsimp only
      split
      · exact .throw ht
      · exact .pure ht fun _ _ he => nomatch he

/-- A claim that is put under a label. -/
theorem guarded_putClaim {s : State} (hs : p → s.Disciplined) (label : String) {e : Entry}
    (he : p → s.Knows e.toTask) :
    Guarded p s (modifyClient fun c => { c with claims := c.claims.put label e }) fun _ _ => True := by
  refine guarded_modifyClient hs fun hp l hl => ?_
  rcases List.mem_cons.1 hl with rfl | hl
  · exact he hp
  · exact (hs hp).claims l (List.mem_filter.1 hl).1

/-- What operations that drive no tasks are made of keeps the discipline. -/
theorem Keeps.operationParts (hcall : call.IsGuarded p) (fuel : Nat) (scope : Scope) {op : Op}
    (hop : p → op.Public) : OperationParts (fun x => Keeps p x) fuel call scope op where
  toComposes := Keeps.composes p
  throw _ := .throw _
  toRegistryOperations := (Keeps.registryParts hcall).operations scope
  defer _ _ a := (Keeps.countingParts p).releaseDeferred _ .client nofun a
  writeContents a kind f hf := keeps_writeContents a kind fun _ c hc => (hf c).symm ▸ hc
  setOnDestroy ref kind code heq a := by
    subst heq
    exact keeps_writeContents a kind fun hp _ _ => (hop hp).code List.mem_cons_self
  setState a state := keeps_setState scope a state
  newRegistry code heq := by
    subst heq
    have hquiet (s : State) : s.Quiet { s with registries := s.registries.push {} } :=
      .of_eq rfl rfl rfl rfl (fun l hl _ hsub => ⟨l, hl, hsub⟩) (List.Subset.refl _) (List.Subset.refl _)
    exact .look fun _ => .bind (.quiet hquiet) fun _ =>
      .bind (hcall.keeps _ fun hp => (hop hp).code List.mem_cons_self) fun _ => .look fun _ => .pure _
  client f hf := keeps_modifyClient fun c => (hf c).1 ▸ List.Subset.refl _
  changeFiles change := keeps_changeFiles change
  data b _ f := keeps_modifyBody_data b fun body => ⟨f body.data, body.noted, body.reported, rfl⟩
  gpuCall code succeeds heq := by
    subst heq
    exact fun s hs => guarded_callOnGpuThread hcall hs scope.thread fun hp =>
      (hop hp).code List.mem_cons_self
  subscribe ref label code heq a := by
    subst heq
    exact keeps_subscribe hcall scope.thread a label fun hp => (hop hp).code List.mem_cons_self
  unsubscribe a id := keeps_unsubscribe a id
  makeJob label code succeeds heq := by
    subst heq
    exact .bind (fun s hs => guarded_makeJob hs fun hp => (hop hp).code List.mem_cons_self) fun _ =>
      .bind (keeps_modifyClient fun _ => List.Subset.refl _) fun _ => .pure _
  submitJob label heq := by
    subst heq
    refine .look fun s => ?_
    dsimp only
    split
    · exact .bind (keeps_submitJob _) fun _ => .pure _
    · exact .pure _
  runJob label heq j := by
    subst heq
    exact keeps_runJob hcall (fun hp => nomatch (hop hp).runsJobs_eq) j
  drainJobs heq := by
    subst heq
    exact keeps_drainJobs hcall fun hp => nomatch (hop hp).runsJobs_eq

/-- What operations that drive tasks are made of keeps the discipline. -/
theorem Keeps.drivingOperationParts (hcall : call.IsGuarded p) (fuel : Nat) (scope : Scope) {op : Op}
    (hop : p → op.Public) : DrivingOperationParts (fun x => Keeps p x) fuel call scope op where
  toDrivingParts := Keeps.drivingParts hcall
  enqueue plan heq a answer := by
    subst heq
    intro s hs
    have hmade : Guarded p s (makeBody plan.body) fun b t => ∀ task : Task, task.body = b →
        task.affinities = plan.body.outline.affinities → t.Knows task :=
      guarded_makeBody hs fun hp code hmem => (hop hp).code hmem
    refine hmade.bind fun b t _ ht hknows => ?_
    refine (guarded_enqueue hcall ht scope.thread fun hp => hknows hp _ rfl rfl).bind fun _ r _ hr _ => ?_
    exact .pure hr fun _ => trivial
  client f hf := keeps_modifyClient fun c => (hf c).1 ▸ List.Subset.refl _
  shutdown _ := keeps_shutdown hcall scope.thread
  claim label wait heq := by
    subst heq
    exact keeps_claiming (fun _ => guarded_claimTask wait) (.pure _) fun e t ht he =>
      (guarded_putClaim ht label he).bind fun _ r _ hr _ => .pure hr fun _ => trivial
  stepClaim label heq := by
    subst heq
    intro s hs
    refine .look ?_
    split
    · exact .pure hs fun _ => trivial
    next e hlookup =>
      obtain ⟨front, back, hclaims, -⟩ := List.lookup_eq_some_iff.1 hlookup
      have he (hp : p) : s.Knows e.toTask :=
        (hs hp).claims (label, e) (hclaims ▸ List.mem_append_right front List.mem_cons_self)
      refine (guarded_modifyClient hs fun hp l hl => ?_).bind fun _ t hst ht _ => ?_
      · exact (hs hp).claims l (List.mem_filter.1 hl).1
      · exact (guarded_stepTask hcall ht scope.thread fun hp => (he hp).extends hst.grows).bind
          fun _ r _ hr _ => .pure hr fun _ => trivial
  estimate complexity b _ :=
    keeps_modifyBody_data b fun body => ⟨body.data, some complexity, body.reported, rfl⟩

/-- Every operation that clients have keeps the discipline. -/
theorem keeps_execute (hcall : call.IsGuarded p) (fuel : Nat) (scope : Scope) {op : Op}
    (hop : p → op.Public) : Keeps p (execute fuel call scope op) := by
  cases hdrives : op.drives with
  | false => exact (Keeps.operationParts hcall fuel scope hop).execute hdrives
  | true => exact (Keeps.drivingOperationParts hcall fuel scope hop).execute hdrives

/-! ### Scripts -/

theorem keeps_runScript (hcall : call.IsGuarded p) (fuel : Nat) (scope : Scope) {code : Script}
    (hcode : p → Script.Public code) : Keeps p (runScript fuel call scope code) := by
  induction code with
  | nil => exact .pure _
  | cons step rest ih =>
    have hrest := ih fun hp d hd => hcode hp d (List.mem_cons_of_mem step hd)
    refine .bind (keeps_execute hcall fuel scope fun hp => hcode hp step List.mem_cons_self) fun reply =>
      .bind (keeps_record trivial) fun _ => ?_
    split
    · exact .pure _
    · exact hrest

theorem keeps_runCallback (hcall : call.IsGuarded p) (fuel : Nat) {callback : Callback}
    (h : p → callback.Public) : Keeps p (runCallback fuel call callback) := by
  cases callback with
  | script scope code => exact keeps_runScript hcall fuel scope h
  | destructor scope asset contents =>
    exact .bind (keeps_getAsset asset) fun _ => .bind (keeps_record trivial) fun _ =>
      .bind (keeps_runScript hcall fuel scope h) fun _ =>
      .bind ((Keeps.registryParts hcall).releaseDependencies scope _) fun _ => .pure _

/-- Client code keeps the discipline, to any depth. -/
theorem run_isGuarded (p : Prop) (fuel : Nat) : (run fuel).IsGuarded p := by
  induction fuel with
  | zero => exact ⟨⟨0, rfl⟩, fun _ _ => .throw _⟩
  | succ fuel ih => exact ⟨⟨fuel + 1, rfl⟩, fun _ h => keeps_runCallback ih fuel h⟩

theorem keeps_perform (fuel : Nat) (scope : Scope) {op : Op} (hop : p → op.Public) :
    Keeps p (op.perform fuel scope) :=
  keeps_execute (run_isGuarded p fuel) fuel scope hop

end AssetLoading
