import AssetLoading.Proofs.Run.Update

/-! # Tracing scripts

  Every operation, and with it all client code, does nothing but strides. The
  runner of client code is traced by induction on its fuel.
-/

namespace AssetLoading

/-! ### What operations change -/

theorem leads_modifyClient (u : List Activity) (f : Client → Client)
    (hf : ∀ c, (f c).claims = c.claims) : Leads u (modifyClient f) u :=
  fun s _ => .one (.plain (.client (f s.client) (hf s.client))) rfl ⟨rfl, rfl⟩

/-- What replacing contents comes to. -/
theorem writeContents_run (h : Handle) (kind : Kind) (f : Contents → Contents) (s : State) :
    writeContents h kind f s = match (s.asset h).contentsOf kind with
      | some c => .ok (some c) (s.modifyAsset h fun a => { a with contents := some (f c) })
      | none => .ok none s := by
  unfold writeContents
  show (match (s.asset h).contentsOf kind with
    | some c => _
    | none => _ : Exec (Option Contents)) s = _
  cases (s.asset h).contentsOf kind <;> rfl

/-- Contents that are there are replaced by others. -/
theorem leads_writeContents (u : List Activity) (h : Handle) (kind : Kind)
    (f : Contents → Contents) : Leads u (writeContents h kind f) u := by
  intro s due
  unfold writeContents
  refine .lookAsset ?_
  split
  next contents hcontents =>
    have hsome : (s.asset h).contents.isSome := by
      obtain ⟨hmem, -⟩ := Option.filter_eq_some_iff.1 hcontents
      rw [hmem]
      rfl
    exact .first (.asset (.write h (fun a => { a with contents := some (f contents) })
      ⟨rfl, hsome.symm⟩ rfl)) rfl (.pure ⟨rfl, rfl⟩)
  next => exact .pure ⟨rfl, rfl⟩

theorem leads_setState {u : List Activity} {scope : Scope} (hscope : scope.Admitted u) (h : Handle)
    (state : LoadState) : Leads u (setState scope h state) u :=
  fun _ _ => .one (.asset (.setState h state scope.body hscope.body)) rfl ⟨rfl, rfl⟩

theorem leads_changeFiles (u : List Activity) (change : FileTree → Bool × FileTree) :
    Leads u (changeFiles change) u := by
  intro s due
  unfold changeFiles
  refine .look ?_
  exact .first (.plain (.files { s.storage with tree := (change s.storage.tree).2 })) rfl
    (.pure ⟨rfl, rfl⟩)

/-- A task is claimed and still in hand. -/
theorem traced_claimTask (u : List Activity) (s : State) (due : List (List Subscription))
    (wait : Bool) :
    Traced ⟨⟨u, s⟩, due⟩ (claimTask wait) fun found =>
      Scene.Has (match found with
        | none => u
        | some e => .claimed e :: u) due := by
  unfold claimTask
  refine .look ?_
  split
  next => exact .pure ⟨rfl, rfl⟩
  next =>
    refine .bind (traced_acquireTask u s due) ?_
    rintro found ⟨⟨v, t⟩, l⟩ ⟨hv, rfl⟩
    cases found with
    | some e => exact .pure ⟨hv, rfl⟩
    | none =>
      dsimp only
      split
      next => exact .throw .refl rfl
      next => exact .pure ⟨hv, rfl⟩

/-! ### The data of a running task -/

/-- Code of a task changes the data of that task. -/
theorem leads_writeData {u : List Activity} {scope : Scope} (hscope : scope.Admitted u) {b : BodyId}
    (hb : scope.body = some b) (f : List Int → List Int) :
    Leads u (modifyBody b fun body => { body with data := f body.data }) u :=
  fun _ _ => .one (.body (.write b _ (hscope.body b hb) fun body => ⟨f body.data, rfl⟩)) rfl
    ⟨rfl, rfl⟩

section Running

variable {fuel : Nat} {call : Runner} (hcall : call.IsTraced) (scope : Scope)

include hcall

/-! ### Operations -/

/-- What operations do with the registry is nothing but strides. -/
theorem Leads.registryOperations {u : List Activity} (hscope : scope.Admitted u) :
    RegistryOperations (fun x => Leads u x u) call scope where
  findOrCreate := leads_findOrCreate hscope.registry
  createAsset := leads_createAsset hscope.registry
  findAddref id category _ _ := (traced_findAddref scope.registry id category).weaken
    fun _ _ hd => hd.1
  addref _ := leads_addref rfl
  release := leads_release hcall hscope.registry .client
  swapReference holder old new hholder := leads_swapReference hcall hscope.registry holder hholder old new
  rekey := leads_rekey hscope.registry
  reportLeaks := leads_reportLeaks u scope.registry
  flush := leads_flush hcall hscope.registry

/-- What operations that drive no tasks are made of does nothing but strides. Only the
submission of a job and a release that leaves destruction to the main thread have to
know where they are called. -/
theorem Leads.operationParts {u : List Activity} (hscope : scope.Admitted u) (op : Op)
    (hperform : u = [] ∨ .performing op ∈ u) :
    OperationParts (fun x => Leads u x u) fuel call scope op where
  toComposes := Leads.composes u
  throw := Leads.throw u
  toRegistryOperations := Leads.registryOperations hcall scope hscope
  defer ref hop a := by
    subst hop
    exact leads_releaseDeferred hscope.registry (hperform.imp_right fun h => ⟨ref, h⟩) a
  writeContents a kind f _ := leads_writeContents u a kind f
  setOnDestroy _ kind _ _ a := leads_writeContents u a kind _
  setState a state := leads_setState hscope a state
  newRegistry code hop := by
    subst hop
    intro s due
    refine .look (.first (.asset .newRegistry) rfl ?_)
    -- the code inside serves the new registry, which is the last one
    have hadmit : Scope.Admitted { scope with registry := s.registries.size }
        (.within s.registries.size :: u) :=
      ⟨(hscope.cons _).body, .inr List.mem_cons_self⟩
    refine (hcall.script _ _ _ hadmit).first fun ran t => ?_
    exact .turn (.asset (.leaveRegistry _)) (.look (.pure ⟨rfl, rfl⟩))
  client f hf := leads_modifyClient u f fun c => (hf c).1
  changeFiles change := leads_changeFiles u change
  data b hb f := leads_writeData hscope hb f
  gpuCall _ _ _ := leads_callOnGpuThread hcall scope.thread u trivial
  subscribe _ label code _ a := leads_subscribe hcall scope.thread u a label code
  unsubscribe a id := leads_unsubscribe u a id
  makeJob label code succeeds hop := by
    subst hop
    refine .bind (leads_makeJob u trivial) fun j => ?_
    exact .bind (leads_modifyClient u _ fun _ => rfl) fun _ => .pure u _
  submitJob label hop := by
    subst hop
    refine (Leads.get u).bind fun s => ?_
    split
    next j _ => exact (leads_submitJob (hperform.imp_right fun h => ⟨label, h⟩) j).bind fun _ => .pure u _
    next => exact .pure u _
  runJob _ _ j := leads_runJob hcall scope.thread (.outOfTurn u)
  drainJobs _ := leads_drainJobs hcall scope.thread u

/-- What operations that drive tasks are made of does nothing but strides. -/
theorem Leads.drivingOperationParts {u : List Activity} (op : Op)
    (hperform : u = [] ∨ .performing op ∈ u) :
    DrivingOperationParts (fun x => Leads u x u) fuel call scope op where
  toDrivingParts := Leads.drivingParts hcall u
  enqueue plan _ a answer s due := by
    refine .bind (traced_makeBody plan a) ?_
    -- the body is made before it is known whether the task is accepted
    rintro b ⟨⟨v, t⟩, l⟩ ⟨rfl, rfl⟩
    exact (leads_enqueue hcall scope.thread u _).first fun _ t => .pure ⟨rfl, rfl⟩
  client f hf := leads_modifyClient u f fun c => (hf c).1
  shutdown hop := by
    subst hop
    exact leads_shutdown hcall scope.thread hperform
  claim label wait hop := by
    subst hop
    refine fun s due => .bind (traced_claimTask u s due wait) ?_
    rintro found ⟨⟨v, t⟩, l⟩ ⟨hv, rfl⟩
    cases found with
    | none => exact .pure ⟨hv, rfl⟩
    | some e =>
      -- a claimed task stays claimed while the client has it
      obtain rfl : v = .claimed e :: u := hv
      have hshelve : MayShelve u := hperform.imp_right fun h => ⟨label, wait, h⟩
      exact .first (.task (.move (.shelve e label hshelve) (.ofEnd rfl rfl))) rfl (.pure ⟨rfl, rfl⟩)
  stepClaim label hop := by
    subst hop
    intro s due
    refine .look ?_
    split
    next => exact .pure ⟨rfl, rfl⟩
    next e he =>
      refine .first (.task (.move (.unshelve e label he) ⟨rfl, rfl, nofun, nofun⟩)) rfl ?_
      exact (leads_stepTask hcall scope.thread u e).first fun _ t => .pure ⟨rfl, rfl⟩
  estimate complexity b _ :=
    leads_modifyBody_estimate u b _ fun body => ⟨some complexity, body.reported, rfl⟩

/-- Every operation does nothing but strides. -/
theorem leads_execute {u : List Activity} (hscope : scope.Admitted u) (op : Op)
    (hperform : u = [] ∨ .performing op ∈ u) : Leads u (execute fuel call scope op) u := by
  cases hdrives : op.drives with
  | false => exact (Leads.operationParts hcall scope hscope op hperform).execute hdrives
  | true => exact (Leads.drivingOperationParts hcall scope op hperform).execute hdrives

/-! ### Client code -/

theorem leads_runScript {u : List Activity} (hscope : scope.Admitted u) (code : Script) :
    Leads u (runScript fuel call scope code) u := by
  induction code with
  | nil => exact .pure u true
  | cons step rest ih =>
    intro s due
    unfold runScript
    refine .turn (.plain (.perform step.op)) ?_
    have hperform : .performing step.op ∈ Activity.performing step.op :: u := List.mem_cons_self
    refine (leads_execute hcall scope (hscope.cons _) step.op (.inr hperform)).first
      fun reply t => ?_
    refine .first (.plain (.answer step.op reply)) rfl ?_
    split
    next => exact .pure ⟨rfl, rfl⟩
    next => exact ih _ due

/-- Client code does nothing but strides, if the code that it starts does. -/
theorem runCallback_isTraced : Runner.IsTraced (runCallback fuel call) where
  script scope code u hscope := leads_runScript hcall scope hscope code
  destructor scope h contents u s due c hscope hmoves hstride := by
    unfold runCallback
    refine .lookAsset (.first hstride rfl ?_)
    refine (leads_runScript hcall scope hscope _).first fun _ t => ?_
    exact (leads_releaseDependencies hcall hscope.registry _).first fun _ t => .pure ⟨rfl, rfl⟩

end Running

theorem run_isTraced (fuel : Nat) : (run fuel).IsTraced := by
  induction fuel with
  | zero =>
    exact ⟨fun _ _ _ _ _ _ => .throw .refl rfl, fun _ _ _ _ _ _ _ _ hmoves _ => .throw hmoves rfl⟩
  | succ fuel ih => exact runCallback_isTraced ih

end AssetLoading
