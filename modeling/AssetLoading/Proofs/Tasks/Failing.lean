import AssetLoading.Proofs.Notices.Loads
import AssetLoading.Proofs.References.Lifetime
import AssetLoading.Proofs.Relations.Logic
import AssetLoading.Proofs.Tasks.Hooks

/-! # Tasks that fail

  The step that takes in the failure of an action brings its task to the end. It leaves
  the asset in an error state, runs the failure hook, frees the data, and completes the
  task, whose reference is dropped. Both hooks are client code. If one of them sets the
  asset to loaded a load is staged after all, and in no other case.

  It makes no difference which action failed, and whether it ran in this step or as a job
  that somebody else ran.
-/

namespace AssetLoading

/-! ### Taking in an outcome -/

/-- The step of a claimed task takes in an outcome of the action at the cursor, which
leaves a state in which nothing was done about it. -/
inductive TakesIn (call : Runner) (thread : Thread) (e : Entry) (s : State) : Bool → State → Prop where
  /-- The action runs in this step. -/
  | ran {affinity : Affinity} {ok : Bool} {complexity : Option Int32} {r m : State}
      (haffinity : e.currentAffinity = some affinity) (hhere : affinity = .gpu → thread = .main)
      (hrun : runAction call thread e.body e.cursor e.asset e.priority
        (s.record (.stepped e.id (thread == .main))) = .ok ok r)
      (hnoted : takeNoted e.body r = .ok complexity m) : TakesIn call thread e s ok m
  /-- The action ran as a job that has finished. -/
  | collected {j : JobId} {complexity : Option Int32} {m : State}
      (haffinity : e.currentAffinity = some .gpu) (hthere : thread ≠ .main)
      (hjob : e.job = some j) (hfinished : (s.jobs.job j).finished = true)
      (hreported : takeReported e.body (s.record (.stepped e.id (thread == .main))) =
        .ok complexity m) : TakesIn call thread e s (s.jobs.job j).success m

/-- What is left to do for a step is to deal with the outcome. The entry has forgotten its
job and may have a new cost estimate. -/
theorem TakesIn.concludes {fuel : Nat} {thread : Thread} {e : Entry} {s m : State} {ok : Bool}
    (h : TakesIn (run fuel) thread e s ok m) :
    ∃ complexity job,
      stepTask (run fuel) thread e s =
        takeOutcome (run fuel) thread { e with complexity, job } ok m ∧
      ∀ u due, Strides ⟨⟨.claimed e :: u, s⟩, due⟩
        ⟨⟨.concluding { e with complexity, job } ok :: u, m⟩, due⟩ := by
  have hstep (u : List Activity) (due : List (List Subscription)) :
      Strides ⟨⟨.claimed e :: u, s⟩, due⟩
        ⟨⟨.stepping e (thread == .main) :: u, s.record (.stepped e.id (thread == .main))⟩, due⟩ :=
    .single (.task (.move (.step e (thread == .main)) ⟨rfl, rfl, nofun, nofun⟩))
  have hstepped : record (.stepped e.id (thread == .main)) s =
      .ok () (s.record (.stepped e.id (thread == .main))) := rfl
  -- the outcome comes from the action that ran here, or from the job that ran it elsewhere
  cases h with
  | @ran affinity ok complexity r m haffinity hhere hrun hnoted =>
    refine ⟨complexity.getD e.complexity, e.job, ?_, fun u due => (hstep u due).trans ?_⟩
    · have hnot : ¬ (affinity = .gpu ∧ thread ≠ .main) := fun h => h.2 (hhere h.1)
      unfold stepTask
      rw [Exec.bind_of_ok hstepped, haffinity]
      dsimp only
      rw [if_neg hnot, Exec.bind_of_ok hrun, Exec.bind_of_ok hnoted]
      rfl
    · have hmay : (Activity.stepping e (thread == .main)).MayAct e.body e.cursor (thread == .main) :=
        ⟨rfl, rfl, rfl, affinity, haffinity, fun hgpu => beq_iff_eq.2 (hhere hgpu)⟩
      refine .trans (Traced.strides (traced_runAction (run_isTraced fuel) thread e.body e.asset
        e.priority hmay) hrun) (((leads_takeNoted _ e.body).strides hnoted due).tail ?_)
      exact .task (.move (.reckon e ok complexity) ⟨rfl, rfl, nofun, nofun⟩)
  | @collected j complexity m haffinity hthere hjob hfinished hreported =>
    have hjobs : m.jobs = s.jobs := (EStateM.Result.ok.inj hreported).2 ▸ rfl
    refine ⟨complexity.getD e.complexity, none, ?_, fun u due => (hstep u due).trans ?_⟩
    · unfold stepTask
      rw [Exec.bind_of_ok hstepped, haffinity]
      dsimp only
      rw [if_pos ⟨rfl, hthere⟩, hjob]
      show (if (s.jobs.job j).finished = true then _ else _ : Exec Unit) _ = _
      rw [if_pos hfinished, Exec.bind_of_ok hreported]
      rfl
    · have hcollect : Stride ⟨⟨.stepping e false :: u, m⟩, due⟩
          ⟨⟨.concluding (e.collected complexity) (m.jobs.job j).success :: u, m⟩, due⟩ :=
        .task (.move (.collect e j complexity haffinity hjob (hjobs.symm ▸ hfinished))
          ⟨rfl, rfl, nofun, nofun⟩)
      rw [hjobs] at hcollect
      rw [beq_eq_false_iff_ne.2 hthere]
      rw [beq_eq_false_iff_ne.2 hthere] at hreported
      exact ((leads_takeReported _ e.body).strides hreported due).tail hcollect

/-! ### Noting a failure -/

/-- The state that a failure leaves an asset in: an error state stays as it is. -/
def LoadState.afterFailure (state : LoadState) : LoadState :=
  if state.isError then state else .error

theorem LoadState.isError_afterFailure (state : LoadState) : state.afterFailure.isError = true := by
  cases state <;> rfl

theorem LoadState.isLoaded_iff {state : LoadState} : state.isLoaded = true ↔ state = .loaded := by
  cases state <;> decide

/-- The state in which the failure hook of a task gets to run: the asset is in an error
state and the failure was logged. -/
def State.failureNoted (s : State) (e : Entry) : State :=
  let t := if (s.asset e.asset).state.isError then s
    else s.modifyAsset e.asset fun a => { a with state := .error }
  t.record (.logged .warn "Asset load action failed"
    [("asset", .text (t.asset e.asset).displayName),
      ("ty", .text (t.asset e.asset).category.name), ("action", .number e.cursor),
      ("state", .text (t.asset e.asset).state.debug)])

section Noting

variable (s : State) (e : Entry)

theorem body_failureNoted (b : BodyId) : (s.failureNoted e).body b = s.body b := by
  unfold State.failureNoted
  split <;> rfl

/-- The hook finds the asset in an error state. -/
theorem state_failureNoted (hknown : e.asset < s.assets.size) :
    ((s.failureNoted e).asset e.asset).state = (s.asset e.asset).state.afterFailure := by
  unfold LoadState.afterFailure
  show (State.asset (if (s.asset e.asset).state.isError then s else _) e.asset).state = _
  split
  · rfl
  · rw [State.asset_modifyAsset, if_pos ⟨rfl, hknown⟩]

theorem strides_failureNoted (u : List Activity) (due : List (List Subscription)) :
    Strides ⟨⟨.concluding e false :: u, s⟩, due⟩
      ⟨⟨.concluding e false :: u, s.failureNoted e⟩, due⟩ := by
  unfold State.failureNoted
  split
  · exact .single (.plain (.note _ trivial))
  · exact .tail (.single (.asset (.fail e))) (.plain (.note _ trivial))

theorem failTask_eq (call : Runner) (thread : Thread) :
    failTask call thread e s =
      runFailureHook call thread e.body e.asset (s.failureNoted e) := by
  unfold failTask
  show (if (!(s.asset e.asset).state.isError) = true then _ else _ : Exec Unit) s = _
  unfold State.failureNoted
  cases (s.asset e.asset).state.isError <;> rfl

end Noting

/-! ### How an asset comes to be loaded -/

section Loading

variable {m n : Moment} {c d : Scene} {k : Handle}

theorem AssetStride.loaded_or (h : AssetStride m n) (hloaded : (n.state.asset k).state = .loaded) :
    (m.state.asset k).state = .loaded ∨
      ∃ body, n.state.history = .stateSet k .loaded body :: m.state.history := by
  cases h with
  | take holder h => exact .inl (state_referenced _ holder h k ▸ hloaded)
  | drop holder h => exact .inl (state_dropped _ holder h k ▸ hloaded)
  | defer r h => exact .inl (state_letGo _ r .client h k ▸ hloaded)
  | @expire m u s h c hfalls =>
    have hsame : ((s.expired h c).asset k).state = (s.asset k).state := state_modifyAsset fun _ => rfl
    exact .inl (hfalls.state_eq k ▸ hsame ▸ hloaded)
  | @again m u s h hfalls =>
    have hsame : ((s.modifyAsset h fun a => { a with destroyed := true }).asset k).state =
      (s.asset k).state := state_modifyAsset fun _ => rfl
    exact .inl (hfalls.state_eq k ▸ hsame ▸ hloaded)
  | @bury u s r h =>
    -- a destroyed asset has no load state
    change ((State.modifyAsset _ h _).asset k).state = _ at hloaded
    rw [State.asset_modifyAsset] at hloaded
    split at hloaded
    · cases hloaded
    · exact .inl (State.asset_unlinked s r h k ▸ hloaded)
  | @insert u s r kind key slot linked =>
    change ((s.inserted r kind key slot linked).asset k).state = _ at hloaded
    rw [State.asset_inserted] at hloaded
    split at hloaded
    · cases hloaded
    · exact .inl hloaded
  | @rekey u s r h key =>
    have hsame : ((s.modifyAsset h fun a => { a with id := key.id, name := key.name }).asset k).state =
      (s.asset k).state := state_modifyAsset fun _ => rfl
    exact .inl (hsame ▸ hloaded)
  | @write u s h f hf hstate =>
    have hsame : ((s.modifyAsset h f).asset k).state = (s.asset k).state :=
      state_modifyAsset fun heq => heq.symm ▸ hstate
    exact .inl (hsame ▸ hloaded)
  | @setState u s h state body =>
    change ((s.modifyAsset h _).asset k).state = _ at hloaded
    rw [State.asset_modifyAsset] at hloaded
    split at hloaded
    next heq =>
      obtain rfl : state = .loaded := hloaded
      exact .inr ⟨body, heq.1 ▸ rfl⟩
    next => exact .inl hloaded
  | @loading u s t | @fail u s e =>
    change ((s.modifyAsset _ _).asset k).state = _ at hloaded
    rw [State.asset_modifyAsset] at hloaded
    split at hloaded
    · cases hloaded
    · exact .inl hloaded
  | flush | skip | flushed | countNames | newRegistry | leaveRegistry => exact .inl hloaded

/-- Only client code sets an asset to loaded. -/
theorem Stride.loaded_or (h : Stride c d) (hloaded : (d.state.asset k).state = .loaded) :
    (c.state.asset k).state = .loaded ∨
      ∃ body, d.state.history = .stateSet k .loaded body :: c.state.history := by
  have hsame (hsame : c.toMoment.SameAssets d.toMoment) : (c.state.asset k).state = .loaded :=
    hsame.asset k ▸ hloaded
  cases h with
  | asset h => exact h.loaded_or hloaded
  | body h => exact .inl (hsame h.sameAssets)
  | job h => exact .inl (hsame h.sameAssets)
  | task h =>
    left
    cases h with
    | @accept u s t => exact state_referenced s .task t.asset k ▸ hloaded
    | @complete u s e => exact state_taskEnded s e k ▸ hloaded
    | @discard u s e => exact state_letGo (s.record (.discarded e.id)) 0 .task e.asset k ▸ hloaded
    | shutDown | drain => exact hloaded
    | move h => exact hsame h.sameAssets
  | notice h => exact .inl (hsame h.sameAssets)
  | plain h => exact .inl (hsame h.sameAssets)

/-- Where an asset is loaded that was not, client code has set it to that meanwhile. -/
theorem Strides.exists_stateSet (hcd : Strides c d) (hc : (c.state.asset k).state ≠ .loaded)
    (hd : (d.state.asset k).state = .loaded) : ∃ body past,
      .stateSet k .loaded body :: past <:+ d.state.history ∧ c.state.history <:+ past := by
  induction hcd with
  | refl => exact absurd hd hc
  | @tail d d' hpath hstride ih =>
    rcases hstride.loaded_or hd with hbefore | ⟨body, hset⟩
    · obtain ⟨body, past, hpast, hle⟩ := ih hbefore
      exact ⟨body, past, hpast.trans hstride.moves.extends.history, hle⟩
    · exact ⟨body, d.state.history, hset ▸ List.suffix_refl _, (Strides.moves hpath).extends.history⟩

end Loading

/-! ### References apart from those of one task -/

/-- The references on an asset that tasks hold, one task left out. -/
def Moment.otherTasks (m : Moment) (id : Nat) (h : Handle) : Nat :=
  m.unfinished.countP (fun c => c.id ≠ id ∧ c.asset = h) + m.inTransit.count (.task, h)

/-- The references on an asset that load events hold: one for each load that is staged or
is being delivered. -/
def Moment.loads (m : Moment) (h : Handle) : Nat :=
  m.state.notices.staged.count h + m.inTransit.count (.notice, h)

section Referring

variable {m : Moment} {id : Nat}

/-- A task that is not unfinished has no part in the count of an asset. -/
theorem Reckoned.refs_eq (hm : Reckoned m) {h : Handle} (hh : h < m.state.assets.size)
    (hid : ∀ c ∈ m.unfinished, c.id ≠ id) :
    (m.state.asset h).refs = clientNet h m.state.history + m.otherTasks id h + m.loads h := by
  have hall : m.unfinished.countP (·.asset = h) =
      m.unfinished.countP (fun c => c.id ≠ id ∧ c.asset = h) :=
    List.countP_congr fun c hc => by simp [hid c hc]
  rw [hm.balanced.counted h hh, netOfAll_eq, hm.balanced.held .task rfl, hm.balanced.held .notice rfl,
    count_task_references, count_notice_references, hall]
  rfl

/-- Before its acceptance a task is not unfinished. -/
theorem Counted.ne_of_unaccepted (h : Counted m) (hid : ∀ k, ¬ m.state.AcceptedFor id k) :
    ∀ c ∈ m.unfinished, c.id ≠ id := by
  rintro c hc rfl
  have hmem : c.id ∈ (acceptances m.state.history).map Prod.fst :=
    h.places.mem_iff.2 (List.mem_append_left _ (List.mem_map_of_mem hc))
  obtain ⟨p, hp, hpid⟩ := List.mem_map.1 hmem
  obtain ⟨k, data, haccepted⟩ := mem_acceptances.1 hp
  exact hid k ⟨p.2, data, hpid ▸ haccepted⟩

/-- The asset of a task that somebody has in hand was made. -/
theorem Booked.asset_lt (h : Booked m) (hbalanced : Balanced m) {a : Activity} {e : Entry}
    (ha : a ∈ m.underWay) (he : a.inHand = some e.claim) : e.asset < m.state.assets.size := by
  refine Nat.lt_of_not_le fun hge => ?_
  have hpos := hbalanced.net_task_pos (h.custody.mem_unfinished ha he)
  rw [show net .task e.claim.asset m.state.history = 0 from hbalanced.unknown e.asset hge .task] at hpos
  exact Int.lt_irrefl 0 hpos

end Referring

/-! ### What the end of a task leaves -/

section Ending

variable (s : State) (e : Entry)

theorem queue_taskEnded : (s.taskEnded e).queue = s.queue.finish e.id := by
  rw [State.taskEnded, (State.sameScheduler_letGo _ 0 .task e.asset).queue]
  rfl

/-- A load is staged if the asset is loaded. -/
theorem staged_taskEnded : (s.taskEnded e).notices.staged =
    if (s.asset e.asset).state = .loaded then s.notices.staged ++ [e.asset]
    else s.notices.staged := by
  rw [notices_taskEnded]
  simp only [LoadState.isLoaded_iff]
  split <;> rfl

/-- The end of a task runs no code of it. -/
theorem told_taskEnded (b : BodyId) : told b (s.taskEnded e).history = told b s.history := by
  have hstaged : told b (if (s.asset e.asset).state.isLoaded then s.staged e.asset else s).history =
      told b s.history := by
    split
    · unfold State.staged State.referenced
      split <;> rfl
    · rfl
  rw [history_taskEnded, ← hstaged]
  rfl

/-- The reference of the task is dropped. -/
theorem net_task_taskEnded :
    net .task e.asset (s.taskEnded e).history = net .task e.asset s.history - 1 := by
  have hstaged : net .task e.asset
      (if (s.asset e.asset).state.isLoaded then s.staged e.asset else s).history =
        net .task e.asset s.history := by
    split
    · unfold State.staged State.referenced
      split <;> simp [State.withNotices, State.took, State.record, State.modifyAsset, net_cons,
        Event.gain]
    · rfl
  rw [history_taskEnded, net_cons, net_cons, net_cons, hstaged]
  simp only [Event.gain, completionLine, and_self, if_true]
  omega

end Ending

/-! ### The law -/

/-- How a failed action ends the task of an entry. The failure was taken in in state `m`,
`y` is the state after the failure hook, `z` the one after the data was freed, and `t`
the one in which the step returns. -/
structure EndsByFailure (call : Runner) (thread : Thread) (e : Entry) (m y z t : State) : Prop where
  /-- Of the task nothing has run since the action, and the data is as the action left it. -/
  justFailed : m.JustFailed e.body e.cursor
  /-- The asset is in an error state before the failure hook runs. -/
  inError : ((m.failureNoted e).asset e.asset).state = (m.asset e.asset).state.afterFailure
  /-- The failure hook gets the asset in that state, and the data as it is. -/
  handled : HookRuns call thread e.body e.asset (m.body e.body).onFailure
    (.failed e.body (m.body e.body).name (m.asset e.asset).state.afterFailure (m.body e.body).data)
    (m.failureNoted e) y
  /-- Then the data is freed. -/
  freed : HookRuns call thread e.body e.asset (y.body e.body).onFree
    (.freed e.body (y.body e.body).name (y.asset e.asset).state (y.body e.body).data)
    (y.bodyTaken e.body) z
  /-- Then the task is completed, and no client code runs any more. -/
  ended : t = z.taskEnded e
  /-- It was not completed before. -/
  once : .completed e.id ∉ z.history
  /-- It counts as completed. -/
  counted : t.queue.completed = z.queue.completed + 1
  /-- It does not wait any more. -/
  notPending : ∀ d ∈ t.queue.pending, d.id ≠ e.id
  /-- It is not claimed any more. -/
  notActive : ∀ c ∈ t.queue.active, c.id ≠ e.id
  /-- Its reference is dropped. -/
  dropped : net .task e.asset t.history = net .task e.asset z.history - 1
  /-- A load is staged for it only if the asset is loaded by then, -/
  staged : t.notices.staged = if (z.asset e.asset).state = .loaded then
    z.notices.staged ++ [e.asset] else z.notices.staged
  /-- and it is loaded only if it was set to that while the hooks ran. -/
  loaded : (z.asset e.asset).state = .loaded → ∃ body past,
    .stateSet e.asset .loaded body :: past <:+ z.history ∧ (m.failureNoted e).history <:+ past

section Failing

variable {fuel : Nat} {thread : Thread} {e : Entry} {u : List Activity} {s m y t : State}
  {due : List (List Subscription)}

/-- Where a failure is taken in, it is the last that is known of the task. -/
theorem Occurs.justFailed (hm : Occurs ⟨⟨.concluding e false :: u, m⟩, due⟩)
    (hkeeps : KeepsToThread m.history) : m.JustFailed e.body e.cursor := by
  have hpaced := (hm.allPaced hkeeps).paced e.body (.inl (hm.owned.untaken_of_bodies rfl))
  have hturn : (e.body, .rest (.failed e.cursor)) ∈
      (⟨.concluding e false :: u, m⟩ : Moment).allTurns :=
    mem_allTurns_of_turn List.mem_cons_self List.mem_cons_self
  exact (hpaced.suits _ hturn).failed e.cursor rfl

/-- What dealing with a failure comes to. -/
theorem Occurs.handles (hm : Occurs ⟨⟨.concluding e false :: u, m⟩, due⟩)
    (hrun : failTask (run fuel) thread e m = .ok () y) :
    HookRuns (run fuel) thread e.body e.asset (m.body e.body).onFailure
      (.failed e.body (m.body e.body).name (m.asset e.asset).state.afterFailure (m.body e.body).data)
      (m.failureNoted e) y ∧
    Strides ⟨⟨.concluding e false :: u, m.failureNoted e⟩, due⟩ ⟨⟨.ending e.abort :: u, y⟩, due⟩ ∧
    (KeepsToThread y.history → told e.body y.history =
      (Rest.failed e.cursor).trace ++ (m.body e.body).outline.handling) := by
  have hx := hm.strides (strides_failureNoted m e u due)
  rw [failTask_eq] at hrun
  have hend := (leads_runFailureHook (run_isTraced fuel) thread u e).strides hrun due
  have hhook := runFailureHook_returns (hx.owned.untaken_of_bodies rfl) hrun
  have htold := fun hkeeps => hx.told_handled hhook hkeeps hend.moves.extends.history
  rw [body_failureNoted] at hhook htold
  rw [state_failureNoted m e (hm.booked.asset_lt hm.reckoned.balanced List.mem_cons_self rfl)] at hhook
  exact ⟨hhook, hend, htold⟩

/-- What completing a task comes to. -/
theorem Occurs.completes (hy : Occurs ⟨⟨.ending e :: u, y⟩, due⟩)
    (hrun : completeTask (run fuel) thread e y = .ok () t) : ∃ z,
    HookRuns (run fuel) thread e.body e.asset (y.body e.body).onFree
      (.freed e.body (y.body e.body).name (y.asset e.asset).state (y.body e.body).data)
      (y.bodyTaken e.body) z ∧
    t = z.taskEnded e ∧ Strides ⟨⟨.ending e :: u, y⟩, due⟩ ⟨⟨.ended e :: u, z⟩, due⟩ ∧
      Stride ⟨⟨.ended e :: u, z⟩, due⟩ ⟨⟨u, t⟩, due⟩ := by
  obtain ⟨z, hfree, rfl, hwhole, hsome⟩ := completeTask_returns_freed hrun
  refine ⟨z, freeBody_returns (hy.owned.untaken_of_bodies rfl) hfree, rfl, ?_, ?_⟩
  · exact (leads_freeBody (run_isTraced fuel) thread e.body e.asset (a := .ending e) u rfl).strides
      hfree due
  · exact .task (.complete e hwhole hsome)

/-- The task of a failed action has told its whole story, and nothing follows. -/
theorem Occurs.tells_story (hm : Occurs ⟨⟨.concluding e false :: u, m⟩, due⟩)
    (hrun : takeOutcome (run fuel) thread e false m = .ok () t) (hkeeps : KeepsToThread t.history) :
    (⟨u, t⟩ : Moment).Done e.body ∧
      told e.body t.history = (t.body e.body).outline.story (some e.cursor) := by
  obtain ⟨_, y, hfail, hcomplete⟩ := Exec.bind_eq_ok hrun
  obtain ⟨-, hxy, hhandled⟩ := hm.handles hfail
  have hmy := (strides_failureNoted m e u due).trans hxy
  have hy := hm.strides hmy
  obtain ⟨z, hfreed, rfl, hyz, hzt⟩ := hy.completes hcomplete
  have hz := hy.strides hyz
  have hknown : e.body < m.bodies.size := State.lt_size_of_untaken (hm.owned.untaken_of_bodies rfl)
  have hkeepsz := hkeeps.of_suffix hzt.moves.extends.history
  have hkeepsy := hkeepsz.of_suffix hyz.moves.extends.history
  constructor
  · -- with its turn at the end of the task nobody runs its code
    have huntaken : (y.body e.body).taken = false := hy.owned.untaken_of_bodies rfl
    have hpaced := (hy.allPaced hkeepsy).paced e.body (.inl huntaken)
    have hturn : (e.body, .closing) ∈ (⟨.ending e.abort :: u, y⟩ : Moment).allTurns :=
      mem_allTurns_of_turn List.mem_cons_self List.mem_cons_self
    have hgone : z.BodyGone e.body := hz.booked.spent.work _ List.mem_cons_self
    refine ⟨hgone.extends hzt.moves.extends, fun a ha => ?_⟩
    exact hpaced.not_runs hturn rfl a (List.mem_cons_of_mem _ ha)
  · have hfreeing : told e.body z.history =
        told e.body y.history ++ (y.body e.body).outline.freeing := hy.told_freed hfreed hkeepsz
    have hey : m.Extends y := (Strides.moves hmy).extends
    have het : m.Extends (z.taskEnded e.abort) := (Strides.moves ((hmy.trans hyz).tail hzt)).extends
    rw [told_taskEnded, hfreeing, hhandled hkeepsy, (hey.body _ hknown).2.outline,
      (het.body _ hknown).2.outline]
    rfl

/-- A step that takes in a failure ends the task. -/
theorem Occurs.endsByFailure (hm : Occurs ⟨⟨.concluding e false :: u, m⟩, due⟩)
    (hrun : takeOutcome (run fuel) thread e false m = .ok () t) (hkeeps : KeepsToThread t.history) :
    ∃ y z, EndsByFailure (run fuel) thread e m y z t := by
  obtain ⟨_, y, hfail, hcomplete⟩ := Exec.bind_eq_ok hrun
  -- the failure is noted, the failure hook runs, and then the task is completed
  obtain ⟨hhandled, hxy, -⟩ := hm.handles hfail
  have hmy := (strides_failureNoted m e u due).trans hxy
  obtain ⟨z, hfreed, rfl, hyz, hzt⟩ := (hm.strides hmy).completes hcomplete
  have hz := (hm.strides hmy).strides hyz
  have hknown := hm.booked.asset_lt hm.reckoned.balanced List.mem_cons_self rfl
  have hinError := state_failureNoted m e hknown
  have hdone : .completed e.id ∈ (z.taskEnded e.abort).history := by
    rw [history_taskEnded]
    exact List.mem_cons_of_mem _ List.mem_cons_self
  -- it is finished from here on, so nothing that still has its number is left
  have hunfinished := (hz.strides (.single hzt)).booked.counted.ne_of_completed hdone
  refine ⟨y, z, ?_, hinError, hhandled, hfreed, rfl, ?_, ?_, fun d hd => ?_, fun c hc => ?_,
    net_task_taskEnded z e.abort, staged_taskEnded z e.abort, fun hloaded => ?_⟩
  · exact hm.justFailed (hkeeps.of_suffix (Strides.moves ((hmy.trans hyz).tail hzt)).extends.history)
  · exact hz.booked.not_completed List.mem_cons_self rfl
  · rw [queue_taskEnded]
    rfl
  · refine hunfinished d.claim ?_
    exact List.mem_append_left _ (List.mem_append_left _ (List.mem_map_of_mem hd))
  · exact hunfinished c (List.mem_append_left _ (List.mem_append_right _ hc))
  · refine Strides.exists_stateSet (hxy.trans hyz) (fun hbefore => ?_) hloaded
    -- the error state lasts through the hooks unless code of the client sets another
    have herror := LoadState.isError_afterFailure (m.asset e.asset).state
    rw [← hinError, hbefore] at herror
    cases herror

/-- **Failed actions.** Whichever action of a task fails, and whether it ran in the step or
as a job, the step that takes in the failure brings the task to its end. The story of the
task is told then, with this action as the last one, and nothing is ever added to it.
From before the acceptance of the task on, the count of its asset has changed only by the
references of client code, of other tasks and of load events. That tasks keep to their
thread holds in both ways of running a scheduler: without workers all of them are advanced
on the GPU thread, with workers none is. -/
theorem failed_action_ends_task (hc : Occurs ⟨⟨.claimed e :: u, s⟩, due⟩)
    (hrun : stepTask (run fuel) thread e s = .ok () t)
    (hfails : TakesIn (run fuel) thread e s false m) (hkeeps : KeepsToThread t.history) :
    (∃ y z, EndsByFailure (run fuel) thread e m y z t) ∧
    ∀ d, Strides ⟨⟨u, t⟩, due⟩ d →
      told e.body d.state.history = (d.state.body e.body).outline.story (some e.cursor) ∧
      ∀ b, Occurs b → Strides b ⟨⟨.claimed e :: u, s⟩, due⟩ →
        (∀ k, ¬ b.state.AcceptedFor e.id k) → e.asset < b.state.assets.size →
        (d.state.asset e.asset).refs = (b.state.asset e.asset).refs +
          (clientNet e.asset d.state.history - clientNet e.asset b.state.history) +
          (d.otherTasks e.id e.asset - b.otherTasks e.id e.asset) +
          (d.loads e.asset - b.loads e.asset) := by
  obtain ⟨complexity, job, hstep, hstrides⟩ := hfails.concludes
  have hend := (leads_stepTask (run_isTraced fuel) thread u e).strides hrun due
  rw [hstep] at hrun
  have hm := hc.strides (hstrides u due)
  obtain ⟨y, z, hends⟩ := hm.endsByFailure hrun hkeeps
  obtain ⟨hdone, hstory⟩ := hm.tells_story hrun hkeeps
  refine ⟨⟨y, z, hends.justFailed, hends.inError, hends.handled, hends.freed, hends.ended,
    hends.once, hends.counted, hends.notPending, hends.notActive, hends.dropped, hends.staged,
    hends.loaded⟩, fun d hd => ⟨?_, fun b hb hbc hunaccepted hknown => ?_⟩⟩
  · have htold := (hdone.moves hd.moves).2
    have hextends : t.Extends d.state := hd.moves.extends
    rw [htold, (hextends.body e.body hdone.gone.1).2.outline]
    exact hstory
  · -- the task has ended, so the balance of references has no entry for it any more
    have hcompleted : .completed e.id ∈ d.state.history := by
      refine hd.moves.extends.history.subset ?_
      rw [hends.ended, history_taskEnded]
      exact List.mem_cons_of_mem _ List.mem_cons_self
    have hbd := (hbc.trans hend).trans hd
    have hsize : e.asset < d.state.assets.size :=
      Nat.lt_of_lt_of_le hknown (Moves.size_le (Strides.moves hbd))
    have hbefore := hb.reckoned.refs_eq hknown (hb.booked.counted.ne_of_unaccepted hunaccepted)
    have hd' := (hb.strides hbd)
    have hafter := hd'.reckoned.refs_eq hsize (hd'.booked.counted.ne_of_completed hcompleted)
    omega

end Failing

/-- Before the task of `failingPlan` is made. -/
def meshFound : State :=
  (Session.bare .manual).start.after 8
    [(.main, .findOrCreate "mesh" (.standard .mesh) (.ofId ⟨1⟩))]

/-- The second action of the task has run as a job, and a client has claimed the task. -/
@[irreducible]
def failureClaimed : State :=
  meshFound.after 8
    [(.main, .enqueue failingPlan), (.worker 0, .work), (.worker 0, .work), (.main, .step 1),
      (.worker 0, .claim "load" false)]

/-- The task. -/
@[irreducible]
def failedClaim : Entry :=
  (failureClaimed.client.claims.lookup "load").getD default

/-- It takes the task up on a worker thread. -/
@[irreducible]
def failureAwaited : State :=
  failureClaimed.withClient
    { failureClaimed.client with claims := failureClaimed.client.claims.remove "load" }

/-- The failure was taken in. -/
@[irreducible]
def failureTakenIn : State :=
  failureAwaited.afterRun (stepTask (run 8) (.worker 0) failedClaim)

theorem failureTakenIn_ended :
    (∃ m y z, EndsByFailure (run 8) (.worker 0) failedClaim m y z failureTakenIn) ∧
    told 0 failureTakenIn.history = [.acts 0, .ends 0 true, .acts 1, .ends 1 false, .fails,
      .returns, .frees, .returns] ∧
    (failureTakenIn.asset 0).refs = (meshFound.asset 0).refs := by
  have hreached : Reached meshFound := by
    unfold meshFound
    exact (Reached.start _).after 8 _
  -- the client takes the task off its shelf once the job of its second action has failed
  have hpath : Strides ⟨⟨[], meshFound⟩, []⟩ ⟨⟨[], failureClaimed⟩, []⟩ := by
    unfold failureClaimed
    exact meshFound.strides_after 8 _
  have hlookup : failureClaimed.client.claims.lookup "load" = some failedClaim := by
    have hsome : (failureClaimed.client.claims.lookup "load").isSome = true := by decide +kernel
    obtain ⟨e, he⟩ := Option.isSome_iff_exists.1 hsome
    rw [failedClaim, he]
    rfl
  have hclaimed : Strides ⟨⟨[], meshFound⟩, []⟩ ⟨⟨[.claimed failedClaim], failureAwaited⟩, []⟩ := by
    refine hpath.tail ?_
    unfold failureAwaited
    exact .task (.move (.unshelve failedClaim "load" hlookup) ⟨rfl, rfl, nofun, nofun⟩)
  obtain ⟨_, hrun⟩ : ∃ a, stepTask (run 8) (.worker 0) failedClaim failureAwaited =
      .ok a failureTakenIn := by
    unfold failureTakenIn
    exact State.run_of_isOk (by decide +kernel)
  obtain ⟨m, hfails⟩ : ∃ m, TakesIn (run 8) (.worker 0) failedClaim failureAwaited false m := by
    have hfailed : (failureAwaited.jobs.job 0).success = false := by decide +kernel
    rw [← hfailed]
    exact ⟨_, .collected (by decide +kernel) (by decide) (by decide +kernel) (by decide +kernel) rfl⟩
  have hkeeps : KeepsToThread failureTakenIn.history := by
    have hruly : failureTakenIn.history.any Event.isUnruly = false := by decide +kernel
    exact .of_offGpu fun _ hmem => List.any_eq_false.1 hruly _ hmem rfl
  obtain ⟨⟨y, z, hends⟩, hlater⟩ :=
    failed_action_ends_task (hreached.occurs.strides hclaimed) hrun hfails hkeeps
  obtain ⟨hstory, hrefs⟩ := hlater _ .refl
  have hbody : failedClaim.body = 0 ∧ failedClaim.asset = 0 ∧ failedClaim.id = 1 ∧
      failedClaim.cursor = 1 := by decide +kernel
  obtain ⟨hbody, hasset, hid, hcursor⟩ := hbody
  refine ⟨⟨m, y, z, hends⟩, ?_, ?_⟩
  · rw [hbody, hcursor] at hstory
    rw [hstory]
    decide +kernel
  · have hunaccepted : ∀ k, ¬ meshFound.AcceptedFor failedClaim.id k := by
      intro k haccepted
      have hnone : meshFound.history.filterMap Event.acceptedFor? = [] := by decide +kernel
      have hmem := acceptedFor_iff.1 haccepted
      rw [hnone] at hmem
      exact List.not_mem_nil hmem
    have hcount := hrefs _ hreached.occurs hclaimed hunaccepted (by rw [hasset]; decide +kernel)
    rw [hasset, hid] at hcount
    rw [hcount]
    decide +kernel

end AssetLoading
