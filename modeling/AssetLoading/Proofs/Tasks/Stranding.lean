import AssetLoading.Proofs.Shutdown.Remains
import AssetLoading.Proofs.Tasks.Drains
import AssetLoading.Proofs.Tasks.Handover
import AssetLoading.Proofs.Tasks.Lifecycle

/-! # No task is stranded

  With workers, tasks are advanced off the GPU thread only, and actions for that
  thread go through jobs. A task whose job was lost, or that carried the job of
  another action, would wait for ever, as workers skip tasks whose job has not
  finished. `no_task_stranded` says that this cannot happen: whenever no call is
  under way, a task that workers skip has its own job in the queue of the GPU
  thread, so the next drain makes it runnable.
-/

namespace AssetLoading

/-- The tasks that wait, and those that workers have claimed. -/
def State.entries (s : State) : List Entry :=
  s.queue.pending ++ s.client.claims.map Prod.snd

/-! ### What holds in every scene -/

theorem Occurs.owned {c : Scene} (hc : Occurs c) : Owned c.toMoment :=
  hc.moves_invariant Owned.start fun _ _ hmove h => h.move hmove

theorem Occurs.handed {c : Scene} (hc : Occurs c) : Handed c.toMoment := by
  have hboth : Owned c.toMoment ∧ Handed c.toMoment := by
    refine hc.moves_invariant (P := fun m => Owned m ∧ Handed m) ?_ ?_
    · exact fun p => ⟨.start p, .start p⟩
    · exact fun m n hmove h => ⟨h.1.move hmove, h.2.move h.1 hmove⟩
  exact hboth.2

theorem Occurs.lined {c : Scene} (hc : Occurs c) : Lined c.toMoment :=
  hc.moves_invariant Lined.start fun _ _ hmove h => h.move hmove

theorem Occurs.inFlight {c : Scene} (hc : Occurs c) : InFlight c.toMoment :=
  hc.moves_invariant InFlight.start fun _ _ hmove h => h.move hmove

/-- As long as tasks keep to their thread, everything agrees, whoever shuts the
scheduler down. -/
theorem Moves.consistent {m n : Moment} (hmn : Moves m n) (hkeeps : KeepsToThread n.state.history)
    (hm : Consistent m) : Consistent n := by
  induction hmn with
  | refl => exact hm
  | tail _ hmove ih =>
    exact (ih (hkeeps.of_suffix hmove.extends.history)).move_of_keeps hmove hkeeps

theorem Occurs.consistent {c : Scene} (hc : Occurs c) (hkeeps : KeepsToThread c.state.history) :
    Consistent c.toMoment := by
  obtain ⟨p, hp⟩ := hc
  exact hp.moves.consistent hkeeps (.start p)

/-! ### Between calls -/

section Between

variable {s : State} {due : List (List Subscription)} {e : Entry} {j : JobId}

/-- Workers skip a task exactly if its action was handed over and is not finished. -/
theorem State.runnable_eq_false :
    s.runnable e = false ↔
      e.currentAffinity = some .gpu ∧ ∃ j, e.job = some j ∧ (s.jobs.job j).finished = false := by
  unfold runnable Entry.isRunnable
  split
  next j haffinity hjob => simp [haffinity, hjob]
  next hnot =>
    simp only [Bool.true_eq_false, false_iff, not_and, not_exists]
    intro haffinity j hjob
    exact absurd hjob (hnot j haffinity)

theorem State.mem_entries_iff : e ∈ s.entries ↔ e ∈ (⟨[], s⟩ : Moment).resting := by
  unfold entries Moment.resting
  simp

/-- No two tasks share a body. -/
theorem nodup_entries (hs : Occurs ⟨⟨[], s⟩, due⟩) : (s.entries.map (·.body)).Nodup := by
  have hsingle := hs.owned.single
  unfold Moment.owned Moment.resting at hsingle
  simpa [State.entries] using hsingle

variable (hs : Occurs ⟨⟨[], s⟩, due⟩) (hoff : ∀ id, .stepped id true ∉ s.history)

include hs in
/-- Between calls every job of a task that has not finished waits. -/
theorem waiting_of_unfinished {b : BodyId} {i : Nat} {asset : Handle} {priority : Int32}
    (hj : s.IsActionOf b j i asset priority) (hunfinished : (s.jobs.job j).finished = false) :
    j ∈ s.jobs.waiting ∧ (s.jobs.job j).started = false := by
  have hnew : (s.jobs.job j).started = false := by
    rw [← Bool.not_eq_true]
    intro hstarted
    exact absurd (hs.inFlight j hj.1 hstarted hunfinished) List.not_mem_nil
  have hline := hs.lined b j i asset priority hj hnew
  unfold Moment.line at hline
  rw [List.flatMap_nil, List.append_nil] at hline
  exact ⟨hline, hnew⟩

include hs hoff

/-- A task that carries a job carries the one of the action at its cursor. -/
theorem carried_job (he : e ∈ s.entries) (hjob : e.job = some j) :
    s.IsActionOf e.body j e.cursor e.asset e.priority ∧ e.currentAffinity = some .gpu := by
  have hmem := State.mem_entries_iff.1 he
  have hagrees := (hs.consistent (.of_offGpu hoff)).entries e hmem
  have hhanded := hagrees.job j hjob
  obtain ⟨asset, priority, hwork⟩ := hhanded.work
  have haction : s.IsActionOf e.body j e.cursor asset priority := ⟨hhanded.known, hwork⟩
  obtain ⟨rfl, rfl, -⟩ := hs.handed.resting e hmem j e.cursor asset priority haction
  exact ⟨haction, hhanded.affinity⟩

/-- No two tasks share a job. -/
theorem nodup_jobs : (s.entries.filterMap (·.job)).Nodup := by
  have hbodies : s.entries.Pairwise fun d e => d.body ≠ e.body :=
    List.pairwise_map.1 (nodup_entries hs)
  refine (List.pairwise_filterMap).2 (List.Pairwise.imp_of_mem ?_ hbodies)
  intro d e hd he hne j hj k hk heq
  subst heq
  -- the work of the job tells the body of the task
  have hfirst := (carried_job hs hoff hd hj).1.2
  have hsecond := (carried_job hs hoff he hk).1.2
  rw [hfirst] at hsecond
  injection hsecond with hbody
  exact hne hbody

/-- Workers skip a task only while its job waits. -/
theorem waiting_of_not_runnable (he : e ∈ s.queue.pending) (hskipped : s.runnable e = false) :
    ∃ j ∈ s.jobs.waiting, e.job = some j ∧ s.IsActionOf e.body j e.cursor e.asset e.priority ∧
      (s.jobs.job j).started = false := by
  obtain ⟨-, j, hjob, hunfinished⟩ := State.runnable_eq_false.1 hskipped
  have haction := (carried_job hs hoff (List.mem_append_left _ he) hjob).1
  obtain ⟨hwaits, hnew⟩ := waiting_of_unfinished hs haction hunfinished
  exact ⟨j, hwaits, hjob, haction, hnew⟩

end Between

/-! ### Moves that advance no task -/

/-- A task is being advanced. -/
def Activity.steps : Activity → Bool
  | stepping _ _ => true
  | _ => false

/-- No task is being advanced, and every job of a task is older than a number. -/
structure Moment.Rests (first : JobId) (m : Moment) : Prop where
  steps : ∀ a ∈ m.underWay, a.steps = false
  jobs : ∀ b j i asset priority, m.state.IsActionOf b j i asset priority → j < first

section Resting

variable {first : JobId} {m n : Moment}

theorem Activity.steps_eq_false {a : Activity} (ha : a.ofTasks = false) : a.steps = false := by
  cases a <;> first | rfl | cases ha

theorem Activity.MayAct.steps_concluded {a : Activity} {b : BodyId} {i : Nat} {onGpu : Bool}
    (hmay : a.MayAct b i onGpu) (ok : Bool) : (a.concluded ok).steps = false := by
  cases a <;> first | exact hmay.elim | rfl

theorem Activity.MayFree.steps_freed {a : Activity} {b : BodyId} (hmay : a.MayFree b) :
    a.freed.steps = false := by
  cases a <;> first | exact hmay.elim | rfl

namespace Moment.Rests

/-- No new activity advances a task, and no new job is an action of one. -/
theorem step (h : m.Rests first) (hext : m.state.Extends n.state)
    (hforeign : ∀ j, j < n.state.jobs.jobs.size →
      j < m.state.jobs.jobs.size ∨ (n.state.jobs.job j).work.IsForeign)
    (hwork : ∀ a ∈ n.underWay, a ∈ m.underWay ∨ a.steps = false) : n.Rests first where
  steps a ha := by
    rcases hwork a ha with hold | hnew
    · exact h.steps a hold
    · exact hnew
  jobs b j i asset priority hj :=
    h.jobs b j i asset priority (hext.keepsActions hforeign b j i asset priority hj)

theorem drop (h : m.Rests first) (hext : m.state.Extends n.state)
    (hwork : n.underWay ⊆ m.underWay)
    (hjobs : n.state.jobs.jobs.size = m.state.jobs.jobs.size) : n.Rests first :=
  h.step hext (fun _ hj => .inl (hjobs ▸ hj)) fun _ ha => .inl (hwork ha)

theorem begin {a : Activity} {u : List Activity} {t : State} (h : m.Rests first)
    (hext : m.state.Extends t) (hwork : u ⊆ m.underWay) (ha : a.steps = false)
    (hjobs : t.jobs.jobs.size = m.state.jobs.jobs.size) :
    (⟨a :: u, t⟩ : Moment).Rests first := by
  refine h.step hext (fun _ hj => .inl (hjobs ▸ hj)) ?_
  intro b hb
  rcases List.mem_cons.1 hb with rfl | hu
  · exact .inr ha
  · exact .inl (hwork hu)

theorem sameWork (h : m.Rests first) (hmn : m.SameWork n) : n.Rests first := by
  refine h.step hmn.extends (fun _ hj => .inl (hmn.jobs ▸ hj)) ?_
  intro a ha
  cases hwork : a.ofTasks with
  | true => exact .inl ((hmn.mem_work hwork).1 ha)
  | false => exact .inr (Activity.steps_eq_false hwork)

theorem bodyMove (h : m.Rests first) (hmove : BodyMove m n) : n.Rests first := by
  have hext := hmove.extends
  cases hmove with
  | plan => exact h.begin hext (List.Subset.refl _) rfl rfl
  | forget => exact h.drop hext (List.subset_cons_self _ _) rfl
  | estimate | write => exact h.drop hext (List.Subset.refl _) rfl
  | actEnd a b i onGpu ok hmay =>
    exact h.begin hext (List.subset_cons_self _ _) (hmay.steps_concluded ok) rfl
  | actSkip a b i onGpu hmay =>
    exact h.begin hext (List.subset_cons_self _ _) (hmay.steps_concluded false) rfl
  | freeEnd a b hmay | freeSkip a b hmay =>
    exact h.begin hext (List.subset_cons_self _ _) hmay.steps_freed rfl
  | act | fail | failEnd | failSkip | free =>
    exact h.begin hext (List.subset_cons_self _ _) rfl rfl

theorem jobMove (h : m.Rests first) (hmove : JobMove m n) : n.Rests first := by
  have hext := hmove.extends
  have hsame := hmove.sameWork
  -- whatever runs after a job is picked ran before, or is the rest of the line
  have hpicked {u v : List Activity} {j : JobId} (hpick : Picks j u v) :
      ∀ a ∈ v, a ∈ u ∨ a.steps = false := by
    intro a ha
    cases hpick with
    | next js u =>
      rcases List.mem_cons.1 ha with rfl | hu
      · exact .inr rfl
      · exact .inl (List.mem_cons_of_mem _ hu)
    | outOfTurn u => exact .inl ha
  cases hmove with
  | @make u s w hw =>
    refine h.step hext ?_ fun a ha => .inl ha
    intro j hj
    rcases Nat.lt_succ_iff_lt_or_eq.1 (Nat.lt_of_lt_of_eq hj (Array.size_push _)) with hold | hnew
    · exact .inl hold
    · right
      show ((s.jobs.make w).2.job j).work.IsForeign
      rw [JobQueue.job_make, if_pos hnew]
      exact hw
  | submit | drain | drained => exact h.sameWork (hsame rfl rfl)
  | @start u v s j hpick =>
    refine h.step hext (fun k hk => .inl (Nat.lt_of_lt_of_eq hk Array.size_modify)) ?_
    intro a ha
    rcases List.mem_cons.1 ha with rfl | hv
    · exact .inr rfl
    · exact hpicked hpick a hv
  | skip j hpick => exact h.sameWork (hsame hpick.filter_ofTasks rfl)
  | work => exact h.begin hext (List.subset_cons_self _ _) rfl rfl
  | finish => exact h.drop hext (List.subset_cons_self _ _) Array.size_modify

end Moment.Rests

/-- A task begins to be advanced, or none is advanced. -/
theorem TaskMove.steps_or_rests (h : TaskMove m n) (hm : m.Rests first) :
    (∃ id onGpu, n.state.history = .stepped id onGpu :: m.state.history) ∨ n.Rests first := by
  have hext := h.extends
  -- nobody is in the middle of a step, so a step can only begin
  have hnever {e : Entry} {onGpu : Bool} {u : List Activity} (hu : m.underWay = .stepping e onGpu :: u) :
      False := by
    have hsteps := hm.steps (.stepping e onGpu) (hu ▸ List.mem_cons_self)
    cases hsteps
  cases h with
  | step e onGpu => exact .inl ⟨e.id, onGpu, rfl⟩
  | runOut | handOver | wait | collect => exact (hnever rfl).elim
  | accept =>
    right
    exact hm.drop hext (fun _ ha => List.mem_cons_of_mem _ (List.mem_cons_of_mem _ ha)) rfl
  | acquire | unshelve | drain => exact .inr (hm.begin hext (List.Subset.refl _) rfl rfl)
  | shelve | proceed | discardEnd => exact .inr (hm.drop hext (List.subset_cons_self _ _) rfl)
  | forget => exact .inr (hm.drop hext (List.Subset.refl _) rfl)
  | exchange es e => exact .inr (hm.drop hext (fun _ => (mem_exchange es e _).1) rfl)
  | reckon | succeed | complete | discard =>
    exact .inr (hm.begin hext (List.subset_cons_self _ _) rfl rfl)
  | discardNext e es =>
    right
    refine hm.step hext (fun _ hj => .inl hj) ?_
    intro a ha
    rcases List.mem_cons.1 ha with rfl | ha
    · exact .inr rfl
    · rcases List.mem_cons.1 ha with rfl | ha
      · exact .inr rfl
      · exact .inl (List.mem_cons_of_mem _ ha)

/-- A task has been advanced, or every job of a task is an old one. -/
theorem Moves.steps_or_rests (h : Moves m n) (hm : m.Rests first) :
    (∃ id onGpu fresh, .stepped id onGpu ∈ fresh ∧ n.state.history = fresh ++ m.state.history) ∨
      n.Rests first := by
  induction h with
  | refl => exact .inr hm
  | @tail k l hmk hmove ih =>
    obtain ⟨more, hmore⟩ := hmove.extends.history
    rcases ih with ⟨id, onGpu, fresh, hmem, hfresh⟩ | hrests
    · refine .inl ⟨id, onGpu, more ++ fresh, List.mem_append_right more hmem, ?_⟩
      rw [← hmore, hfresh, List.append_assoc]
    · rcases hmove.work_or_same with (hbody | hjob | htask) | hsame
      · exact .inr (hrests.bodyMove hbody)
      · exact .inr (hrests.jobMove hjob)
      · rcases htask.steps_or_rests hrests with ⟨id, onGpu, hstepped⟩ | hl
        · obtain ⟨fresh, hfresh⟩ := Moves.history hmk
          refine .inl ⟨id, onGpu, .stepped id onGpu :: fresh, List.mem_cons_self, ?_⟩
          rw [hstepped, hfresh, List.cons_append]
        · exact .inr hl
      · exact .inr (hrests.sameWork hsame)

end Resting

/-! ### The law -/

/-- A GPU action that is claimed off the GPU thread is handed over as a job that was
never made before. -/
theorem stepTask_handsOver (call : Runner) {thread : Thread} (hthread : thread ≠ .main) (s : State)
    {e : Entry} (haffinity : e.currentAffinity = some .gpu) (hjob : e.job = none) :
    stepTask call thread e s = .ok () (((s.record (.stepped e.id false)).withJobs
      ((s.jobs.make (.action e.body e.cursor e.asset e.priority)).2.submit s.jobs.jobs.size)).withQueue
        (s.queue.giveBack (e.handedOver s.jobs.jobs.size))) := by
  have hoff : (thread == .main) = false := by simpa using hthread
  unfold stepTask
  rw [hoff, haffinity, hjob]
  simp only [hthread, ne_eq, not_false_eq_true, and_self, if_true]
  rfl

/-- In a run with workers no task is stranded. Between calls, a task that carries a
job carries the one of its current action, which is for the GPU thread; no two
tasks share a job; and a job that has not finished waits, so that workers skip a
task only while its own job waits. Earlier jobs of a task are for actions that it
has passed, so its next GPU action starts with a job of its own. A drain leaves no
task behind but those whose job was made in the meantime, when a callback had tasks
advanced. -/
theorem no_task_stranded {s : State} (hs : Occurs ⟨⟨[], s⟩, []⟩)
    (hoff : ∀ id, .stepped id true ∉ s.history) :
    (∀ e ∈ s.entries, ∀ j, e.job = some j →
      s.IsActionOf e.body j e.cursor e.asset e.priority ∧ e.currentAffinity = some .gpu ∧
        ((s.jobs.job j).finished = false → j ∈ s.jobs.waiting)) ∧
    (s.entries.filterMap (·.job)).Nodup ∧
    (∀ e ∈ s.queue.pending, s.runnable e = false →
      ∃ j ∈ s.jobs.waiting, e.job = some j ∧ (s.jobs.job j).started = false) ∧
    (∀ e ∈ s.entries, ∀ j i asset priority, s.IsActionOf e.body j i asset priority →
      i < e.cursor ∨ i = e.cursor ∧ e.job = some j) ∧
    (∀ (call : Runner) thread, thread ≠ .main → ∀ e ∈ s.entries,
      e.currentAffinity = some .gpu → e.job = none → ∃ t, stepTask call thread e s = .ok () t ∧
        t.queue = s.queue.giveBack (e.handedOver s.jobs.jobs.size) ∧
        t.IsActionOf e.body s.jobs.jobs.size e.cursor e.asset e.priority ∧
        (t.jobs.job s.jobs.jobs.size).started = false ∧ s.jobs.jobs.size ∈ t.jobs.waiting) ∧
    ∀ fuel thread count t, drainJobs (run fuel) thread s = .ok count t →
      (∀ id, .stepped id true ∉ t.history) →
      (∀ e ∈ t.queue.pending, t.runnable e = false → ∃ j, e.job = some j ∧ s.jobs.jobs.size ≤ j) ∧
      ((∀ id onGpu, .stepped id onGpu ∉ t.eventsSince s.history.length) →
        ∀ e ∈ t.queue.pending, t.runnable e = true) := by
  refine ⟨?_, nodup_jobs hs hoff, ?_, ?_, ?_, ?_⟩
  · intro e he j hjob
    obtain ⟨haction, haffinity⟩ := carried_job hs hoff he hjob
    exact ⟨haction, haffinity, fun hunfinished => (waiting_of_unfinished hs haction hunfinished).1⟩
  · intro e he hskipped
    obtain ⟨j, hwaits, hjob, -, hnew⟩ := waiting_of_not_runnable hs hoff he hskipped
    exact ⟨j, hwaits, hjob, hnew⟩
  · intro e he j i asset priority hj
    exact (hs.handed.resting e (State.mem_entries_iff.1 he) j i asset priority hj).2.2
  · intro call thread hthread e he haffinity hjob
    refine ⟨_, stepTask_handsOver call hthread s haffinity hjob, rfl, ?_⟩
    have hmade : ((s.jobs.make (.action e.body e.cursor e.asset e.priority)).2.submit
        s.jobs.jobs.size).job s.jobs.jobs.size =
          { work := .action e.body e.cursor e.asset e.priority } := by
      show (s.jobs.make _).2.job _ = _
      rw [JobQueue.job_make, if_pos rfl]
    have hknown : s.jobs.jobs.size < (s.jobs.make
        (.action e.body e.cursor e.asset e.priority)).2.jobs.size := by
      unfold JobQueue.make
      rw [Array.size_push]
      exact Nat.lt_succ_self _
    exact ⟨⟨hknown, congrArg Job.work hmade⟩, congrArg Job.started hmade,
      List.mem_append_right _ List.mem_cons_self⟩
  · intro fuel thread count t hdrain hoffLater
    have hstrides := (leads_drainJobs (run_isTraced fuel) thread []).strides hdrain []
    have hlater : Occurs ⟨⟨[], t⟩, []⟩ := hs.strides hstrides
    have hnewer : ∀ e ∈ t.queue.pending, t.runnable e = false →
        ∃ j, e.job = some j ∧ s.jobs.jobs.size ≤ j ∧
          t.IsActionOf e.body j e.cursor e.asset e.priority := by
      intro e he hskipped
      obtain ⟨j, hwaits, hjob, haction, hnew⟩ := waiting_of_not_runnable hlater hoffLater he hskipped
      refine ⟨j, hjob, Nat.le_of_not_lt fun hlt => ?_, haction⟩
      -- an older job waited when the drain began, so the drain has run it
      have hgrown := (hstrides.moves.extends.job j hlt).2
      have hold : (s.jobs.job j).finished = false := by
        rw [← Bool.not_eq_true]
        intro hfinished
        obtain ⟨-, k, hk, hunfinished⟩ := State.runnable_eq_false.1 hskipped
        rw [hjob, Option.some.injEq] at hk
        subst hk
        rw [hgrown.finished hfinished] at hunfinished
        cases hunfinished
      have hwaited := (waiting_of_unfinished hs ⟨hlt, hgrown.work ▸ haction.2⟩ hold).1
      have hstarted := started_of_drainJobs (run_isTraced fuel) hdrain j hwaited hlt
      rw [hnew] at hstarted
      cases hstarted
    constructor
    · intro e he hskipped
      obtain ⟨j, hjob, hle, -⟩ := hnewer e he hskipped
      exact ⟨j, hjob, hle⟩
    · intro hquiet e he
      rw [← Bool.not_eq_false]
      intro hskipped
      obtain ⟨j, -, hle, haction⟩ := hnewer e he hskipped
      have hrests : (⟨[], s⟩ : Moment).Rests s.jobs.jobs.size :=
        ⟨fun _ ha => absurd ha List.not_mem_nil, fun _ _ _ _ _ hj => hj.1⟩
      rcases hstrides.moves.steps_or_rests hrests with ⟨id, onGpu, fresh, hmem, hfresh⟩ | hold
      · apply hquiet id onGpu
        rw [State.eventsSince_eq hfresh]
        exact List.mem_reverse.2 hmem
      · exact absurd (hold.jobs _ _ _ _ _ haction) (Nat.not_lt.2 hle)

/-- A worker has handed the GPU action of a task over. -/
@[irreducible]
def gpuActionHandedOver : State :=
  (Session.bare .manual).start.after 6
    [(.main, .findOrCreate "mesh" (.standard .mesh) (.ofId ⟨1⟩)), (.main, .enqueue gpuPlan),
      (.worker 0, .work)]

/-- The task is skipped, and its job waits. After a drain it can go on. -/
theorem gpuActionHandedOver_not_stranded :
    (∃ e ∈ gpuActionHandedOver.queue.pending, gpuActionHandedOver.runnable e = false ∧
      ∃ j ∈ gpuActionHandedOver.jobs.waiting, e.job = some j) ∧
      ∀ count t, drainJobs (run 6) .main gpuActionHandedOver = .ok count t →
        t.history.any Event.isUnruly = false →
        (t.eventsSince gpuActionHandedOver.history.length).all (fun e => e.subject != .task) = true →
        ∀ e ∈ t.queue.pending, t.runnable e = true := by
  -- the client made the state, so the general result holds of it
  have hreached : Reached gpuActionHandedOver := by
    unfold gpuActionHandedOver
    exact (Reached.start _).after 6 _
  have hnever {t : State} (ht : t.history.any Event.isUnruly = false) (id : Nat) :
      .stepped id true ∉ t.history :=
    fun hmem => List.any_eq_false.1 ht _ hmem rfl
  obtain ⟨-, -, hwaits, -, -, hdrain⟩ :=
    no_task_stranded hreached.occurs (hnever (by decide +kernel))
  constructor
  · have hany : gpuActionHandedOver.queue.pending.any
        (fun e => !gpuActionHandedOver.runnable e) = true := by decide +kernel
    obtain ⟨e, he, hskipped⟩ := List.any_eq_true.1 hany
    rw [Bool.not_eq_true'] at hskipped
    obtain ⟨j, hj, hjob, -⟩ := hwaits e he hskipped
    exact ⟨e, he, hskipped, j, hj, hjob⟩
  · intro count t hrun hoff hquiet
    refine (hdrain 6 .main count t hrun (hnever hoff)).2 ?_
    intro id onGpu hmem
    have hsubject := List.all_eq_true.1 hquiet _ hmem
    cases hsubject

/-- The drain of the witness returns, and no task is advanced in it. -/
example : (match drainJobs (run 6) .main gpuActionHandedOver with
    | .ok _ t => t.queue.pending.all t.runnable && !t.history.any Event.isUnruly
    | .error _ _ => false) = true := by
  decide +kernel

end AssetLoading
