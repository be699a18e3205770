import AssetLoading.Proofs.Run.Reached
import AssetLoading.Proofs.Tasks.Drains
import AssetLoading.Proofs.Threads.Once
import AssetLoading.Proofs.Threads.Scripts

/-! # Where code runs, and how often

  Code for the GPU thread is reached in many ways: a task that is advanced on that
  thread, a job that an action was handed over as, a job that another thread waits
  for, a drain by an update, by a waiting thread, by a shutdown that waits for its
  workers or at the end of it. In every session of operations that clients have,
  however its workers stop and its operations end, that code runs on the GPU thread
  and runs once; and with workers, code for workers runs on no other thread than
  theirs.

  A thread that hands code to the GPU thread is told what the code returned. On the
  GPU thread the code runs where it stands, without a job. From elsewhere one job
  is made, and the thread waits until the waiting jobs have been run.
-/

namespace AssetLoading

/-! ### Sessions that go on -/

/-- The states that a session of operations that clients have is in after an
operation, be it answered or not. -/
inductive Endured : State → Prop where
  /-- The session starts. -/
  | start (p : Session) : Endured p.start
  /-- An operation is performed, on any thread, and ends in some way. -/
  | perform {s : State} (fuel : Nat) (thread : Thread) {op : Op} (hs : Endured s) (hop : op.Public) :
      Endured (performOn fuel s thread op).2
  /-- The client forgets its claims. -/
  | forget {s : State} (hs : Endured s) : Endured { s with client := { s.client with claims := [] } }

/-- What holds when a session starts, is preserved by every move, and does not depend
on what is under way, holds however operations end. -/
theorem Endured.invariant {P : Moment → Prop} (hstart : ∀ p : Session, P ⟨[], p.start⟩)
    (hstep : ∀ m n, Move m n → P m → P n) (hunwind : ∀ m, P m → P ⟨[], m.state⟩)
    (hdrop : ∀ s holder h, P ⟨[], s⟩ → P ⟨[], s.dropped holder h⟩) {s : State} (h : Endured s) :
    P ⟨[], s⟩ := by
  induction h with
  | start p => exact hstart p
  | @perform s fuel thread op _ _ ih =>
    cases hend : performOn fuel s thread op with
    | mk outcome t =>
      cases outcome with
      | answered reply => exact (moves_of_answered hend).preserve hstep ih
      | halted reason =>
        obtain ⟨n, hn, hends⟩ := moves_of_halted hend
        have hlast := hunwind n (hn.preserve hstep ih)
        rcases hends.state_eq with heq | ⟨holder, k, heq⟩
        · exact heq ▸ hlast
        · exact heq ▸ hdrop _ holder k hlast
  | forget _ ih => exact hstep _ _ (.task .forget) ih

/-! ### How often -/

section Once

variable {m : Moment} {s : State}

theorem Moment.sameWork_dropped (s : State) (holder : Holder) (h : Handle) :
    Moment.SameWork ⟨[], s⟩ ⟨[], s.dropped holder h⟩ :=
  ⟨rfl, rfl, rfl, rfl, rfl, rfl, .asset, by decide, by decide, .one rfl rfl⟩

/-- No job starts twice, however operations end. -/
theorem Endured.jobsOnce (h : Endured s) : JobsOnce ⟨[], s⟩ :=
  h.invariant JobsOnce.start (fun _ _ hmove hm => hm.move hmove) (fun _ hm => ⟨hm.started, hm.nodup⟩)
    fun s holder k hm => hm.same rfl (Moment.sameWork_dropped s holder k).extends

theorem Consistent.unwind (h : Consistent m) : Consistent ⟨[], m.state⟩ := by
  refine h.drop (.refl _) ?_ (List.nil_subset _) rfl
  exact add_le_add (Multiset.zero_le _) le_rfl

theorem Sparing.unwind (h : Sparing m) : Sparing ⟨[], m.state⟩ := by
  refine h.mono (.refl _) fun b i => Nat.add_le_add_left (hopes_le ?_ (Nat.zero_le _) rfl) _
  exact add_le_add (Multiset.zero_le _) le_rfl

/-- As long as tasks keep to their thread, every action has one chance to run, however
operations end. -/
theorem Endured.sparing (h : Endured s) (hkeeps : KeepsToThread s.history) : Sparing ⟨[], s⟩ := by
  let P (m : Moment) : Prop := KeepsToThread m.state.history → Consistent m ∧ Sparing m
  have hsame {m n : Moment} (hmn : m.SameWork n) (hm : P m) : P n := by
    intro hn
    obtain ⟨hconsistent, hsparing⟩ := hm (hn.of_suffix hmn.extends.history)
    exact ⟨hconsistent.sameWork hmn, hsparing.mono hmn.extends fun _ _ => hmn.chances_le⟩
  refine (h.invariant (P := P) (fun p _ => ⟨Consistent.start p, Sparing.start p⟩) ?_ ?_ ?_ hkeeps).2
  · intro m n hmove hm hn
    obtain ⟨hconsistent, hsparing⟩ := hm (hn.of_suffix hmove.extends.history)
    exact ⟨hconsistent.move_of_keeps hmove hn, hsparing.move hconsistent hmove⟩
  · exact fun m hm hn => ⟨(hm hn).1.unwind, (hm hn).2.unwind⟩
  · exact fun s holder k => hsame (Moment.sameWork_dropped s holder k)

/-- No action runs twice. -/
theorem Sparing.nodup (h : Sparing m) : m.state.actionsRun.Nodup := by
  rw [List.nodup_iff_count_le_one]
  rintro ⟨b, i⟩
  have hchances := h b i
  unfold Moment.chances at hchances
  split at hchances <;> omega

end Once

/-! ### Where -/

theorem State.disciplined_start (p : Session) : p.start.Disciplined := by
  have hbare : Disciplined
      { storage := { root := p.settings.root }
        settings := p.settings
        workers := if p.mode = .pool then p.workers else 0
        parting := p.parting
        client := { discreet := p.mode = .pool } } := by
    constructor
    · exact fun b code hcode => nomatch hcode
    · exact fun h c hc => nomatch hc
    · exact fun l hl => nomatch hl
    · exact fun j => Script.public_nil
    · exact fun e he => nomatch he
    · exact fun l hl => nomatch hl
    · exact fun b name i onGpu data hacted => nomatch hacted
    · exact fun onGpu hcalled => nomatch hcalled
  unfold Session.start
  dsimp only
  split
  · exact hbare.quiet (.record trivial)
  · exact hbare

/-- What is stored agrees, and code ran where it had to, however operations end. -/
theorem Endured.disciplined {s : State} (h : Endured s) : s.Disciplined := by
  induction h with
  | start p => exact State.disciplined_start p
  | @perform s fuel thread op _ hop ih =>
    have hkept := keeps_perform (p := True) fuel { thread } (fun _ => hop) s fun _ => ih
    unfold Guarded at hkept
    unfold performOn EStateM.run
    split
    next reply t hrun =>
      rw [hrun] at hkept
      exact (hkept.2 trivial).1
    next reason t hrun =>
      rw [hrun] at hkept
      exact hkept.2 trivial
  | forget _ ih => exact ih.withClient fun l hl => nomatch hl

/-! ### Handing code to the GPU thread -/

/-- The state in which a thread waits for work that it handed to the GPU thread: there
is one more job, the last one to be run. -/
def State.handed (s : State) (w : Work) : State :=
  let t := s.withJobs
    { jobs := s.jobs.jobs.push { work := w }, waiting := s.jobs.waiting ++ [s.jobs.jobs.size] }
  if s.settings.warnAfter = 0 then t.record (.logged .warn longWaitMessage []) else t

/-- What a thread is told that waited for a job. -/
def answerOf (j : JobId) : Exec Bool := do
  let job := (← get).jobs.job j
  if job.finished then pure job.success else throw .stuck

section Handing

variable {call : Runner} {thread : Thread} {s t : State} {w : Work}

theorem State.jobs_handed (s : State) (w : Work) : (s.handed w).jobs =
    { jobs := s.jobs.jobs.push { work := w }, waiting := s.jobs.waiting ++ [s.jobs.jobs.size] } := by
  unfold handed
  dsimp only
  split <;> rfl

theorem State.history_handed (s : State) (w : Work) : s.history <:+ (s.handed w).history := by
  unfold handed
  dsimp only
  split
  · exact List.suffix_cons _ _
  · exact List.suffix_rfl

theorem State.job_handed (s : State) (w : Work) :
    (s.handed w).jobs.job s.jobs.jobs.size = { work := w } := by
  have hjob := s.jobs.job_make w s.jobs.jobs.size
  rw [if_pos rfl] at hjob
  rw [jobs_handed]
  exact hjob

/-- From another thread, one job is made, the waiting jobs are run, and the answer is
that of the job. -/
theorem callOnGpuThread_run (hthread : thread ≠ .main) : callOnGpuThread call thread w s =
    (drainJobs call .main >>= fun _ => answerOf s.jobs.jobs.size) (s.handed w) := by
  unfold callOnGpuThread State.handed
  rw [if_neg hthread]
  show (if s.settings.warnAfter = 0 then _ else _ : Exec Bool) _ = _
  split
  · rfl
  · rfl

/-- Work that a thread waits for is code. -/
theorem doWork_call_eq_ok {asset : Option Handle} {code : Script} {ok r : Bool}
    (h : doWork call thread (.call asset code ok) s = .ok r t) :
    ∃ ran, call (.script { thread, asset } code) (s.record (.gpuCalled (thread == .main))) = .ok ran t ∧
      r = (ran && ok) := by
  have hrest : (call (.script { thread, asset } code) >>= fun ran => pure (ran && ok))
      (s.record (.gpuCalled (thread == .main))) = .ok r t := h
  obtain ⟨ran, q, hrun, hend⟩ := Exec.bind_eq_ok hrest
  cases hend
  exact ⟨ran, hrun, rfl⟩

/-- If the drain returns, so does the call, with what the code of its job returned. -/
theorem callOnGpuThread_of_drain {fuel n : Nat} {asset : Option Handle} {code : Script} {ok : Bool}
    (hthread : thread ≠ .main)
    (hdrain : drainJobs (run fuel) .main (s.handed (.call asset code ok)) = .ok n t) :
    ∃ fuel' thread' label past ran, ∃ begun done : State,
      callOnGpuThread (run fuel) thread (.call asset code ok) s = .ok (ran && ok) t ∧
      begun.history = .jobStarted s.jobs.jobs.size label :: past ∧ s.history <:+ past ∧
      run fuel' (.script { thread := thread', asset } code)
        (begun.record (.gpuCalled (thread' == .main))) = .ok ran done ∧
      done.history <:+ t.history := by
  have hjob := s.job_handed (.call asset code ok)
  have hjobs := s.jobs_handed (.call asset code ok)
  have hmem : s.jobs.jobs.size ∈ (s.handed (.call asset code ok)).jobs.waiting := by
    rw [hjobs]
    exact List.mem_append_right _ List.mem_cons_self
  have hmade : s.jobs.jobs.size < (s.handed (.call asset code ok)).jobs.jobs.size := by
    rw [hjobs, Array.size_push]
    exact Nat.lt_succ_self _
  have hfinished := finished_of_drainJobs (run_isTraced fuel) hdrain hmem hmade (by rw [hjob])
  have hbefore := ((keeps_drainJobs (run_isGuarded False fuel) False.elim).guarded False.elim).before
    hdrain
  have hwork : (t.jobs.job s.jobs.jobs.size).work = .call asset code ok := by
    rw [(hbefore.grows.job _ hmade).2.work, hjob]
  -- the job is new, so it was not finished before: the drain has run it
  rcases hbefore.finished _ hfinished with ⟨hold, -⟩ | ⟨fuel', thread', begun, done, label, past, hworked,
    hbegun, hpast, hdone⟩
  · rw [hjob] at hold
    cases hold
  · rw [hwork] at hworked
    obtain ⟨ran, hran, hanswer⟩ := doWork_call_eq_ok hworked
    refine ⟨fuel', thread', label, past, ran, begun, done, ?_, hbegun,
      (s.history_handed _).trans hpast, hran, hdone⟩
    rw [callOnGpuThread_run hthread]
    show EStateM.bind _ _ _ = _
    unfold EStateM.bind
    rw [hdrain, ← hanswer]
    show (if (t.jobs.job s.jobs.jobs.size).finished then _ else _ : Exec Bool) t = _
    rw [if_pos hfinished]
    rfl

/-- If the drain comes to an early end, so does the call. -/
theorem callOnGpuThread_of_drain_error {reason : Halt} (hthread : thread ≠ .main)
    (hdrain : drainJobs call .main (s.handed w) = .error reason t) :
    callOnGpuThread call thread w s = .error reason t := by
  rw [callOnGpuThread_run hthread]
  show EStateM.bind _ _ _ = _
  unfold EStateM.bind
  rw [hdrain]

end Handing

/-! ### The law -/

/-- In every session of operations that clients have, an action for the GPU thread
runs on that thread, and an action for workers does not if no task is advanced there;
no action runs twice if all tasks are advanced on the GPU thread or none is; code that
was handed to the GPU thread runs there, and no job runs twice. On the GPU thread,
code that is handed to it runs in place. From any other thread one job is made, which
runs the code after the jobs that wait already; if they all return, the thread is told
what the code returned. -/
theorem thread_affinity :
    (∀ s, Endured s →
      (∀ b name i onGpu data, .acted b name i onGpu data ∈ s.history →
        ∃ affinity, s.affinity? b i = some affinity ∧ (affinity = .gpu → onGpu = true) ∧
          (affinity = .worker → (∀ id, .stepped id true ∉ s.history) → onGpu = false)) ∧
      ((∀ id, .stepped id false ∉ s.history) ∨ (∀ id, .stepped id true ∉ s.history) →
        s.actionsRun.Nodup) ∧
      (∀ onGpu, .gpuCalled onGpu ∈ s.history → onGpu = true) ∧ s.jobsRun.Nodup) ∧
    (∀ call asset code ok s, callOnGpuThread call .main (.call asset code ok) s =
      (call (.script { thread := .main, asset } code) >>= fun ran => pure (ran && ok))
        (s.record (.gpuCalled true))) ∧
    ∀ fuel thread asset code ok s, thread ≠ .main →
      (s.handed (.call asset code ok)).jobs =
        { jobs := s.jobs.jobs.push { work := .call asset code ok }
          waiting := s.jobs.waiting ++ [s.jobs.jobs.size] } ∧
      (∀ reason t, drainJobs (run fuel) .main (s.handed (.call asset code ok)) = .error reason t →
        callOnGpuThread (run fuel) thread (.call asset code ok) s = .error reason t) ∧
      ∀ n t, drainJobs (run fuel) .main (s.handed (.call asset code ok)) = .ok n t →
        ∃ fuel' thread' label past ran, ∃ begun done : State,
          callOnGpuThread (run fuel) thread (.call asset code ok) s = .ok (ran && ok) t ∧
          begun.history = .jobStarted s.jobs.jobs.size label :: past ∧ s.history <:+ past ∧
          run fuel' (.script { thread := thread', asset } code)
            (begun.record (.gpuCalled (thread' == .main))) = .ok ran done ∧
          done.history <:+ t.history := by
  refine ⟨fun s hs => ⟨?_, ?_, hs.disciplined.called, hs.jobsOnce.nodup⟩, fun _ _ _ _ _ => rfl, ?_⟩
  · intro b name i onGpu data hacted
    have hmay := hs.disciplined.acted b name i onGpu data hacted
    -- whoever ran the action was allowed to, by the discipline that every move keeps
    obtain ⟨affinity, haffinity⟩ := hmay.exists_affinity
    refine ⟨affinity, haffinity, fun hgpu => hmay.gpu (hgpu ▸ haffinity), fun hworker hnone => ?_⟩
    cases onGpu with
    | false => rfl
    | true =>
      obtain ⟨id, hid⟩ := hmay.worker (hworker ▸ haffinity) rfl
      exact absurd hid (hnone id)
  · -- with tasks stepped on one side only, no action gets the chance to run twice
    rintro (honGpu | hoffGpu)
    · exact (hs.sparing (.of_onGpu honGpu)).nodup
    · exact (hs.sparing (.of_offGpu hoffGpu)).nodup
  · intro fuel thread asset code ok s hthread
    exact ⟨s.jobs_handed _, fun _ _ => callOnGpuThread_of_drain_error hthread,
      fun _ _ => callOnGpuThread_of_drain hthread⟩

/-- Some operations are performed one after the other, however they end. -/
def State.through (fuel : Nat) (s : State) (ops : List (Thread × Op)) : State :=
  ops.foldl (fun s op => (performOn fuel s op.1 op.2).2) s

theorem Endured.through {s : State} (hs : Endured s) (fuel : Nat) {ops : List (Thread × Op)}
    (hops : ∀ op ∈ ops, op.2.Public) : Endured (s.through fuel ops) := by
  induction ops generalizing s with
  | nil => exact hs
  | cons op ops ih =>
    have hrest (d : Thread × Op) (hd : d ∈ ops) := hops d (List.mem_cons_of_mem op hd)
    exact ih (hs.perform fuel op.1 (hops op List.mem_cons_self)) hrest

/-- A task with an action for the GPU thread, which hands code to that thread, and one
for workers. -/
def mixedPlan : TaskPlan Script where
  name := "mixed"
  asset := .labelled "mesh"
  priority := 0
  complexity := 0
  data := []
  actions := [⟨.gpu, [Op.anyway (.gpuCall [] true)], true⟩, ⟨.worker, [], true⟩]
  onFailure := none
  onFree := none

/-- A worker advances the task, the main thread runs the jobs, and last of all a thread
waits for code that unwinds. -/
@[irreducible]
def mixedRun : State :=
  (Session.bare .manual).start.through 12
    [(.main, .findOrCreate "mesh" (.standard .mesh) (.ofId ⟨1⟩)), (.main, .enqueue mixedPlan),
      (.worker 0, .work), (.main, .step 1), (.worker 0, .work), (.worker 0, .work),
      (.other, .gpuCall [Op.anyway (.panic "lost")] true)]

/-- An operation without scripts. -/
theorem Op.Public.plain {op : Op} (hop : op.runsJobs = false) (hnone : op.scripts = []) : op.Public :=
  .intro op hop fun _ hcode => absurd (hnone ▸ hcode) List.not_mem_nil

theorem Op.Public.gpuCall {code : Script} {ok : Bool} (hcode : Script.Public code) :
    (Op.gpuCall code ok).Public :=
  .intro _ rfl fun _ hmem => List.mem_singleton.1 hmem ▸ hcode

theorem Op.Public.once {op : Op} (hop : op.Public) : Script.Public [op.anyway] :=
  fun _ hstep => List.mem_singleton.1 hstep ▸ hop

theorem public_mixedPlan : (Op.enqueue mixedPlan).Public := by
  refine .intro _ rfl fun code hcode => ?_
  have hscripts : code ∈ [[Op.anyway (.gpuCall [] true)], []] := hcode
  rcases List.mem_cons.1 hscripts with rfl | hlast
  · exact .once (.gpuCall Script.public_nil)
  · rw [List.mem_singleton.1 hlast]
    exact Script.public_nil

theorem endured_mixedRun : Endured mixedRun := by
  unfold mixedRun
  refine (Endured.start _).through 12 fun op hop => ?_
  simp only [List.mem_cons, List.not_mem_nil, or_false] at hop
  rcases hop with rfl | rfl | rfl | rfl | rfl | rfl | rfl
  · exact .plain rfl rfl
  · exact public_mixedPlan
  · exact .plain rfl rfl
  · exact .plain rfl rfl
  · exact .plain rfl rfl
  · exact .plain rfl rfl
  · exact .gpuCall (.once (.plain rfl rfl))

/-- A session is shut down while its one worker has the task in hand. The worker
hands its action over, and the main thread runs that job while it waits. -/
@[irreducible]
def partedRun : State :=
  let parting : Parting := { busy := 1, turns := [.step 0, .pump] }
  { Session.bare .pool with parting }.start.through 12
    [(.main, .findOrCreate "mesh" (.standard .mesh) (.ofId ⟨1⟩)), (.main, .enqueue mixedPlan),
      (.main, .shutdown)]

theorem endured_partedRun : Endured partedRun := by
  unfold partedRun
  refine (Endured.start _).through 12 fun op hop => ?_
  simp only [List.mem_cons, List.not_mem_nil, or_false] at hop
  rcases hop with rfl | rfl | rfl
  · exact .plain rfl rfl
  · exact public_mixedPlan
  · exact .plain rfl rfl

theorem mixedRun_keeps_affinity :
    mixedRun.actionsRun = [(0, 1), (0, 0)] ∧ mixedRun.actionsRun.Nodup ∧
      (∀ name onGpu data, .acted 0 name 0 onGpu data ∈ mixedRun.history → onGpu = true) ∧
      (∀ name onGpu data, .acted 0 name 1 onGpu data ∈ mixedRun.history → onGpu = false) ∧
      (partedRun.actionsRun = [(0, 0)] ∧
        ∀ name onGpu data, .acted 0 name 0 onGpu data ∈ partedRun.history → onGpu = true) ∧
      ∃ answer t, callOnGpuThread (run 12) .other (.call none [] true) mixedRun = .ok answer t := by
  obtain ⟨hall, -, haway⟩ := thread_affinity
  obtain ⟨hparted, -, -, -⟩ := hall partedRun endured_partedRun
  obtain ⟨hacted, honce, -, -⟩ := hall mixedRun endured_mixedRun
  -- no task is stepped on the main thread in this run
  have hoff (id : Nat) : .stepped id true ∉ mixedRun.history := by
    have hnone : mixedRun.history.all (fun e => match e with | .stepped _ true => false | _ => true) =
        true := by decide +kernel
    intro hmem
    exact absurd (List.all_eq_true.1 hnone _ hmem) Bool.false_ne_true
  have hgpu : mixedRun.affinity? 0 0 = some .gpu := by decide +kernel
  have hworker : mixedRun.affinity? 0 1 = some .worker := by decide +kernel
  have hpumped : partedRun.affinity? 0 0 = some .gpu := by decide +kernel
  refine ⟨by decide +kernel, honce (.inr hoff), ?_, ?_, ⟨by decide +kernel, ?_⟩, ?_⟩
  · intro name onGpu data hmem
    obtain ⟨affinity, haffinity, honGpu, -⟩ := hacted 0 name 0 onGpu data hmem
    rw [hgpu, Option.some.injEq] at haffinity
    exact honGpu haffinity.symm
  · intro name onGpu data hmem
    obtain ⟨affinity, haffinity, -, hoffGpu⟩ := hacted 0 name 1 onGpu data hmem
    rw [hworker, Option.some.injEq] at haffinity
    exact hoffGpu haffinity.symm hoff
  · intro name onGpu data hmem
    obtain ⟨affinity, haffinity, honGpu, -⟩ := hparted 0 name 0 onGpu data hmem
    rw [hpumped, Option.some.injEq] at haffinity
    exact honGpu haffinity.symm
  · obtain ⟨n, hdrain⟩ := State.run_of_isOk (s := mixedRun.handed (.call none [] true))
      (x := drainJobs (run 12) .main) (by decide +kernel)
    obtain ⟨-, -, hreturns⟩ := haway 12 .other none [] true mixedRun (by decide)
    obtain ⟨-, -, -, -, ran, -, -, hreturn, -⟩ := hreturns n _ hdrain
    exact ⟨ran && true, _, hreturn⟩

end AssetLoading
