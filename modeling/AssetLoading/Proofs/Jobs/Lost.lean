import AssetLoading.Proofs.Jobs.Order
import AssetLoading.Proofs.Unwinding.Claims

/-! # Jobs that are lost

  A job that was submitted is to be finished, or to wait for a drain that finishes it.
  No code that returns loses a job. A drain takes all the jobs that wait out of their
  queue before it runs the first one, so where the work of one of them unwinds, that job
  never finishes and the ones behind it no longer wait. Whoever waits for the first one
  waits for ever, and a task that carries it is never taken up again.
-/

namespace AssetLoading

/-! ### Sessions in which calls unwind -/

/-- The moments of sessions in which calls may have unwound. -/
def Visited (m : Moment) : Prop :=
  ∃ (p : Session) (s : State), Relation.ReflTransGen State.GoesOn p.start s ∧ Moves ⟨[], s⟩ m

namespace Visited

variable {m n : Moment}

/-- What holds when a session starts, is preserved by every move, and does not depend
on what is under way. -/
theorem invariant {P : Moment → Prop} (hstart : ∀ p : Session, P ⟨[], p.start⟩)
    (hstep : ∀ m n, Move m n → P m → P n) (hunwind : ∀ m, P m → P ⟨[], m.state⟩)
    (h : Visited m) : P m := by
  obtain ⟨p, s, hs, hmoves⟩ := h
  have hrest : P ⟨[], s⟩ := by
    clear hmoves
    induction hs with
    | refl => exact hstart p
    | tail _ hcall ih => exact hcall.preserve hstep hunwind ih
  exact hmoves.preserve hstep hrest

theorem moves (h : Visited m) (hmoves : Moves m n) : Visited n := by
  obtain ⟨p, s, hs, hm⟩ := h
  exact ⟨p, s, hs, hm.trans hmoves⟩

theorem engaged (h : Visited m) : Engaged m :=
  h.invariant Engaged.start (fun _ _ hmove hm => hm.move hmove) fun _ hm => hm.unwind

theorem jobsOnce (h : Visited m) : JobsOnce m :=
  h.invariant JobsOnce.start (fun _ _ hmove hm => hm.move hmove) fun _ hm => ⟨hm.started, hm.nodup⟩

end Visited

/-- Between calls the jobs that wait were made. -/
theorem knowsJobs_of_goesOn {p : Session} {s : State}
    (h : Relation.ReflTransGen State.GoesOn p.start s) : s.KnowsJobs := by
  induction h with
  | refl => exact p.knowsJobs_start
  | tail _ hcall ih =>
    obtain ⟨fuel, thread, op, outcome, hrun, -⟩ := hcall
    exact ih.performOn hrun

/-! ### Jobs that are kept -/

/-- A job has finished, or runs, or is to start: it waits, or a drain has it before it. -/
def Moment.KeepsJob (j : JobId) (m : Moment) : Prop :=
  (m.state.jobs.job j).finished = true ∨ j ∈ m.running ∨
    (m.state.jobs.job j).started = false ∧ j ∈ m.line

/-- Between calls a kept job has finished or waits to be run. -/
theorem keepsJob_iff_of_rest {j : JobId} {s : State} :
    (⟨[], s⟩ : Moment).KeepsJob j ↔
      (s.jobs.job j).finished = true ∨ (s.jobs.job j).started = false ∧ j ∈ s.jobs.waiting := by
  have hline : (⟨[], s⟩ : Moment).line = s.jobs.waiting := List.append_nil _
  unfold Moment.KeepsJob
  rw [hline]
  exact or_congr_right (or_iff_right List.not_mem_nil)

/-- A job is taken out of the line when it has started. -/
theorem JobLog.Step.mem_line {m n : Moment} {log after : JobLog} (h : log.Step m n after) {j : JobId}
    (hj : j ∈ m.line) (hnew : (n.state.jobs.job j).started = false) : j ∈ n.line := by
  rw [Moment.line_eq] at hj ⊢
  cases h with
  | submit k hwaiting hdrains =>
    rw [hwaiting, hdrains, List.append_assoc]
    rcases List.mem_append.1 hj with hj | hj
    · exact List.mem_append_left _ hj
    · exact List.mem_append_right _ (List.mem_append_right _ hj)
  | drain hwaiting hdrains =>
    rw [hwaiting, hdrains]
    exact hj
  | turn k js rest hbefore hafter hstarted hwaiting =>
    rw [hbefore] at hj
    rw [hwaiting, hafter]
    rcases List.mem_append.1 hj with hj | hj
    · exact List.mem_append_left _ hj
    · rcases List.mem_cons.1 hj with rfl | hj
      · -- the job whose turn it was is the only one to leave, and it has started
        rw [hnew] at hstarted
        cases hstarted
      · exact List.mem_append_right _ hj
  | drained hdrains hwaiting =>
    rw [hdrains] at hj
    rw [hwaiting]
    exact hj
  | keep hwaiting hdrains =>
    rw [hwaiting, hdrains]
    exact hj

namespace Moment.KeepsJob

variable {j : JobId} {m n : Moment}

/-- A job that is to start stays in line until it starts. -/
theorem move (h : m.KeepsJob j) (hm : Engaged m) (hmove : Move m n) : n.KeepsJob j := by
  -- where the job stands in line does not depend on what was logged before
  obtain ⟨after, hstep⟩ := hmove.exists_step {}
  have hline (hnew : (n.state.jobs.job j).started = false) (hj : j ∈ m.line) : n.KeepsJob j :=
    .inr (.inr ⟨hnew, hstep.mem_line hj hnew⟩)
  rcases h with hfinished | hrunning | ⟨hnew, hj⟩
  · exact .inl (hm.finished_move hmove hfinished).1
  · cases hmove.jobChange with
    | same _ hsame => exact .inr (.inl (hsame ▸ hrunning))
    | make _ _ hsame => exact .inr (.inl (hsame ▸ hrunning))
    | start k _ _ hgained => exact .inr (.inl (hgained ▸ List.mem_cons_of_mem k hrunning))
    | finish k ok hjobs hlost =>
      rw [hlost] at hrunning
      rcases List.mem_cons.1 hrunning with rfl | hrunning
      · left
        rw [JobQueue.job_ended hjobs, if_pos ⟨rfl, (hm.isOpen j (hlost ▸ List.mem_cons_self)).made⟩]
      · exact .inr (.inl hrunning)
  · cases hmove.jobChange with
    | same hjobs => exact hline (JobQueue.job_congr hjobs j ▸ hnew) hj
    | make w hjobs =>
      refine hline ?_ hj
      rw [JobQueue.job_pushed hjobs]
      split
      · rfl
      · exact hnew
    | start k _ hjobs hgained =>
      by_cases heq : k = j
      · exact .inr (.inl (hgained ▸ heq ▸ List.mem_cons_self))
      · refine hline ?_ hj
        rw [JobQueue.job_begun hjobs, if_neg fun h => heq h.1]
        exact hnew
    | finish k ok hjobs hlost =>
      have hne := JobQueue.ne_of_started hnew (hm.isOpen k (hlost ▸ List.mem_cons_self)).started
      refine hline ?_ hj
      rw [JobQueue.job_ended hjobs, if_neg fun h => hne h.1.symm]
      exact hnew

/-- As long as no call unwinds, a kept job stays kept. -/
theorem moves (h : m.KeepsJob j) (hm : Engaged m) (hmoves : Moves m n) : n.KeepsJob j := by
  induction hmoves with
  | refl => exact h
  | tail hpath hmove ih => exact ih.move (hm.moves hpath) hmove

/-- A job that waits is kept, unless its work was cut short. -/
theorem of_mem_waiting (hj : j ∈ m.state.jobs.waiting) (hmade : j < m.state.jobs.jobs.size) :
    m.KeepsJob j ∨ m.CutShort j := by
  cases hstarted : (m.state.jobs.job j).started with
  | false => exact .inl (.inr (.inr ⟨hstarted, List.mem_append_left _ hj⟩))
  | true =>
    cases hfinished : (m.state.jobs.job j).finished with
    | true => exact .inl (.inl hfinished)
    | false =>
      by_cases hrunning : j ∈ m.running
      · exact .inl (.inr (.inl hrunning))
      · exact .inr ⟨⟨hmade, hstarted, hfinished⟩, hrunning⟩

end Moment.KeepsJob

/-- A job whose work was cut short is not kept. -/
theorem Moment.CutShort.not_keepsJob {j : JobId} {m : Moment} (h : m.CutShort j) : ¬ m.KeepsJob j := by
  rintro (hfinished | hrunning | ⟨hnew, -⟩)
  · rw [h.isOpen.unfinished] at hfinished
    cases hfinished
  · exact h.idle hrunning
  · rw [h.isOpen.started] at hnew
    cases hnew

/-- As long as nothing has unwound, no work was cut short. -/
theorem InFlight.not_cutShort {m : Moment} (h : InFlight m) (j : JobId) : ¬ m.CutShort j :=
  fun hcut => hcut.idle (h j hcut.isOpen.made hcut.isOpen.started hcut.isOpen.unfinished)

/-! ### Drains that unwind -/

section Unwinding

variable {call : Runner} {thread : Thread} {s t : State} {e : Halt}

/-- Only the work of a job that has not started comes to an early end. -/
theorem doWork_of_runJob {j : JobId} (h : runJob call thread j s = .error e t) :
    (s.jobs.job j).started = false ∧
      doWork call thread (s.jobs.job j).work (s.jobStarted j) = .error e t := by
  unfold runJob at h
  change (if !(s.jobs.job j).started then _ else pure () : Exec Unit) s = _ at h
  cases hstarted : (s.jobs.job j).started with
  | true =>
    rw [hstarted] at h
    cases h
  | false =>
    rw [hstarted] at h
    refine ⟨rfl, ?_⟩
    have hwork : (doWork call thread (s.jobs.job j).work >>= fun success => do
        modifyJobs (·.modify j fun job => { job with success, finished := true })
        record (.jobEnded j success)) (s.jobStarted j) = .error e t := h
    rcases Exec.bind_eq_error hwork with hends | ⟨ok, r, -, hrest⟩
    · exact hends
    · cases hrest

/-- Jobs are run one after the other up to the one that comes to an early end. -/
theorem runJobs_eq_error {js : List JobId} (h : runJobs call thread js s = .error e t) :
    ∃ front j rest r, js = front ++ j :: rest ∧ runJobs call thread front s = .ok () r ∧
      runJob call thread j r = .error e t := by
  induction js generalizing s with
  | nil => cases h
  | cons j js ih =>
    rcases Exec.bind_eq_error h with hends | ⟨_, r, hfirst, hrest⟩
    · exact ⟨[], j, js, s, rfl, rfl, hends⟩
    · obtain ⟨front, k, rest, q, hsplit, hfront, hends⟩ := ih hrest
      exact ⟨j :: front, k, rest, q, congrArg (j :: ·) hsplit, (Exec.bind_of_ok hfirst).trans hfront,
        hends⟩

/-- A drain comes to an early end while it runs the jobs that it has taken up. -/
theorem runJobs_of_drainJobs_eq_error (h : drainJobs call thread s = .error e t) :
    runJobs call thread s.jobs.waiting (s.withJobs { s.jobs with waiting := [] }) = .error e t := by
  unfold drainJobs at h
  rcases Exec.bind_eq_error h with hlook | ⟨_, r, hlook, h⟩
  · cases hlook
  · cases hlook
    rcases Exec.bind_eq_error h with htake | ⟨_, r, htake, h⟩
    · cases htake
    · cases htake
      rcases Exec.bind_eq_error h with hruns | ⟨_, r, -, hend⟩
      · exact hruns
      · cases hend

/-- A job does not finish again that has run before. -/
theorem State.Worked.twice {j : JobId} (h : s.Worked t j) (hbefore : j ∈ s.jobsRun) :
    ¬ t.jobsRun.Nodup := by
  obtain ⟨fuel, thread, begun, done, label, past, hwork, hbegun, hpast, hdone⟩ := h
  have hkeeps : Guarded False begun (doWork (run fuel) thread (t.jobs.job j).work) fun _ _ => True :=
    guarded_doWork (run_isGuarded False fuel) False.elim False.elim False.elim
  have hhistory : .jobStarted j label :: past <:+ t.history :=
    hbegun ▸ (hkeeps.before hwork).grows.history.trans hdone
  have hruns : (j :: past.filterMap Event.job?).Sublist t.jobsRun :=
    hhistory.sublist.filterMap Event.job?
  have hmem : j ∈ past.filterMap Event.job? := (hpast.sublist.filterMap Event.job?).subset hbefore
  intro hnodup
  exact (List.nodup_cons.1 (hnodup.sublist hruns)).1 hmem

/-- A job whose work comes to an early end has started and does not finish. -/
theorem isOpen_of_runJob {m n : Moment} {fuel : Nat} {j : JobId} (hm : Engaged m) (hn : JobsOnce n)
    (hrun : runJob (run fuel) thread j m.state = .error e n.state) : n.state.jobs.IsOpen j := by
  obtain ⟨hnew, hwork⟩ := doWork_of_runJob hrun
  have hmade := State.lt_size_of_unstarted hnew
  have hstarted : ((m.state.jobStarted j).jobs.job j).started = true := by
    show ((m.state.jobs.modify j _).job j).started = true
    rw [JobQueue.job_modify, if_pos ⟨rfl, hmade⟩]
  have hguarded : Guarded False (m.state.jobStarted j)
      (doWork (run fuel) thread (m.state.jobs.job j).work) fun _ _ => True :=
    guarded_doWork (run_isGuarded False fuel) False.elim False.elim False.elim
  have hbefore : (m.state.jobStarted j).Before n.state := by
    unfold Guarded at hguarded
    rw [hwork] at hguarded
    exact hguarded.1
  obtain ⟨hkept, hsame⟩ := hbefore.grows.job j (Nat.lt_of_lt_of_eq hmade Array.size_modify.symm)
  refine ⟨hkept, hsame.started hstarted, ?_⟩
  cases hfinished : (n.state.jobs.job j).finished with
  | false => rfl
  | true =>
    -- were it finished, a run of its own in between would have finished it
    rcases hbefore.finished j hfinished with ⟨hold, -⟩ | hworked
    · -- it has not finished before it starts
      replace hold : ((m.state.jobs.begin j).job j).finished = true := hold
      rw [(hm.opened hnew).unfinished] at hold
      cases hold
    · exact absurd hn.nodup (hworked.twice List.mem_cons_self)

/-- The early end of code is that of some moment. -/
theorem Leads.exists_moves {α : Type} {u v : List Activity} {x : Exec α} {cause : PanicCause}
    (hx : Leads u x v) (hrun : x s = .error (.panic cause) t) :
    ∃ n, Moves ⟨u, s⟩ n ∧ n.state = t := by
  obtain ⟨n, hn, hends⟩ := Traced.moves_of_error (hx s []) hrun
  exact ⟨n, hn, hends.symm⟩

end Unwinding

/-- What a drain has come to that unwinds: the jobs in front of one have started, that
one was cut short, and what waits was submitted meanwhile. -/
theorem cutShort_of_drain {m : Moment} (hm : Visited m) {fuel : Nat} {thread : Thread}
    {cause : PanicCause} {t : State} (hmade : ∀ j ∈ m.state.jobs.waiting, j < m.state.jobs.jobs.size)
    (hrun : drainJobs (run fuel) thread m.state = .error (.panic cause) t) :
    ∃ (front : List JobId) (j : JobId) (rest later : List JobId),
      m.state.jobs.waiting = front ++ j :: rest ∧ (m.state.jobs.job j).started = false ∧
      (∀ k ∈ front, (t.jobs.job k).started = true) ∧ (⟨[], t⟩ : Moment).CutShort j ∧
      (∃ n after, JobSteps m { submitted := m.state.jobs.waiting } n after ∧ n.state = t ∧
        after.submitted = m.state.jobs.waiting ++ later) ∧
      t.jobs.waiting <:+ later ∧
      ∀ k ∈ rest, (t.jobs.job k).started = false → k ∉ later → ¬ (⟨[], t⟩ : Moment).KeepsJob k := by
  have hruns := runJobs_of_drainJobs_eq_error hrun
  obtain ⟨n, hn, rfl⟩ :=
    (leads_runJobs (run_isTraced fuel) thread m.underWay m.state.jobs.waiting).exists_moves hruns
  let log : JobLog := { submitted := m.state.jobs.waiting }
  have horder : log.submitted = log.batches.flatten ++ m.state.jobs.waiting := rfl
  obtain ⟨after, later, nested, hsteps, hsubmitted, -, hlater⟩ := exists_log_of_drain horder hn
  have hvisited : Visited n := hm.moves hsteps.moves
  have hwaiting : n.state.jobs.waiting <:+ later := hlater ▸ List.suffix_append _ _
  obtain ⟨front, j, rest, r, hsplit, hfront, hends⟩ := runJobs_eq_error hruns
  -- the jobs in front of the one that unwinds are run as in a drain of their own
  let begun : Moment := ⟨.draining front :: m.underWay,
    m.state.withJobs { m.state.jobs with waiting := [] }⟩
  have hpath : Moves begun ⟨m.underWay, r⟩ :=
    ((leads_runJobs (run_isTraced fuel) thread m.underWay front).strides hfront []).moves
  have hbegun : Engaged begun :=
    ⟨fun k hk => (hm.engaged.isOpen k hk).congr rfl, hm.engaged.nodup, hm.engaged.begun⟩
  have hopen := isOpen_of_runJob (m := ⟨m.underWay, r⟩) (hbegun.moves hpath) hvisited.jobsOnce hends
  have hlater {k : JobId} (hk : k < m.state.jobs.jobs.size) (hstarted : (r.jobs.job k).started = true) :
      (n.state.jobs.job k).started = true := by
    have hkeeps : Keeps False (runJob (run fuel) thread j) :=
      keeps_runJob (run_isGuarded False fuel) False.elim j
    have hguarded := hkeeps r False.elim
    unfold Guarded at hguarded
    rw [hends] at hguarded
    exact (hguarded.1.grows.job k (hpath.extends.job k hk).1).2.started hstarted
  refine ⟨front, j, rest, later, hsplit, ?_, fun k hk => ?_, ⟨hopen, List.not_mem_nil⟩,
    ⟨n, after, hsteps, rfl, hsubmitted⟩, hwaiting, fun k hk hnew hnone hkept => ?_⟩
  · -- had the job started before the drain, it would have been skipped
    have hj : j < m.state.jobs.jobs.size :=
      hmade j (hsplit ▸ List.mem_append_right _ List.mem_cons_self)
    cases hstarted : (m.state.jobs.job j).started with
    | false => rfl
    | true =>
      have hbefore := (hpath.extends.job j hj).2.started hstarted
      rw [(doWork_of_runJob hends).1] at hbefore
      cases hbefore
  · have hk' : k < m.state.jobs.jobs.size := hmade k (hsplit ▸ List.mem_append_left _ hk)
    exact hlater hk' (started_of_runJobs (run_isTraced fuel) hfront k hk hk')
  · rcases keepsJob_iff_of_rest.1 hkept with hfinished | ⟨-, hwaits⟩
    · rw [hvisited.engaged.begun k hfinished] at hnew
      cases hnew
    · exact hnone (hwaiting.subset hwaits)

/-! ### For good -/

section Forever

variable {s t : State} {j : JobId}

/-- A job whose work was cut short never finishes. -/
theorem cutShort_of_goesOn (hst : Relation.ReflTransGen State.GoesOn s t)
    (h : (⟨[], s⟩ : Moment).CutShort j) : (⟨[], t⟩ : Moment).CutShort j := by
  induction hst with
  | refl => exact h
  | tail _ hcall ih => exact hcall.preserve (fun _ _ hmove hm => hm.move hmove) (fun _ hm => hm.unwind) ih

/-- Whoever waits for an unfinished job, when nothing runs it, waits for ever. -/
theorem performOn_awaitJob {label : String} (hlabel : s.client.jobs.lookup label = some j)
    (hopen : (s.jobs.job j).finished = false) (fuel : Nat) (thread : Thread) :
    performOn fuel s thread (.awaitJob label) = (.halted .stuck, s) := by
  have hrun : (Op.awaitJob label).perform fuel { thread } s = .error .stuck s := by
    show (get >>= _ : Exec Reply) s = _
    rw [Exec.get_bind, hlabel, Option.map_some]
    dsimp only
    rw [hopen]
    rfl
  unfold performOn EStateM.run
  rw [hrun]

/-- No worker takes up a task that carries an unfinished job. -/
theorem runnable_of_unfinished {e : Entry} (hgpu : e.currentAffinity = some .gpu)
    (hjob : e.job = some j) (hopen : (s.jobs.job j).finished = false) : s.runnable e = false := by
  unfold State.runnable Entry.isRunnable
  rw [hgpu, hjob]
  exact hopen

/-- Where no job waits, a drain does nothing. -/
theorem performOn_drainJobs_of_none (hnone : s.jobs.waiting = []) (fuel : Nat) (thread : Thread) :
    performOn fuel s thread .drainJobs = (.answered (.number 0), s) := by
  have hsame : s.withJobs { s.jobs with waiting := [] } = s := by
    rw [← hnone]
    rfl
  have hperform : Op.drainJobs.perform fuel { thread } s = .ok (.number 0) s := by
    show ((runJobs (run fuel) thread s.jobs.waiting >>= fun _ => pure s.jobs.waiting.length) >>=
      fun count => pure (answerNat count)) (s.withJobs { s.jobs with waiting := [] }) = _
    rw [hsame, hnone]
    rfl
  unfold performOn EStateM.run
  rw [hperform]

/-- A session goes on with operations that are performed one after the other. -/
theorem State.goesOn_after (s : State) (fuel : Nat) (ops : List (Thread × Op)) :
    Relation.ReflTransGen State.GoesOn s (s.after fuel ops) := by
  induction ops generalizing s with
  | nil => exact .refl
  | cons first rest ih =>
    unfold State.after
    split
    next reply t hanswered =>
      exact (Relation.ReflTransGen.single ⟨fuel, first.1, first.2, _, hanswered, rfl⟩).trans (ih t)
    next => exact .refl

end Forever

/-- No move of a run loses a job: one that has finished, runs, waits or is with a drain
that is to start it stays so until a call unwinds. One that waits is such a job, unless
its work was cut short before, and that happens in no session before a call unwinds. So a
drain that returns loses no job. A drain that unwinds always does: the jobs in front of
one have started; the work of that one, which was kept before, was cut short; and none
that was behind it and has not started is kept, unless it was submitted again meanwhile.
Between calls the jobs that are kept are those that have finished or wait to be run, and
a job whose work was cut short never finishes: whoever waits for it waits for ever, and
no task that carries it is taken up. -/
theorem jobs_kept_until_cut_short (p : Session) (m : Moment) :
    (Visited m →
      (∀ n, Moves m n → ∀ j, m.KeepsJob j → n.KeepsJob j) ∧
      (∀ j ∈ m.state.jobs.waiting, j < m.state.jobs.jobs.size → m.KeepsJob j ∨ m.CutShort j) ∧
      (∀ fuel thread count t, drainJobs (run fuel) thread m.state = .ok count t →
        ∀ j, m.KeepsJob j → (⟨m.underWay, t⟩ : Moment).KeepsJob j) ∧
      ∀ fuel thread cause t, (∀ j ∈ m.state.jobs.waiting, j < m.state.jobs.jobs.size) →
        drainJobs (run fuel) thread m.state = .error (.panic cause) t →
        ∃ (front : List JobId) (j : JobId) (rest later : List JobId),
          m.state.jobs.waiting = front ++ j :: rest ∧ m.KeepsJob j ∧
          (∀ k ∈ front, (t.jobs.job k).started = true) ∧ (⟨[], t⟩ : Moment).CutShort j ∧
          (∃ n after, JobSteps m { submitted := m.state.jobs.waiting } n after ∧ n.state = t ∧
            after.submitted = m.state.jobs.waiting ++ later) ∧
          t.jobs.waiting <:+ later ∧
          ∀ k ∈ rest, (t.jobs.job k).started = false → k ∉ later →
            ¬ (⟨[], t⟩ : Moment).KeepsJob k) ∧
    (Moves ⟨[], p.start⟩ m → Visited m ∧ ∀ j, ¬ m.CutShort j) ∧
    ∀ s, Relation.ReflTransGen State.GoesOn p.start s →
      Visited ⟨[], s⟩ ∧ (∀ j ∈ s.jobs.waiting, j < s.jobs.jobs.size) ∧
      (∀ j, (⟨[], s⟩ : Moment).KeepsJob j ↔ (s.jobs.job j).finished = true ∨
        (s.jobs.job j).started = false ∧ j ∈ s.jobs.waiting) ∧
      ∀ j, (⟨[], s⟩ : Moment).CutShort j → ¬ (⟨[], s⟩ : Moment).KeepsJob j ∧
        ∀ t, Relation.ReflTransGen State.GoesOn s t → (t.jobs.job j).finished = false ∧
          (∀ label, t.client.jobs.lookup label = some j → ∀ fuel thread,
            performOn fuel t thread (.awaitJob label) = (.halted .stuck, t)) ∧
          ∀ e : Entry, e.currentAffinity = some .gpu → e.job = some j → t.runnable e = false := by
  refine ⟨fun hm => ⟨?_, ?_, ?_, ?_⟩, fun hmoves => ⟨⟨p, _, .refl, hmoves⟩, ?_⟩,
    fun s hs => ⟨⟨p, s, hs, .refl⟩, (knowsJobs_of_goesOn hs).waiting, fun _ => keepsJob_iff_of_rest,
      fun j hcut => ⟨hcut.not_keepsJob, fun t hst => ?_⟩⟩⟩
  · exact fun n hmoves j hj => hj.moves hm.engaged hmoves
  · exact fun j hj hmade => Moment.KeepsJob.of_mem_waiting hj hmade
  · -- a drain that returns makes moves only, and they keep every job
    intro fuel thread count t hrun j hj
    have hreturns : Moves m ⟨m.underWay, t⟩ :=
      ((leads_drainJobs (run_isTraced fuel) thread m.underWay).strides hrun []).moves
    exact hj.moves hm.engaged hreturns
  · -- a drain that unwinds was cut short by a job, and has begun all that stood before it
    intro fuel thread cause t hmade hrun
    obtain ⟨front, j, rest, later, hsplit, hnew, hfront, hcut, hlog, hwaits, hrest⟩ :=
      cutShort_of_drain hm hmade hrun
    have hj : j ∈ m.state.jobs.waiting := hsplit ▸ List.mem_append_right _ List.mem_cons_self
    exact ⟨front, j, rest, later, hsplit, .inr (.inr ⟨hnew, List.mem_append_left _ hj⟩), hfront, hcut,
      hlog, hwaits, hrest⟩
  · -- in a run that nothing cut short every open job is being run
    have hflight : InFlight m := hmoves.preserve (fun _ _ hmove h => h.move hmove) (.start p)
    exact hflight.not_cutShort
  · -- a job that was cut short never finishes, so whoever waits for it waits for ever
    have hopen := (cutShort_of_goesOn hst hcut).isOpen.unfinished
    exact ⟨hopen, fun label hlabel => performOn_awaitJob hlabel hopen,
      fun e hgpu hjob => runnable_of_unfinished hgpu hjob hopen⟩

/-- Two jobs wait. The work of the first one unwinds. -/
@[irreducible]
def boomInFront : State :=
  (Session.bare .manual).start.after 8
    [(.main, .makeJob "boom" [Op.anyway (.panic "boom")] true), (.main, .makeJob "calm" [] true),
      (.main, .submitJob "boom"), (.main, .submitJob "calm")]

/-- They were drained, which has unwound. -/
@[irreducible]
def boomDrained : State :=
  (performOn 8 boomInFront .main .drainJobs).2

theorem boomInFront_unwinds : performOn 8 boomInFront .main .drainJobs =
    (.halted (.panic (.client "boom")), boomDrained) := by
  unfold boomDrained
  exact performOn_of_reason (by decide +kernel)

theorem boomInFront_waiting : boomInFront.jobs.waiting = [0, 1] := by decide +kernel

theorem goesOn_boomInFront :
    Relation.ReflTransGen State.GoesOn (Session.bare .manual).start boomInFront := by
  unfold boomInFront
  exact State.goesOn_after _ 8 _

/-- The drain that the operation consists of has unwound, too. -/
theorem boomInFront_drained :
    drainJobs (run 8) .main boomInFront = .error (.panic (.client "boom")) boomDrained := by
  have hrun : Op.drainJobs.perform 8 { thread := .main } boomInFront =
      .error (.panic (.client "boom")) boomDrained := by
    have hunwinds := boomInFront_unwinds
    unfold performOn EStateM.run at hunwinds
    split at hunwinds
    next => cases hunwinds
    next hrun =>
      cases hunwinds
      exact hrun
  rcases Exec.bind_eq_error hrun with hdrain | ⟨_, _, -, hanswer⟩
  · exact hdrain
  · cases hanswer

/-- The job that unwinds is cut short for good, and the one behind it is not kept. -/
theorem boomDrained_loses_both :
    (∀ t, Relation.ReflTransGen State.GoesOn boomDrained t → (t.jobs.job 0).finished = false) ∧
      ¬ (⟨[], boomDrained⟩ : Moment).KeepsJob 1 := by
  obtain ⟨hdrains, -, hsessions⟩ := jobs_kept_until_cut_short (.bare .manual) ⟨[], boomInFront⟩
  obtain ⟨hvisited, hmade, -⟩ := hsessions _ goesOn_boomInFront
  obtain ⟨-, -, -, hunwinds⟩ := hdrains hvisited
  obtain ⟨front, j, rest, later, hsplit, -, -, hcut, -⟩ :=
    hunwinds 8 .main _ boomDrained hmade boomInFront_drained
  have hgoesOn := goesOn_boomInFront.tail ⟨8, .main, _, _, boomInFront_unwinds, rfl⟩
  obtain ⟨-, -, hkept, hlost⟩ := hsessions _ hgoesOn
  have hnew : (boomDrained.jobs.job 1).started = false := by decide +kernel
  have hnone : boomDrained.jobs.waiting = [] := by decide +kernel
  constructor
  · -- the second job has not started, so it was the first one whose work was cut short
    have hfirst : j = 0 := by
      have hj : j ∈ [0, 1] := by
        rw [← boomInFront_waiting]
        exact hsplit ▸ List.mem_append_right _ List.mem_cons_self
      rcases List.mem_cons.1 hj with hzero | hone
      · exact hzero
      · have hstarted := hcut.isOpen.started
        rw [List.mem_singleton.1 hone, hnew] at hstarted
        cases hstarted
    exact fun t ht => ((hlost 0 (hfirst ▸ hcut)).2 t ht).1
  · rw [hkept, hnone]
    rintro (hfinished | ⟨-, hwaits⟩)
    · exact absurd hfinished (by decide +kernel)
    · cases hwaits

/-- A drain can lose jobs: the work of the first one unwinds, and afterwards neither of
the two that waited has finished or waits. Nothing is left to drain, and whoever waits
for them waits for ever. -/
theorem drain_can_lose_jobs :
    Relation.ReflTransGen State.GoesOn (Session.bare .manual).start boomInFront ∧
      boomInFront.jobs.waiting = [0, 1] ∧
      performOn 8 boomInFront .main .drainJobs = (.halted (.panic (.client "boom")), boomDrained) ∧
      (boomDrained.jobs.job 0).finished = false ∧ (boomDrained.jobs.job 1).finished = false ∧
      boomDrained.jobs.waiting = [] ∧
      ∀ fuel thread,
        performOn fuel boomDrained thread .drainJobs = (.answered (.number 0), boomDrained) ∧
        performOn fuel boomDrained thread (.awaitJob "boom") = (.halted .stuck, boomDrained) ∧
        performOn fuel boomDrained thread (.awaitJob "calm") = (.halted .stuck, boomDrained) := by
  have hfirst : (boomDrained.jobs.job 0).finished = false := by decide +kernel
  have hsecond : (boomDrained.jobs.job 1).finished = false := by decide +kernel
  have hnone : boomDrained.jobs.waiting = [] := by decide +kernel
  refine ⟨goesOn_boomInFront, boomInFront_waiting, boomInFront_unwinds, hfirst, hsecond, hnone,
    fun fuel thread => ⟨performOn_drainJobs_of_none hnone fuel thread, ?_, ?_⟩⟩
  · exact performOn_awaitJob (by decide +kernel) hfirst fuel thread
  · exact performOn_awaitJob (by decide +kernel) hsecond fuel thread

end AssetLoading
