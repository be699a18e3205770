import AssetLoading.Proofs.Jobs.Line
import AssetLoading.Proofs.Jobs.Running
import AssetLoading.Proofs.Relations.Tasks
import AssetLoading.Proofs.Tasks.Drains
import AssetLoading.Proofs.Threads.Once
import AssetLoading.Proofs.Threads.Scripts

/-! # Jobs run once and in order

  The work of a job may submit jobs, run them or drain them, the job itself included,
  while the drain that runs it is half done. However drains are nested, no job starts
  twice, every drain takes up what waits when it begins, and what is submitted from
  then on waits for a later one. A drain that no job's work has called leaves every job
  of its batch finished, with what its work returned.
-/

namespace AssetLoading

/-! ### Jobs that wait were made -/

/-- Jobs that have a label or wait were made. -/
structure State.KnowsJobs (s : State) : Prop where
  labelled : ∀ l ∈ s.client.jobs, l.2 < s.jobs.jobs.size
  waiting : ∀ j ∈ s.jobs.waiting, j < s.jobs.jobs.size

namespace State.KnowsJobs

variable {s t : State}

/-- There are as many jobs, and no more labels. -/
theorem of_eq (h : s.KnowsJobs) (hlabels : t.client.jobs = s.client.jobs)
    (hwaiting : t.jobs.waiting ⊆ s.jobs.waiting) (hsize : t.jobs.jobs.size = s.jobs.jobs.size) :
    t.KnowsJobs where
  labelled l hl := by
    rw [hlabels] at hl
    rw [hsize]
    exact h.labelled l hl
  waiting j hj := by
    rw [hsize]
    exact h.waiting j (hwaiting hj)

/-- A job is made. -/
theorem make (h : s.KnowsJobs) (w : Work) : (s.withJobs (s.jobs.make w).2).KnowsJobs := by
  have hsize : (s.withJobs (s.jobs.make w).2).jobs.jobs.size = s.jobs.jobs.size + 1 :=
    Array.size_push _
  constructor
  · intro l hl
    rw [hsize]
    exact Nat.lt_succ_of_lt (h.labelled l hl)
  · intro j hj
    rw [hsize]
    exact Nat.lt_succ_of_lt (h.waiting j hj)

end State.KnowsJobs

/-- All code sees to it that jobs that have a label or wait were made. -/
theorem permitsTasks_knowsJobs : PermitsTasks fun s t => s.KnowsJobs → t.KnowsJobs where
  refl _ h := h
  trans hrs hst h := hst (hrs h)
  note _ _ _ h := h.of_eq rfl (List.Subset.refl _) rfl
  assets _ _ h := h.of_eq rfl (List.Subset.refl _) rfl
  registries _ _ h := h.of_eq rfl (List.Subset.refl _) rfl
  notices _ _ h := h.of_eq rfl (List.Subset.refl _) rfl
  files _ _ h := h.of_eq rfl (List.Subset.refl _) rfl
  client _ _ _ hjobs h := h.of_eq hjobs (List.Subset.refl _) rfl
  data _ _ _ _ h := h.of_eq rfl (List.Subset.refl _) rfl
  makeJob _ w _ h := h.make w
  labelJob s label j hj h := by
    refine ⟨fun l hl => ?_, h.waiting⟩
    rcases List.mem_cons.1 hl with rfl | hl
    · exact hj
    · exact h.labelled l (List.mem_filter.1 hl).1
  submitJob s j hj h := by
    refine ⟨h.labelled, fun k hk => ?_⟩
    rcases List.mem_append.1 hk with hk | hk
    · exact h.waiting k hk
    · rw [List.mem_singleton.1 hk]
      -- whoever submits a job has just made it, or knows it by its label
      rcases hj with hmade | ⟨label, hlookup⟩
      · exact hmade
      · obtain ⟨front, back, hsplit, -⟩ := List.lookup_eq_some_iff.1 hlookup
        exact h.labelled (label, j) (hsplit ▸ List.mem_append_right front List.mem_cons_self)
  drainJobs _ h := h.of_eq rfl (List.nil_subset _) rfl
  startJob _ _ h := h.of_eq rfl (List.Subset.refl _) Array.size_modify
  finishJob _ _ _ h := h.of_eq rfl (List.Subset.refl _) Array.size_modify
  anything _ _ h := h.of_eq rfl (List.Subset.refl _) rfl
  body _ _ _ h := h.of_eq rfl (List.Subset.refl _) rfl
  plan _ _ h := h.of_eq rfl (List.Subset.refl _) rfl
  queue _ _ h := h.of_eq rfl (List.Subset.refl _) rfl
  claims _ _ h := h.of_eq rfl (List.Subset.refl _) rfl
  anyJob _ w h := h.make w
  close _ h := h.of_eq rfl (List.Subset.refl _) rfl
  stop _ h := h.of_eq rfl (List.Subset.refl _) rfl

theorem Session.knowsJobs_start (p : Session) : p.start.KnowsJobs := by
  unfold Session.start
  dsimp only
  split <;> exact ⟨fun _ hl => absurd hl List.not_mem_nil, fun _ hj => absurd hj List.not_mem_nil⟩

/-- A call that returns or unwinds sees to it, too. -/
theorem State.KnowsJobs.performOn {s t : State} (h : s.KnowsJobs) {fuel : Nat} {thread : Thread}
    {op : Op} {outcome : Outcome} (hrun : performOn fuel s thread op = (outcome, t)) :
    t.KnowsJobs := by
  have hstays : StaysFrom (fun s t => s.KnowsJobs → t.KnowsJobs) True s
      (op.perform fuel { thread }) := permitsTasks_knowsJobs.stays_performing fuel { thread } op s
  exact hstays.performed hrun h

theorem Reached.knowsJobs {s : State} (h : Reached s) : s.KnowsJobs := by
  induction h with
  | start p => exact p.knowsJobs_start
  | perform fuel thread op reply _ hrun ih => exact ih.performOn hrun
  | forget _ ih => exact ih.of_eq rfl (List.Subset.refl _) rfl

/-! ### What finished jobs tell -/

/-- Everything that a session does adds to the state it began in. -/
theorem Reached.before {s : State} (h : Reached s) : ∃ p : Session, p.start.Before s := by
  induction h with
  | start p => exact ⟨p, .refl _⟩
  | perform fuel thread op reply _ hrun ih =>
    obtain ⟨p, hp⟩ := ih
    have hkeeps : Keeps False (op.perform fuel { thread }) := keeps_perform fuel { thread } False.elim
    exact ⟨p, hp.trans ((hkeeps _ False.elim).before (perform_of_answered hrun))⟩
  | forget _ ih =>
    obtain ⟨p, hp⟩ := ih
    exact ⟨p, hp.trans (.of_jobs (.of_same List.suffix_rfl rfl rfl) fun _ hj => ⟨hj, rfl⟩)⟩

theorem Session.unfinished_start (p : Session) (j : JobId) : (p.start.jobs.job j).finished = false := by
  unfold JobQueue.job
  rw [p.jobs_start]
  rfl

/-- A job has finished with what its work returned. -/
theorem Reached.worked {s : State} (h : Reached s) {j : JobId}
    (hj : (s.jobs.job j).finished = true) : ∃ p : Session, p.start.Worked s j := by
  obtain ⟨p, hp⟩ := h.before
  rcases hp.finished j hj with ⟨hold, -⟩ | hworked
  · rw [p.unfinished_start j] at hold
    cases hold
  · exact ⟨p, hworked⟩

/-! ### Drains -/

section Draining

variable {m n : Moment} {log : JobLog} {fuel : Nat} {thread : Thread} {count : Nat} {t : State}

/-- The moment in which a drain has taken the waiting jobs out of their queue. -/
def Moment.drainBegun (m : Moment) : Moment :=
  ⟨.draining m.state.jobs.waiting :: m.underWay,
    m.state.withJobs { m.state.jobs with waiting := [] }⟩

/-- A drain takes up what waits when it begins. What is submitted from then on is taken
up by later drains, or waits. -/
theorem exists_log_of_drain (horder : log.submitted = log.batches.flatten ++ m.state.jobs.waiting)
    (hruns : Moves m.drainBegun n) :
    ∃ (after : JobLog) (later : List JobId) (nested : List (List JobId)),
      JobSteps m log n after ∧ after.submitted = log.submitted ++ later ∧
      after.batches = log.batches ++ m.state.jobs.waiting :: nested ∧
      later = nested.flatten ++ n.state.jobs.waiting := by
  have hbegin : JobSteps m log m.drainBegun (log.drain m.state.jobs) :=
    .tail (.refl m log) (.job .drain) (.drain rfl rfl)
  obtain ⟨after, hafter⟩ := hruns.exists_log (log.drain m.state.jobs)
  have hsteps := hbegin.trans hafter
  obtain ⟨⟨later, hlater⟩, nested, hnested⟩ := hafter.grows
  have hbatches : after.batches = log.batches ++ m.state.jobs.waiting :: nested := by
    rw [← hnested]
    show (log.batches ++ [m.state.jobs.waiting]) ++ nested = _
    rw [List.append_assoc]
    rfl
  refine ⟨after, later, nested, hsteps, hlater.symm, hbatches, ?_⟩
  -- both ends of the run say what was submitted
  have hend := hsteps.inOrder horder
  rw [← hlater, hbatches, List.flatten_append, List.flatten_cons] at hend
  have hdrained : (log.drain m.state.jobs).submitted =
      log.batches.flatten ++ m.state.jobs.waiting := horder
  rw [hdrained, List.append_assoc, List.append_assoc, List.append_assoc] at hend
  exact List.append_cancel_left (List.append_cancel_left hend)

/-- A drain that returns has run all that it has taken up. -/
theorem moves_of_drain (hrun : drainJobs (run fuel) thread m.state = .ok count t) :
    Moves m.drainBegun ⟨m.underWay, t⟩ :=
  ((leads_runJobs (run_isTraced fuel) thread m.underWay m.state.jobs.waiting).strides
    (runJobs_of_drainJobs hrun) []).moves

/-- A drain that no job's work has called leaves every job of its batch finished, with
the success that it had before or with what its work has returned meanwhile. -/
theorem finished_of_drain (hflight : InFlight m) (hidle : m.running = [])
    (hrun : drainJobs (run fuel) thread m.state = .ok count t) {j : JobId}
    (hj : j ∈ m.state.jobs.waiting) (hmade : j < m.state.jobs.jobs.size) :
    (t.jobs.job j).finished = true ∧
      ((m.state.jobs.job j).finished = true ∧
          (t.jobs.job j).success = (m.state.jobs.job j).success ∨ m.state.Worked t j) := by
  have hkeeps : Keeps False (drainJobs (run fuel) thread) :=
    keeps_drainJobs (run_isGuarded False fuel) False.elim
  have hbefore := (hkeeps m.state False.elim).before hrun
  have hfinished : (t.jobs.job j).finished = true := by
    cases hstarted : (m.state.jobs.job j).started with
    | false => exact finished_of_drainJobs (run_isTraced fuel) hrun hj hmade hstarted
    | true =>
      -- it had started before the drain, and as no job runs, it had finished
      refine (hbefore.grows.job j hmade).2.finished ?_
      cases hcase : (m.state.jobs.job j).finished with
      | true => rfl
      | false =>
        have hrunning : j ∈ m.running := hflight j hmade hstarted hcase
        rw [hidle] at hrunning
        cases hrunning
  exact ⟨hfinished, hbefore.finished j hfinished⟩

end Draining

/-- In every session no job starts twice, and what is known of a finished job never
changes. At any time the submissions are the batches of all drains one after the other,
in the order in which they were taken up, followed by the jobs that wait, and each drain
under way has started the jobs of its batch from the front up to what it has still to
run. A drain that returns has taken up exactly the jobs that waited when it began; what
was submitted from then on, in order, makes up the batches of the drains that it has led
to, and what waits when it returns. Each job of its batch has started, and if the drain
was called by no job's work, has finished, with what its work returned. Between
operations the jobs that wait were made, and each finished job tells what its work
returned. -/
theorem jobs_run_once_in_order :
    (∀ (p : Session) m log, JobSteps ⟨[], p.start⟩ {} m log →
      m.state.jobsRun.Nodup ∧ log.Describes m ∧
      (∀ n, Moves m n → ∀ j, (m.state.jobs.job j).finished = true →
        (n.state.jobs.job j).finished = true ∧
          (n.state.jobs.job j).success = (m.state.jobs.job j).success) ∧
      ∀ fuel thread count t, drainJobs (run fuel) thread m.state = .ok count t →
        count = m.state.jobs.waiting.length ∧
        (∃ (after : JobLog) (later : List JobId) (nested : List (List JobId)),
          JobSteps m log ⟨m.underWay, t⟩ after ∧ after.submitted = log.submitted ++ later ∧
          after.batches = log.batches ++ m.state.jobs.waiting :: nested ∧
          later = nested.flatten ++ t.jobs.waiting) ∧
        ∀ j ∈ m.state.jobs.waiting, j < m.state.jobs.jobs.size →
          (t.jobs.job j).started = true ∧
          (m.running = [] → (t.jobs.job j).finished = true ∧
            ((m.state.jobs.job j).finished = true ∧
              (t.jobs.job j).success = (m.state.jobs.job j).success ∨ m.state.Worked t j))) ∧
    (∀ (p : Session) m, Moves ⟨[], p.start⟩ m → ∃ log, JobSteps ⟨[], p.start⟩ {} m log) ∧
    ∀ s, Reached s → (∀ j ∈ s.jobs.waiting, j < s.jobs.jobs.size) ∧
      ∀ j, (s.jobs.job j).finished = true → ∃ p : Session, p.start.Worked s j := by
  refine ⟨fun p m log hsteps => ?_, fun p m hmoves => hmoves.exists_log {}, fun s hs => ?_⟩
  · have honce : JobsOnce m :=
      hsteps.moves.preserve (fun _ _ hmove h => h.move hmove) (.start p)
    have hengaged : Engaged m := (Engaged.start p).moves hsteps.moves
    have hflight : InFlight m :=
      hsteps.moves.preserve (fun _ _ hmove h => h.move hmove) (.start p)
    have hdescribes : log.Describes m := (JobLog.Describes.start p).steps hsteps
    refine ⟨honce.nodup, hdescribes, fun n hmoves j hj => hengaged.finished_stays hmoves hj, ?_⟩
    intro fuel thread count t hrun
    refine ⟨?_, exists_log_of_drain hdescribes.inOrder (moves_of_drain hrun),
      fun j hj hmade => ⟨?_, fun hidle => ?_⟩⟩
    · -- the count is the length of the batch, whatever the jobs have done
      unfold drainJobs at hrun
      obtain ⟨_, r, hlook, hrun⟩ := Exec.bind_eq_ok hrun
      cases hlook
      obtain ⟨_, r, -, hrun⟩ := Exec.bind_eq_ok hrun
      obtain ⟨_, r, -, hrun⟩ := Exec.bind_eq_ok hrun
      exact (EStateM.Result.ok.inj hrun).1.symm
    · exact started_of_drainJobs (run_isTraced fuel) hrun j hj hmade
    · exact finished_of_drain hflight hidle hrun hj hmade
  · exact ⟨hs.knowsJobs.waiting, fun j hj => hs.worked hj⟩

/-- Two jobs were made. The work of the second submits the first, runs itself and drains
the jobs, and submits itself again; it waits twice. -/
@[irreducible]
def loopWaiting : State :=
  (Session.bare .manual).start.after 8
    [(.main, .makeJob "late" [] false),
      (.main, .makeJob "loop" ([.submitJob "late", .runJob "loop", .drainJobs, .submitJob "loop"].map
        Op.anyway) true),
      (.main, .submitJob "loop"), (.main, .submitJob "loop")]

/-- The drain runs the work of the second job once, which has the first one drained in
the meantime, and leaves the second job waiting that was submitted last. -/
theorem loopWaiting_drained :
    loopWaiting.jobs.waiting = [1, 1] ∧ ∃ t, drainJobs (run 8) .main loopWaiting = .ok 2 t ∧
      t.jobs.waiting = [1] ∧ t.jobsRun.Nodup ∧ (t.jobs.job 1).finished = true ∧
      loopWaiting.Worked t 1 := by
  obtain ⟨hall, hlogged, -⟩ := jobs_run_once_in_order
  have hmoves : Moves ⟨[], (Session.bare .manual).start⟩ ⟨[], loopWaiting⟩ := by
    unfold loopWaiting
    exact (State.strides_after _ 8 _).moves
  obtain ⟨log, hsteps⟩ := hlogged _ _ hmoves
  obtain ⟨count, hrun⟩ := State.run_of_isOk (s := loopWaiting) (x := drainJobs (run 8) .main)
    (by decide +kernel)
  obtain ⟨-, -, -, hdrained⟩ := hall _ _ log hsteps
  obtain ⟨hcount, ⟨after, later, nested, hafter, -⟩, hbatch⟩ := hdrained 8 .main count _ hrun
  obtain ⟨honce, -⟩ := hall _ _ after (hsteps.trans hafter)
  have hwaiting : loopWaiting.jobs.waiting = [1, 1] := by decide +kernel
  have hone : 1 ∈ loopWaiting.jobs.waiting := hwaiting ▸ List.mem_cons_self
  obtain ⟨-, hfinished⟩ := hbatch 1 hone (by decide +kernel)
  obtain ⟨hfinished, ⟨hbefore, -⟩ | hworked⟩ := hfinished rfl
  · exact absurd hbefore (by decide +kernel)
  · rw [hwaiting] at hcount
    subst hcount
    exact ⟨hwaiting, _, hrun, by decide +kernel, honce, hfinished, hworked⟩

end AssetLoading
