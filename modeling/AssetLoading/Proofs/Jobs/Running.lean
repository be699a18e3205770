import AssetLoading.Proofs.Run.Reached
import AssetLoading.Proofs.Tasks.InFlight
import AssetLoading.Proofs.Threads.Guarded

/-! # Jobs that run

  While a job runs it has started and not finished, and no job runs twice at a time.
  So a job finishes once, with what its work returned, and what is known of a finished
  job never changes.

  A job whose work was cut short has started and not finished either, but nobody runs
  it. It stays like that for ever: a job finishes only where its work returns, and it
  does not start again.
-/

namespace AssetLoading

/-- This is all that is ever asked about a job that runs. -/
structure JobQueue.IsOpen (q : JobQueue) (j : JobId) : Prop where
  made : j < q.jobs.size
  started : (q.job j).started = true
  unfinished : (q.job j).finished = false

/-- The jobs that run, the innermost first. -/
def Moment.running (m : Moment) : List JobId :=
  m.underWay.flatMap Activity.jobs

/-! ### What a move does with jobs -/

/-- Job `j` of a queue is marked as started. -/
def JobQueue.begin (q : JobQueue) (j : JobId) : JobQueue :=
  q.modify j fun job => { job with started := true }

/-- Job `j` of a queue has finished with an outcome. -/
def JobQueue.finish (q : JobQueue) (j : JobId) (success : Bool) : JobQueue :=
  q.modify j fun job => { job with success, finished := true }

namespace JobQueue

variable {q r : JobQueue} {j k : JobId}

theorem job_begun (h : r.jobs = (q.begin j).jobs) (k : JobId) : r.job k =
    if j = k ∧ k < q.jobs.size then { q.job k with started := true } else q.job k :=
  (job_congr h k).trans (q.job_modify j k _)

theorem job_ended {ok : Bool} (h : r.jobs = (q.finish j ok).jobs) (k : JobId) : r.job k =
    if j = k ∧ k < q.jobs.size then { q.job k with success := ok, finished := true } else q.job k :=
  (job_congr h k).trans (q.job_modify j k _)

/-- A job that has started is not one that has not. -/
theorem ne_of_started (hnew : (q.job k).started = false) (hold : (q.job j).started = true) :
    k ≠ j := by
  rintro rfl
  rw [hnew] at hold
  cases hold

end JobQueue

/-- What a move does with jobs: it leaves them alone, makes one, starts one, or ends
the one that runs innermost. -/
inductive JobChange (m n : Moment) : Prop where
  /-- The jobs and what runs are the same. -/
  | same (hjobs : n.state.jobs.jobs = m.state.jobs.jobs) (hrunning : n.running = m.running)
  /-- A job is made. -/
  | make (w : Work) (hjobs : n.state.jobs.jobs = m.state.jobs.jobs.push { work := w })
      (hrunning : n.running = m.running)
  /-- A job starts that has not started before. -/
  | start (j : JobId) (hnew : (m.state.jobs.job j).started = false)
      (hjobs : n.state.jobs.jobs = (m.state.jobs.begin j).jobs) (hrunning : n.running = j :: m.running)
  /-- A job that runs finishes. -/
  | finish (j : JobId) (ok : Bool) (hjobs : n.state.jobs.jobs = (m.state.jobs.finish j ok).jobs)
      (hrunning : m.running = j :: n.running)

section Moving

variable {m n : Moment}

theorem BodyMove.running_eq (h : BodyMove m n) : n.running = m.running := by
  cases h with
  | actEnd a b i onGpu ok hmay => exact flatMap_cons_congr (hmay.jobs_concluded ok) _
  | actSkip a b i onGpu hmay => exact flatMap_cons_congr (hmay.jobs_concluded false) _
  | free a b asset hmay => exact flatMap_cons_congr hmay.jobs.1.symm _
  | freeEnd a b hmay => exact flatMap_cons_congr hmay.jobs.2 _
  | freeSkip a b hmay => exact flatMap_cons_congr (hmay.jobs.2.trans hmay.jobs.1.symm) _
  | _ => rfl

theorem JobMove.jobChange (h : JobMove m n) : JobChange m n := by
  cases h with
  | make w hw => exact .make w rfl rfl
  | @start u v s j hpick hnew =>
    refine .start j hnew rfl ?_
    unfold Moment.running
    rw [List.flatMap_cons, hpick.flatMap_eq fun _ => rfl]
    rfl
  | skip j hpick => exact .same rfl (hpick.flatMap_eq fun _ => rfl)
  | finish j w ok => exact .finish j ok rfl rfl
  | _ => exact .same rfl rfl

theorem Move.jobChange (h : Move m n) : JobChange m n := by
  rcases h.work_or_same with (hbody | hjob | htask) | hsame
  · have hrunning := hbody.running_eq
    cases hbody <;> exact .same rfl hrunning
  · exact hjob.jobChange
  · cases htask with
    | handOver e => exact .make _ rfl rfl
    | exchange es e => exact .same rfl (flatMap_exchange es e _ fun _ => rfl)
    | _ => exact .same rfl rfl
  · exact .same hsame.jobs (hsame.flatMap_eq fun _ => Activity.jobs_eq_nil)

end Moving

/-- A session starts without jobs. -/
theorem Session.jobs_start (p : Session) : p.start.jobs.jobs = #[] := by
  unfold start
  dsimp only
  split <;> rfl

namespace JobQueue.IsOpen

variable {q r : JobQueue} {j : JobId}

theorem congr (h : q.IsOpen j) (hjobs : r.jobs = q.jobs) : r.IsOpen j := by
  refine ⟨hjobs ▸ h.made, ?_, ?_⟩
  · rw [job_congr hjobs]
    exact h.started
  · rw [job_congr hjobs]
    exact h.unfinished

/-- Jobs that are made leave it alone. -/
theorem push (h : q.IsOpen j) {w : Work} (hjobs : r.jobs = q.jobs.push { work := w }) :
    r.IsOpen j := by
  have hjob : r.job j = q.job j := by
    rw [job_pushed hjobs, if_neg (Nat.ne_of_lt h.made)]
  refine ⟨?_, hjob ▸ h.started, hjob ▸ h.unfinished⟩
  rw [hjobs, Array.size_push]
  exact Nat.lt_succ_of_lt h.made

/-- So does a change of another job. -/
theorem modify (h : q.IsOpen j) {k : JobId} (f : Job → Job) (hne : k ≠ j) :
    (q.modify k f).IsOpen j := by
  have hjob : (q.modify k f).job j = q.job j := by
    rw [JobQueue.job_modify, if_neg fun heq => hne heq.1]
  exact ⟨Nat.lt_of_lt_of_eq h.made Array.size_modify.symm, hjob ▸ h.started, hjob ▸ h.unfinished⟩

end JobQueue.IsOpen

/-! ### Jobs that run are open -/

/-- The jobs that run have started and not finished, and each of them runs once; and
what has finished has started. -/
structure Engaged (m : Moment) : Prop where
  isOpen : ∀ j ∈ m.running, m.state.jobs.IsOpen j
  nodup : m.running.Nodup
  begun : ∀ j, (m.state.jobs.job j).finished = true → (m.state.jobs.job j).started = true

namespace Engaged

variable {m n : Moment}

theorem start (p : Session) : Engaged ⟨[], p.start⟩ where
  isOpen := fun _ hj => absurd hj List.not_mem_nil
  nodup := List.nodup_nil
  begun j _ := by
    unfold JobQueue.job
    rw [p.jobs_start]
    rfl

/-- A job that has not started does not run. -/
theorem not_running (h : Engaged m) {j : JobId} (hnew : (m.state.jobs.job j).started = false) :
    j ∉ m.running :=
  fun hj => JobQueue.ne_of_started hnew (h.isOpen j hj).started rfl

/-- It starts, and runs. -/
theorem opened (h : Engaged m) {j : JobId} (hnew : (m.state.jobs.job j).started = false) :
    (m.state.jobs.begin j).IsOpen j := by
  have hmade := State.lt_size_of_unstarted hnew
  have hjob : (m.state.jobs.begin j).job j = { m.state.jobs.job j with started := true } := by
    rw [JobQueue.job_begun rfl, if_pos ⟨rfl, hmade⟩]
  refine ⟨Nat.lt_of_lt_of_eq hmade Array.size_modify.symm, ?_, ?_⟩
  · rw [hjob]
  · rw [hjob]
    cases hfinished : (m.state.jobs.job j).finished with
    | false => rfl
    | true => exact absurd (h.begun j hfinished) (by simp [hnew])

theorem move (h : Engaged m) (hmove : Move m n) : Engaged n := by
  cases hmove.jobChange with
  | same hjobs hrunning =>
    refine ⟨fun j hj => (h.isOpen j (hrunning ▸ hj)).congr hjobs, hrunning ▸ h.nodup, fun j => ?_⟩
    rw [JobQueue.job_congr hjobs]
    exact h.begun j
  | make w hjobs hrunning =>
    refine ⟨fun j hj => (h.isOpen j (hrunning ▸ hj)).push hjobs, hrunning ▸ h.nodup, fun j => ?_⟩
    rw [JobQueue.job_pushed hjobs]
    split
    · exact fun hfinished => nomatch hfinished
    · exact h.begun j
  | start j hnew hjobs hrunning =>
    refine ⟨fun k hk => ?_, hrunning ▸ List.nodup_cons.2 ⟨h.not_running hnew, h.nodup⟩, fun k => ?_⟩
    · by_cases heq : j = k
      · exact heq ▸ (h.opened hnew).congr hjobs
      · have hold : k ∈ m.running := (List.mem_cons.1 (hrunning ▸ hk)).resolve_left (Ne.symm heq)
        exact ((h.isOpen k hold).modify _ heq).congr hjobs
    · rw [JobQueue.job_begun hjobs]
      split
      · exact fun _ => rfl
      · exact h.begun k
  | finish j ok hjobs hrunning =>
    have hnodup := h.nodup
    rw [hrunning, List.nodup_cons] at hnodup
    have hmem {k : JobId} (hk : k ∈ n.running) : k ∈ m.running :=
      hrunning ▸ List.mem_cons_of_mem j hk
    refine ⟨fun k hk => ?_, hnodup.2, fun k => ?_⟩
    · have hne : j ≠ k := fun heq => hnodup.1 (heq ▸ hk)
      exact ((h.isOpen k (hmem hk)).modify _ hne).congr hjobs
    · rw [JobQueue.job_ended hjobs]
      split
      next heq => exact fun _ => heq.1 ▸ (h.isOpen j (hrunning ▸ List.mem_cons_self)).started
      next => exact h.begun k

theorem moves (h : Engaged m) (hmoves : Moves m n) : Engaged n :=
  hmoves.preserve (fun _ _ hmove hm => hm.move hmove) h

/-- Where a call has unwound, no job runs any more. -/
theorem unwind (h : Engaged m) : Engaged ⟨[], m.state⟩ :=
  ⟨fun _ hj => absurd hj List.not_mem_nil, List.nodup_nil, h.begun⟩

/-! ### Finished jobs never change -/

/-- A finished job stays finished, with the same success. -/
theorem finished_move (h : Engaged m) (hmove : Move m n) {j : JobId}
    (hj : (m.state.jobs.job j).finished = true) : (n.state.jobs.job j).finished = true ∧
      (n.state.jobs.job j).success = (m.state.jobs.job j).success := by
  have hmade := State.lt_size_of_finished hj
  cases hmove.jobChange with
  | same hjobs =>
    rw [JobQueue.job_congr hjobs]
    exact ⟨hj, rfl⟩
  | make w hjobs =>
    rw [JobQueue.job_pushed hjobs, if_neg (Nat.ne_of_lt hmade)]
    exact ⟨hj, rfl⟩
  | start k hnew hjobs =>
    rw [JobQueue.job_begun hjobs]
    split <;> exact ⟨hj, rfl⟩
  | finish k ok hjobs hrunning =>
    -- what finishes runs, and so it has not finished before
    have hne : k ≠ j := by
      rintro rfl
      have hopen := (h.isOpen k (hrunning ▸ List.mem_cons_self)).unfinished
      rw [hj] at hopen
      cases hopen
    rw [JobQueue.job_ended hjobs, if_neg fun heq => hne heq.1]
    exact ⟨hj, rfl⟩

theorem finished_stays (h : Engaged m) (hmoves : Moves m n) {j : JobId}
    (hj : (m.state.jobs.job j).finished = true) : (n.state.jobs.job j).finished = true ∧
      (n.state.jobs.job j).success = (m.state.jobs.job j).success := by
  induction hmoves with
  | refl => exact ⟨hj, rfl⟩
  | tail hpath hmove ih =>
    obtain ⟨hfinished, hsame⟩ := (h.moves hpath).finished_move hmove ih.1
    exact ⟨hfinished, hsame.trans ih.2⟩

end Engaged

/-! ### Jobs whose work was cut short -/

/-- A job has started and not finished, and nobody runs it. -/
structure Moment.CutShort (j : JobId) (m : Moment) : Prop where
  isOpen : m.state.jobs.IsOpen j
  idle : j ∉ m.running

namespace Moment.CutShort

variable {j : JobId} {m n : Moment}

theorem move (h : m.CutShort j) (hmove : Move m n) : n.CutShort j := by
  cases hmove.jobChange with
  | same hjobs hrunning => exact ⟨h.isOpen.congr hjobs, hrunning ▸ h.idle⟩
  | make w hjobs hrunning => exact ⟨h.isOpen.push hjobs, hrunning ▸ h.idle⟩
  | start k hnew hjobs hrunning =>
    have hne : k ≠ j := JobQueue.ne_of_started hnew h.isOpen.started
    refine ⟨(h.isOpen.modify _ hne).congr hjobs, ?_⟩
    rw [hrunning, List.mem_cons, not_or]
    exact ⟨Ne.symm hne, h.idle⟩
  | finish k ok hjobs hrunning =>
    have hidle := h.idle
    rw [hrunning, List.mem_cons, not_or] at hidle
    exact ⟨(h.isOpen.modify _ (Ne.symm hidle.1)).congr hjobs, hidle.2⟩

/-- Where a call has unwound, nobody runs the job either. -/
theorem unwind (h : m.CutShort j) : (⟨[], m.state⟩ : Moment).CutShort j :=
  ⟨h.isOpen, List.not_mem_nil⟩

end Moment.CutShort

end AssetLoading
