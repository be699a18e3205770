import AssetLoading.Proofs.Run.Reached
import AssetLoading.Proofs.Tasks.Handover

/-! # The line of jobs

  Jobs join the line of those that wait at its end, and only a drain takes them out
  of it, all at once. The drains under way form a stack, as the job that one of them
  runs may begin another. Each of them works through its batch from the front.

  A log of a run writes down every submission and every batch. It says no more than
  the moments themselves show: how the line of waiting jobs changes and what is left
  of the batches of the drains under way. At any time the submissions are the batches
  one after the other, followed by the jobs that wait. So none is taken up twice, none
  is left out, and whatever is submitted while a drain is under way belongs to a later
  batch or waits.
-/

namespace AssetLoading

/-! ### Drains under way -/

/-- What a drain has still to run. -/
def Activity.remainder : Activity → Option (List JobId)
  | draining js => some js
  | _ => none

/-- What the drains under way have still to run, the innermost first. -/
def Moment.remainders (m : Moment) : List (List JobId) :=
  m.underWay.filterMap Activity.remainder

/-- The jobs in line are those that wait and those that drains have still to run. -/
theorem Moment.line_eq (m : Moment) : m.line = m.state.jobs.waiting ++ m.remainders.flatten := by
  have hflat (u : List Activity) :
      u.flatMap Activity.line = (u.filterMap Activity.remainder).flatten := by
    induction u with
    | nil => rfl
    | cons a u ih =>
      cases a with
      | draining js => exact congrArg (js ++ ·) ih
      | _ => exact ih
  rw [line, remainders, hflat]

/-! ### Logs -/

/-- What a drain takes up. -/
structure Batch where
  /-- The jobs that waited, in order. -/
  jobs : List JobId
  /-- Number of jobs that had been made by then. -/
  made : Nat

/-- The submissions and batches of a run. -/
structure JobLog where
  /-- Every submission, in order. -/
  submitted : List JobId := []
  /-- The jobs of each batch, in order. -/
  batches : List (List JobId) := []
  /-- The batches of the drains under way, the innermost first. -/
  underWay : List Batch := []

/-- A drain begins, whose batch are the jobs that wait. -/
def JobLog.drain (log : JobLog) (q : JobQueue) : JobLog :=
  { log with
    batches := log.batches ++ [q.waiting]
    underWay := ⟨q.waiting, q.jobs.size⟩ :: log.underWay }

/-- What a change of a run does with the line of jobs. -/
inductive JobLog.Step (m n : Moment) (log : JobLog) : JobLog → Prop where
  /-- A job is submitted. -/
  | submit (j : JobId) (hwaiting : n.state.jobs.waiting = m.state.jobs.waiting ++ [j])
      (hdrains : n.remainders = m.remainders) :
      Step m n log { log with submitted := log.submitted ++ [j] }
  /-- A drain begins. -/
  | drain (hwaiting : n.state.jobs.waiting = [])
      (hdrains : n.remainders = m.state.jobs.waiting :: m.remainders) :
      Step m n log (log.drain m.state.jobs)
  /-- The innermost drain turns to its next job, which starts if it has not started
  before. -/
  | turn (j : JobId) (js : List JobId) (rest : List (List JobId))
      (hbefore : m.remainders = (j :: js) :: rest) (hafter : n.remainders = js :: rest)
      (hstarted : (n.state.jobs.job j).started = true)
      (hwaiting : n.state.jobs.waiting = m.state.jobs.waiting) : Step m n log log
  /-- The innermost drain has come through its batch. -/
  | drained (hdrains : m.remainders = [] :: n.remainders)
      (hwaiting : n.state.jobs.waiting = m.state.jobs.waiting) :
      Step m n log { log with underWay := log.underWay.tail }
  /-- The line stays as it is. -/
  | keep (hwaiting : n.state.jobs.waiting = m.state.jobs.waiting)
      (hdrains : n.remainders = m.remainders) : Step m n log log

/-- A run from one moment to another, with its log before and after. -/
inductive JobSteps : Moment → JobLog → Moment → JobLog → Prop where
  /-- Nothing happens. -/
  | refl (m : Moment) (log : JobLog) : JobSteps m log m log
  /-- One more change. -/
  | tail {k m n : Moment} {before log after : JobLog} (h : JobSteps k before m log)
      (hmove : Move m n) (hstep : log.Step m n after) : JobSteps k before n after

namespace JobSteps

variable {k m n : Moment} {before log after : JobLog}

theorem moves (h : JobSteps m before n after) : Moves m n := by
  induction h with
  | refl => exact .refl
  | tail _ hmove _ ih => exact ih.tail hmove

theorem trans (hkm : JobSteps k before m log) (hmn : JobSteps m log n after) :
    JobSteps k before n after := by
  induction hmn with
  | refl => exact hkm
  | tail _ hmove hstep ih => exact (ih hkm).tail hmove hstep

/-- What was submitted stays submitted, and so do the batches. -/
theorem grows (h : JobSteps m before n after) :
    before.submitted <+: after.submitted ∧ before.batches <+: after.batches := by
  induction h with
  | refl => exact ⟨List.prefix_rfl, List.prefix_rfl⟩
  | tail _ _ hstep ih =>
    cases hstep with
    | submit => exact ⟨ih.1.trans (List.prefix_append _ _), ih.2⟩
    | drain => exact ⟨ih.1, ih.2.trans (List.prefix_append _ _)⟩
    | _ => exact ih

end JobSteps

/-! ### Every run has a log -/

section Moving

variable {m n : Moment}

theorem remainders_cons_of_none {a : Activity} {u : List Activity} {s : State}
    (ha : a.remainder = none) : (⟨a :: u, s⟩ : Moment).remainders = (⟨u, s⟩ : Moment).remainders :=
  List.filterMap_cons_none ha

theorem remainders_gained (holder : Holder) (h : Handle) (u : List Activity) (s : State) :
    (⟨gained holder h u, s⟩ : Moment).remainders = (⟨u, s⟩ : Moment).remainders := by
  cases holder <;> rfl

theorem Activity.MayAct.remainder {a : Activity} {b : BodyId} {i : Nat} {onGpu : Bool}
    (h : a.MayAct b i onGpu) : a.remainder = none ∧ ∀ ok, (a.concluded ok).remainder = none := by
  cases a <;> first | exact h.elim | exact ⟨rfl, fun _ => rfl⟩

theorem Activity.MayFree.remainder {a : Activity} {b : BodyId} (h : a.MayFree b) :
    a.remainder = none ∧ a.freed.remainder = none := by
  cases a <;> first | exact h.elim | exact ⟨rfl, rfl⟩

/-- The line of jobs is the same. -/
structure Moment.SameLine (m n : Moment) : Prop where
  waiting : n.state.jobs.waiting = m.state.jobs.waiting
  drains : n.remainders = m.remainders

theorem AssetMove.sameLine (h : AssetMove m n) : m.SameLine n := by
  cases h with
  | take holder h => exact ⟨rfl, remainders_gained holder h _ _⟩
  | revive holder h => exact ⟨rfl, remainders_gained holder h _ _⟩
  | drop holder h => exact ⟨rfl, (remainders_gained holder h _ _).symm⟩
  | _ => exact ⟨rfl, rfl⟩

theorem BodyMove.sameLine (h : BodyMove m n) : m.SameLine n := by
  cases h with
  | act a b i onGpu hmay => exact ⟨rfl, (remainders_cons_of_none hmay.remainder.1).symm⟩
  | actEnd a b i onGpu ok hmay => exact ⟨rfl, remainders_cons_of_none (hmay.remainder.2 ok)⟩
  | actSkip a b i onGpu hmay =>
    exact ⟨rfl, (remainders_cons_of_none (hmay.remainder.2 false)).trans
      (remainders_cons_of_none hmay.remainder.1).symm⟩
  | free a b asset hmay => exact ⟨rfl, (remainders_cons_of_none hmay.remainder.1).symm⟩
  | freeEnd a b hmay => exact ⟨rfl, remainders_cons_of_none hmay.remainder.2⟩
  | freeSkip a b hmay =>
    exact ⟨rfl, (remainders_cons_of_none hmay.remainder.2).trans
      (remainders_cons_of_none hmay.remainder.1).symm⟩
  | _ => exact ⟨rfl, rfl⟩

/-- A job that is picked has started then. -/
theorem Picks.step {j : JobId} {u v w : List Activity} {s t : State} (hpick : Picks j u v)
    (hrunning : w.filterMap Activity.remainder = v.filterMap Activity.remainder)
    (hstarted : (t.jobs.job j).started = true) (hwaiting : t.jobs.waiting = s.jobs.waiting)
    (log : JobLog) : log.Step ⟨u, s⟩ ⟨w, t⟩ log := by
  cases hpick with
  | next js u => exact .turn j js _ rfl hrunning hstarted hwaiting
  | outOfTurn u => exact .keep hwaiting hrunning

theorem JobMove.exists_step (h : JobMove m n) (log : JobLog) : ∃ after, log.Step m n after := by
  cases h with
  | make w hw => exact ⟨_, .keep rfl rfl⟩
  | submit j => exact ⟨_, .submit j rfl rfl⟩
  | drain => exact ⟨_, .drain rfl rfl⟩
  | @start u v s j hpick hnew =>
    have hstarted : ((s.jobStarted j).jobs.job j).started = true := by
      show ((s.jobs.modify j _).job j).started = true
      rw [JobQueue.job_modify, if_pos ⟨rfl, State.lt_size_of_unstarted hnew⟩]
    exact ⟨log, hpick.step (s := s) (w := .running j _ :: v) rfl hstarted rfl log⟩
  | skip j hpick hold => exact ⟨log, hpick.step rfl hold rfl log⟩
  | work j w hw ok => exact ⟨_, .keep rfl rfl⟩
  | finish j w ok => exact ⟨_, .keep rfl rfl⟩
  | drained => exact ⟨_, .drained rfl rfl⟩

theorem TaskMove.exists_step (h : TaskMove m n) (log : JobLog) : ∃ after, log.Step m n after := by
  cases h with
  | @handOver u s e => exact ⟨_, .submit s.jobs.jobs.size rfl rfl⟩
  | exchange es e => exact ⟨_, .keep rfl (filterMap_exchange es e _ fun _ => rfl)⟩
  | _ => exact ⟨_, .keep rfl rfl⟩

theorem Move.exists_step (h : Move m n) (log : JobLog) : ∃ after, log.Step m n after := by
  cases h with
  | asset h => exact ⟨_, .keep h.sameLine.waiting h.sameLine.drains⟩
  | body h => exact ⟨_, .keep h.sameLine.waiting h.sameLine.drains⟩
  | job h => exact h.exists_step log
  | task h => exact h.exists_step log
  | notice h => cases h <;> exact ⟨_, .keep rfl rfl⟩
  | plain h => cases h <;> exact ⟨_, .keep rfl rfl⟩

theorem Moves.exists_log (h : Moves m n) (log : JobLog) : ∃ after, JobSteps m log n after := by
  induction h with
  | refl => exact ⟨log, .refl m log⟩
  | tail _ hmove ih =>
    obtain ⟨middle, hsteps⟩ := ih
    obtain ⟨after, hstep⟩ := hmove.exists_step middle
    exact ⟨after, hsteps.tail hmove hstep⟩

end Moving

/-! ### What a log tells -/

/-- A drain under way has worked through its batch up to what it has still to run:
the jobs in front of that have started. -/
structure State.Through (s : State) (batch : Batch) (rest : List JobId) : Prop where
  made : batch.made ≤ s.jobs.jobs.size
  front : ∃ front, batch.jobs = front ++ rest ∧
    ∀ j ∈ front, j < batch.made → (s.jobs.job j).started = true

/-- How the log of a run stands to the moment it has come to. -/
structure JobLog.Describes (log : JobLog) (m : Moment) : Prop where
  /-- The submissions are the batches one after the other, and the jobs that wait. -/
  inOrder : log.submitted = log.batches.flatten ++ m.state.jobs.waiting
  /-- Each drain under way works through its batch, from the front. -/
  inTurn : List.Forall₂ m.state.Through log.underWay m.remainders
  /-- The batches of drains under way are among all batches. -/
  known : ∀ batch ∈ log.underWay, batch.jobs ∈ log.batches

theorem State.Through.extends {s t : State} {batch : Batch} {rest : List JobId}
    (h : s.Through batch rest) (hst : s.Extends t) (hsize : s.jobs.jobs.size ≤ t.jobs.jobs.size) :
    t.Through batch rest := by
  obtain ⟨front, hbatch, hfront⟩ := h.front
  refine ⟨h.made.trans hsize, front, hbatch, fun j hj hmade => ?_⟩
  exact (hst.job j (Nat.lt_of_lt_of_le hmade h.made)).2.started (hfront j hj hmade)

theorem State.Extends.size_jobs_le {s t : State} (h : s.Extends t) :
    s.jobs.jobs.size ≤ t.jobs.jobs.size := by
  refine Nat.le_of_not_lt fun hlt => ?_
  exact Nat.lt_irrefl _ (h.job _ hlt).1

/-- The submissions stay the batches one after the other, and the jobs that wait. -/
theorem JobLog.Step.inOrder {m n : Moment} {log after : JobLog} (h : log.Step m n after)
    (horder : log.submitted = log.batches.flatten ++ m.state.jobs.waiting) :
    after.submitted = after.batches.flatten ++ n.state.jobs.waiting := by
  cases h with
  | submit j hwaiting => rw [hwaiting, ← List.append_assoc, ← horder]
  | drain hwaiting =>
    rw [hwaiting, List.append_nil]
    show log.submitted = (log.batches ++ [m.state.jobs.waiting]).flatten
    rw [List.flatten_append, List.flatten_singleton]
    exact horder
  | turn j js rest hbefore hafter hstarted hwaiting => exact hwaiting ▸ horder
  | drained hdrains hwaiting => exact hwaiting ▸ horder
  | keep hwaiting => exact hwaiting ▸ horder

theorem JobSteps.inOrder {m n : Moment} {log after : JobLog} (h : JobSteps m log n after)
    (horder : log.submitted = log.batches.flatten ++ m.state.jobs.waiting) :
    after.submitted = after.batches.flatten ++ n.state.jobs.waiting := by
  induction h with
  | refl => exact horder
  | tail _ _ hstep ih => exact hstep.inOrder (ih horder)

namespace JobLog.Describes

variable {m n : Moment} {log after : JobLog}

theorem start (p : Session) : ({} : JobLog).Describes ⟨[], p.start⟩ where
  inOrder := by
    unfold Session.start
    dsimp only
    split <;> rfl
  inTurn := .nil
  known := fun _ h => absurd h List.not_mem_nil

theorem step (h : log.Describes m) (hext : m.state.Extends n.state) (hstep : log.Step m n after) :
    after.Describes n := by
  have horder := hstep.inOrder h.inOrder
  have hthrough : List.Forall₂ n.state.Through log.underWay m.remainders :=
    h.inTurn.imp fun _ _ hbatch => hbatch.extends hext hext.size_jobs_le
  cases hstep with
  | submit j hwaiting hdrains => exact ⟨horder, hdrains ▸ hthrough, h.known⟩
  | drain hwaiting hdrains =>
    refine ⟨horder, ?_, ?_⟩
    · -- nothing is in front of what a new drain has to run
      rw [hdrains]
      exact .cons ⟨hext.size_jobs_le, [], rfl, fun _ hj => absurd hj List.not_mem_nil⟩ hthrough
    · intro batch hbatch
      rcases List.mem_cons.1 hbatch with rfl | hold
      · exact List.mem_append_right _ (List.mem_singleton_self _)
      · exact List.mem_append_left _ (h.known batch hold)
  | turn j js rest hbefore hafter hstarted hwaiting =>
    refine ⟨horder, ?_, h.known⟩
    -- the job leaves the rest of the innermost batch and joins what is in front of it
    rw [hbefore] at hthrough
    rw [hafter]
    generalize log.underWay = batches at hthrough
    cases hthrough with
    | cons hfirst hrest =>
      obtain ⟨hmade, front, hbatch, hfront⟩ := hfirst
      refine .cons ⟨hmade, front ++ [j], ?_, fun k hk hlt => ?_⟩ hrest
      · rw [hbatch, List.append_assoc]
        rfl
      · rcases List.mem_append.1 hk with hk | hk
        · exact hfront k hk hlt
        · rw [List.mem_singleton.1 hk]
          exact hstarted
  | drained hdrains hwaiting =>
    -- the innermost drain is over, and the others go on as they were
    rw [hdrains] at hthrough
    refine ⟨horder, ?_, fun batch hbatch => h.known batch (List.mem_of_mem_tail hbatch)⟩
    show List.Forall₂ n.state.Through log.underWay.tail n.remainders
    generalize log.underWay = batches at hthrough
    cases hthrough with
    | cons _ hrest => exact hrest
  | keep hwaiting hdrains => exact ⟨horder, hdrains ▸ hthrough, h.known⟩

theorem steps (h : log.Describes m) (hsteps : JobSteps m log n after) : after.Describes n := by
  induction hsteps with
  | refl => exact h
  | tail _ hmove hstep ih => exact (ih h).step hmove.extends hstep

end JobLog.Describes

end AssetLoading
