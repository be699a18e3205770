import AssetLoading.Proofs.Queue.Sorting
import AssetLoading.Proofs.Tasks.Quiet

/-! # Batches of tasks

  Tasks are put into the queue of an idle scheduler without workers, one after the other,
  and then the main thread updates the scheduler. An agenda says how far it has come: some
  tasks are completed, and of the next one some actions have started. Each update takes
  the agenda one turn further, as long as the callbacks do not drive tasks themselves. So
  the tasks are completed in the stable order of their priorities and cost estimates, one
  after the other, and each of them takes as many updates as actions of it have started,
  but one if there were none.
-/

namespace AssetLoading

/-! ### Agendas -/

/-- The course of a task that is completed when a number of its actions have started. -/
def Entry.performs (e : Entry) (count : Nat) : List Progress :=
  (List.range count).map (.acted e.body) ++ [.completed e.id]

/-- How far a batch of tasks has come. -/
structure Agenda where
  /-- The completed tasks in order, each with the number of its actions that have started. -/
  done : List (Entry × Nat)
  /-- The tasks that are left, as they were in the beginning. -/
  rest : List Entry
  /-- The number of actions of the next task that have started. -/
  begun : Nat

namespace Agenda

/-- All tasks of the batch, in the order in which they are completed. -/
def tasks (a : Agenda) : List Entry :=
  a.done.map Prod.fst ++ a.rest

/-- The number of updates that it has taken to come so far. -/
def updates (a : Agenda) : Nat :=
  (a.done.map fun d => max 1 d.2).sum + a.begun

/-- What has happened so far with the next task. -/
def current (a : Agenda) : List Progress :=
  match a.rest with
  | [] => []
  | e :: _ => (List.range a.begun).map (.acted e.body)

/-- What has happened so far. -/
def course (a : Agenda) : List Progress :=
  (a.done.flatMap fun d => d.1.performs d.2) ++ a.current

theorem current_eq_nil {a : Agenda} (h : a.begun = 0) : a.current = [] := by
  unfold current
  rw [h]
  split <;> rfl

/-- The tasks that wait. -/
def Waits (a : Agenda) (pending : List Entry) : Prop :=
  match a.rest with
  | [] => pending = []
  | e :: es => ∃ complexity, pending = { e with cursor := a.begun, complexity } :: es

/-- One turn of the next task. -/
inductive Next : Agenda → List Progress → Agenda → Prop where
  /-- It has no actions and is completed. -/
  | skip {done : List (Entry × Nat)} {e : Entry} {es : List Entry} (h : e.actionCount = 0) :
      Next ⟨done, e :: es, 0⟩ [.completed e.id] ⟨done ++ [(e, 0)], es, 0⟩
  /-- Its last action starts, or one that fails, and it is completed. -/
  | last {done : List (Entry × Nat)} {e : Entry} {es : List Entry} {i : Nat} (h : i < e.actionCount) :
      Next ⟨done, e :: es, i⟩ [.acted e.body i, .completed e.id] ⟨done ++ [(e, i + 1)], es, 0⟩
  /-- Another action starts. -/
  | act {done : List (Entry × Nat)} {e : Entry} {es : List Entry} {i : Nat}
      (h : i + 1 < e.actionCount) :
      Next ⟨done, e :: es, i⟩ [.acted e.body i] ⟨done, e :: es, i + 1⟩

/-- Every completed task has started its first action, if it has any, and no task more
actions than it has. -/
structure IsSound (a : Agenda) : Prop where
  done : ∀ d ∈ a.done, d.2 ≤ d.1.actionCount ∧ (d.1.actionCount ≠ 0 → d.2 ≠ 0)
  begun : match a.rest with
    | [] => a.begun = 0
    | e :: _ => a.begun < max 1 e.actionCount
  fresh : ∀ e ∈ a.rest, e.cursor = 0

variable {a b : Agenda} {new : List Progress}

namespace Next

theorem tasks (h : a.Next new b) : b.tasks = a.tasks := by
  cases h <;> simp [Agenda.tasks]

theorem updates (h : a.Next new b) : b.updates = a.updates + 1 := by
  cases h with
  | skip => simp [Agenda.updates]
  | last =>
    simp only [Agenda.updates, List.map_append, List.map_cons, List.map_nil, List.sum_append,
      List.sum_cons, List.sum_nil]
    omega
  | act => rfl

theorem course (h : a.Next new b) : b.course = a.course ++ new := by
  cases h with
  | @skip done e es =>
    rw [Agenda.course, Agenda.course, current_eq_nil (a := ⟨_, es, 0⟩) rfl, current_eq_nil rfl]
    simp [Entry.performs]
  | @last done e es i =>
    rw [Agenda.course, Agenda.course, current_eq_nil (a := ⟨_, es, 0⟩) rfl]
    simp [Entry.performs, current, List.range_succ]
  | act => simp [Agenda.course, current, List.range_succ]

/-- At most one action starts in a turn. -/
theorem actions (h : a.Next new b) : new.countP Progress.isAction ≤ 1 := by
  cases h with
  | skip => exact Nat.zero_le 1
  | last => exact Nat.le_refl 1
  | act => exact Nat.le_refl 1

theorem isSound (h : a.Next new b) (ha : a.IsSound) : b.IsSound := by
  have hdone {done : List (Entry × Nat)} {e : Entry} {k : Nat}
      (hall : ∀ d ∈ done, d.2 ≤ d.1.actionCount ∧ (d.1.actionCount ≠ 0 → d.2 ≠ 0))
      (hnew : k ≤ e.actionCount ∧ (e.actionCount ≠ 0 → k ≠ 0)) :
      ∀ d ∈ done ++ [(e, k)], d.2 ≤ d.1.actionCount ∧ (d.1.actionCount ≠ 0 → d.2 ≠ 0) := by
    intro d hd
    rcases List.mem_append.1 hd with hd | hd
    · exact hall d hd
    · rw [List.mem_singleton.1 hd]
      exact hnew
  have hbegun (es : List Entry) : match es with
      | [] => 0 = 0
      | e :: _ => 0 < max 1 e.actionCount := by
    cases es with
    | nil => rfl
    | cons e es => exact Nat.lt_of_lt_of_le Nat.one_pos (Nat.le_max_left _ _)
  cases h with
  | skip hnone =>
    exact ⟨hdone ha.done ⟨Nat.zero_le _, fun hsome => absurd hnone hsome⟩, hbegun _,
      fun e he => ha.fresh e (List.mem_cons_of_mem _ he)⟩
  | last hlt =>
    exact ⟨hdone ha.done ⟨hlt, fun _ => Nat.succ_ne_zero _⟩, hbegun _,
      fun e he => ha.fresh e (List.mem_cons_of_mem _ he)⟩
  | act hlt => exact ⟨ha.done, Nat.lt_of_lt_of_le hlt (Nat.le_max_right _ _), ha.fresh⟩

end Next

theorem sum_turns_le {done : List (Entry × Nat)} (h : ∀ d ∈ done, d.2 ≤ d.1.actionCount) :
    (done.map fun d => max 1 d.2).sum ≤ (done.map fun d => max 1 d.1.actionCount).sum := by
  induction done with
  | nil => exact Nat.le_refl 0
  | cons d done ih =>
    have hfirst := h d List.mem_cons_self
    have hrest := ih fun d hd => h d (List.mem_cons_of_mem _ hd)
    simp only [List.map_cons, List.sum_cons]
    omega

/-- As long as a task is left, fewer turns were taken than the tasks have. -/
theorem IsSound.updates_lt (ha : a.IsSound) (hrest : a.rest ≠ []) :
    a.updates < (a.tasks.map fun e => max 1 e.actionCount).sum := by
  obtain ⟨done, rest, begun⟩ := a
  have hdone : (done.map fun d => max 1 d.2).sum ≤ (done.map fun d => max 1 d.1.actionCount).sum :=
    sum_turns_le fun d hd => (ha.done d hd).1
  cases rest with
  | nil => exact absurd rfl hrest
  | cons e es =>
    have hbegun : begun < max 1 e.actionCount := ha.begun
    simp only [updates, tasks, List.map_append, List.map_map, List.map_cons, List.sum_append,
      List.sum_cons, Function.comp_def]
    omega

end Agenda

/-! ### Updates follow the agenda -/

/-- A scheduler without workers, on which nothing is under way but a batch of tasks that
has come this far since an earlier state. -/
structure State.Follows (s : State) (a : Agenda) (t : State) : Prop where
  single : t.settings.isSingleThreaded = true
  foreign : t.jobs.IsForeign
  active : t.queue.active = []
  total : t.queue.total = s.queue.total
  completed : t.queue.completed = s.queue.completed + a.done.length
  pending : a.Waits t.queue.pending
  course : t.course = s.course ++ a.course
  ready : ∀ e ∈ t.queue.pending, t.Readies e
  bodies : (t.queue.pending.map (·.body)).Nodup
  sound : a.IsSound

section Following

variable {s t u : State} {a : Agenda} {fuel : Nat}

theorem without_claim (e : Entry) (active : List Claimed) :
    TaskQueue.without (e.claim :: active) e.id = active :=
  List.eraseP_cons_of_pos (beq_self_eq_true e.id)

theorem lasts_of_update (hrun : update (run fuel) .main s = .ok () t) : s.Lasts t := by
  have hdrives : Drives State.Lasts False := permitsTasks_lasts.drives
  exact ((Stays.drivingParts hdrives (run_stays hdrives.steers fuel)).update .main s).returned hrun

section Turning

variable {change : TaskQueue → TaskQueue} {new : List Progress} {done : List (Entry × Nat)} {e : Entry}
  {es : List Entry} {i : Nat}

/-- The body of the next task is not the one of a task behind it. -/
theorem State.Follows.body_notMem (h : s.Follows ⟨done, e :: es, i⟩ t) {d : Entry} (hd : d ∈ es) :
    d.body ≠ e.body := by
  obtain ⟨complexity, hpending⟩ := h.pending
  have hbodies := h.bodies
  rw [hpending, List.map_cons, List.nodup_cons] at hbodies
  intro hbody
  exact hbodies.1 (hbody ▸ List.mem_map_of_mem hd)

/-- The next task is completed. -/
theorem State.Follows.complete (h : s.Follows ⟨done, e :: es, i⟩ t) {count : Nat}
    (hnext : Agenda.Next ⟨done, e :: es, i⟩ new ⟨done ++ [(e, count)], es, 0⟩)
    (heffect : State.Effect change new [e.body] t u) (hlasts : t.Lasts u)
    (hqueue : u.queue = { t.queue with pending := es, completed := t.queue.completed + 1 }) :
    s.Follows ⟨done ++ [(e, count)], es, 0⟩ u := by
  obtain ⟨complexity, hpending⟩ := h.pending
  have hsound := hnext.isSound h.sound
  refine
    { single := hlasts.settings ▸ h.single
      foreign := heffect.foreign
      active := (congrArg TaskQueue.active hqueue).trans h.active
      total := (congrArg TaskQueue.total hqueue).trans h.total
      completed := ?_
      pending := ?_
      course := by rw [heffect.course, h.course, hnext.course, List.append_assoc]
      ready := fun d hd => ?_
      bodies := ?_
      sound := hsound }
  · rw [hqueue, List.length_append]
    exact congrArg (· + 1) h.completed
  · rw [hqueue]
    -- the next task of the batch comes to the front as it was queued
    unfold Agenda.Waits
    cases es with
    | nil => rfl
    | cons d ds => exact ⟨d.complexity, by rw [← hsound.fresh d List.mem_cons_self]⟩
  · rw [hqueue] at hd
    refine (h.ready d (hpending ▸ List.mem_cons_of_mem _ hd)).of_effect heffect fun hmem => ?_
    exact h.body_notMem hd (List.mem_singleton.1 hmem)
  · have hbodies := h.bodies
    rw [hpending, List.map_cons, List.nodup_cons] at hbodies
    rw [hqueue]
    exact hbodies.2

/-- The next task goes back to the front of the queue. -/
theorem State.Follows.goOn (h : s.Follows ⟨done, e :: es, i⟩ t)
    (hnext : Agenda.Next ⟨done, e :: es, i⟩ new ⟨done, e :: es, i + 1⟩)
    (heffect : State.Effect change new [] t u) (hlasts : t.Lasts u) (complexity : Int32)
    (hqueue : u.queue =
      { t.queue with pending := { e with cursor := i + 1, complexity } :: es }) :
    s.Follows ⟨done, e :: es, i + 1⟩ u := by
  obtain ⟨_, hpending⟩ := h.pending
  refine
    { single := hlasts.settings ▸ h.single
      foreign := heffect.foreign
      active := (congrArg TaskQueue.active hqueue).trans h.active
      total := (congrArg TaskQueue.total hqueue).trans h.total
      completed := (congrArg TaskQueue.completed hqueue).trans h.completed
      pending := ⟨complexity, congrArg TaskQueue.pending hqueue⟩
      course := by rw [heffect.course, h.course, hnext.course, List.append_assoc]
      ready := fun d hd => ?_
      bodies := ?_
      sound := hnext.isSound h.sound }
  · rw [hqueue] at hd
    rcases List.mem_cons.1 hd with rfl | hd
    · -- a body counts neither the actions that have started nor the cost estimate
      have he := (h.ready _ (hpending ▸ List.mem_cons_self)).of_effect heffect List.not_mem_nil
      exact ⟨he.job, he.taken, he.actions⟩
    · exact (h.ready d (hpending ▸ List.mem_cons_of_mem _ hd)).of_effect heffect List.not_mem_nil
  · have hbodies := h.bodies
    rw [hpending] at hbodies
    rw [hqueue]
    exact hbodies

/-- An update that returns takes the agenda one turn further. -/
theorem State.Follows.turn (h : s.Follows ⟨done, e :: es, i⟩ t)
    (hrun : update (run fuel) .main t = .ok () u) (hquiet : t.Without Event.drives u) :
    ∃ new b, Agenda.Next ⟨done, e :: es, i⟩ new b ∧ s.Follows b u ∧ u.course = t.course ++ new := by
  obtain ⟨complexity, hpending⟩ := h.pending
  have hlasts := lasts_of_update hrun
  obtain ⟨-, hturns⟩ := effect_of_update h.single h.foreign h.ready hrun hquiet
  obtain ⟨change, new, ended, hturn, heffect⟩ := hturns _ _ hpending
  have hbegun : i < max 1 e.actionCount := h.sound.begun
  -- the task is claimed for its turn, and for no longer
  have hclaimed := without_claim { e with cursor := i, complexity } t.queue.active
  cases hturn with
  | empty hle =>
    obtain ⟨hcount, rfl⟩ : e.actionCount = 0 ∧ i = 0 := by
      have hle' : e.actionCount ≤ i := hle
      omega
    have hnext : Agenda.Next ⟨done, e :: es, 0⟩ _ _ := .skip hcount
    refine ⟨_, _, hnext, h.complete hnext heffect hlasts (heffect.queue.trans ?_), heffect.course⟩
    exact congrArg (fun active => { t.queue with
      pending := es, active, completed := t.queue.completed + 1 }) hclaimed
  | last hlt =>
    have hnext : Agenda.Next ⟨done, e :: es, i⟩ _ _ := .last hlt
    refine ⟨_, _, hnext, h.complete hnext heffect hlasts (heffect.queue.trans ?_), heffect.course⟩
    exact congrArg (fun active => { t.queue with
      pending := es, active, completed := t.queue.completed + 1 }) hclaimed
  | more complexity' hlt =>
    have hnext : Agenda.Next ⟨done, e :: es, i⟩ _ _ := .act hlt
    refine ⟨_, _, hnext, h.goOn hnext heffect hlasts complexity' (heffect.queue.trans ?_), heffect.course⟩
    exact congrArg (fun active => { t.queue with
      pending := { e with cursor := i + 1, complexity := complexity' } :: es, active }) hclaimed

end Turning

/-- Several updates and then one more. -/
theorem updates_succ {call : Runner} {n : Nat} (h : updates call .main n s = .ok () t)
    (hrun : update call .main t = .ok () u) : updates call .main (n + 1) s = .ok () u := by
  induction n generalizing s with
  | zero =>
    cases h
    exact Exec.bind_of_ok hrun
  | succ n ih =>
    obtain ⟨_, r, hfirst, hrest⟩ := Exec.bind_eq_ok h
    exact (Exec.bind_of_ok hfirst).trans (ih hrest)

/-- The updates that are left until the batch is completed. -/
theorem State.Follows.finish (h : s.Follows a t)
    (hrun : updates (run fuel) .main a.updates s = .ok () t)
    (hreturns : ∀ n < (a.tasks.map fun e => max 1 e.actionCount).sum, ∀ r,
      updates (run fuel) .main n s = .ok () r → r.queue.pending ≠ [] →
        ∃ u, update (run fuel) .main r = .ok () u ∧ s.Without Event.drives u) :
    ∃ (b : Agenda) (u : State), b.rest = [] ∧ b.tasks = a.tasks ∧ s.Follows b u ∧
      updates (run fuel) .main b.updates s = .ok () u ∧
      ∀ n < b.updates, a.updates ≤ n → ∃ r u new, updates (run fuel) .main n s = .ok () r ∧
        r.queue.pending ≠ [] ∧ update (run fuel) .main r = .ok () u ∧ u.course = r.course ++ new ∧
        new.countP Progress.isAction ≤ 1 := by
  -- the induction is on the turns that are left at most
  obtain ⟨left, hleft⟩ : ∃ left, (a.tasks.map fun e => max 1 e.actionCount).sum ≤ a.updates + left :=
    ⟨_, Nat.le_add_left _ _⟩
  induction left generalizing a t with
  | zero =>
    -- no task can be left, as it would have a turn left
    refine ⟨a, t, ?_, rfl, h, hrun, fun n hn hle => absurd hn (Nat.not_lt.2 hle)⟩
    by_contra hrest
    exact absurd (h.sound.updates_lt hrest) (Nat.not_lt.2 hleft)
  | succ left ih =>
    obtain ⟨done, rest, i⟩ := a
    cases rest with
    | nil => exact ⟨_, t, rfl, rfl, h, hrun, fun n hn hle => absurd hn (Nat.not_lt.2 hle)⟩
    | cons e es =>
      have hpending : t.queue.pending ≠ [] := by
        obtain ⟨complexity, hpending⟩ := h.pending
        rw [hpending]
        exact List.cons_ne_nil _ _
      obtain ⟨u, hupdate, hquiet⟩ :=
        hreturns _ (h.sound.updates_lt (List.cons_ne_nil _ _)) t hrun hpending
      have hbefore : s.history <:+ t.history := (eases_of_updates hrun).lasts.history
      obtain ⟨-, hquiet⟩ := hquiet.split hbefore (lasts_of_update hupdate).history
      obtain ⟨new, b, hnext, hfollows, hcourse⟩ := h.turn hupdate hquiet
      have hone := hnext.updates
      obtain ⟨c, v, hrest, htasks, hend, hupdates, hturns⟩ := ih hfollows
        (hone ▸ updates_succ hrun hupdate) (hnext.tasks ▸ hreturns) (by rw [hnext.tasks, hone]; omega)
      refine ⟨c, v, hrest, htasks.trans hnext.tasks, hend, hupdates, fun n hn hle => ?_⟩
      -- the first of these updates is the one that was looked at
      rcases Nat.lt_or_eq_of_le hle with hlt | heq
      · exact hturns n hn (hone ▸ hlt)
      · exact ⟨t, u, new, heq ▸ hrun, hpending, hupdate, hcourse, hnext.actions⟩

end Following

/-! ### Tasks are put into the queue -/

/-- Calls that return put some tasks into the queue, one after the other. The other calls
in between and the code that they run drive no tasks. -/
inductive State.Queues (s : State) : List Entry → State → Prop where
  | none : s.Queues [] s
  /-- A call that drives no tasks. -/
  | call {batch : List Entry} {r t : State} {fuel : Nat} {thread : Thread} {op : Op} {reply : Reply}
      (h : s.Queues batch r) (hop : op.drives = false)
      (hrun : performOn fuel r thread op = (.answered reply, t)) (hquiet : r.Without Event.drives t) :
      s.Queues batch t
  /-- A task is put into the queue. -/
  | enqueue {batch : List Entry} {r t : State} {fuel : Nat} {thread : Thread} {plan : TaskPlan Script}
      {h : Handle} {reply : Reply} (hbefore : s.Queues batch r)
      (hasset : r.resolve { thread } plan.asset = some h)
      (hrun : performOn fuel r thread (.enqueue plan) = (.answered reply, t)) :
      s.Queues (batch ++ [{ plan.task h r.bodies.size with id := r.queue.lastId + 1 }]) t

theorem permits_without_drives : Permits fun s t => s.Without Event.drives t where
  refl _ := rfl
  trans hrs hst := hst.trans hrs
  note s e he := by
    cases e with
    | answered => exact he.elim
    | _ => exact List.countP_cons_of_neg Bool.false_ne_true
  assets _ _ := rfl
  registries _ _ := rfl
  notices _ _ := rfl
  files _ _ := rfl
  client _ _ _ _ := rfl
  data _ _ _ _ := rfl
  makeJob _ _ _ := rfl
  labelJob _ _ _ _ := rfl
  submitJob _ _ _ := rfl
  drainJobs _ := rfl
  startJob _ _ := rfl
  finishJob _ _ _ := rfl

/-- A task that is accepted joins the queue, and no operation is answered. -/
theorem stays_joining (task : Task) :
    Stays (fun s t => s.Without Event.drives t ∧ State.Does (fun q => (q.push task).2) [] [] s t) False
      (acceptTask task) := by
  intro s
  refine .chain (.and (stays_addref permits_without_drives .task _ s)
    (stays_addref permits_leavesTasks .task _ s)) (Q := fun s t =>
      s.Without Event.drives t ∧ State.Does (fun q => (q.push task).2) [] [] s t)
    (fun _ r _ => ?_) (fun r t hr ht => ⟨ht.1.trans hr.1, .after hr.2 ht.2⟩) fun _ h => h.elim
  refine .look (.of_ok
    (t := ((r.record (.logged _ _ _)).withQueue (r.queue.push task).2).record (.accepted _ _ _ _)) rfl
    ⟨?_, ?_⟩)
  · exact (List.countP_cons_of_neg Bool.false_ne_true).trans (List.countP_cons_of_neg Bool.false_ne_true)
  · exact .after (leavesTasks_record r rfl)
      (.before (does_withQueue (r.record _) fun q => (q.push task).2) (leavesTasks_record _ rfl))

/-- A call that queues a task on an open scheduler makes a body for it and puts it into
the queue. -/
theorem effect_of_enqueue {r t : State} {fuel : Nat} {thread : Thread} {plan : TaskPlan Script}
    {h : Handle} {reply : Reply} (hopen : r.closed = false) (hforeign : r.jobs.IsForeign)
    (hasset : r.resolve { thread } plan.asset = some h)
    (hrun : performOn fuel r thread (.enqueue plan) = (.answered reply, t)) :
    r.Lasts t ∧ State.Effect (fun q => (q.push (plan.task h r.bodies.size)).2) [] []
      { r with bodies := r.bodies.push plan.body } t := by
  -- the body is made first, and what follows starts from there
  let planned : State := { r with bodies := r.bodies.push plan.body }
  let Joins (s t : State) : Prop := s.Without Event.drives t ∧
    State.Does (fun q => (q.push (plan.task h r.bodies.size)).2) [] [] s t
  have henqueue : StaysFrom Joins False planned
      (enqueue (run fuel) thread (plan.task h r.bodies.size)) := by
    refine .look ?_
    dsimp only
    rw [if_neg (by rw [show planned.closed = false from hopen]; exact Bool.false_ne_true)]
    split
    · exact .chain (.and (stays_modifyAsset permits_without_drives _ _ _)
        (stays_modifyAsset permits_leavesTasks _ _ _)) (fun _ t _ => stays_joining _ t)
        (fun _ _ hr ht => ⟨ht.1.trans hr.1, .after hr.2 ht.2⟩) fun _ h => h.elim
    · exact stays_joining _ _
  have hperform : (Op.enqueue plan).perform fuel { thread } r = (do
      enqueue (run fuel) thread (plan.task h r.bodies.size)
      pure (.task ((plan.task h r.bodies.size).summary (r.asset h).displayName)) : Exec Reply)
        planned := by
    show (get >>= _ : Exec Reply) r = _
    rw [Exec.get_bind, hasset]
    rfl
  have hanswered : StaysFrom Joins False planned (do
      enqueue (run fuel) thread (plan.task h r.bodies.size)
      pure (.task ((plan.task h r.bodies.size).summary (r.asset h).displayName)) : Exec Reply) :=
    .chain henqueue (Q := fun s t => s = t) (fun _ t _ => .of_ok rfl rfl)
      (fun _ _ hr heq => heq ▸ hr) fun _ h => h.elim
  obtain ⟨hquiet, hdoes⟩ := hanswered.returned (hperform.symm.trans (perform_of_answered hrun))
  exact ⟨(permitsTasks_lasts.plan r plan.body).trans hdoes.lasts, hdoes.does hquiet hforeign⟩

/-- A scheduler that was idle, into which a batch of tasks has been put. -/
structure State.Holds (s : State) (batch : List Entry) (t : State) : Prop where
  lasts : s.Lasts t
  opened : t.closed = false
  foreign : t.jobs.IsForeign
  active : t.queue.active = []
  total : t.queue.total = s.queue.total + batch.length
  completed : t.queue.completed = s.queue.completed
  sorted : t.queue.pending.Pairwise Entry.Precedes
  pending : t.queue.pending.Perm batch
  ids : batch.Pairwise fun d e => d.id < e.id
  last : ∀ e ∈ batch, e.id ≤ t.queue.lastId
  fresh : ∀ e ∈ batch, e.cursor = 0
  ready : ∀ e ∈ batch, t.Readies e
  bodies : (batch.map (·.body)).Nodup

namespace State.Holds

variable {s r t : State} {batch : List Entry}

/-- A call that does nothing to tasks. -/
theorem call (hr : s.Holds batch r) (hrt : r.LeavesTasks t) (hquiet : r.Without Event.drives t) :
    s.Holds batch t := by
  have heffect := hrt.does hquiet hr.foreign
  have hqueue : t.queue = r.queue := heffect.queue
  exact
    { hr with
      lasts := hr.lasts.trans hrt.lasts
      opened := heffect.closed.trans hr.opened
      foreign := heffect.foreign
      active := hqueue ▸ hr.active
      total := hqueue ▸ hr.total
      completed := hqueue ▸ hr.completed
      sorted := hqueue ▸ hr.sorted
      pending := hqueue ▸ hr.pending
      last := hqueue ▸ hr.last
      ready := fun e he => (hr.ready e he).of_effect heffect List.not_mem_nil }

/-- A task that is ready has a body that was made. -/
theorem body_lt {e : Entry} (h : s.Readies e) : e.body < s.bodies.size := by
  by_contra hle
  have htaken := h.taken
  unfold State.body at htaken
  rw [Array.getElem?_eq_none (Nat.le_of_not_lt hle)] at htaken
  cases htaken

/-- A call that puts a task into the queue. -/
theorem enqueue (hr : s.Holds batch r) {fuel : Nat} {thread : Thread} {plan : TaskPlan Script}
    {h : Handle} {reply : Reply} (hasset : r.resolve { thread } plan.asset = some h)
    (hrun : performOn fuel r thread (.enqueue plan) = (.answered reply, t)) :
    s.Holds (batch ++ [{ plan.task h r.bodies.size with id := r.queue.lastId + 1 }]) t := by
  obtain ⟨hlasts, heffect⟩ := effect_of_enqueue hr.opened hr.foreign hasset hrun
  have hqueue : t.queue = (r.queue.push (plan.task h r.bodies.size)).2 := heffect.queue
  have hids (e : Entry) (he : e ∈ r.queue.pending) : e.id ≤ r.queue.lastId :=
    hr.last e (hr.pending.subset he)
  obtain ⟨hsorted, hpending⟩ := TaskQueue.push_precedes hr.active hids hr.sorted
    (plan.task h r.bodies.size)
  -- the body of the task is new
  have hplanned (e : Entry) (he : e ∈ batch) :
      ({ r with bodies := r.bodies.push plan.body } : State).Readies e := by
    have hready := hr.ready e he
    have hbody := State.body_push r plan.body e.body
    rw [if_neg (Nat.ne_of_lt (body_lt hready))] at hbody
    exact ⟨hready.job, hbody ▸ hready.taken, hbody ▸ hready.actions⟩
  have hnew : ({ r with bodies := r.bodies.push plan.body } : State).Readies
      { plan.task h r.bodies.size with id := r.queue.lastId + 1 } := by
    have hbody := State.body_push r plan.body r.bodies.size
    rw [if_pos rfl] at hbody
    refine ⟨rfl, congrArg TaskBody.taken hbody, ?_⟩
    show (State.body _ r.bodies.size).actions.length = (plan.actions.map Action.affinity).length
    rw [hbody, List.length_map]
    rfl
  have hold {P : Entry → Prop} (hbatch : ∀ e ∈ batch, P e)
      (hnew : P { plan.task h r.bodies.size with id := r.queue.lastId + 1 }) :
      ∀ e ∈ batch ++ [{ plan.task h r.bodies.size with id := r.queue.lastId + 1 }], P e := by
    intro e he
    rcases List.mem_append.1 he with he | he
    · exact hbatch e he
    · exact List.mem_singleton.1 he ▸ hnew
  exact
    { lasts := hr.lasts.trans hlasts
      opened := heffect.closed.trans hr.opened
      foreign := heffect.foreign
      active := hqueue ▸ hr.active
      total := by
        rw [hqueue, List.length_append]
        exact congrArg (· + 1) hr.total
      completed := hqueue ▸ hr.completed
      sorted := hqueue ▸ hsorted
      pending := hqueue ▸ hpending.trans (hr.pending.append_right _)
      ids := by
        refine List.pairwise_append.2 ⟨hr.ids, List.pairwise_singleton _ _, fun d hd e he => ?_⟩
        rw [List.mem_singleton.1 he]
        exact Nat.lt_succ_of_le (hr.last d hd)
      last := hqueue ▸ hold (fun e he => Nat.le_succ_of_le (hr.last e he)) (Nat.le_refl _)
      fresh := hold hr.fresh rfl
      ready := hold (fun e he => (hplanned e he).of_effect heffect List.not_mem_nil)
        (hnew.of_effect heffect List.not_mem_nil)
      bodies := by
        rw [List.map_append]
        refine List.nodup_append.2 ⟨hr.bodies, List.nodup_singleton _, fun b hb c hc => ?_⟩
        obtain ⟨e, he, rfl⟩ := List.mem_map.1 hb
        rw [List.mem_singleton.1 hc]
        exact Nat.ne_of_lt (body_lt (hr.ready e he)) }

end State.Holds

/-- What has been put into the queue of an idle scheduler. -/
theorem State.Queues.holds {s t : State} {batch : List Entry} (h : s.Queues batch t)
    (hopen : s.closed = false) (hforeign : s.jobs.IsForeign) (hpending : s.queue.pending = [])
    (hactive : s.queue.active = []) : s.Holds batch t := by
  induction h with
  | none =>
    exact
      { lasts := permitsTasks_lasts.refl s
        opened := hopen
        foreign := hforeign
        active := hactive
        total := rfl
        completed := rfl
        sorted := hpending ▸ .nil
        pending := hpending ▸ .nil
        ids := .nil
        last := fun _ he => absurd he List.not_mem_nil
        fresh := fun _ he => absurd he List.not_mem_nil
        ready := fun _ he => absurd he List.not_mem_nil
        bodies := .nil }
  | @call batch r t fuel thread op reply _ hop hrun hquiet ih =>
    have hstays : StaysFrom State.LeavesTasks False r (op.perform fuel { thread }) :=
      stays_execute steers_leavesTasks (run_stays steers_leavesTasks fuel) fuel { thread } hop r
    exact ih.call (hstays.returned (perform_of_answered hrun)) hquiet
  | enqueue _ hasset hrun ih => exact ih.enqueue hasset hrun

/-- A batch that is about to begin. -/
theorem State.Holds.follows {s t : State} {batch : List Entry} (h : s.Holds batch t)
    (hsingle : s.settings.isSingleThreaded = true) : t.Follows ⟨[], t.queue.pending, 0⟩ t where
  single := h.lasts.settings ▸ hsingle
  foreign := h.foreign
  active := h.active
  total := rfl
  completed := rfl
  pending := by
    -- nothing was done yet, so the first task still has the estimate that it came with
    unfold Agenda.Waits
    split
    next hnone => exact hnone
    next e es hsome =>
      have he : e ∈ t.queue.pending := (show t.queue.pending = e :: es from hsome) ▸ List.mem_cons_self
      refine ⟨e.complexity, hsome.trans ?_⟩
      rw [← h.fresh e (h.pending.subset he)]
  course := by
    unfold Agenda.course
    rw [Agenda.current_eq_nil rfl]
    exact (List.append_nil _).symm
  ready e he := h.ready e (h.pending.subset he)
  bodies := (h.pending.map _).nodup_iff.2 h.bodies
  sound := by
    refine ⟨fun _ hd => absurd hd List.not_mem_nil, ?_, fun e he => h.fresh e (h.pending.subset he)⟩
    split
    · rfl
    · exact Nat.lt_of_lt_of_le Nat.one_pos (Nat.le_max_left _ _)

/-- Let nothing be under way on a scheduler without workers, and let some tasks be put
into its queue, one after the other. Then they wait in the stable order of their
priorities and cost estimates. Let updates return and drive no tasks from within as long
as tasks wait, and no more updates than the tasks have turns. Then the tasks are completed
in this order: of each task some actions start in order, at least one if it has any, then
it is completed, and then the next one goes on. No update starts more than one action.
The queue is empty after exactly as many updates as actions of the tasks have started,
where one is counted for a task without any, and not before. Then all tasks are
complete. -/
theorem batch_completes_in_order {s t : State} {batch : List Entry} {fuel : Nat} (hs : Called s)
    (hsolo : s.IsSolo) (hsingle : s.settings.isSingleThreaded = true) (hopen : s.closed = false)
    (hpending : s.queue.pending = []) (hactive : s.queue.active = [])
    (hcount : s.queue.completed = s.queue.total) (hbatch : s.Queues batch t)
    (hreturns : ∀ n < t.queue.turnsLeft, ∀ r, updates (run fuel) .main n t = .ok () r →
      r.queue.pending ≠ [] →
        ∃ u, update (run fuel) .main r = .ok () u ∧ t.Without Event.drives u) :
    t.queue.pending = batch.mergeSort Entry.mayPrecede ∧
      ∃ (done : List (Entry × Nat)) (n : Nat) (u : State),
        done.map Prod.fst = batch.mergeSort Entry.mayPrecede ∧
        (∀ d ∈ done, d.2 ≤ d.1.actionCount ∧ (d.1.actionCount ≠ 0 → d.2 ≠ 0)) ∧
        n = (done.map fun d => max 1 d.2).sum ∧
        updates (run fuel) .main n t = .ok () u ∧
        u.course = t.course ++ done.flatMap (fun d => d.1.performs d.2) ∧
        u.queue.pending = [] ∧ u.queue.active = [] ∧ u.queue.completed = u.queue.total ∧
        ∀ k < n, ∃ r v new, updates (run fuel) .main k t = .ok () r ∧ r.queue.pending ≠ [] ∧
          update (run fuel) .main r = .ok () v ∧ v.course = r.course ++ new ∧
          new.countP Progress.isAction ≤ 1 := by
  have hholds := hbatch.holds hopen (hs.isForeign hsolo) hpending hactive
  -- the numbers of the tasks settle ties, so there is one order only
  have hsorted := eq_mergeSort_of_precedes hholds.pending hholds.ids hholds.sorted
  have hturns : t.queue.turnsLeft = (t.queue.pending.map fun e => max 1 e.actionCount).sum := by
    unfold TaskQueue.turnsLeft
    congr 1
    refine List.map_congr_left fun e he => ?_
    unfold Entry.turnsLeft
    rw [hholds.fresh e (hholds.pending.subset he), Nat.sub_zero]
  rw [hturns] at hreturns
  obtain ⟨b, u, hrest, htasks, hend, hupdates, hall⟩ :=
    (hholds.follows hsingle).finish rfl hreturns
  obtain ⟨done, rest, begun⟩ := b
  cases hrest
  have hbegun : begun = 0 := hend.sound.begun
  subst hbegun
  have hdone : done.map Prod.fst = t.queue.pending := by
    have htasks' : done.map Prod.fst ++ [] = t.queue.pending := htasks
    rwa [List.append_nil] at htasks'
  refine ⟨hsorted, done, _, u, hdone.trans hsorted, hend.sound.done, rfl, hupdates, ?_, hend.pending,
    hend.active, ?_, fun k hk => hall k hk (Nat.zero_le _)⟩
  · have hcourse : u.course = t.course ++ ((done.flatMap fun d => d.1.performs d.2) ++ []) := hend.course
    rwa [List.append_nil] at hcourse
  · have hlength : done.length = batch.length := by
      rw [← List.length_map (f := Prod.fst), hdone, hholds.pending.length_eq]
    rw [hend.completed, hend.total, hholds.completed, hholds.total, hcount, ← hlength]

/-- A task without hooks whose actions do nothing. -/
def batchPlan (name : String) (priority complexity : Int32) (actions : List (Action Script)) :
    TaskPlan Script where
  name := name
  asset := .labelled "mesh"
  priority := priority
  complexity := complexity
  data := []
  actions := actions
  onFailure := none
  onFree := none

/-- A scheduler without workers, on which nothing is under way. -/
@[irreducible]
def batchIdle : State :=
  (Session.bare .single).start.after 8 [(.main, .findOrCreate "mesh" (.standard .mesh) (.ofId ⟨1⟩))]

/-- A task with two actions is queued. -/
@[irreducible]
def batchFirst : State :=
  (performOn 8 batchIdle .main
    (.enqueue (batchPlan "late" 5 0 [⟨.worker, [], true⟩, ⟨.gpu, [], true⟩]))).2

/-- A more urgent task is queued whose first action fails. -/
@[irreducible]
def batchSecond : State :=
  (performOn 8 batchFirst .main
    (.enqueue (batchPlan "fails" 1 0 [⟨.gpu, [], false⟩, ⟨.worker, [], true⟩]))).2

/-- An equally urgent task is queued that has no actions. -/
@[irreducible]
def batchThird : State :=
  (performOn 8 batchSecond .main (.enqueue (batchPlan "empty" 1 (-3) []))).2

theorem called_batchIdle : Called batchIdle := by
  unfold batchIdle
  refine (Called.start _).after 8 fun op hop label wait => ?_
  rw [List.mem_singleton.1 hop]
  exact nofun

theorem performOn_of_no_reason {fuel : Nat} {s : State} {thread : Thread} {op : Op}
    (h : (performOn fuel s thread op).1.reason?.isNone = true) :
    ∃ reply, performOn fuel s thread op = (.answered reply, (performOn fuel s thread op).2) := by
  match hrun : performOn fuel s thread op with
  | (.answered reply, t) => exact ⟨reply, rfl⟩
  | (.halted reason, t) =>
    rw [hrun] at h
    cases h

theorem batchThird_queues : ∃ batch, batchIdle.Queues batch batchThird ∧ batch.length = 3 := by
  have hfirst : ∃ reply, performOn 8 batchIdle .main
      (.enqueue (batchPlan "late" 5 0 [⟨.worker, [], true⟩, ⟨.gpu, [], true⟩])) =
        (.answered reply, batchFirst) := by
    unfold batchFirst
    exact performOn_of_no_reason (by decide +kernel)
  have hsecond : ∃ reply, performOn 8 batchFirst .main
      (.enqueue (batchPlan "fails" 1 0 [⟨.gpu, [], false⟩, ⟨.worker, [], true⟩])) =
        (.answered reply, batchSecond) := by
    unfold batchSecond
    exact performOn_of_no_reason (by decide +kernel)
  have hthird : ∃ reply, performOn 8 batchSecond .main (.enqueue (batchPlan "empty" 1 (-3) [])) =
      (.answered reply, batchThird) := by
    unfold batchThird
    exact performOn_of_no_reason (by decide +kernel)
  obtain ⟨_, hfirst⟩ := hfirst
  obtain ⟨_, hsecond⟩ := hsecond
  obtain ⟨_, hthird⟩ := hthird
  have hmesh (s : State) (h : s.client.assets.lookup "mesh" = some 0) (name : String)
      (priority complexity : Int32) (actions : List (Action Script)) :
      s.resolve { thread := .main } (batchPlan name priority complexity actions).asset = some 0 := h
  exact ⟨_, .enqueue (.enqueue (.enqueue .none (hmesh _ (by decide +kernel) _ _ _ _) hfirst)
    (hmesh _ (by decide +kernel) _ _ _ _) hsecond) (hmesh _ (by decide +kernel) _ _ _ _) hthird, rfl⟩

/-- After four updates the tasks are completed as they are sorted. One of them has failed
in its first action, so its other turn is not taken. -/
theorem batchThird_completed : ∃ (batch : List Entry) (done : List (Entry × Nat)) (u : State),
    batchIdle.Queues batch batchThird ∧ batch.length = 3 ∧
      done.map Prod.fst = batch.mergeSort Entry.mayPrecede ∧
      (done.map fun d => max 1 d.2).sum = 4 ∧ batchThird.queue.turnsLeft = 5 ∧
      updates (run 8) .main 4 batchThird = .ok () u ∧ u.queue.pending = [] ∧
      u.course = [.acted 1 0, .completed 2, .completed 3, .acted 0 0, .acted 0 1, .completed 1] := by
  obtain ⟨batch, hbatch, hlength⟩ := batchThird_queues
  have hturns : batchThird.queue.turnsLeft = 5 := by decide +kernel
  have hat {n : Nat} {r : State} (hrun : updates (run 8) .main n batchThird = .ok () r) :
      batchThird.afterRun (updates (run 8) .main n) = r := by
    unfold State.afterRun
    rw [hrun]
  have hempty (n : Nat) (hn : n < 5) :
      (batchThird.afterRun (updates (run 8) .main n)).queue.pending.isEmpty = decide (n = 4) := by
    revert n
    decide +kernel
  have hreturns (n : Nat) (hn : n < batchThird.queue.turnsLeft) (r : State)
      (hrun : updates (run 8) .main n batchThird = .ok () r) (_ : r.queue.pending ≠ []) :
      ∃ u, update (run 8) .main r = .ok () u ∧ batchThird.Without Event.drives u := by
    rw [hturns] at hn
    rw [← hat hrun]
    have hquiet : ((batchThird.afterRun (updates (run 8) .main n)).afterRun
        (update (run 8) .main)).history.countP Event.drives =
          batchThird.history.countP Event.drives := by
      clear hrun
      revert n
      decide +kernel
    obtain ⟨_, hu⟩ : ∃ a, update (run 8) .main (batchThird.afterRun (updates (run 8) .main n)) =
        .ok a ((batchThird.afterRun (updates (run 8) .main n)).afterRun (update (run 8) .main)) :=
      State.run_of_isOk (by clear hrun hquiet; revert n; decide +kernel)
    exact ⟨_, hu, hquiet⟩
  obtain ⟨-, done, n, u, hdone, -, hn, hupdates, -, hnone, -, -, hbefore⟩ :=
    batch_completes_in_order called_batchIdle (by unfold State.IsSolo; decide +kernel)
      (by decide +kernel) (by decide +kernel) (List.isEmpty_iff.1 (by decide +kernel))
      (by decide +kernel) (by decide +kernel) hbatch hreturns
  -- the queue is empty after four updates for the first time
  have hfour : n = 4 := by
    have hle : n ≤ 4 := by
      by_contra hgt
      obtain ⟨r, -, -, hr, hsome, -⟩ := hbefore 4 (Nat.lt_of_not_le hgt)
      have hemptied := hempty 4 (by decide)
      rw [hat hr, decide_eq_true rfl] at hemptied
      exact hsome (List.isEmpty_iff.1 hemptied)
    have hemptied := hempty n (Nat.lt_succ_of_le hle)
    rw [hat hupdates, hnone] at hemptied
    exact of_decide_eq_true hemptied.symm
  subst hfour
  refine ⟨batch, done, u, hbatch, hlength, hdone, hn.symm, hturns, hupdates, hnone, ?_⟩
  rw [← hat hupdates]
  decide +kernel

end AssetLoading
