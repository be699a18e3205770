import AssetLoading.Proofs.Tasks.InFlight
import Mathlib.Data.Multiset.Bind

/-! # Whose turn it is

  At any time at most one place may go on with a task. A task that rests without
  a job goes on with its next action; a task that was handed over waits for its
  job, which goes on until it has finished, and then the task goes on with the
  outcome; otherwise it is whatever is busy with the task. This place has the
  *turn* of the task, and it knows how far the task has come.

  A job whose task was discarded in the meantime still waits, but it has no turn
  any more: its action will not run.
-/

namespace AssetLoading

/-! ### Stages -/

/-- What a place knows of how far its task has come. -/
inductive Stage where
  /-- None of its code runs. -/
  | rest (r : Rest)
  /-- An action runs. -/
  | acting (index : Nat)
  /-- The failure hook runs. -/
  | failing (index : Nat)
  /-- Nothing is left to do but to free the data. -/
  | closing
  /-- The hook runs that frees the data, in the end or before its time. -/
  | freeing (inTheEnd : Bool)

/-- A callback of the task runs. -/
def Stage.isBusy : Stage → Bool
  | acting _ | failing _ | freeing _ => true
  | rest _ | closing => false

/-- A shutdown may discard the task here: no action has failed, or one has that was
run as a job whose outcome nobody has collected. -/
def Rest.IsCut (s : State) (b : BodyId) : Rest → Prop
  | ready _ => True
  | failed i => ∃ j asset priority, j < s.jobs.jobs.size ∧
      (s.jobs.job j).work = .action b i asset priority ∧ (s.jobs.job j).finished = true
  | handled _ => False

/-- A task at this stage has come so far. -/
def Stage.Allows (s : State) (b : BodyId) : Stage → Phase → Prop
  | rest r, p => p = .rest r
  | acting i, p => p = .acting i
  | failing i, p => p = .failing i
  | closing, p => ∃ r, p = .rest r ∧ r.IsLast (s.body b).outline
  | freeing true, p => ∃ r, p = .freeing r ∧ r.IsLast (s.body b).outline
  | freeing false, p => ∃ r, p = .freeing r ∧ r.IsCut s b

/-- What was told of a task agrees with its stage. -/
structure State.Fits (s : State) (b : BodyId) (stage : Stage) : Prop where
  known : b < s.bodies.size
  phase : ∃ p : Phase, p.Of (s.body b).outline ∧ told b s.history = p.trace ∧ stage.Allows s b p

theorem Rest.IsCut.extends {s t : State} {b : BodyId} {r : Rest} (h : r.IsCut s b)
    (hst : s.Extends t) : r.IsCut t b := by
  cases r with
  | ready => trivial
  | failed i =>
    obtain ⟨j, asset, priority, hj, hwork, hfinished⟩ := h
    have hgrown := hst.job j hj
    exact ⟨j, asset, priority, hgrown.1, hgrown.2.work.trans hwork, hgrown.2.finished hfinished⟩
  | handled => exact h.elim

theorem State.Fits.extends {s t : State} {b : BodyId} {stage : Stage} (h : s.Fits b stage)
    (hst : s.Extends t) (htold : told b t.history = told b s.history) : t.Fits b stage := by
  obtain ⟨p, hp, htrace, hallows⟩ := h.phase
  have hgrown := hst.body b h.known
  refine ⟨hgrown.1, p, ?_, htold.trans htrace, ?_⟩
  · rw [hgrown.2.outline]
    exact hp
  · cases stage with
    | rest => exact hallows
    | acting => exact hallows
    | failing => exact hallows
    | closing =>
      unfold Stage.Allows
      rw [hgrown.2.outline]
      exact hallows
    | freeing inTheEnd =>
      cases inTheEnd with
      | true =>
        unfold Stage.Allows
        rw [hgrown.2.outline]
        exact hallows
      | false =>
        obtain ⟨r, hr, hcut⟩ := hallows
        exact ⟨r, hr, hcut.extends hst⟩

/-! ### Turns -/

/-- The turn of a task at some stage. -/
abbrev Turn := BodyId × Stage

/-- This activity ends its task. -/
def Activity.isEnding : Activity → Bool
  | ending _ => true
  | _ => false

/-- The turn of what is busy with a task or its job. -/
def Activity.turn : Activity → List Turn
  | concluding e ok => [(e.body, .rest (.after e.cursor ok))]
  | failing e => [(e.body, .failing e.cursor)]
  | ending e => [(e.body, .closing)]
  | planned t => [(t.body, .rest (.ready 0))]
  | acting _ b i => [(b, .acting i)]
  | freeing a b => [(b, .freeing a.isEnding)]
  | running _ (.action b i _ _) => [(b, .rest (.ready i))]
  | ran _ (.action b i _ _) ok => [(b, .rest (.after i ok))]
  | _ => []

/-- The turn of a task that rests, unless its job has still to finish. -/
def Entry.turn (q : JobQueue) (e : Entry) : Multiset Turn :=
  match e.job with
  | none => {(e.body, .rest (.ready e.cursor))}
  | some j =>
    if (q.job j).finished then {(e.body, .rest (.after e.cursor (q.job j).success))} else 0

/-- The turn of a job that waits. -/
def Job.turn (job : Job) : Multiset Turn :=
  match job.started, job.work with
  | false, .action b i _ _ => {(b, .rest (.ready i))}
  | _, _ => 0

/-- The turns of the jobs that wait. -/
def JobQueue.turns (q : JobQueue) : Multiset Turn :=
  (↑q.jobs.toList : Multiset Job).bind Job.turn

/-- All turns of an activity. -/
def Activity.turns (q : JobQueue) (a : Activity) : Multiset Turn :=
  (↑a.held : Multiset Entry).bind (Entry.turn q) + ↑a.turn

/-- The turns of all tasks, and those of jobs whose tasks were discarded. -/
def Moment.allTurns (m : Moment) : Multiset Turn :=
  m.resting.bind (Entry.turn m.state.jobs) + ↑(m.underWay.flatMap Activity.turn) +
    m.state.jobs.turns

/-- The task can go on: its data was not freed, or the code that frees it runs. -/
def State.isOpen (s : State) (t : Turn) : Bool :=
  t.2.isBusy || !(s.body t.1).taken

/-- The turns of all tasks. -/
def Moment.turns (m : Moment) : Multiset Turn :=
  m.allTurns.filter fun t => m.state.isOpen t = true

theorem Activity.turn_eq_nil {a : Activity} (ha : a.isBusy = false) : a.turn = [] := by
  cases a <;> first | rfl | cases ha

section Reading

variable {a : Activity} {u : List Activity} {s t : State} {q : JobQueue} {e : Entry}

theorem allTurns_cons (a : Activity) (u : List Activity) (s : State) :
    (⟨a :: u, s⟩ : Moment).allTurns = a.turns s.jobs + (⟨u, s⟩ : Moment).allTurns := by
  unfold Moment.allTurns Activity.turns
  rw [resting_cons, Multiset.add_bind, List.flatMap_cons, ← Multiset.coe_add, add_add_add_comm,
    add_assoc]

/-- Whatever is busy with a task has a turn. -/
theorem mem_allTurns_of_turn {m : Moment} {x : Turn} (ha : a ∈ m.underWay) (hturn : x ∈ a.turn) :
    x ∈ m.allTurns := by
  refine Multiset.mem_add.2 (.inl (Multiset.mem_add.2 (.inr (Multiset.mem_coe.2 ?_))))
  exact List.mem_flatMap.2 ⟨a, ha, hturn⟩

theorem Entry.turn_of_job_eq_none (hjob : e.job = none) :
    e.turn q = {(e.body, .rest (.ready e.cursor))} := by
  unfold turn
  rw [hjob]

theorem Entry.turn_of_finished {j : JobId} (hjob : e.job = some j) (hj : (q.job j).finished = true) :
    e.turn q = {(e.body, .rest (.after e.cursor (q.job j).success))} := by
  unfold turn
  rw [hjob]
  exact if_pos hj

theorem Entry.turn_of_unfinished {j : JobId} (hjob : e.job = some j)
    (hj : (q.job j).finished = false) : e.turn q = 0 := by
  unfold turn
  rw [hjob]
  exact if_neg (by simp [hj])

/-- A turn of a resting task is a turn of its body. -/
theorem Entry.fst_of_mem_turn {t : Turn} (h : t ∈ e.turn q) : t.1 = e.body := by
  unfold turn at h
  split at h
  next => rw [Multiset.mem_singleton.1 h]
  next j hjob =>
    split at h
    next => rw [Multiset.mem_singleton.1 h]
    next => exact absurd h (Multiset.notMem_zero t)

/-- The turn of a task depends on its job alone. -/
theorem Entry.turn_congr {r : JobQueue}
    (h : ∀ j, e.job = some j → (r.job j).finished = (q.job j).finished ∧
      (r.job j).success = (q.job j).success) : e.turn r = e.turn q := by
  unfold turn
  split
  next => rfl
  next j hjob => rw [(h j hjob).1, (h j hjob).2]

/-- The turns of an activity that is busy with a task. -/
theorem Activity.turns_of_held_eq_nil (ha : a.held = []) : a.turns q = ↑a.turn := by
  unfold turns
  rw [ha, Multiset.coe_nil, Multiset.zero_bind, zero_add]

/-- The turns of an activity that has a task at rest. -/
theorem Activity.turns_of_held (ha : a.held = [e]) (hturn : a.turn = []) :
    a.turns q = e.turn q := by
  unfold turns
  rw [ha, hturn, Multiset.coe_singleton, Multiset.singleton_bind, Multiset.coe_nil, add_zero]

theorem bind_le_bind {α β : Type} {s t : Multiset α} (h : s ≤ t) (f : α → Multiset β) :
    s.bind f ≤ t.bind f := by
  obtain ⟨k, rfl⟩ := Multiset.le_iff_exists_add.1 h
  rw [Multiset.add_bind]
  exact Multiset.le_add_right _ _

end Reading

/-! ### Jobs and their turns -/

section Jobs

variable {q r : JobQueue}

theorem JobQueue.turns_congr (h : r.jobs = q.jobs) : r.turns = q.turns := by
  unfold turns
  rw [h]

theorem Work.IsForeign.turn_eq {w : Work} (hw : w.IsForeign) {job : Job} (hjob : job.work = w) :
    job.turn = 0 := by
  unfold Job.turn
  rw [hjob]
  cases w with
  | action => exact hw.elim
  | call => split <;> simp_all
  | custom => split <;> simp_all

theorem Job.turn_of_started {x : Job} (h : x.started = true) : x.turn = 0 := by
  unfold turn
  rw [h]

theorem Job.turn_of_action {job : Job} {b : BodyId} {i : Nat} {asset : Handle} {priority : Int32}
    (hwork : job.work = .action b i asset priority) (hnew : job.started = false) :
    job.turn = {(b, .rest (.ready i))} := by
  unfold turn
  rw [hnew, hwork]

/-- A job that starts has the turn that it had when it was waiting. -/
theorem Job.turn_eq_running {job : Job} (hnew : job.started = false) (j : JobId) :
    job.turn = ↑(Activity.running j job.work).turn := by
  cases hwork : job.work with
  | action => rw [Job.turn_of_action hwork hnew]; rfl
  | call => rw [Work.IsForeign.turn_eq (w := job.work) (by rw [hwork]; trivial) rfl]; rfl
  | custom => rw [Work.IsForeign.turn_eq (w := job.work) (by rw [hwork]; trivial) rfl]; rfl

/-- A job that is made comes to the others. -/
theorem JobQueue.turns_of_push {x : Job} (h : r.jobs = q.jobs.push x) :
    r.turns = x.turn + q.turns := by
  unfold turns
  rw [h, Array.toList_push, ← Multiset.coe_add, Multiset.add_bind, Multiset.coe_singleton,
    Multiset.singleton_bind, add_comm]

/-- The turns of all jobs but one. -/
theorem JobQueue.turns_modify (q : JobQueue) {j : JobId} (hj : j < q.jobs.size) (f : Job → Job) :
    ∃ others, q.turns = (q.job j).turn + others ∧
      (q.modify j f).turns = (f (q.job j)).turn + others := by
  have hlength : j < q.jobs.toList.length := hj
  have hget : q.jobs.toList[j] = q.job j := by
    simp [job, Array.getElem?_eq_getElem hj]
  have hsplit : q.jobs.toList = q.jobs.toList.take j ++ q.job j :: q.jobs.toList.drop (j + 1) := by
    rw [← hget, List.getElem_cons_drop, List.take_append_drop]
  have hmodify : (q.modify j f).jobs.toList =
      q.jobs.toList.take j ++ f (q.job j) :: q.jobs.toList.drop (j + 1) := by
    show (q.jobs.modify j f).toList = _
    rw [Array.toList_modify, List.modify_eq_take_cons_drop hlength, hget]
  have hbind (front back : List Job) (job : Job) :
      (↑(front ++ job :: back) : Multiset Job).bind Job.turn =
        job.turn + (↑(front ++ back) : Multiset Job).bind Job.turn := by
    rw [Multiset.coe_eq_coe.2 List.perm_middle, ← Multiset.cons_coe, Multiset.cons_bind]
  refine ⟨(↑(q.jobs.toList.take j ++ q.jobs.toList.drop (j + 1)) : Multiset Job).bind Job.turn, ?_, ?_⟩
  · unfold turns
    rw [← hbind, ← hsplit]
  · unfold turns
    rw [hmodify, hbind]

theorem JobQueue.mem_turns {t : Turn} :
    t ∈ q.turns ↔ ∃ j, j < q.jobs.size ∧ t ∈ (q.job j).turn := by
  unfold turns
  rw [Multiset.mem_bind]
  constructor
  · rintro ⟨job, hjob, ht⟩
    obtain ⟨j, hj, rfl⟩ := List.getElem_of_mem (Multiset.mem_coe.1 hjob)
    have hj' : j < q.jobs.size := hj
    refine ⟨j, hj', ?_⟩
    rw [JobQueue.job, Array.getElem?_eq_getElem hj']
    exact ht
  · rintro ⟨j, hj, ht⟩
    rw [JobQueue.job, Array.getElem?_eq_getElem hj] at ht
    exact ⟨q.jobs[j], Multiset.mem_coe.2 (Array.getElem_mem_toList hj), ht⟩

end Jobs

/-! ### Moments with the same turns -/

section Same

variable {m n : Moment} {a : Activity} {u : List Activity} {s t : State} {e : Entry}

/-- Neither the places of tasks nor their jobs have changed. -/
theorem allTurns_of_same (u : List Activity) (hpending : t.queue.pending = s.queue.pending)
    (hclaims : t.client.claims = s.client.claims) (hjobs : t.jobs.jobs = s.jobs.jobs) :
    (⟨u, t⟩ : Moment).allTurns = (⟨u, s⟩ : Moment).allTurns := by
  have hturn : Entry.turn t.jobs = Entry.turn s.jobs := by
    funext e
    exact Entry.turn_congr fun j _ => by rw [JobQueue.job_congr hjobs]; exact ⟨rfl, rfl⟩
  unfold Moment.allTurns Moment.resting
  dsimp only
  rw [hturn, hpending, hclaims, JobQueue.turns_congr hjobs]

/-- Tasks that change hands or get lost where they rest take their turns with them. -/
theorem Moment.Passes.allTurns_le (h : m.Passes n) : n.allTurns ≤ m.allTurns := by
  have hturn : Entry.turn n.state.jobs = Entry.turn m.state.jobs := by
    funext e
    exact Entry.turn_congr fun j _ => by rw [h.job]; exact ⟨rfl, rfl⟩
  have hbusy : n.underWay.flatMap Activity.turn = m.underWay.flatMap Activity.turn := by
    rw [← m.flatMap_busy fun _ => Activity.turn_eq_nil, ← h.busy]
    exact (n.flatMap_busy fun _ => Activity.turn_eq_nil).symm
  unfold Moment.allTurns
  rw [hturn, hbusy, JobQueue.turns_congr h.jobs]
  exact add_le_add (add_le_add (bind_le_bind h.resting _) le_rfl) le_rfl

/-- A task comes to rest. -/
theorem allTurns_of_resting
    (hresting : (⟨u, t⟩ : Moment).resting = e ::ₘ (⟨u, s⟩ : Moment).resting)
    (hjobs : t.jobs.jobs = s.jobs.jobs) :
    (⟨u, t⟩ : Moment).allTurns = e.turn s.jobs + (⟨u, s⟩ : Moment).allTurns := by
  have hturn : Entry.turn t.jobs = Entry.turn s.jobs := by
    funext e
    exact Entry.turn_congr fun j _ => by rw [JobQueue.job_congr hjobs]; exact ⟨rfl, rfl⟩
  unfold Moment.allTurns
  dsimp only
  rw [hresting, Multiset.cons_bind, hturn, JobQueue.turns_congr hjobs, add_assoc, add_assoc,
    add_assoc]

/-- A turn that is not busy is open as long as the data is not freed. -/
theorem State.isOpen_rest (s : State) (b : BodyId) (r : Rest) :
    s.isOpen (b, .rest r) = !(s.body b).taken :=
  rfl

theorem State.isOpen_of_isBusy {t : Turn} (h : t.2.isBusy = true) : s.isOpen t = true := by
  unfold isOpen
  rw [h]
  rfl

/-- Whoever runs a callback has a turn that is open. -/
theorem mem_turns_of_isBusy {m : Moment} {x : Turn} {a : Activity} (ha : a ∈ m.underWay)
    (hturn : x ∈ a.turn) (hbusy : x.2.isBusy = true) : x ∈ m.turns :=
  Multiset.mem_filter.2 ⟨mem_allTurns_of_turn ha hturn, State.isOpen_of_isBusy hbusy⟩

/-- What is open later was open before. -/
theorem State.Extends.isOpen {turn : Turn} (h : s.Extends t) (hknown : turn.1 < s.bodies.size)
    (hopen : t.isOpen turn = true) : s.isOpen turn = true := by
  unfold State.isOpen at hopen ⊢
  cases htaken : (s.body turn.1).taken with
  | false => simp
  | true =>
    rw [(h.body _ hknown).2.taken htaken] at hopen
    exact hopen

end Same

end AssetLoading
