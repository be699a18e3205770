import AssetLoading.Proofs.Tasks.Consistency

/-! # Jobs in flight, and shutdown

  A job that has started and not finished is under way. While a shutdown discards
  a task nothing is under way but the shutdown, as it is not called by a
  callback. So no job of a task is in flight when the task is discarded.
-/

namespace AssetLoading

/-- The job whose work an activity does. -/
def Activity.jobs : Activity → List JobId
  | running j _ | ran j _ _ => [j]
  | acting a _ _ => a.jobs
  | _ => []

/-- An activity that discards tasks. -/
def Activity.discards : Activity → Bool
  | drained _ | discarding _ | discarded _ => true
  | freeing a _ => a.discards
  | _ => false

theorem Activity.jobs_eq_nil {a : Activity} (ha : a.ofTasks = false) : a.jobs = [] := by
  cases a <;> first | rfl | cases ha

theorem Activity.MayAct.jobs_concluded {a : Activity} {b : BodyId} {i : Nat} {onGpu : Bool}
    (h : a.MayAct b i onGpu) (ok : Bool) : (a.concluded ok).jobs = a.jobs := by
  cases a <;> first | exact h.elim | rfl

theorem Activity.MayAct.ofTasks {a : Activity} {b : BodyId} {i : Nat} {onGpu : Bool}
    (h : a.MayAct b i onGpu) (ok : Bool) :
    a.ofTasks = true ∧ (a.concluded ok).ofTasks = true ∧ (a.concluded ok).discards = false := by
  cases a <;> first | exact h.elim | exact ⟨rfl, rfl, rfl⟩

theorem Activity.MayFree.jobs {a : Activity} {b : BodyId} (h : a.MayFree b) :
    a.jobs = [] ∧ a.freed.jobs = [] := by
  cases a <;> first | exact h.elim | exact ⟨rfl, rfl⟩

theorem Activity.MayFree.ofTasks {a : Activity} {b : BodyId} (h : a.MayFree b) :
    a.ofTasks = true ∧ a.freed.ofTasks = true ∧ a.freed.discards = a.discards := by
  cases a <;> first | exact h.elim | exact ⟨rfl, rfl, rfl⟩

/-! ### Jobs in flight -/

/-- Every job that has started and not finished is under way. -/
def InFlight (m : Moment) : Prop :=
  ∀ j, j < m.state.jobs.jobs.size → (m.state.jobs.job j).started = true →
    (m.state.jobs.job j).finished = false → j ∈ m.underWay.flatMap Activity.jobs

namespace InFlight

variable {m n : Moment}

theorem start (p : Session) : InFlight ⟨[], p.start⟩ := by
  intro j hj
  unfold Session.start at hj
  dsimp only at hj
  split at hj <;> cases hj

/-- The jobs and what does their work are the same. -/
theorem same (h : InFlight m) (hjobs : n.state.jobs.jobs = m.state.jobs.jobs)
    (hwork : n.underWay.flatMap Activity.jobs = m.underWay.flatMap Activity.jobs) : InFlight n := by
  intro j hj hstarted hfinished
  have hjob : n.state.jobs.job j = m.state.jobs.job j := by
    unfold JobQueue.job
    rw [hjobs]
  rw [hjobs] at hj
  rw [hjob] at hstarted hfinished
  rw [hwork]
  exact h j hj hstarted hfinished

/-- A job is made. -/
theorem push (h : InFlight m) {w : Work} (hjobs : n.state.jobs.jobs = m.state.jobs.jobs.push { work := w })
    (hwork : n.underWay.flatMap Activity.jobs = m.underWay.flatMap Activity.jobs) : InFlight n := by
  intro j hj hstarted hfinished
  have hjob : n.state.jobs.job j =
      if j = m.state.jobs.jobs.size then { work := w } else m.state.jobs.job j := by
    rw [← JobQueue.job_make]
    unfold JobQueue.job JobQueue.make
    rw [hjobs]
  rw [hjob] at hstarted hfinished
  rw [hjobs, Array.size_push] at hj
  by_cases hnew : j = m.state.jobs.jobs.size
  · rw [if_pos hnew] at hstarted
    cases hstarted
  · rw [if_neg hnew] at hstarted hfinished
    rw [hwork]
    exact h j (Nat.lt_of_le_of_ne (Nat.le_of_lt_succ hj) hnew) hstarted hfinished

theorem jobMove (h : InFlight m) (hmove : JobMove m n) : InFlight n := by
  cases hmove with
  | make w hw => exact h.push rfl rfl
  | submit j => exact h.same rfl rfl
  | drain => exact h.same rfl rfl
  | @start u v s j hpick hnew =>
    intro k hk hstarted hfinished
    rw [List.flatMap_cons, hpick.flatMap_eq fun _ => rfl]
    -- the job that starts is carried by the new activity; every other one as before
    by_cases hkj : k = j
    · rw [hkj]
      exact List.mem_append_left _ List.mem_cons_self
    · right
      have hjob : (s.jobStarted j).jobs.job k = s.jobs.job k := by
        show (s.jobs.modify j _).job k = _
        rw [JobQueue.job_modify, if_neg fun heq => hkj heq.1.symm]
      rw [hjob] at hstarted hfinished
      exact h k (Nat.lt_of_lt_of_eq hk Array.size_modify) hstarted hfinished
  | skip j hpick => exact h.same rfl (hpick.flatMap_eq fun _ => rfl)
  | work j w hw ok => exact h.same rfl rfl
  | @finish u s j w ok =>
    intro k hk hstarted hfinished
    have hjob := JobQueue.job_modify s.jobs j k fun job => { job with success := ok, finished := true }
    have hk' : k < s.jobs.jobs.size := Nat.lt_of_lt_of_eq hk Array.size_modify
    -- a job that is finished is in flight no more
    by_cases hkj : j = k
    · rw [if_pos ⟨hkj, hk'⟩] at hjob
      replace hfinished : ((s.jobs.modify j _).job k).finished = false := hfinished
      rw [hjob] at hfinished
      cases hfinished
    · rw [if_neg fun heq => hkj heq.1] at hjob
      replace hstarted : ((s.jobs.modify j _).job k).started = true := hstarted
      replace hfinished : ((s.jobs.modify j _).job k).finished = false := hfinished
      rw [hjob] at hstarted hfinished
      rcases List.mem_cons.1 (h k hk' hstarted hfinished) with heq | hmem
      · exact absurd heq.symm hkj
      · exact hmem
  | drained => exact h.same rfl rfl

theorem bodyMove (h : InFlight m) (hmove : BodyMove m n) : InFlight n := by
  cases hmove with
  | actEnd a b i onGpu ok hmay => exact h.same rfl (flatMap_cons_congr (hmay.jobs_concluded ok) _)
  | actSkip a b i onGpu hmay => exact h.same rfl (flatMap_cons_congr (hmay.jobs_concluded false) _)
  | free a b asset hmay => exact h.same rfl (flatMap_cons_congr hmay.jobs.1.symm _)
  | freeEnd a b hmay => exact h.same rfl (flatMap_cons_congr hmay.jobs.2 _)
  | freeSkip a b hmay => exact h.same rfl (flatMap_cons_congr (hmay.jobs.2.trans hmay.jobs.1.symm) _)
  | _ => exact h.same rfl rfl

theorem move (h : InFlight m) (hmove : Move m n) : InFlight n := by
  rcases hmove.work_or_same with (hbody | hjob | htask) | hsame
  · exact h.bodyMove hbody
  · exact h.jobMove hjob
  · cases htask with
    | handOver e => exact h.push rfl rfl
    | exchange es e => exact h.same rfl (flatMap_exchange es e _ fun _ => rfl)
    | _ => exact h.same rfl rfl
  · exact h.same hsame.jobs (hsame.flatMap_eq fun _ => Activity.jobs_eq_nil)

end InFlight

/-! ### Shutdown -/

/-- Whatever is under way beneath the discarding of tasks belongs to it. -/
def DiscardsAlone (m : Moment) : Prop :=
  m.taskWork.Pairwise fun a b => a.discards = true → b.discards = true

namespace DiscardsAlone

variable {m n : Moment}

theorem start (p : Session) : DiscardsAlone ⟨[], p.start⟩ :=
  List.Pairwise.nil

/-- An activity has come to its end. -/
theorem drop {a : Activity} {u : List Activity} {s t : State} (h : DiscardsAlone ⟨a :: u, s⟩) :
    DiscardsAlone ⟨u, t⟩ :=
  List.Pairwise.sublist ((List.sublist_cons_self a u).filter _) h

/-- An activity has begun that discards nothing. -/
theorem begin {a : Activity} {u : List Activity} {s t : State} (h : DiscardsAlone ⟨u, s⟩)
    (ha : a.discards = false) : DiscardsAlone ⟨a :: u, t⟩ := by
  have hnone (b : Activity) : a.discards = true → b.discards = true := by
    intro hdiscards
    rw [ha] at hdiscards
    cases hdiscards
  show ((a :: u).filter Activity.ofTasks).Pairwise _
  cases hwork : a.ofTasks with
  | true =>
    rw [List.filter_cons_of_pos hwork]
    exact List.pairwise_cons.2 ⟨fun b _ => hnone b, h⟩
  | false =>
    rw [List.filter_cons_of_neg (by simp [hwork])]
    exact h

/-- An activity that discards has turned into another one. -/
theorem turn {a b : Activity} {u : List Activity} {s t : State} (h : DiscardsAlone ⟨a :: u, s⟩)
    (ha : a.ofTasks = true) (hab : b.discards = true → a.discards = true) :
    DiscardsAlone ⟨b :: u, t⟩ := by
  have hcons : ((a :: u).filter Activity.ofTasks).Pairwise fun a b =>
      a.discards = true → b.discards = true := h
  rw [List.filter_cons_of_pos ha, List.pairwise_cons] at hcons
  show ((b :: u).filter Activity.ofTasks).Pairwise _
  cases hwork : b.ofTasks with
  | true =>
    rw [List.filter_cons_of_pos hwork]
    exact List.pairwise_cons.2 ⟨fun c hc hb => hcons.1 c hc (hab hb), hcons.2⟩
  | false =>
    rw [List.filter_cons_of_neg (by simp [hwork])]
    exact hcons.2

theorem bodyMove (h : DiscardsAlone m) (hmove : BodyMove m n) : DiscardsAlone n := by
  cases hmove with
  | plan => exact h.begin rfl
  | forget => exact h.drop
  | estimate => exact h
  | write => exact h
  | act => exact h.drop.begin (s := default) rfl
  | actEnd a b i onGpu ok hmay => exact h.drop.begin (s := default) (hmay.ofTasks ok).2.2
  | actSkip a b i onGpu hmay => exact h.drop.begin (s := default) (hmay.ofTasks false).2.2
  | fail => exact h.drop.begin (s := default) rfl
  | failEnd => exact h.drop.begin (s := default) rfl
  | failSkip => exact h.drop.begin (s := default) rfl
  | free a b asset hmay => exact h.turn hmay.ofTasks.1 id
  | freeEnd a b hmay => exact h.turn rfl fun hdiscards => hmay.ofTasks.2.2.symm.trans hdiscards
  | freeSkip a b hmay =>
    exact h.turn hmay.ofTasks.1 fun hdiscards => hmay.ofTasks.2.2.symm.trans hdiscards

theorem jobMove (h : DiscardsAlone m) (hmove : JobMove m n) : DiscardsAlone n := by
  have hpicked {j : JobId} {u v : List Activity} {s t : State} (hpick : Picks j u v)
      (h : DiscardsAlone ⟨u, s⟩) : DiscardsAlone ⟨v, t⟩ := by
    show (v.filter Activity.ofTasks).Pairwise _
    rw [hpick.filter_ofTasks]
    exact h
  cases hmove with
  | make => exact h
  | submit => exact h
  | drain => exact h
  | start j hpick => exact (hpicked (t := default) hpick h).begin rfl
  | skip j hpick => exact hpicked hpick h
  | work => exact h.drop.begin (s := default) rfl
  | finish => exact h.drop
  | drained => exact h

/-- The tasks that wait are taken out of the queue to be discarded when nothing is
under way. -/
theorem taskMove (h : DiscardsAlone m) (hmove : TaskMove m n)
    (halone : ∀ es, n.underWay = .drained es :: m.underWay → m.underWay = []) :
    DiscardsAlone n := by
  cases hmove with
  | accept => exact (h.drop (t := default)).drop
  | acquire => exact h.begin rfl
  | shelve => exact h.drop
  | unshelve => exact h.begin rfl
  | forget => exact h
  | @exchange u s es e =>
    -- a claimed task is not discarded, so it may stand anywhere above the others
    have hbelow : DiscardsAlone ⟨u, s⟩ := List.Pairwise.sublist
      (((List.sublist_cons_self _ u).trans (List.sublist_append_right _ _)).filter _) h
    have hclaimed : ∀ es : List Entry, DiscardsAlone ⟨es.map .claimed ++ u, s⟩ := by
      intro es
      induction es with
      | nil => exact hbelow
      | cons e es ih => exact ih.begin rfl
    exact (hclaimed es).begin rfl
  | step => exact h.drop.begin (s := default) rfl
  | runOut => exact h.drop.begin (s := default) rfl
  | handOver => exact h.drop
  | wait => exact h.drop
  | collect => exact h.drop.begin (s := default) rfl
  | reckon => exact h.drop.begin (s := default) rfl
  | proceed => exact h.drop
  | succeed => exact h.drop.begin (s := default) rfl
  | complete => exact (h.drop (t := default)).begin rfl
  | @drain u s =>
    -- the shutdown takes the queue when nothing else is under way
    obtain rfl : u = [] := halone _ rfl
    exact List.pairwise_singleton _ _
  | @discardNext u s e es =>
    have hcons : ((.drained (e :: es) :: u).filter Activity.ofTasks).Pairwise fun a b =>
        a.discards = true → b.discards = true := h
    rw [List.filter_cons_of_pos rfl, List.pairwise_cons] at hcons
    refine List.pairwise_cons.2 ⟨?_, List.pairwise_cons.2 hcons⟩
    intro b hb hdiscards
    rcases List.mem_cons.1 hb with heq | hmem
    · rw [heq]
      rfl
    · exact hcons.1 b hmem rfl
  | discard => exact (h.drop (t := default)).begin rfl
  | discardEnd => exact h.drop

theorem move (h : DiscardsAlone m) (hmove : OrderlyMove m n) : DiscardsAlone n := by
  rcases hmove.move.work_or_same with (hbody | hjob | htask) | hsame
  · exact h.bodyMove hbody
  · exact h.jobMove hjob
  · exact h.taskMove htask hmove.alone
  · unfold DiscardsAlone
    rw [hsame.work]
    exact h

/-- While a task is discarded, no job is in flight. -/
theorem jobs_eq_nil {e : Entry} {u : List Activity} {s : State}
    (h : DiscardsAlone ⟨.discarding e :: u, s⟩) : u.flatMap Activity.jobs = [] := by
  have hcons : ((.discarding e :: u).filter Activity.ofTasks).Pairwise fun a b =>
      a.discards = true → b.discards = true := h
  rw [List.filter_cons_of_pos rfl, List.pairwise_cons] at hcons
  rw [List.flatMap_eq_nil_iff]
  intro a ha
  cases hwork : a.ofTasks with
  | true =>
    have hdiscards := hcons.1 a (List.mem_filter.2 ⟨ha, hwork⟩) rfl
    cases a <;> first | rfl | cases hdiscards
  | false => exact Activity.jobs_eq_nil hwork

end DiscardsAlone

end AssetLoading
