import AssetLoading.Proofs.Tasks.InFlight

/-! # Actions that are handed over

  An action for the GPU thread that is claimed elsewhere becomes a job, and three
  places know of it then: the entry of the task, the line of jobs that wait, and
  the job itself. Two laws tie them together in every run.

  The jobs of a task belong to actions that the task has passed, but for the one
  that its entry carries, which belongs to the action at the cursor. So the next
  action never meets a job that was made for another one.

  A job of a task that has not started is in line: it waits, or somebody has taken
  it out to run it.
-/

namespace AssetLoading

/-! ### Jobs of tasks -/

/-- This job runs an action of the task with this body. -/
def State.IsActionOf (s : State) (b : BodyId) (j : JobId) (i : Nat) (asset : Handle)
    (priority : Int32) : Prop :=
  j < s.jobs.jobs.size ∧ (s.jobs.job j).work = .action b i asset priority

/-- A body has no jobs in one state but those it had in the other. -/
def State.KeepsActions (s t : State) (b : BodyId) : Prop :=
  ∀ j i asset priority, t.IsActionOf b j i asset priority → s.IsActionOf b j i asset priority

/-- Each job of a task was made for an action that the task has passed, or it is the
one that the entry carries, for the action at the cursor. -/
def Entry.Outruns (e : Entry) (s : State) : Prop :=
  ∀ j i asset priority, s.IsActionOf e.body j i asset priority →
    asset = e.asset ∧ priority = e.priority ∧ (i < e.cursor ∨ i = e.cursor ∧ e.job = some j)

/-- Each job of a task was made for an action up to the cursor. -/
def Entry.Reaches (e : Entry) (s : State) : Prop :=
  ∀ j i asset priority, s.IsActionOf e.body j i asset priority →
    asset = e.asset ∧ priority = e.priority ∧ i ≤ e.cursor

/-- What an activity that is busy with a task knows of its jobs. -/
def Activity.Outruns (s : State) : Activity → Prop
  | concluding e _ => e.Reaches s
  | acting a _ _ => ∀ e ∈ a.held, e.Reaches s
  | planned t => ∀ j i asset priority, ¬ s.IsActionOf t.body j i asset priority
  | _ => True

section Keeping

variable {s t : State} {e : Entry}

/-- Jobs that are made along the way, if any, are no actions of tasks. -/
theorem State.Extends.keepsActions (h : s.Extends t)
    (hforeign : ∀ j, j < t.jobs.jobs.size → j < s.jobs.jobs.size ∨ (t.jobs.job j).work.IsForeign)
    (b : BodyId) : s.KeepsActions t b := by
  intro j i asset priority hj
  rcases hforeign j hj.1 with hold | hnew
  · refine ⟨hold, ?_⟩
    rw [← (h.job j hold).2.work]
    exact hj.2
  · rw [hj.2] at hnew
    exact hnew.elim

theorem Entry.Outruns.reaches (h : e.Outruns s) : e.Reaches s := by
  intro j i asset priority hj
  obtain ⟨hasset, hpriority, hlt | ⟨heq, -⟩⟩ := h j i asset priority hj
  · exact ⟨hasset, hpriority, Nat.le_of_lt hlt⟩
  · exact ⟨hasset, hpriority, Nat.le_of_eq heq⟩

theorem Entry.Outruns.keep (h : e.Outruns s) (hkeep : s.KeepsActions t e.body) : e.Outruns t :=
  fun j i asset priority hj => h j i asset priority (hkeep j i asset priority hj)

theorem Entry.Reaches.keep (h : e.Reaches s) (hkeep : s.KeepsActions t e.body) : e.Reaches t :=
  fun j i asset priority hj => h j i asset priority (hkeep j i asset priority hj)

/-- Past the action at the cursor, the task has passed all of its jobs. -/
theorem Entry.Reaches.advanced (h : e.Reaches s) : e.advanced.Outruns s := by
  intro j i asset priority hj
  obtain ⟨hasset, hpriority, hle⟩ := h j i asset priority hj
  exact ⟨hasset, hpriority, .inl (Nat.lt_succ_of_le hle)⟩

theorem Activity.Outruns.keep {a : Activity} (h : a.Outruns s)
    (hkeep : ∀ b ∈ a.owns, s.KeepsActions t b) : a.Outruns t := by
  cases a with
  | concluding e ok => exact Entry.Reaches.keep h (hkeep e.body List.mem_cons_self)
  | acting a b i =>
    intro e he
    exact (h e he).keep (hkeep e.body (List.mem_map_of_mem he))
  | planned t =>
    intro j i asset priority hj
    exact h j i asset priority (hkeep t.body List.mem_cons_self j i asset priority hj)
  | _ => trivial

theorem Activity.outruns_of_isBusy {a : Activity} (ha : a.isBusy = false) : a.Outruns s := by
  cases a <;> trivial

theorem Activity.MayAct.outruns_concluded {a : Activity} {b : BodyId} {i : Nat} {onGpu : Bool}
    (hmay : a.MayAct b i onGpu) (h : ∀ e ∈ a.held, e.Reaches s) (ok : Bool) :
    (a.concluded ok).Outruns s := by
  cases a with
  | stepping e onGpu => exact h e List.mem_cons_self
  | running j w => trivial
  | _ => exact hmay.elim

theorem Activity.MayFree.outruns_freed {a : Activity} {b : BodyId} (hmay : a.MayFree b) :
    a.freed.Outruns s := by
  cases a <;> first | exact hmay.elim | trivial

end Keeping

/-! ### Tasks and their jobs -/

/-- Tasks have passed their jobs, but for the ones they carry. -/
structure Handed (m : Moment) : Prop where
  /-- No job is for a task that is still to be made. -/
  known : ∀ b j i asset priority, m.state.IsActionOf b j i asset priority → b < m.state.bodies.size
  /-- Tasks at rest have passed their jobs. -/
  resting : ∀ e ∈ m.resting, e.Outruns m.state
  /-- So have tasks that somebody is busy with. -/
  working : ∀ a ∈ m.underWay, a.Outruns m.state

namespace Handed

variable {m n : Moment}

theorem start (p : Session) : Handed ⟨[], p.start⟩ := by
  unfold Session.start
  constructor
  · dsimp only
    split <;> exact fun b j i asset priority hj => nomatch hj.1
  · dsimp only
    split <;> exact fun e he => absurd he (Multiset.notMem_zero e)
  · exact fun a ha => nomatch ha

/-- No action of a task is handed over. -/
theorem step (h : Handed m) (hext : m.state.Extends n.state)
    (hforeign : ∀ j, j < n.state.jobs.jobs.size →
      j < m.state.jobs.jobs.size ∨ (n.state.jobs.job j).work.IsForeign)
    (hentries : ∀ e ∈ n.resting, e ∈ m.resting ∨ e.Outruns n.state)
    (hwork : ∀ a ∈ n.underWay, a ∈ m.underWay ∨ a.Outruns n.state) : Handed n := by
  have hkeeps := hext.keepsActions hforeign
  constructor
  · intro b j i asset priority hj
    exact (hext.body b (h.known b j i asset priority (hkeeps b j i asset priority hj))).1
  · intro e he
    rcases hentries e he with hold | hnew
    · exact (h.resting e hold).keep (hkeeps e.body)
    · exact hnew
  · intro a ha
    rcases hwork a ha with hold | hnew
    · exact (h.working a hold).keep fun b _ => hkeeps b
    · exact hnew

/-- Some activities have come to their end. -/
theorem drop (h : Handed m) (hext : m.state.Extends n.state) (hresting : n.resting ≤ m.resting)
    (hwork : n.underWay ⊆ m.underWay)
    (hjobs : n.state.jobs.jobs.size = m.state.jobs.jobs.size) : Handed n := by
  refine h.step hext (fun j hj => .inl (hjobs ▸ hj)) ?_ fun a ha => .inl (hwork ha)
  exact fun e he => .inl (Multiset.mem_of_le hresting he)

/-- A new activity has begun, maybe in place of another. -/
theorem begin {u : List Activity} {t : State} {a : Activity} (h : Handed m)
    (hext : m.state.Extends t) (hresting : (⟨a :: u, t⟩ : Moment).resting ≤ m.resting)
    (hwork : u ⊆ m.underWay) (hjobs : t.jobs.jobs.size = m.state.jobs.jobs.size)
    (ha : a.Outruns t) : Handed ⟨a :: u, t⟩ := by
  refine h.step hext (fun j hj => .inl (hjobs ▸ hj)) ?_ ?_
  · exact fun e he => .inl (Multiset.mem_of_le hresting he)
  · intro b hb
    rcases List.mem_cons.1 hb with heq | hu
    · exact .inr (heq ▸ ha)
    · exact .inl (hwork hu)

/-- What an activity holds has passed its jobs. -/
theorem of_held {a : Activity} {u : List Activity} {s : State} (h : Handed ⟨a :: u, s⟩)
    {e : Entry} (he : e ∈ a.held) : e.Outruns s := by
  apply h.resting
  rw [resting_cons]
  exact Multiset.mem_add.2 (.inl he)

theorem sameWork (h : Handed m) (hmn : m.SameWork n) : Handed n := by
  refine h.step hmn.extends (fun j hj => .inl (hmn.jobs ▸ hj)) ?_ ?_
  · exact fun e he => .inl (Multiset.mem_of_le hmn.passes.resting he)
  · intro a ha
    cases hwork : a.ofTasks with
    | true => exact .inl ((hmn.mem_work hwork).1 ha)
    | false => exact .inr (Activity.outruns_of_isBusy (Activity.isBusy_eq_false hwork))

theorem bodyMove (h : Handed m) (hmove : BodyMove m n) : Handed n := by
  have hext := hmove.extends
  cases hmove with
  | @plan u s t body hbody =>
    refine h.begin hext le_rfl (List.Subset.refl u) rfl ?_
    intro j i asset priority hj
    -- the body is a new one, so no job knows of it
    have hlt := h.known t.body j i asset priority hj
    rw [hbody] at hlt
    exact Nat.lt_irrefl _ hlt
  | act a b i onGpu hmay =>
    refine h.begin hext ?_ (List.subset_cons_self _ _) rfl ?_
    · exact resting_le_of_held rfl rfl rfl
    · exact fun e he => (h.of_held he).reaches
  | actEnd a b i onGpu ok hmay =>
    refine h.begin hext ?_ (List.subset_cons_self _ _) rfl ?_
    · exact resting_le_of_held (hmay.held_concluded ok) rfl rfl
    · exact hmay.outruns_concluded (h.working _ List.mem_cons_self) ok
  | actSkip a b i onGpu hmay =>
    refine h.begin hext ?_ (List.subset_cons_self _ _) rfl ?_
    · exact resting_le_of_held (hmay.held_concluded false) rfl rfl
    · exact hmay.outruns_concluded (fun e he => (h.of_held he).reaches) false
  | freeEnd a b hmay =>
    refine h.begin hext ?_ (List.subset_cons_self _ _) rfl hmay.outruns_freed
    exact resting_le_of_held hmay.held_freed rfl rfl
  | freeSkip a b hmay =>
    refine h.begin hext ?_ (List.subset_cons_self _ _) rfl hmay.outruns_freed
    exact resting_le_of_held hmay.held_freed rfl rfl
  | fail | failEnd | failSkip | free =>
    exact h.begin hext (resting_le_of_held rfl rfl rfl) (List.subset_cons_self _ _) rfl trivial
  | forget => exact h.drop hext le_rfl (List.subset_cons_self _ _) rfl
  | estimate | write => exact h.drop hext le_rfl (List.Subset.refl _) rfl

theorem jobMove (h : Handed m) (hmove : JobMove m n) : Handed n := by
  have hext := hmove.extends
  have hsame := hmove.sameWork
  -- an activity that has only a job takes the place of one that has no task
  have hpicked {u v : List Activity} {s t : State} {j : JobId} (hpick : Picks j u v)
      (h : Handed ⟨u, s⟩) (hext : s.Extends t) (hqueue : t.queue = s.queue)
      (hclient : t.client = s.client) (hjobs : t.jobs.jobs.size = s.jobs.jobs.size) :
      Handed ⟨.running j (s.jobs.job j).work :: v, t⟩ := by
    refine h.step hext (fun k hk => .inl (hjobs ▸ hk)) ?_ ?_
    · intro e he
      left
      rw [resting_cons] at he
      unfold Moment.resting at he ⊢
      rw [hpick.flatMap_eq fun _ => rfl, hqueue, hclient] at he
      rcases Multiset.mem_add.1 he with hnone | hold
      · cases hnone
      · exact hold
    · intro a ha
      rcases List.mem_cons.1 ha with rfl | hv
      · exact .inr trivial
      · cases hpick with
        | next js u =>
          rcases List.mem_cons.1 hv with rfl | hu
          · exact .inr trivial
          · exact .inl (List.mem_cons_of_mem _ hu)
        | outOfTurn u => exact .inl hv
  cases hmove with
  | @make u s w hw =>
    refine h.step hext ?_ (fun e he => .inl he) fun a ha => .inl ha
    intro j hj
    rcases Nat.lt_succ_iff_lt_or_eq.1 (Nat.lt_of_lt_of_eq hj (Array.size_push _)) with hold | hnew
    · exact .inl hold
    · right
      show ((s.jobs.make w).2.job j).work.IsForeign
      rw [JobQueue.job_make, if_pos hnew]
      exact hw
  | submit j => exact h.sameWork (hsame rfl rfl)
  | drain => exact h.sameWork (hsame rfl rfl)
  | start j hpick hnew => exact hpicked hpick h hext rfl rfl Array.size_modify
  | skip j hpick => exact h.sameWork (hsame hpick.filter_ofTasks rfl)
  | work j w hw ok =>
    exact h.begin hext (resting_le_of_held rfl rfl rfl) (List.subset_cons_self _ _) rfl trivial
  | finish j w ok => exact h.drop hext le_rfl (List.subset_cons_self _ _) Array.size_modify
  | drained => exact h.sameWork (hsame rfl rfl)

/-- The action at the cursor of a task is handed over as a job, and no other task is
concerned. -/
theorem handOver {u : List Activity} {s t : State} {e : Entry}
    (h : Handed ⟨.stepping e false :: u, s⟩) (howned : Owned ⟨.stepping e false :: u, s⟩)
    (hjob : e.job = none) (hext : s.Extends t)
    (hjobs : t.jobs = (s.jobs.make (.action e.body e.cursor e.asset e.priority)).2.submit
      s.jobs.jobs.size)
    (hqueue : t.queue = s.queue.giveBack (e.handedOver s.jobs.jobs.size))
    (hclaims : t.client.claims = s.client.claims) : Handed ⟨u, t⟩ := by
  -- every job is an old one or the one that is handed over
  have hcases {b : BodyId} {j i : Nat} {asset : Handle} {priority : Int32}
      (hj : t.IsActionOf b j i asset priority) : s.IsActionOf b j i asset priority ∨
        j = s.jobs.jobs.size ∧ b = e.body ∧ i = e.cursor ∧ asset = e.asset ∧ priority = e.priority := by
    obtain ⟨hlt, hwork⟩ := hj
    rw [hjobs] at hlt hwork
    change j < (s.jobs.jobs.push _).size at hlt
    change ((s.jobs.make _).2.job j).work = _ at hwork
    rw [Array.size_push] at hlt
    rw [JobQueue.job_make] at hwork
    by_cases hnew : j = s.jobs.jobs.size
    · rw [if_pos hnew] at hwork
      cases hwork
      exact .inr ⟨hnew, rfl, rfl, rfl, rfl⟩
    · rw [if_neg hnew] at hwork
      exact .inl ⟨Nat.lt_of_le_of_ne (Nat.le_of_lt_succ hlt) hnew, hwork⟩
  have hkeeps {b : BodyId} (hb : b ≠ e.body) : s.KeepsActions t b := by
    intro j i asset priority hj
    rcases hcases hj with hold | ⟨-, heq, -⟩
    · exact hold
    · exact absurd heq hb
  have hsingle := howned.single
  rw [owned_cons_of_bodies (b := e.body) rfl, Multiset.nodup_cons] at hsingle
  have hhead : e.Outruns s := h.of_held List.mem_cons_self
  constructor
  · intro b j i asset priority hj
    rcases hcases hj with hold | ⟨-, rfl, -⟩
    · exact (hext.body b (h.known b j i asset priority hold)).1
    · have huntaken := howned.untaken e.body (by
        rw [owned_cons_of_bodies rfl]
        exact Multiset.mem_cons_self _ _)
      exact (hext.body _ (State.lt_size_of_untaken huntaken)).1
  · intro d hd
    rw [resting_giveBack hqueue hclaims, Multiset.mem_cons] at hd
    rcases hd with rfl | hd
    · intro j i asset priority hj
      rcases hcases hj with hold | ⟨rfl, -, rfl, rfl, rfl⟩
      · obtain ⟨hasset, hpriority, hlt | ⟨-, hsome⟩⟩ := hhead j i asset priority hold
        · exact ⟨hasset, hpriority, .inl hlt⟩
        · rw [hjob] at hsome
          cases hsome
      · exact ⟨rfl, rfl, .inr ⟨rfl, rfl⟩⟩
    · have hne : d.body ≠ e.body := by
        intro heq
        apply hsingle.1
        rw [← heq]
        exact Moment.mem_owned_of_resting hd
      refine (h.resting d ?_).keep (hkeeps hne)
      rw [resting_cons_of_held rfl]
      exact Multiset.mem_cons_of_mem hd
  · intro a ha
    refine (h.working a (List.mem_cons_of_mem _ ha)).keep fun b hb => hkeeps ?_
    intro heq
    apply hsingle.1
    rw [← heq]
    exact Multiset.mem_add.2 (.inr (List.mem_flatMap.2 ⟨a, ha, hb⟩))

theorem taskMove (h : Handed m) (howned : Owned m) (hmove : TaskMove m n) : Handed n := by
  have hext := hmove.extends
  -- only these moves bring an entry to the queue or change it; the others pass one on
  cases hmove with
  | @accept u s t =>
    have hplanned : (Activity.planned t).Outruns s :=
      h.working (.planned t) (List.mem_cons_of_mem _ List.mem_cons_self)
    have hresting := resting_accept (u := u) (s := s) (t := (s.withQueue (s.queue.push t).2).record
      (.accepted (s.queue.push t).1.id t.body t.asset (s.body t.body).data)) rfl rfl
    refine h.step hext (fun j hj => .inl hj) ?_ ?_
    · intro e he
      rw [hresting, Multiset.mem_cons] at he
      rcases he with rfl | he
      · right
        intro j i asset priority hj
        exact absurd hj (hplanned j i asset priority)
      · exact .inl he
    · exact fun a ha => .inl (List.mem_cons_of_mem _ (List.mem_cons_of_mem _ ha))
  | acquire e queue hq =>
    exact h.begin hext (resting_acquire hq).le (List.Subset.refl _) rfl trivial
  | shelve e label => exact h.drop hext (resting_shelve _ _ e label) (List.subset_cons_self _ _) rfl
  | unshelve e label he => exact h.begin hext (resting_unshelve he) (List.Subset.refl _) rfl trivial
  | forget => exact h.drop hext (resting_forget _ _) (List.Subset.refl _) rfl
  | exchange es e =>
    exact h.drop hext (resting_exchange es e _ _).le (fun _ => (mem_exchange es e _).1) rfl
  | step e onGpu => exact h.begin hext le_rfl (List.subset_cons_self _ _) rfl trivial
  | handOver e he hjob => exact h.handOver howned hjob hext rfl rfl rfl
  | @wait u s e j =>
    have hback := resting_giveBack (u := u) (s := s) (t := s.withQueue (s.queue.giveBack e)) rfl rfl
    rw [← resting_cons_of_held (a := .stepping e false) rfl] at hback
    exact h.drop hext hback.le (List.subset_cons_self _ _) rfl
  | collect e j complexity =>
    have hreaches : e.Reaches _ := (h.of_held List.mem_cons_self).reaches
    exact h.begin hext (resting_le_of_held rfl rfl rfl) (List.subset_cons_self _ _) rfl hreaches
  | reckon e ok complexity =>
    have hreaches : e.Reaches _ := h.working (.concluding e ok) List.mem_cons_self
    exact h.begin hext (resting_le_of_held rfl rfl rfl) (List.subset_cons_self _ _) rfl hreaches
  | @proceed u s e =>
    have hreaches : e.Reaches s := h.working (.concluding e true) List.mem_cons_self
    have hback := resting_giveBack (u := u) (s := s) (t := s.withQueue (s.queue.giveBack e.advanced))
      rfl rfl
    refine h.step hext (fun j hj => .inl hj) ?_ fun a ha => .inl (List.mem_cons_of_mem _ ha)
    intro d hd
    rw [hback, Multiset.mem_cons] at hd
    rcases hd with rfl | hd
    · exact .inr hreaches.advanced
    · exact .inl hd
  | runOut | succeed =>
    exact h.begin hext (resting_le_of_held rfl rfl rfl) (List.subset_cons_self _ _) rfl trivial
  | complete | discard => exact h.begin hext le_rfl (List.subset_cons_self _ _) rfl trivial
  | drain hu => exact h.begin hext (resting_drain _ _).le (List.Subset.refl _) rfl trivial
  | @discardNext u s e es =>
    refine h.step hext (fun j hj => .inl hj) (fun d hd => .inl hd) ?_
    intro a ha
    rcases List.mem_cons.1 ha with rfl | ha
    · exact .inr trivial
    · rcases List.mem_cons.1 ha with rfl | ha
      · exact .inr trivial
      · exact .inl (List.mem_cons_of_mem _ ha)
  | discardEnd => exact h.drop hext le_rfl (List.subset_cons_self _ _) rfl

theorem move (h : Handed m) (howned : Owned m) (hmove : Move m n) : Handed n := by
  rcases hmove.work_or_same with (hbody | hjob | htask) | hsame
  · exact h.bodyMove hbody
  · exact h.jobMove hjob
  · exact h.taskMove howned htask
  · exact h.sameWork hsame

end Handed

/-! ### Jobs in line -/

/-- The jobs that an activity has taken out to run them. -/
def Activity.line : Activity → List JobId
  | draining js => js
  | _ => []

/-- The jobs in line: those that wait, and those that were taken out to be run. -/
def Moment.line (m : Moment) : List JobId :=
  m.state.jobs.waiting ++ m.underWay.flatMap Activity.line

/-- Every action that was handed over and has not started is in line. -/
def Lined (m : Moment) : Prop :=
  ∀ b j i asset priority, m.state.IsActionOf b j i asset priority →
    (m.state.jobs.job j).started = false → j ∈ m.line

namespace Lined

variable {m n : Moment}

theorem start (p : Session) : Lined ⟨[], p.start⟩ := by
  unfold Session.start
  dsimp only
  split <;> exact fun b j i asset priority hj => nomatch hj.1

/-- The jobs in line are the same. -/
theorem same (h : Lined m) (hjobs : n.state.jobs = m.state.jobs)
    (hline : n.underWay.flatMap Activity.line = m.underWay.flatMap Activity.line) : Lined n := by
  unfold Lined Moment.line State.IsActionOf at h ⊢
  rw [hjobs, hline]
  exact h

/-- Jobs join the line and none leaves it. -/
theorem join (h : Lined m) (hjobs : n.state.jobs.jobs = m.state.jobs.jobs)
    (hline : m.line ⊆ n.line) : Lined n := by
  intro b j i asset priority hj hnew
  have hjob : n.state.jobs.job j = m.state.jobs.job j := by
    unfold JobQueue.job
    rw [hjobs]
  unfold State.IsActionOf at hj
  rw [hjobs, hjob] at hj
  rw [hjob] at hnew
  exact hline (h b j i asset priority hj hnew)

theorem assetMove (h : Lined m) (hmove : AssetMove m n) : Lined n := by
  cases hmove with
  | take holder asset | revive holder asset | drop holder asset =>
    cases holder <;> exact h.same rfl rfl
  | _ => exact h.same rfl rfl

theorem bodyMove (h : Lined m) (hmove : BodyMove m n) : Lined n := by
  cases hmove with
  | act a b i onGpu hmay => cases a <;> first | exact hmay.elim | exact h.same rfl rfl
  | actEnd a b i onGpu ok hmay => cases a <;> first | exact hmay.elim | exact h.same rfl rfl
  | actSkip a b i onGpu hmay => cases a <;> first | exact hmay.elim | exact h.same rfl rfl
  | free a b asset hmay => cases a <;> first | exact hmay.elim | exact h.same rfl rfl
  | freeEnd a b hmay => cases a <;> first | exact hmay.elim | exact h.same rfl rfl
  | freeSkip a b hmay => cases a <;> first | exact hmay.elim | exact h.same rfl rfl
  | _ => exact h.same rfl rfl

/-- A new job of any kind is made. -/
theorem push (h : Lined m) {w : Work}
    (hjobs : n.state.jobs.jobs = m.state.jobs.jobs.push { work := w })
    (hline : m.line ⊆ n.line) (hnew : w.IsForeign ∨ m.state.jobs.jobs.size ∈ n.line) :
    Lined n := by
  intro b j i asset priority hj hstarted
  obtain ⟨hlt, hwork⟩ := hj
  have hjob : n.state.jobs.job j =
      if j = m.state.jobs.jobs.size then { work := w } else m.state.jobs.job j := by
    rw [← JobQueue.job_make]
    unfold JobQueue.job JobQueue.make
    rw [hjobs]
  rw [hjob] at hwork hstarted
  rw [hjobs, Array.size_push] at hlt
  by_cases heq : j = m.state.jobs.jobs.size
  · rw [if_pos heq] at hwork
    rcases hnew with hforeign | hmem
    · change w = _ at hwork
      rw [hwork] at hforeign
      exact hforeign.elim
    · exact heq ▸ hmem
  · rw [if_neg heq] at hwork hstarted
    have hold : j < m.state.jobs.jobs.size := Nat.lt_of_le_of_ne (Nat.le_of_lt_succ hlt) heq
    exact hline (h b j i asset priority ⟨hold, hwork⟩ hstarted)

/-- A job is taken out of the line, and it has started. -/
theorem leave (h : Lined m) {j : JobId} (hext : m.state.Extends n.state)
    (hsize : n.state.jobs.jobs.size = m.state.jobs.jobs.size)
    (hstarted : j < n.state.jobs.jobs.size → (n.state.jobs.job j).started = true)
    (hline : ∀ k ∈ m.line, k ≠ j → k ∈ n.line) : Lined n := by
  intro b k i asset priority hk hnew
  have hlt : k < m.state.jobs.jobs.size := hsize ▸ hk.1
  have hgrown := (hext.job k hlt).2
  have hold : (m.state.jobs.job k).started = false := by
    cases hcase : (m.state.jobs.job k).started with
    | false => rfl
    | true =>
      rw [hgrown.started hcase] at hnew
      cases hnew
  have hmem := h b k i asset priority ⟨hlt, hgrown.work ▸ hk.2⟩ hold
  refine hline k hmem ?_
  rintro rfl
  rw [hstarted hk.1] at hnew
  cases hnew

theorem jobMove (h : Lined m) (hmove : JobMove m n) : Lined n := by
  have hext := hmove.extends
  -- a job that is picked leaves the line, and every other job in it stays
  have hpicked {j : JobId} {u v : List Activity} {s t : State} (hpick : Picks j u v)
      (hwaiting : t.jobs.waiting = s.jobs.waiting) :
      ∀ k ∈ (⟨u, s⟩ : Moment).line, k ≠ j → k ∈ (⟨v, t⟩ : Moment).line := by
    intro k hk hne
    unfold Moment.line at hk ⊢
    rw [hwaiting]
    cases hpick with
    | next js u =>
      simp only [List.flatMap_cons, Activity.line, List.mem_append, List.mem_cons] at hk ⊢
      tauto
    | outOfTurn u => exact hk
  cases hmove with
  | make w hw => exact h.push rfl (List.Subset.refl _) (.inl hw)
  | submit j =>
    refine h.join rfl ?_
    intro k hk
    unfold Moment.line at hk ⊢
    simp only [State.withJobs, JobQueue.submit, List.mem_append] at hk ⊢
    tauto
  | drain =>
    refine h.join rfl ?_
    intro k hk
    unfold Moment.line at hk ⊢
    simp only [State.withJobs, List.flatMap_cons, Activity.line, List.nil_append] at hk ⊢
    exact hk
  | @start u v s j hpick hnew =>
    refine h.leave (j := j) hext Array.size_modify ?_ ?_
    · intro hlt
      show ((s.jobs.modify j _).job j).started = true
      rw [JobQueue.job_modify, if_pos ⟨rfl, Nat.lt_of_lt_of_eq hlt Array.size_modify⟩]
    · intro k hk hne
      have hmem := hpicked (t := s.jobStarted j) hpick rfl k hk hne
      exact hmem
  | @skip u v s j hpick hold => exact h.leave (j := j) hext rfl (fun _ => hold) (hpicked hpick rfl)
  | work j w hw ok => exact h.same rfl rfl
  | @finish u s j w ok =>
    intro b k i asset priority hk hnew
    have hlt : k < s.jobs.jobs.size := Nat.lt_of_lt_of_eq hk.1 Array.size_modify
    have hjob : ((s.jobEnded j ok).jobs.job k).work = (s.jobs.job k).work ∧
        ((s.jobEnded j ok).jobs.job k).started = (s.jobs.job k).started := by
      show ((s.jobs.modify j _).job k).work = _ ∧ ((s.jobs.modify j _).job k).started = _
      rw [JobQueue.job_modify]
      split <;> exact ⟨rfl, rfl⟩
    exact h b k i asset priority ⟨hlt, hjob.1 ▸ hk.2⟩ (hjob.2 ▸ hnew)
  | drained => exact h.same rfl rfl

theorem taskMove (h : Lined m) (hmove : TaskMove m n) : Lined n := by
  cases hmove with
  | @handOver u s e he hjob =>
    refine h.push rfl ?_ (.inr ?_)
    · intro k hk
      unfold Moment.line at hk ⊢
      simp only [List.flatMap_cons, Activity.line, List.nil_append] at hk
      simp only [State.withJobs, State.withQueue, JobQueue.submit, JobQueue.make,
        List.mem_append] at hk ⊢
      tauto
    · unfold Moment.line
      simp [State.withJobs, State.withQueue, JobQueue.submit]
  | exchange es e => exact h.same rfl (flatMap_exchange es e _ fun _ => rfl)
  | _ => exact h.same rfl rfl

theorem move (h : Lined m) (hmove : Move m n) : Lined n := by
  cases hmove with
  | asset hmove => exact h.assetMove hmove
  | body hmove => exact h.bodyMove hmove
  | job hmove => exact h.jobMove hmove
  | task hmove => exact h.taskMove hmove
  | notice hmove => cases hmove <;> exact h.same rfl rfl
  | plain hmove => cases hmove <;> exact h.same rfl rfl

end Lined

end AssetLoading
