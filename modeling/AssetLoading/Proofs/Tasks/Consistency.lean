import AssetLoading.Proofs.Run.Lasting
import AssetLoading.Proofs.Tasks.Ownership

/-! # What places and activities know of a task

  A queue entry, an activity and a job each carry a part of what is to be done
  with a task. The parts agree with the body of the task and with each other, in
  an *orderly* run: one in which no callback shuts the scheduler down, and no
  task is advanced on the GPU thread once it was advanced off that thread.

  Both kinds of runs that a scheduler has are orderly in the second respect:
  without workers tasks are advanced on the GPU thread only, with workers they
  are never advanced there.
-/

namespace AssetLoading

/-! ### Orderly runs -/

/-- No task is advanced on the GPU thread after it was advanced off that thread. -/
def KeepsToThread (history : List Event) : Prop :=
  ∀ id past, .stepped id true :: past <:+ history → .stepped id false ∉ past

/-- No callback has shut the scheduler down or is about to, and tasks keep to their
thread. -/
structure Moment.Orderly (m : Moment) : Prop where
  keeps : KeepsToThread m.state.history
  notPerforming : .performing .shutdown ∉ m.underWay
  notAnswered : ∀ reply, .answered .shutdown reply ∉ m.state.history

/-- All tasks are advanced on the GPU thread only. -/
theorem KeepsToThread.of_onGpu {history : List Event} (h : ∀ id, .stepped id false ∉ history) :
    KeepsToThread history := by
  intro id past hpast hmem
  exact h id (hpast.subset (List.mem_cons_of_mem _ hmem))

/-- No task is ever advanced on the GPU thread. -/
theorem KeepsToThread.of_offGpu {history : List Event} (h : ∀ id, .stepped id true ∉ history) :
    KeepsToThread history := by
  intro id past hpast
  exact absurd (hpast.subset List.mem_cons_self) (h id)

theorem KeepsToThread.of_suffix {old new : List Event} (h : KeepsToThread new)
    (hsuffix : old <:+ new) : KeepsToThread old :=
  fun id past hpast => h id past (hpast.trans hsuffix)

/-- What came before an orderly moment was orderly. -/
theorem Moment.Orderly.before {m n : Moment} (hn : n.Orderly) (h : Move m n) : m.Orderly where
  keeps := hn.keeps.of_suffix h.extends.history
  notPerforming hm := by
    rcases h.lasting_or_answered rfl hm with hperforming | ⟨op, reply, heq, hanswered⟩
    · exact hn.notPerforming hperforming
    · cases heq
      exact hn.notAnswered reply (hanswered ▸ List.mem_cons_self)
  notAnswered reply hm := hn.notAnswered reply (h.extends.mem hm)

/-- A move of an orderly run: tasks keep to their thread, and nothing else is under
way when a shutdown takes the waiting tasks out of the queue. -/
structure OrderlyMove (m n : Moment) : Prop where
  move : Move m n
  keeps : KeepsToThread n.state.history
  alone : ∀ es, n.underWay = .drained es :: m.underWay → m.underWay = []

/-- Any number of moves of an orderly run. -/
abbrev OrderlyMoves : Moment → Moment → Prop :=
  Relation.ReflTransGen OrderlyMove

/-- Tasks are taken out of the queue to be discarded by one move only. -/
theorem Move.mayDrain {m n : Moment} (h : Move m n) {es : List Entry}
    (hdrained : n.underWay = .drained es :: m.underWay) : MayDrain m.underWay := by
  -- the list has become longer by one, and its head tells by which activity
  have hlength : n.underWay.length = m.underWay.length + 1 := by rw [hdrained]; rfl
  have hhead : n.underWay.head? = some (.drained es) := by rw [hdrained]; rfl
  cases h with
  | asset h =>
    cases h with
    | take holder | revive holder => cases holder <;> simp [gained, Holder.isScheduler] at hlength hhead
    | drop holder => cases holder <;> simp [gained, Holder.isScheduler] at hlength <;> omega
    | _ => simp at hlength hhead <;> omega
  | body h =>
    cases h <;> simp at hlength hhead
    omega
  | job h =>
    cases h with
    | start j hpick => cases hpick <;> simp at hlength hhead
    | skip j hpick => cases hpick <;> simp at hlength
    | _ => simp at hlength hhead <;> omega
  | task h =>
    cases h with
    | drain hu => exact hu
    | _ => simp at hlength hhead <;> omega
  | notice h => cases h <;> simp at hlength hhead <;> omega
  | plain h =>
    cases h <;> simp at hlength hhead
    omega

/-- A run that ends in an orderly moment is orderly. -/
theorem Moves.orderly {m n : Moment} (hmn : Moves m n) (hn : n.Orderly) : OrderlyMoves m n := by
  induction hmn with
  | refl => exact .refl
  | tail _ hmove ih =>
    have hm := hn.before hmove
    refine (ih hm).tail ⟨hmove, hn.keeps, fun es hes => ?_⟩
    rcases hmove.mayDrain hes with hnone | hperforming
    · exact hnone
    · exact absurd hperforming hm.notPerforming

/-- What every move of an orderly run preserves holds at its end. -/
theorem OrderlyMoves.preserve {P : Moment → Prop} (hstep : ∀ m n, OrderlyMove m n → P m → P n)
    {m n : Moment} (hmn : OrderlyMoves m n) (hm : P m) : P n := by
  induction hmn with
  | refl => exact hm
  | tail _ hmove ih => exact hstep _ _ hmove ih

/-! ### Agreement -/

/-- The action at the cursor of an entry was handed over as a job. -/
structure Entry.HandedOver (e : Entry) (s : State) (j : JobId) : Prop where
  known : j < s.jobs.jobs.size
  work : ∃ asset priority, (s.jobs.job j).work = .action e.body e.cursor asset priority
  affinity : e.currentAffinity = some .gpu
  stepped : .stepped e.id false ∈ s.history

/-- An entry agrees with the body of its task, and with its job if it has one. -/
structure Entry.Agrees (e : Entry) (s : State) : Prop where
  accepted : ∃ data, .accepted e.id e.body e.asset data ∈ s.history
  known : e.body < s.bodies.size
  affinities : e.affinities = (s.body e.body).outline.affinities
  job : ∀ j, e.job = some j → e.HandedOver s j

/-- An activity agrees with what it is busy with. -/
def Activity.Agrees (s : State) : Activity → Prop
  | stepping e onGpu =>
    e.Agrees s ∧ .stepped e.id onGpu ∈ s.history ∧ (onGpu = true → e.job = none)
  | concluding e _ | failing e | ending e => e.Agrees s ∧ e.job = none
  | discarding e | ended e | discarded e => e.Agrees s
  | planned t => t.body < s.bodies.size ∧ t.affinities = (s.body t.body).outline.affinities
  | acting a b i => a.Agrees s ∧ ∃ onGpu, a.MayAct b i onGpu
  | freeing a b => a.Agrees s ∧ a.MayFree b
  | running j w | ran j w _ =>
    j < s.jobs.jobs.size ∧ w = (s.jobs.job j).work ∧ (s.jobs.job j).started = true
  | _ => True

/-- The work of a job is an action that there is. -/
def Work.Exists (s : State) : Work → Prop
  | .action b i _ _ => b < s.bodies.size ∧ i < (s.body b).outline.count
  | .call .. | .custom .. => True

section Agreeing

variable {s t : State} {e : Entry}

theorem Entry.HandedOver.extends {j : JobId} (h : e.HandedOver s j) (hst : s.Extends t) :
    e.HandedOver t j where
  known := (hst.job j h.known).1
  work := by
    rw [(hst.job j h.known).2.work]
    exact h.work
  affinity := h.affinity
  stepped := hst.mem h.stepped

theorem Entry.Agrees.extends (h : e.Agrees s) (hst : s.Extends t) : e.Agrees t where
  accepted := by
    obtain ⟨data, hdata⟩ := h.accepted
    exact ⟨data, hst.mem hdata⟩
  known := (hst.body _ h.known).1
  affinities := by
    rw [(hst.body _ h.known).2.outline]
    exact h.affinities
  job j hj := (h.job j hj).extends hst

theorem Activity.Agrees.extends {a : Activity} (h : a.Agrees s) (hst : s.Extends t) :
    a.Agrees t := by
  induction a with
  | stepping e onGpu => exact ⟨h.1.extends hst, hst.mem h.2.1, h.2.2⟩
  | concluding e => exact ⟨Entry.Agrees.extends h.1 hst, h.2⟩
  | failing e => exact ⟨Entry.Agrees.extends h.1 hst, h.2⟩
  | ending e => exact ⟨Entry.Agrees.extends h.1 hst, h.2⟩
  | discarding e => exact Entry.Agrees.extends h hst
  | ended e => exact Entry.Agrees.extends h hst
  | discarded e => exact Entry.Agrees.extends h hst
  | planned t =>
    have hgrown := hst.body _ h.1
    exact ⟨hgrown.1, h.2.trans (congrArg _ hgrown.2.outline.symm)⟩
  | acting a b i ih => exact ⟨ih h.1, h.2⟩
  | freeing a b ih => exact ⟨ih h.1, h.2⟩
  | running j w =>
    have hgrown := hst.job j h.1
    exact ⟨hgrown.1, h.2.1.trans hgrown.2.work.symm, hgrown.2.started h.2.2⟩
  | ran j w ok =>
    have hgrown := hst.job j h.1
    exact ⟨hgrown.1, h.2.1.trans hgrown.2.work.symm, hgrown.2.started h.2.2⟩
  | _ => trivial

theorem Work.Exists.extends {w : Work} (h : w.Exists s) (hst : s.Extends t) : w.Exists t := by
  cases w with
  | action b i =>
    have hgrown := hst.body b h.1
    refine ⟨hgrown.1, ?_⟩
    rw [hgrown.2.outline]
    exact h.2
  | call => trivial
  | custom => trivial

/-- Only a task that is not handed over can run its action in place. -/
theorem Activity.Agrees.job_eq_none {onGpu : Bool} {b : BodyId} {i : Nat} {g : Bool}
    (h : (Activity.stepping e onGpu).Agrees s) (hmay : (Activity.stepping e onGpu).MayAct b i g) :
    e.job = none := by
  obtain ⟨-, -, hgpu, affinity, haffinity, honly⟩ := hmay
  cases hjob : e.job with
  | none => rfl
  | some j =>
    have hhanded := (h.1.job j hjob).affinity
    rw [haffinity, Option.some.injEq] at hhanded
    have honGpu : onGpu = true := hgpu.trans (honly hhanded)
    have hnone := h.2.2 honGpu
    rw [hjob] at hnone
    cases hnone

theorem Activity.agrees_of_not_ofTasks {a : Activity} (ha : a.ofTasks = false) : a.Agrees s := by
  cases a <;> first | exact True.intro | cases ha

/-- Without a job it does not matter where the cursor stands. -/
theorem Entry.Agrees.of_job_eq_none {d : Entry} (h : e.Agrees s) (htask : d.toTask = e.toTask ∨
    ∃ complexity, d.toTask = { e.toTask with complexity }) (hid : d.id = e.id)
    (hjob : d.job = none) : d.Agrees s := by
  have hsame : d.body = e.body ∧ d.asset = e.asset ∧ d.affinities = e.affinities := by
    rcases htask with heq | ⟨complexity, heq⟩
    · rw [heq]
      exact ⟨rfl, rfl, rfl⟩
    · rw [heq]
      exact ⟨rfl, rfl, rfl⟩
  obtain ⟨hbody, hasset, haffinities⟩ := hsame
  constructor
  · rw [hid, hbody, hasset]
    exact h.accepted
  · rw [hbody]
    exact h.known
  · rw [hbody, haffinities]
    exact h.affinities
  · intro j hj
    rw [hjob] at hj
    cases hj

theorem Entry.agrees_abort (h : e.Agrees s ∧ e.job = none) :
    e.abort.Agrees s ∧ e.abort.job = none :=
  ⟨h.1.of_job_eq_none (.inl rfl) rfl h.2, h.2⟩

theorem Activity.Agrees.concluded {a : Activity} {b : BodyId} {i : Nat} {onGpu : Bool}
    (h : a.Agrees s) (hmay : a.MayAct b i onGpu) (ok : Bool) : (a.concluded ok).Agrees s := by
  cases a with
  | stepping e onGpu => exact ⟨h.1, h.job_eq_none hmay⟩
  | running j w => exact h
  | _ => exact hmay.elim

theorem Activity.Agrees.freed {a : Activity} {b : BodyId} (h : a.Agrees s) (hmay : a.MayFree b) :
    a.freed.Agrees s := by
  cases a with
  | ending e => exact h.1
  | discarding e => exact h
  | planned t => trivial
  | _ => exact hmay.elim

end Agreeing

/-! ### Consistency -/

/-- Resting tasks, activities and jobs agree with the bodies and the history. -/
structure Consistent (m : Moment) : Prop where
  entries : ∀ e ∈ m.resting, e.Agrees m.state
  work : ∀ a ∈ m.underWay, a.Agrees m.state
  jobs : ∀ j, j < m.state.jobs.jobs.size → (m.state.jobs.job j).work.Exists m.state

namespace Consistent

variable {m n : Moment}

theorem start (p : Session) : Consistent ⟨[], p.start⟩ := by
  unfold Session.start
  constructor
  · dsimp only
    split <;> exact fun e he => absurd he (Multiset.notMem_zero e)
  · exact fun a ha => nomatch ha
  · dsimp only
    split <;> exact fun j hj => nomatch hj

/-- New entries, activities and jobs have to agree; the others still do. -/
theorem step (h : Consistent m) (hext : m.state.Extends n.state)
    (hentries : ∀ e ∈ n.resting, e ∈ m.resting ∨ e.Agrees n.state)
    (hwork : ∀ a ∈ n.underWay, a ∈ m.underWay ∨ a.Agrees n.state)
    (hjobs : ∀ j, j < n.state.jobs.jobs.size →
      j < m.state.jobs.jobs.size ∨ (n.state.jobs.job j).work.Exists n.state) : Consistent n where
  entries e he := by
    rcases hentries e he with hold | hnew
    · exact (h.entries e hold).extends hext
    · exact hnew
  work a ha := by
    rcases hwork a ha with hold | hnew
    · exact (h.work a hold).extends hext
    · exact hnew
  jobs j hj := by
    rcases hjobs j hj with hold | hnew
    · rw [(hext.job j hold).2.work]
      exact (h.jobs j hold).extends hext
    · exact hnew

/-- Some activities have come to their end. -/
theorem drop (h : Consistent m) (hext : m.state.Extends n.state) (hresting : n.resting ≤ m.resting)
    (hwork : n.underWay ⊆ m.underWay)
    (hjobs : n.state.jobs.jobs.size = m.state.jobs.jobs.size) : Consistent n := by
  refine h.step hext ?_ ?_ ?_
  · exact fun _ he => .inl (Multiset.mem_of_le hresting he)
  · exact fun _ ha => .inl (hwork ha)
  · exact fun _ hj => .inl (hjobs ▸ hj)

/-- A new activity has begun, maybe in place of others. -/
theorem begin {u : List Activity} {t : State} {a : Activity} (h : Consistent m)
    (hext : m.state.Extends t) (hresting : (⟨a :: u, t⟩ : Moment).resting ≤ m.resting)
    (hwork : u ⊆ m.underWay) (ha : a.Agrees t)
    (hjobs : t.jobs.jobs.size = m.state.jobs.jobs.size) : Consistent ⟨a :: u, t⟩ := by
  refine h.step hext ?_ ?_ ?_
  · exact fun _ he => .inl (Multiset.mem_of_le hresting he)
  · intro d hd
    rcases List.mem_cons.1 hd with heq | hu
    · rw [heq]
      exact .inr ha
    · exact .inl (hwork hu)
  · exact fun _ hj => .inl (hjobs ▸ hj)

/-- An activity has turned into another one that has no task at rest. -/
theorem turn {u : List Activity} {s t : State} {a b : Activity} (h : Consistent ⟨a :: u, s⟩)
    (hext : s.Extends t) (hb : b.held = []) (hqueue : t.queue = s.queue) (hclient : t.client = s.client)
    (hagrees : a.Agrees t → b.Agrees t) (hjobs : t.jobs.jobs.size = s.jobs.jobs.size) :
    Consistent ⟨b :: u, t⟩ := by
  have ha := (h.work a List.mem_cons_self).extends hext
  refine h.begin hext ?_ (List.subset_cons_self a u) (hagrees ha) hjobs
  exact resting_le_of_held hb (by rw [hqueue]) (by rw [hclient])

theorem sameWork (h : Consistent m) (hmn : m.SameWork n) : Consistent n := by
  refine h.step hmn.extends ?_ ?_ ?_
  · exact fun _ he => .inl (Multiset.mem_of_le hmn.passes.resting he)
  · intro a ha
    cases hwork : a.ofTasks with
    | true => exact .inl ((hmn.mem_work hwork).1 ha)
    | false => exact .inr (Activity.agrees_of_not_ofTasks hwork)
  · exact fun _ hj => .inl (hmn.jobs ▸ hj)

theorem bodyMove (h : Consistent m) (hmove : BodyMove m n) : Consistent n := by
  have hext := hmove.extends
  cases hmove with
  | @plan u s t body hbody htaken haffinities =>
    have hnew : ({ s with bodies := s.bodies.push body } : State).body t.body = body := by
      rw [State.body_push, if_pos hbody]
    refine h.begin hext le_rfl (List.Subset.refl u) ⟨?_, ?_⟩ rfl
    · show t.body < (s.bodies.push body).size
      rw [hbody, Array.size_push]
      exact Nat.lt_succ_self _
    · rw [hnew]
      exact haffinities
  | forget t => exact h.drop hext le_rfl (List.subset_cons_self _ _) rfl
  | estimate b f hf => exact h.drop hext le_rfl (List.Subset.refl _) rfl
  | write b f hruns hf => exact h.drop hext le_rfl (List.Subset.refl _) rfl
  | act a b i onGpu hmay => exact h.turn hext rfl rfl rfl (fun ha => ⟨ha, onGpu, hmay⟩) rfl
  | actEnd a b i onGpu ok hmay =>
    exact h.turn hext (hmay.held_concluded ok) rfl rfl (fun ha => ha.1.concluded hmay ok) rfl
  | actSkip a b i onGpu hmay =>
    exact h.turn hext (hmay.held_concluded false) rfl rfl (fun ha => ha.concluded hmay false) rfl
  | fail e => exact h.turn hext rfl rfl rfl id rfl
  | failEnd e => exact h.turn hext rfl rfl rfl Entry.agrees_abort rfl
  | failSkip e => exact h.turn hext rfl rfl rfl Entry.agrees_abort rfl
  | free a b asset hmay => exact h.turn hext rfl rfl rfl (fun ha => ⟨ha, hmay⟩) rfl
  | freeEnd a b hmay => exact h.turn hext hmay.held_freed rfl rfl (fun ha => ha.1.freed hmay) rfl
  | freeSkip a b hmay => exact h.turn hext hmay.held_freed rfl rfl (fun ha => ha.freed hmay) rfl

/-- A job starts or ends some way of its own, and no task comes to rest. -/
theorem jobMove (h : Consistent m) (hmove : JobMove m n) : Consistent n := by
  have hext := hmove.extends
  have hsame := hmove.sameWork
  cases hmove with
  | @make u s w hw =>
    -- the new job is the last one; an action is never handed over by a mere submission
    refine h.step hext (fun _ he => .inl he) (fun _ ha => .inl ha) ?_
    intro j hj
    rcases Nat.lt_succ_iff_lt_or_eq.1 (Nat.lt_of_lt_of_eq hj (Array.size_push _)) with hold | hnew
    · exact .inl hold
    · right
      show ((s.jobs.make w).2.job j).work.Exists _
      rw [JobQueue.job_make, if_pos hnew]
      cases w <;> first | exact hw.elim | trivial
  | submit j => exact h.sameWork (hsame rfl rfl)
  | drain => exact h.sameWork (hsame rfl rfl)
  | @start u v s j hpick hnew =>
    have hj := State.lt_size_of_unstarted hnew
    have hgrown := hext.job j hj
    -- the job that starts runs from now on, and no entry in the queue changes
    have hstarted : ((s.jobStarted j).jobs.job j).started = true := by
      show ((s.jobs.modify j _).job j).started = true
      rw [JobQueue.job_modify, if_pos ⟨rfl, hj⟩]
    have hresting : (⟨.running j (s.jobs.job j).work :: v, s.jobStarted j⟩ : Moment).resting =
        (⟨u, s⟩ : Moment).resting := by
      unfold Moment.resting
      rw [← hpick.flatMap_eq fun _ => rfl]
      rfl
    refine h.step hext (fun _ he => .inl (hresting ▸ he)) ?_ fun k hk => .inl ?_
    · intro a ha
      rcases List.mem_cons.1 ha with heq | ha
      · rw [heq]
        exact .inr ⟨hgrown.1, hgrown.2.work.symm, hstarted⟩
      · cases hwork : a.ofTasks with
        | true =>
          have hmem : a ∈ v.filter Activity.ofTasks := List.mem_filter.2 ⟨ha, hwork⟩
          rw [hpick.filter_ofTasks] at hmem
          exact .inl (List.mem_filter.1 hmem).1
        | false => exact .inr (Activity.agrees_of_not_ofTasks hwork)
    · exact Nat.lt_of_lt_of_eq hk Array.size_modify
  | skip j hpick => exact h.sameWork (hsame hpick.filter_ofTasks rfl)
  | work j w hw ok => exact h.turn hext rfl rfl rfl id rfl
  | finish j w ok => exact h.drop hext le_rfl (List.subset_cons_self _ _) Array.size_modify
  | drained => exact h.sameWork (hsame rfl rfl)

/-- The action at the cursor of a task is handed over as a job. -/
theorem handOver {u : List Activity} {s t : State} {e : Entry}
    (h : Consistent ⟨.stepping e false :: u, s⟩) (he : e.currentAffinity = some .gpu)
    (hext : s.Extends t)
    (hjobs : t.jobs = (s.jobs.make (.action e.body e.cursor e.asset e.priority)).2.submit
      s.jobs.jobs.size)
    (hqueue : t.queue = s.queue.giveBack (e.handedOver s.jobs.jobs.size))
    (hclaims : t.client.claims = s.client.claims) : Consistent ⟨u, t⟩ := by
  have hstepping := (h.work (.stepping e false) List.mem_cons_self).extends hext
  have hsize : t.jobs.jobs.size = s.jobs.jobs.size + 1 := by
    rw [hjobs]
    exact Array.size_push _
  have hjob : t.jobs.job s.jobs.jobs.size =
      { work := .action e.body e.cursor e.asset e.priority } := by
    rw [hjobs]
    show (s.jobs.make _).2.job _ = _
    rw [JobQueue.job_make, if_pos rfl]
  refine h.step hext ?_ (fun _ ha => .inl (List.mem_cons_of_mem _ ha)) ?_
  · intro d hd
    -- the entry goes back with the new job; every other entry and job is as before
    rw [resting_giveBack hqueue hclaims, Multiset.mem_cons] at hd
    rcases hd with heq | hd
    · right
      rw [heq]
      refine ⟨hstepping.1.accepted, hstepping.1.known, hstepping.1.affinities, ?_⟩
      intro j hj
      obtain rfl : s.jobs.jobs.size = j := Option.some.inj hj
      refine ⟨?_, ⟨e.asset, e.priority, by rw [hjob]; rfl⟩, he, hstepping.2.1⟩
      rw [hsize]
      exact Nat.lt_succ_self _
    · left
      rw [resting_cons_of_held rfl]
      exact Multiset.mem_cons_of_mem hd
  · intro j hj
    rw [hsize] at hj
    rcases Nat.lt_succ_iff_lt_or_eq.1 hj with hold | hnew
    · exact .inl hold
    · right
      rw [hnew, hjob]
      refine ⟨hstepping.1.known, ?_⟩
      rw [Outline.count, ← hstepping.1.affinities]
      exact (List.getElem?_eq_some_iff.1 he).1

theorem taskMove (h : Consistent m) (hmove : TaskMove m n)
    (hkeeps : KeepsToThread n.state.history) : Consistent n := by
  have hext := hmove.extends
  cases hmove with
  | @accept u s t =>
    have hplanned := h.work (.planned t) (List.mem_cons_of_mem _ List.mem_cons_self)
    have hresting := resting_accept (u := u) (s := s) (t := (s.withQueue (s.queue.push t).2).record
      (.accepted (s.queue.push t).1.id t.body t.asset (s.body t.body).data)) rfl rfl
    refine h.step hext ?_ ?_ fun _ hj => .inl hj
    · intro e he
      rw [hresting, Multiset.mem_cons] at he
      rcases he with heq | he
      · rw [heq]
        right
        exact ⟨⟨_, List.mem_cons_self⟩, hplanned.1, hplanned.2, fun _ hj => nomatch hj⟩
      · exact .inl he
    · exact fun _ ha => .inl (List.mem_cons_of_mem _ (List.mem_cons_of_mem _ ha))
  | acquire e queue hq =>
    exact h.begin hext (resting_acquire hq).le (List.Subset.refl _) trivial rfl
  | shelve e label =>
    exact h.drop hext (resting_shelve _ _ e label) (List.subset_cons_self _ _) rfl
  | unshelve e label he =>
    exact h.begin hext (resting_unshelve he) (List.Subset.refl _) trivial rfl
  | forget => exact h.drop hext (resting_forget _ _) (List.Subset.refl _) rfl
  | exchange es e =>
    exact h.drop hext (resting_exchange es e _ _).le (fun _ => (mem_exchange es e _).1) rfl
  | @step u s e onGpu =>
    have he : e.Agrees s := by
      refine h.entries e ?_
      rw [resting_cons_of_held rfl]
      exact Multiset.mem_cons_self _ _
    refine h.begin hext le_rfl (List.subset_cons_self _ _) ⟨he.extends hext, List.mem_cons_self, ?_⟩ rfl
    intro honGpu
    -- a task that was handed over had been advanced off the GPU thread
    cases hjob : e.job with
    | none => rfl
    | some j =>
      subst honGpu
      exact absurd (he.job j hjob).stepped (hkeeps e.id s.history List.suffix_rfl)
  | @runOut u s e onGpu he =>
    refine h.turn hext rfl rfl rfl ?_ rfl
    intro hagrees
    refine ⟨hagrees.1, ?_⟩
    cases hjob : e.job with
    | none => rfl
    | some j =>
      have haffinity := (hagrees.1.job j hjob).affinity
      rw [he] at haffinity
      cases haffinity
  | handOver e he hjob => exact h.handOver he hext rfl rfl rfl
  | @wait u s e j =>
    have hback := resting_giveBack (u := u) (s := s) (t := s.withQueue (s.queue.giveBack e)) rfl rfl
    rw [← resting_cons_of_held (a := .stepping e false) rfl] at hback
    exact h.drop hext hback.le (List.subset_cons_self _ _) rfl
  | collect e j complexity =>
    refine h.turn hext rfl rfl rfl ?_ rfl
    exact fun ha => ⟨ha.1.of_job_eq_none (.inr ⟨_, rfl⟩) rfl rfl, rfl⟩
  | reckon e ok complexity =>
    refine h.turn hext rfl rfl rfl ?_ rfl
    exact fun ha => ⟨ha.1.of_job_eq_none (.inr ⟨_, rfl⟩) rfl ha.2, ha.2⟩
  | @proceed u s e =>
    have he := (h.work (.concluding e true) List.mem_cons_self).extends hext
    have hback := resting_giveBack (u := u) (s := s) (t := s.withQueue (s.queue.giveBack e.advanced))
      rfl rfl
    refine h.step hext ?_ (fun _ ha => .inl (List.mem_cons_of_mem _ ha)) fun _ hj => .inl hj
    intro d hd
    rw [hback, Multiset.mem_cons] at hd
    rcases hd with heq | hd
    · rw [heq]
      exact .inr (he.1.of_job_eq_none (.inl rfl) rfl he.2)
    · exact .inl hd
  | succeed e =>
    refine h.turn hext rfl rfl rfl ?_ rfl
    exact fun ha => ⟨ha.1.of_job_eq_none (.inl rfl) rfl ha.2, ha.2⟩
  | complete e => exact h.begin hext le_rfl (List.subset_cons_self _ _) trivial rfl
  | drain hu => exact h.begin hext (resting_drain _ _).le (List.Subset.refl _) trivial rfl
  | @discardNext u s e es =>
    have he : e.Agrees s := by
      refine h.entries e ?_
      rw [resting_cons]
      exact Multiset.mem_add.2 (.inl List.mem_cons_self)
    refine h.step hext (fun _ hd => .inl hd) ?_ fun _ hj => .inl hj
    intro a ha
    rcases List.mem_cons.1 ha with heq | ha
    · rw [heq]
      exact .inr he
    · rcases List.mem_cons.1 ha with heq | ha
      · rw [heq]
        exact .inr trivial
      · exact .inl (List.mem_cons_of_mem _ ha)
  | discard e => exact h.begin hext le_rfl (List.subset_cons_self _ _) trivial rfl
  | discardEnd => exact h.drop hext le_rfl (List.subset_cons_self _ _) rfl

/-- It is enough that tasks keep to their thread. -/
theorem move_of_keeps (h : Consistent m) (hmove : Move m n) (hkeeps : KeepsToThread n.state.history) :
    Consistent n := by
  rcases hmove.work_or_same with (hbody | hjob | htask) | hsame
  · exact h.bodyMove hbody
  · exact h.jobMove hjob
  · exact h.taskMove htask hkeeps
  · exact h.sameWork hsame

theorem move (h : Consistent m) (hmove : OrderlyMove m n) : Consistent n :=
  h.move_of_keeps hmove.move hmove.keeps

end Consistent

end AssetLoading
