import AssetLoading.Proofs.Tasks.Data
import AssetLoading.Proofs.Tasks.Whole

/-! # The life of a task

  The callbacks of an accepted task tell its story: its actions from the first one
  on, up to one that fails or to the last, then the failure hook if one has failed,
  and in the end the hook that frees the data. A shutdown may cut the story short
  between two actions, and then nothing but that last hook follows. Each callback
  gets the data as the one before it left it.
-/

namespace AssetLoading

/-- All that is known of the tasks of an orderly run. -/
structure Lived (m : Moment) : Prop where
  order : InOrder m
  endings : Endings m
  enrolled : Enrolled m
  whole : Whole m
  handedOn : ∀ id b, m.state.Accepts id b → HandedOn m b

namespace Lived

variable {m n : Moment} {id : Nat} {b : BodyId}

theorem start (p : Session) : Lived ⟨[], p.start⟩ where
  order := .start p
  endings := .start p
  enrolled := .start p
  whole := .start p
  handedOn id b hid := by
    obtain ⟨asset, data, h⟩ := hid
    unfold Session.start at h
    dsimp only at h
    split at h <;> simp [State.record] at h

theorem handedOn_move (h : Lived m) (hmove : Move m n) (hid : n.state.Accepts id b) :
    HandedOn n b := by
  rcases hmove.work_or_same with (hbody | hjob | htask) | hsame
  · have haccepts := Enrolled.accepts_of_records hbody.records (by decide) id b hid
    exact (h.handedOn id b haccepts).bodyMove h.order (h.enrolled.known id b haccepts) hbody
  · have haccepts := Enrolled.accepts_of_records hjob.records (by decide) id b hid
    exact (h.handedOn id b haccepts).jobMove hjob
  · -- the task is accepted just now, or it was before and the move goes on with it
    by_cases haccepts : m.state.Accepts id b
    · exact (h.handedOn id b haccepts).taskMove h.enrolled htask ⟨id, haccepts⟩
    · obtain ⟨asset, data, hmem⟩ := hid
      cases htask with
      | @accept u s t =>
        rcases List.mem_cons.1 hmem with heq | hmem
        · obtain rfl : b = t.body := by cases heq; rfl
          obtain ⟨p, -, htrace, rfl⟩ := (Whole.fits_of_planned h.order).phase
          exact HandedOn.accept htrace rfl rfl (if_pos rfl)
        · exact absurd ⟨asset, data, hmem⟩ haccepts
      | _ =>
        refine absurd ⟨asset, data, ?_⟩ haccepts
        simpa [State.record, State.withQueue, State.withJobs, State.withClient] using hmem
  · -- a move that is about neither bodies nor tasks tells nothing of this one
    obtain ⟨subject, hbody, htask, new, hnew, hhistory⟩ := hsame.records
    have haccepts := Enrolled.accepts_of_records ⟨new, hnew, hhistory⟩ htask id b hid
    refine (h.handedOn id b haccepts).quiet hhistory (fun e he => ?_) ?_ fun _ => by rw [hsame.body]
    · refine HandedOn.silent_of_subject (by rw [hnew e he]; exact hbody) fun id c asset data heq => ?_
      have hsubject := hnew e he
      rw [heq] at hsubject
      exact htask hsubject.symm
    · intro hidle a ha hruns
      exact hidle a ((hsame.mem_work hruns.ofTasks).2 ha) hruns

theorem enrolled_move (h : Lived m) (hmove : Move m n) : Enrolled n :=
  h.enrolled.move h.order.owned (h.endings.freesTaken h.order) hmove

theorem move (h : Lived m) (hmove : OrderlyMove m n) : Lived n where
  order := h.order.move hmove
  endings := h.endings.move h.order hmove.move
  enrolled := h.enrolled_move hmove.move
  whole := h.whole.move h.order (h.order.move hmove) h.endings h.enrolled
    (h.enrolled_move hmove.move) hmove.move
  handedOn _ _ hid := h.handedOn_move hmove.move hid

theorem of_moves {p : Session} (hrun : OrderlyMoves ⟨[], p.start⟩ m) : Lived m :=
  hrun.preserve (fun _ _ hmove h => h.move hmove) (start p)

/-! ### What a task shows -/

/-- As long as a task is not discarded, it shows the beginning of a whole story. -/
theorem prefix_story (h : Lived m) (hid : m.state.Accepts id b) (hdiscards : ¬ m.Discards id) :
    ∃ failing, (m.state.body b).outline.Allows failing ∧
      told b m.state.history <+: (m.state.body b).outline.story failing := by
  obtain ⟨p, hp, htrace, hwhole⟩ := h.whole id b hid hdiscards
  rw [htrace]
  exact hwhole.prefix_story hp

/-- The body that a task was accepted with is the one that it ends with. -/
theorem over_of_isOver {inTheEnd : Bool} (h : Lived m) (hid : m.state.Accepts id b)
    (hover : m.state.IsOver id inTheEnd) : m.state.Over b inTheEnd := by
  obtain ⟨c, asset, data, haccepted, hover⟩ := hover
  obtain rfl : c = b := (h.enrolled.single _ _ _ _ ⟨asset, data, haccepted⟩ hid).1 rfl
  exact hover

/-- Once a task is completed, it has shown a whole story. -/
theorem eq_story (h : Lived m) (hid : m.state.Accepts id b)
    (hcompleted : .completed id ∈ m.state.history) :
    ∃ failing, (m.state.body b).outline.Allows failing ∧
      told b m.state.history = (m.state.body b).outline.story failing := by
  obtain ⟨r, hr, hlast, htold⟩ := (h.over_of_isOver hid (h.endings.completed id hcompleted)).told
  obtain ⟨failing, hallows, hstory⟩ := Rest.IsLast.story_eq hlast hr
  exact ⟨failing, hallows, htold.trans hstory.symm⟩

/-- Once a task is recorded as discarded, it has shown a story that was cut short. -/
theorem eq_cut (h : Lived m) (hid : m.state.Accepts id b)
    (hdiscarded : .discarded id ∈ m.state.history) :
    ∃ r : Rest, r.Of (m.state.body b).outline ∧ r.IsCut m.state b ∧
      told b m.state.history = r.trace ++ (m.state.body b).outline.freeing :=
  (h.over_of_isOver hid (h.endings.discarded id hdiscarded)).told

/-- Until then it shows the beginning of one. -/
theorem prefix_cut (h : Lived m) (hid : m.state.Accepts id b) (hdiscards : m.Discards id) :
    ∃ r : Rest, r.Of (m.state.body b).outline ∧ r.IsCut m.state b ∧
      told b m.state.history <+: r.trace ++ (m.state.body b).outline.freeing := by
  have hwhole {e : Entry} (he : e.id = id) (hagrees : e.Agrees m.state) : e.body = b := by
    obtain ⟨data, haccepted⟩ := hagrees.accepted
    exact (h.enrolled.single _ _ _ _ ⟨_, data, haccepted⟩ hid).1 he
  -- discarded for good, or the shutdown is still at it: after or within the free hook
  rcases hdiscards with hdiscarded | ⟨a, ha, hdiscards⟩
  · obtain ⟨r, hr, hcut, htold⟩ := h.eq_cut hid hdiscarded
    exact ⟨r, hr, hcut, htold ▸ List.prefix_rfl⟩
  · have hagrees := h.order.consistent.work a ha
    cases a with
    | discarded e =>
      obtain rfl := hwhole (Option.some.inj hdiscards) hagrees
      obtain ⟨r, hr, hcut, htold⟩ := (h.endings.work _ ha : m.state.Over e.body false).told
      exact ⟨r, hr, hcut, htold ▸ List.prefix_rfl⟩
    | freeing c d =>
      cases c with
      | discarding e =>
        obtain rfl : e.body = d := hagrees.2
        obtain rfl := hwhole (Option.some.inj hdiscards) hagrees.1
        have hturn : (e.body, .freeing false) ∈ m.turns :=
          mem_turns_of_isBusy ha List.mem_cons_self rfl
        obtain ⟨p, hp, htrace, r, rfl, hcut⟩ := (h.order.inTurn.fits _ hturn).phase
        refine ⟨r, hp.1, hcut, ?_⟩
        rw [htrace, Outline.freeing, if_pos hp.2]
        exact (List.prefix_append_right_inj _).2 ⟨[.returns], rfl⟩
      | _ => cases hdiscards
    | _ => cases hdiscards

end Lived

/-- **The life of a task.** In an orderly run an accepted task shows at all times the
beginning of a whole story, and the whole of one once it is completed. Only a task
that a shutdown discards shows the beginning of a story that was cut short, and then
the hook that frees its data. Each callback receives the data as the one before it,
or the acceptance of the task, has left it. -/
theorem task_lifecycle {p : Session} {m : Moment} (hrun : Moves ⟨[], p.start⟩ m)
    (horderly : m.Orderly) {id : Nat} {b : BodyId} (hid : m.state.Accepts id b) :
    (¬ m.Discards id → ∃ failing, (m.state.body b).outline.Allows failing ∧
      told b m.state.history <+: (m.state.body b).outline.story failing) ∧
    (.completed id ∈ m.state.history → ∃ failing, (m.state.body b).outline.Allows failing ∧
      told b m.state.history = (m.state.body b).outline.story failing) ∧
    (m.Discards id → ∃ r : Rest, r.Of (m.state.body b).outline ∧ r.IsCut m.state b ∧
      told b m.state.history <+: r.trace ++ (m.state.body b).outline.freeing) ∧
    (.discarded id ∈ m.state.history → ∃ r : Rest, r.Of (m.state.body b).outline ∧
      r.IsCut m.state b ∧
      told b m.state.history = r.trace ++ (m.state.body b).outline.freeing) ∧
    ∀ e past data, e :: past <:+ m.state.history → e.received b = some data →
      leftData b past = some data := by
  have h := Lived.of_moves (hrun.orderly horderly)
  exact ⟨h.prefix_story hid, h.eq_story hid, h.prefix_cut hid, h.eq_cut hid,
    (h.handedOn id b hid).received⟩

/-- Some step of a task on the GPU thread, or a shutdown by a callback. -/
def Event.isUnruly : Event → Bool
  | .stepped _ onGpu => onGpu
  | .answered .shutdown _ => true
  | _ => false

/-- Between two operations of a run with workers. -/
theorem Moment.Orderly.of_any_isUnruly {s : State} (h : s.history.any Event.isUnruly = false) :
    (⟨[], s⟩ : Moment).Orderly where
  keeps := .of_offGpu fun _ hmem => List.any_eq_false.1 h _ hmem rfl
  notPerforming := nofun
  notAnswered _ hmem := List.any_eq_false.1 h _ hmem rfl

/-- The number of a task that was completed, or discarded. -/
def Event.endOf? : Event → Option (Nat × Bool)
  | .completed id => some (id, true)
  | .discarded id => some (id, false)
  | _ => none

theorem State.completed_iff {s : State} {id : Nat} :
    .completed id ∈ s.history ↔ (id, true) ∈ s.history.filterMap Event.endOf? := by
  rw [List.mem_filterMap]
  refine ⟨fun h => ⟨_, h, rfl⟩, ?_⟩
  rintro ⟨e, he, hend⟩
  cases e <;> simp_all [Event.endOf?]

theorem State.discarded_iff {s : State} {id : Nat} :
    .discarded id ∈ s.history ↔ (id, false) ∈ s.history.filterMap Event.endOf? := by
  rw [List.mem_filterMap]
  refine ⟨fun h => ⟨_, h, rfl⟩, ?_⟩
  rintro ⟨e, he, hend⟩
  cases e <;> simp_all [Event.endOf?]

/-- A task whose second action fails on the GPU thread. -/
def failingPlan : TaskPlan Script where
  name := "first"
  asset := .labelled "mesh"
  priority := 0
  complexity := 0
  data := [1]
  actions := [⟨.worker, [(Op.pushData 2).anyway], true⟩, ⟨.gpu, [], false⟩, ⟨.worker, [], true⟩]
  onFailure := some [(Op.pushData 3).anyway]
  onFree := some []

/-- A task with one action for the GPU thread. -/
def gpuPlan : TaskPlan Script where
  name := "second"
  asset := .labelled "mesh"
  priority := 1
  complexity := 0
  data := []
  actions := [⟨.gpu, [], true⟩]
  onFailure := none
  onFree := some []

/-- The first task fails; the second one is discarded while its job waits. -/
@[irreducible]
def failedAndDiscarded : State :=
  (Session.bare .manual).start.after 6
    [(.main, .findOrCreate "mesh" (.standard .mesh) (.ofId ⟨1⟩)), (.main, .enqueue failingPlan),
      (.main, .enqueue gpuPlan), (.worker 0, .work), (.worker 0, .work), (.main, .step 1),
      (.worker 0, .work), (.worker 0, .work), (.main, .shutdown)]

theorem failedAndDiscarded_lifecycle :
    (∃ failing, told 0 failedAndDiscarded.history =
      (failedAndDiscarded.body 0).outline.story failing) ∧
    (∃ r : Rest, r.IsCut failedAndDiscarded 1 ∧
      told 1 failedAndDiscarded.history = r.trace ++ [.frees, .returns]) ∧
    ∀ past, .freed 0 "first" .error [1, 2, 3] :: past <:+ failedAndDiscarded.history →
      leftData 0 past = some [1, 2, 3] := by
  have hreached : Reached failedAndDiscarded := by
    unfold failedAndDiscarded
    exact (Reached.start _).after 6 _
  obtain ⟨p, hrun⟩ := hreached.moves
  have horderly : (⟨[], failedAndDiscarded⟩ : Moment).Orderly :=
    .of_any_isUnruly (by decide +kernel)
  have hfirst : failedAndDiscarded.Accepts 1 0 := State.accepts_iff.2 (by decide +kernel)
  have hsecond : failedAndDiscarded.Accepts 2 1 := State.accepts_iff.2 (by decide +kernel)
  obtain ⟨-, hcompleted, -, -, hdata⟩ := task_lifecycle hrun horderly hfirst
  obtain ⟨-, -, -, hdiscarded, -⟩ := task_lifecycle hrun horderly hsecond
  refine ⟨?_, ?_, fun past hpast => hdata _ past _ hpast rfl⟩
  · obtain ⟨failing, -, htold⟩ := hcompleted (State.completed_iff.2 (by decide +kernel))
    exact ⟨failing, htold⟩
  · obtain ⟨r, -, hcut, htold⟩ := hdiscarded (State.discarded_iff.2 (by decide +kernel))
    have hfreeing : (failedAndDiscarded.body 1).outline.freeing = [.frees, .returns] := by
      decide +kernel
    rw [hfreeing] at htold
    exact ⟨r, hcut, htold⟩

end AssetLoading
