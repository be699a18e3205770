import AssetLoading.Proofs.Tasks.Progress

/-! # How tasks end

  A task is over once its data is freed: nobody has its turn any more, so nothing
  is told of it again. It was freed in the end, after its last action or its
  failure hook, or before its time by a shutdown.
-/

namespace AssetLoading

/-! ### What is told in turn -/

section Telling

variable {m n : Moment} {b : BodyId}

/-- The first thing under way has its turn, if that is open. -/
theorem mem_turns_head {a : Activity} {u : List Activity} {s : State} {x : Turn}
    (ha : a.turns s.jobs = {x}) (hopen : s.isOpen x = true) :
    x ∈ (⟨a :: u, s⟩ : Moment).turns := by
  refine Multiset.mem_filter.2 ⟨?_, hopen⟩
  rw [allTurns_cons, ha]
  exact Multiset.mem_add.2 (.inl (Multiset.mem_singleton_self x))

theorem State.isOpen_of_untaken {s : State} (stage : Stage) (h : (s.body b).taken = false) :
    s.isOpen (b, stage) = true := by
  unfold isOpen
  rw [h]
  exact Bool.or_true _

/-- Whoever is about to free the data of a task has its body. -/
theorem InOrder.untaken {a : Activity} {u : List Activity} {s : State} (h : InOrder ⟨a :: u, s⟩)
    (hmay : a.MayFree b) : (s.body b).taken = false := by
  refine h.owned.untaken b ?_
  rw [owned_cons_of_bodies hmay.bodies.1]
  exact Multiset.mem_cons_self _ _

/-- The turn that a task has where its data is about to be freed. -/
theorem InOrder.exists_rest {a : Activity} {u : List Activity} {s : State}
    (h : InOrder ⟨a :: u, s⟩) (hmay : a.MayFree b) :
    ∃ stage, stage.isBusy = false ∧ (b, stage) ∈ (⟨a :: u, s⟩ : Moment).turns := by
  have hopen (stage : Stage) := State.isOpen_of_untaken stage (h.untaken hmay)
  cases a with
  | ending e =>
    obtain rfl : e.body = b := hmay
    exact ⟨.closing, rfl, mem_turns_head (Activity.turns_of_held_eq_nil rfl) (hopen _)⟩
  | planned t =>
    obtain rfl : t.body = b := hmay
    exact ⟨.rest (.ready 0), rfl, mem_turns_head (Activity.turns_of_held_eq_nil rfl) (hopen _)⟩
  | discarding e =>
    obtain rfl : e.body = b := hmay
    obtain ⟨r, hr, -⟩ := InTurn.exists_rest h.consistent h.inFlight h.alone
    exact ⟨.rest r, rfl, Multiset.mem_filter.2 ⟨hr, hopen _⟩⟩
  | _ => exact hmay.elim

/-- Something is told of a task only when it has a turn. -/
theorem BodyMove.told_eq_or_turn (h : BodyMove m n) (hm : InOrder m) (b : BodyId) :
    told b n.state.history = told b m.state.history ∨ ∃ stage, (b, stage) ∈ m.turns := by
  -- what a move tells is about one body: another body keeps its story, this one has a turn
  cases h with
  | @act u s a c i onGpu hmay htaken =>
    by_cases hcb : c = b
    · subst hcb
      have hagrees := hm.consistent.work a List.mem_cons_self
      exact .inr ⟨_, mem_turns_head (hagrees.turns hmay) (State.isOpen_of_untaken _ htaken)⟩
    · exact .inl (told_record_of_ne (if_neg hcb))
  | actEnd a c i onGpu ok hmay =>
    by_cases hcb : c = b
    · subst hcb
      exact .inr ⟨_, mem_turns_head (Activity.turns_acting a c i _) rfl⟩
    · exact .inl (told_record_of_ne (if_neg hcb))
  | fail e htaken =>
    by_cases hcb : e.body = b
    · subst hcb
      exact .inr ⟨_, mem_turns_head (Activity.turns_of_held_eq_nil rfl)
        (State.isOpen_of_untaken _ htaken)⟩
    · exact .inl (told_record_of_ne (if_neg hcb))
  | failEnd e =>
    by_cases hcb : e.body = b
    · subst hcb
      exact .inr ⟨_, mem_turns_head (Activity.turns_of_held_eq_nil rfl) rfl⟩
    · exact .inl (told_record_of_ne (if_neg hcb))
  | free a c asset hmay =>
    by_cases hcb : c = b
    · subst hcb
      obtain ⟨stage, -, hturn⟩ := hm.exists_rest hmay
      exact .inr ⟨stage, hturn⟩
    · exact .inl (told_record_of_ne (if_neg hcb))
  | freeEnd a c hmay =>
    by_cases hcb : c = b
    · subst hcb
      exact .inr ⟨_, mem_turns_head (Activity.turns_of_held_eq_nil rfl) rfl⟩
    · exact .inl (told_record_of_ne (if_neg hcb))
  | _ => exact .inl rfl

/-- Nothing is told of a task that has no turn. -/
theorem Move.told_eq (h : Move m n) (hm : InOrder m) (hb : ∀ stage, (b, stage) ∉ m.turns) :
    told b n.state.history = told b m.state.history := by
  rcases h.work_or_same with (hbody | hjob | htask) | hsame
  · rcases hbody.told_eq_or_turn hm b with heq | ⟨stage, hturn⟩
    · exact heq
    · exact absurd hturn (hb stage)
  · exact hjob.records.told_eq (by decide) b
  · exact htask.records.told_eq (by decide) b
  · exact hsame.told b

end Telling

/-! ### Tasks that are over -/

/-- The data of a task may be freed here, in the end or before its time. -/
def Rest.Closes (s : State) (b : BodyId) : Bool → Rest → Prop
  | true, r => r.IsLast (s.body b).outline
  | false, r => r.IsCut s b

/-- The data of a task was freed, and its callbacks have returned. -/
structure State.Over (s : State) (b : BodyId) (inTheEnd : Bool) : Prop where
  known : b < s.bodies.size
  taken : (s.body b).taken = true
  told : ∃ r : Rest, r.Of (s.body b).outline ∧ r.Closes s b inTheEnd ∧
    told b s.history = r.trace ++ (s.body b).outline.freeing

section Over

variable {m n : Moment} {s t : State} {b : BodyId} {inTheEnd : Bool}

theorem Rest.Closes.extends {r : Rest} (h : r.Closes s b inTheEnd) (hb : b < s.bodies.size)
    (hst : s.Extends t) : r.Closes t b inTheEnd := by
  cases inTheEnd with
  | true =>
    unfold Rest.Closes
    rw [(hst.body b hb).2.outline]
    exact h
  | false => exact Rest.IsCut.extends h hst

/-- The story of a task that is over ends with a return. -/
theorem State.Over.isReturn {beat : Beat} (h : s.Over b inTheEnd)
    (hlast : (AssetLoading.told b s.history).getLast? = some beat) : beat.isReturn = true := by
  obtain ⟨r, -, -, htold⟩ := h.told
  rw [htold] at hlast
  unfold Outline.freeing at hlast
  split at hlast
  next =>
    rw [List.getLast?_append] at hlast
    obtain rfl : Beat.returns = beat := Option.some.inj hlast
    rfl
  next =>
    rw [List.append_nil] at hlast
    exact Rest.isReturn_of_trace hlast

/-- A busy stage shows in what was told last. -/
theorem State.Fits.last {stage : Stage} (h : s.Fits b stage) (hbusy : stage.isBusy = true) :
    ∃ beat, (told b s.history).getLast? = some beat ∧ beat.isReturn = false := by
  obtain ⟨p, -, htrace, hallows⟩ := h.phase
  have hp : p.IsBusy := by
    cases stage with
    | acting => rw [show p = _ from hallows]; trivial
    | failing => rw [show p = _ from hallows]; trivial
    | freeing inTheEnd =>
      cases inTheEnd <;> (obtain ⟨r, rfl, -⟩ := hallows; trivial)
    | rest => cases hbusy
    | closing => cases hbusy
  rw [htrace]
  exact hp.last

/-- A task that is over has no turn. -/
theorem State.Over.notMem_turns (h : m.state.Over b inTheEnd) (hm : InOrder m) (stage : Stage) :
    (b, stage) ∉ m.turns := by
  intro hmem
  have hopen := (Multiset.mem_filter.1 hmem).2
  unfold State.isOpen at hopen
  rw [h.taken] at hopen
  have hbusy : stage.isBusy = true := (Bool.or_false _).symm.trans hopen
  obtain ⟨beat, hlast, hopened⟩ := (hm.inTurn.fits _ hmem).last hbusy
  rw [h.isReturn hlast] at hopened
  cases hopened

/-- A task that is over stays as it is. -/
theorem State.Over.move (h : m.state.Over b inTheEnd) (hm : InOrder m) (hmove : Move m n) :
    n.state.Over b inTheEnd := by
  obtain ⟨r, hr, hcloses, htold⟩ := h.told
  have hext := hmove.extends
  have hgrown := hext.body b h.known
  refine ⟨hgrown.1, hgrown.2.taken h.taken, r, ?_, hcloses.extends h.known hext, ?_⟩
  · rw [hgrown.2.outline]
    exact hr
  · rw [hmove.told_eq hm (h.notMem_turns hm), hgrown.2.outline]
    exact htold

/-- The hook that frees the data returns. -/
theorem InOrder.over_freeEnd {a : Activity} {u : List Activity} {data : List Int}
    (h : InOrder ⟨.freeing a b :: u, s⟩) (htaken : (s.body b).taken = true)
    (hext : s.Extends (s.record (.hookEnded b data))) :
    (s.record (.hookEnded b data)).Over b a.isEnding := by
  have hturn : (b, .freeing a.isEnding) ∈ (⟨.freeing a b :: u, s⟩ : Moment).turns :=
    mem_turns_head (Activity.turns_of_held_eq_nil rfl) rfl
  have hfits : s.Fits b (.freeing a.isEnding) := h.inTurn.fits _ hturn
  obtain ⟨p, hp, htrace, hallows⟩ := hfits.phase
  have htold : told b (s.record (.hookEnded b data)).history = told b s.history ++ [.returns] :=
    told_record_of_eq (if_pos rfl)
  have hphase : ∃ r, p = .freeing r ∧ r.Closes s b a.isEnding := by
    cases hending : a.isEnding <;> (rw [hending] at hallows; exact hallows)
  obtain ⟨r, rfl, hcloses⟩ := hphase
  refine ⟨hfits.known, htaken, r, hp.1, hcloses.extends hfits.known hext, ?_⟩
  have hfreeing : (s.body b).outline.freeing = [.frees, .returns] := if_pos hp.2
  show told b (s.record (.hookEnded b data)).history = r.trace ++ (s.body b).outline.freeing
  rw [htold, htrace, hfreeing, Phase.trace, List.append_assoc]
  rfl

/-- The body is taken away and there is no hook to run. -/
theorem InOrder.over_freeSkip {a : Activity} {u : List Activity} (h : InOrder ⟨a :: u, s⟩)
    (hmay : a.MayFree b) (hgone : (s.body b).taken = true ∨ (s.body b).onFree = none) :
    (s.bodyTaken b).Over b a.isEnding := by
  have huntaken := h.untaken hmay
  have hknown := State.lt_size_of_untaken huntaken
  have hext := InTurn.bodyTaken_extends s b
  -- no code is left to free the data with, so freeing adds nothing to the story
  have hfreeing : (s.body b).outline.freeing = [] := by
    rcases hgone with htaken | hnone
    · rw [huntaken] at htaken
      cases htaken
    · simp [Outline.freeing, TaskBody.outline, hnone]
  have hopen (stage : Stage) := State.isOpen_of_untaken stage huntaken
  -- where the task stands, by who drops its body: it ended, never started, or was cut short
  have hrest : ∃ r : Rest, r.Of (s.body b).outline ∧ r.Closes s b a.isEnding ∧
      told b s.history = r.trace := by
    cases a with
    | ending e =>
      obtain rfl : e.body = b := hmay
      have hfits := h.inTurn.fits _ (mem_turns_head (x := (e.body, .closing))
        (Activity.turns_of_held_eq_nil rfl) (hopen _))
      obtain ⟨p, hp, htrace, r, rfl, hlast⟩ := hfits.phase
      exact ⟨r, hp, hlast, htrace⟩
    | planned t =>
      obtain rfl : t.body = b := hmay
      have hfits := h.inTurn.fits _ (mem_turns_head (x := (t.body, .rest (.ready 0)))
        (Activity.turns_of_held_eq_nil rfl) (hopen _))
      obtain ⟨p, hp, htrace, rfl⟩ := hfits.phase
      exact ⟨.ready 0, hp, trivial, htrace⟩
    | discarding e =>
      obtain rfl : e.body = b := hmay
      obtain ⟨r, hr, hcut⟩ := InTurn.exists_rest h.consistent h.inFlight h.alone
      have hfits := h.inTurn.fits (e.body, .rest r) (Multiset.mem_filter.2 ⟨hr, hopen _⟩)
      obtain ⟨p, hp, htrace, rfl⟩ := hfits.phase
      exact ⟨r, hp, hcut, htrace⟩
    | _ => exact hmay.elim
  obtain ⟨r, hr, hcloses, htold⟩ := hrest
  -- taking the body changes neither what it is made of nor what was told of it
  have hgrown := hext.body b hknown
  refine ⟨hgrown.1, InTurn.taken_bodyTaken s hknown, r, ?_, hcloses.extends hknown hext, ?_⟩
  · rw [hgrown.2.outline]
    exact hr
  · rw [hgrown.2.outline, hfreeing, List.append_nil]
    exact htold

end Over

/-! ### Every end -/

/-- What is known of a body once it was taken away on behalf of an activity. -/
def Activity.Settled (s : State) : Activity → Prop
  | freeing _ b => (s.body b).taken = true
  | ended e => s.Over e.body true
  | discarded e => s.Over e.body false
  | _ => True

/-- A task with this number was accepted and is over. -/
def State.IsOver (s : State) (id : Nat) (inTheEnd : Bool) : Prop :=
  ∃ b asset data, .accepted id b asset data ∈ s.history ∧ s.Over b inTheEnd

/-- Tasks are over once they are recorded as completed or discarded. -/
structure Endings (m : Moment) : Prop where
  work : ∀ a ∈ m.underWay, a.Settled m.state
  completed : ∀ id, .completed id ∈ m.state.history → m.state.IsOver id true
  discarded : ∀ id, .discarded id ∈ m.state.history → m.state.IsOver id false

namespace Endings

variable {m n : Moment}

theorem start (p : Session) : Endings ⟨[], p.start⟩ := by
  have hnone (id : Nat) : .completed id ∉ p.start.history ∧ .discarded id ∉ p.start.history := by
    unfold Session.start
    dsimp only
    split <;> simp [State.record]
  constructor
  · exact fun a ha => absurd ha List.not_mem_nil
  · exact fun id hid => absurd hid (hnone id).1
  · exact fun id hid => absurd hid (hnone id).2

theorem settled_move {a : Activity} (h : a.Settled m.state) (hagrees : a.Agrees m.state)
    (hm : InOrder m) (hmove : Move m n) : a.Settled n.state := by
  cases a with
  | freeing a b =>
    exact (hmove.extends.body b (hagrees.1.lt_of_mayFree hagrees.2)).2.taken h
  | ended e => exact State.Over.move h hm hmove
  | discarded e => exact State.Over.move h hm hmove
  | _ => trivial

/-- New activities and new events have to tell of tasks that are over. -/
theorem step (h : Endings m) (hm : InOrder m) (hmove : Move m n)
    (hwork : ∀ a ∈ n.underWay, a ∈ m.underWay ∨ a.Settled n.state)
    (hcompleted : ∀ id, .completed id ∈ n.state.history →
      .completed id ∈ m.state.history ∨ n.state.IsOver id true)
    (hdiscarded : ∀ id, .discarded id ∈ n.state.history →
      .discarded id ∈ m.state.history ∨ n.state.IsOver id false) : Endings n where
  work a ha := by
    rcases hwork a ha with hold | hnew
    · exact settled_move (h.work a hold) (hm.consistent.work a hold) hm hmove
    · exact hnew
  completed id hid := by
    rcases hcompleted id hid with hold | hnew
    · obtain ⟨b, asset, data, haccepted, hover⟩ := h.completed id hold
      exact ⟨b, asset, data, hmove.extends.mem haccepted, hover.move hm hmove⟩
    · exact hnew
  discarded id hid := by
    rcases hdiscarded id hid with hold | hnew
    · obtain ⟨b, asset, data, haccepted, hover⟩ := h.discarded id hold
      exact ⟨b, asset, data, hmove.extends.mem haccepted, hover.move hm hmove⟩
    · exact hnew

/-- No task is recorded as completed or discarded. -/
theorem work_step {subject : Subject} (h : Endings m) (hm : InOrder m) (hmove : Move m n)
    (hrecords : Records subject m n) (hsubject : subject ≠ .task)
    (hwork : ∀ a ∈ n.underWay, a ∈ m.underWay ∨ a.Settled n.state) : Endings n :=
  h.step hm hmove hwork
    (fun _ hid => .inl (hrecords.mem_of_subject_ne hid fun heq => hsubject heq.symm))
    (fun _ hid => .inl (hrecords.mem_of_subject_ne hid fun heq => hsubject heq.symm))

/-- An activity has turned into another one. -/
theorem turn {a c : Activity} {u : List Activity} {s t : State} (h : Endings ⟨a :: u, s⟩)
    (hm : InOrder ⟨a :: u, s⟩) (hmove : BodyMove ⟨a :: u, s⟩ ⟨c :: u, t⟩) (hc : c.Settled t) :
    Endings ⟨c :: u, t⟩ := by
  refine h.work_step hm (.body hmove) hmove.records (by decide) fun d hd => ?_
  rcases List.mem_cons.1 hd with rfl | hu
  · exact .inr hc
  · exact .inl (List.mem_cons_of_mem _ hu)

theorem bodyMove (h : Endings m) (hm : InOrder m) (hmove : BodyMove m n) : Endings n := by
  have hturn := hmove
  -- only freeing the data ends the story of a body; the other moves leave the endings as they are
  cases hmove with
  | plan t =>
    refine h.work_step hm (.body hturn) hturn.records (by decide) fun d hd => ?_
    rcases List.mem_cons.1 hd with rfl | hu
    · exact .inr trivial
    · exact .inl hu
  | forget =>
    exact h.work_step hm (.body hturn) hturn.records (by decide) fun d hd =>
      .inl (List.mem_cons_of_mem _ hd)
  | estimate => exact h.work_step hm (.body hturn) hturn.records (by decide) fun d hd => .inl hd
  | write => exact h.work_step hm (.body hturn) hturn.records (by decide) fun d hd => .inl hd
  | act => exact h.turn hm hturn trivial
  | actEnd a b i onGpu ok hmay =>
    exact h.turn hm hturn (by cases a <;> first | exact hmay.elim | trivial)
  | actSkip a b i onGpu hmay =>
    exact h.turn hm hturn (by cases a <;> first | exact hmay.elim | trivial)
  | fail => exact h.turn hm hturn trivial
  | failEnd => exact h.turn hm hturn trivial
  | failSkip => exact h.turn hm hturn trivial
  | @free u s a b asset hmay htaken =>
    exact h.turn hm hturn (InTurn.taken_bodyTaken s (State.lt_size_of_untaken htaken))
  | freeEnd a b hmay =>
    have hover := hm.over_freeEnd (h.work (.freeing a b) List.mem_cons_self) hturn.extends
    refine h.turn hm hturn ?_
    cases a with
    | ending e => exact hmay ▸ hover
    | discarding e => exact hmay ▸ hover
    | planned t => trivial
    | _ => exact hmay.elim
  | freeSkip a b hmay hgone =>
    have hover := hm.over_freeSkip hmay hgone
    refine h.turn hm hturn ?_
    cases a with
    | ending e => exact hmay ▸ hover
    | discarding e => exact hmay ▸ hover
    | planned t => trivial
    | _ => exact hmay.elim

theorem jobMove (h : Endings m) (hm : InOrder m) (hmove : JobMove m n) : Endings n := by
  refine h.work_step hm (.job hmove) hmove.records (by decide) fun a ha => ?_
  cases hmove with
  | start j hpick => cases hpick <;> grind [Activity.Settled]
  | skip j hpick => cases hpick <;> grind [Activity.Settled]
  | _ => grind [Activity.Settled]

theorem taskMove (h : Endings m) (hm : InOrder m) (hmove : TaskMove m n) : Endings n := by
  have hkept := hmove
  have hover {a : Activity} (ha : a ∈ m.underWay) : a.Settled n.state :=
    settled_move (h.work a ha) (hm.consistent.work a ha) hm (.task hmove)
  cases hmove with
  | @complete u s e =>
    refine h.step hm (.task hkept) (by grind [Activity.Settled]) (fun id hid => ?_)
      fun id hid => .inl (by simpa [State.record, State.withQueue] using hid)
    rcases List.mem_cons.1 hid with heq | hold
    · obtain rfl : id = e.id := by injection heq
      obtain ⟨data, haccepted⟩ := (hm.consistent.work (.ended e) List.mem_cons_self).accepted
      exact .inr ⟨_, _, data, List.mem_cons_of_mem _ haccepted, hover List.mem_cons_self⟩
    · exact .inl hold
  | @discard u s e =>
    refine h.step hm (.task hkept) (by grind [Activity.Settled])
      (fun id hid => .inl (by simpa [State.record] using hid)) fun id hid => ?_
    rcases List.mem_cons.1 hid with heq | hold
    · obtain rfl : id = e.id := by injection heq
      obtain ⟨data, haccepted⟩ := (hm.consistent.work (.discarded e) List.mem_cons_self).accepted
      exact .inr ⟨_, _, data, List.mem_cons_of_mem _ haccepted, hover List.mem_cons_self⟩
    · exact .inl hold
  | _ =>
    refine h.step hm (.task hkept) (by grind [Activity.Settled]) (fun id hid => .inl ?_)
      fun id hid => .inl ?_
    all_goals simpa [State.record, State.withQueue, State.withJobs, State.withClient] using hid

theorem move (h : Endings m) (hm : InOrder m) (hmove : Move m n) : Endings n := by
  rcases hmove.work_or_same with (hbody | hjob | htask) | hsame
  · exact h.bodyMove hm hbody
  · exact h.jobMove hm hjob
  · exact h.taskMove hm htask
  · obtain ⟨subject, -, hsubject, hrecords⟩ := hsame.records
    refine h.work_step hm hmove hrecords hsubject fun a ha => ?_
    cases hwork : a.ofTasks with
    | true => exact .inl ((hsame.mem_work hwork).1 ha)
    | false => right; cases a <;> trivial

end Endings

end AssetLoading
