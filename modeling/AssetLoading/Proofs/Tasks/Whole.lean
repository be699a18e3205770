import AssetLoading.Proofs.Tasks.Acceptance

/-! # Whole stories

  What was told of an accepted task is the beginning of a whole story, as long as the
  task is not discarded. Its data is freed only where nothing else is left to do.
-/

namespace AssetLoading

/-! ### Discarded tasks -/

/-- The number of the task whose data an activity frees before its time, or has freed. -/
def Activity.discarding? : Activity → Option Nat
  | discarded e | freeing (discarding e) _ => some e.id
  | _ => none

/-- A shutdown frees the data of a task before its time, or has done so. -/
def Moment.Discards (m : Moment) (id : Nat) : Prop :=
  .discarded id ∈ m.state.history ∨ ∃ a ∈ m.underWay, a.discarding? = some id

section Whole

variable {m n : Moment} {s : State} {b : BodyId} {id : Nat}

theorem Activity.ofTasks_of_discarding? {a : Activity} (h : a.discarding? = some id) :
    a.ofTasks = true := by
  cases a <;> first | rfl | cases h

theorem Activity.discarding?_freed (a : Activity) (b : BodyId) :
    (freeing a b).discarding? = some id → a.freed.discarding? = some id := by
  cases a <;> first | exact fun h => h | exact nofun

theorem Activity.MayAct.discarding? {a : Activity} {i : Nat} {onGpu : Bool}
    (h : a.MayAct b i onGpu) : a.discarding? = none := by
  cases a <;> first | rfl | exact h.elim

theorem Activity.MayFree.discarding? {a : Activity} (h : a.MayFree b) : a.discarding? = none := by
  cases a <;> first | rfl | exact h.elim

/-- Once a task is discarded, it is so for good. -/
theorem Moment.Discards.move (h : m.Discards id) (hmove : Move m n) : n.Discards id := by
  rcases h with hevent | hwork
  · exact .inl (hmove.extends.mem hevent)
  · -- an activity that turns into another one discards the same task
    have hturn {a c : Activity} {u : List Activity}
        (hc : a.discarding? = some id → c.discarding? = some id)
        (h : ∃ d ∈ a :: u, d.discarding? = some id) : ∃ d ∈ c :: u, d.discarding? = some id := by
      obtain ⟨d, hd, hid⟩ := h
      rcases List.mem_cons.1 hd with rfl | hu
      · exact ⟨c, List.mem_cons_self, hc hid⟩
      · exact ⟨d, List.mem_cons_of_mem _ hu, hid⟩
    rcases hmove.work_or_same with (hbody | hjob | htask) | hsame
    · right
      cases hbody with
      | act c d i onGpu hmay => exact hturn (by simp [hmay.discarding?]) hwork
      | actSkip c d i onGpu hmay => exact hturn (by simp [hmay.discarding?]) hwork
      | free c d asset hmay => exact hturn (by simp [hmay.discarding?]) hwork
      | freeEnd c d hmay => exact hturn (c.discarding?_freed d) hwork
      | freeSkip c d hmay => exact hturn (by simp [hmay.discarding?]) hwork
      | _ => grind [Activity.discarding?]
    · right
      cases hjob with
      | start j hpick => cases hpick <;> grind [Activity.discarding?]
      | skip j hpick => cases hpick <;> grind [Activity.discarding?]
      | _ => grind [Activity.discarding?]
    · cases htask with
      | discard e =>
        obtain ⟨a, ha, hid⟩ := hwork
        rcases List.mem_cons.1 ha with rfl | hu
        · obtain rfl : e.id = id := Option.some.inj hid
          exact .inl List.mem_cons_self
        · exact .inr ⟨a, List.mem_cons_of_mem _ hu, hid⟩
      | _ => right; grind [Activity.discarding?]
    · obtain ⟨a, ha, hid⟩ := hwork
      exact .inr ⟨a, (hsame.mem_work (Activity.ofTasks_of_discarding? hid)).2 ha, hid⟩

/-! ### Whole stories -/

/-- What was told of a task is the beginning of a story. -/
def State.IsWhole (s : State) (b : BodyId) : Prop :=
  ∃ p : Phase, p.Of (s.body b).outline ∧ told b s.history = p.trace ∧ p.IsWhole (s.body b).outline

theorem State.Fits.isWhole {stage : Stage} (h : s.Fits b stage) (hne : stage ≠ .freeing false) :
    s.IsWhole b := by
  obtain ⟨p, hp, htrace, hallows⟩ := h.phase
  refine ⟨p, hp, htrace, ?_⟩
  cases stage with
  | rest => rw [show p = _ from hallows]; trivial
  | acting => rw [show p = _ from hallows]; trivial
  | failing => rw [show p = _ from hallows]; trivial
  | closing => obtain ⟨r, rfl, -⟩ := hallows; trivial
  | freeing inTheEnd =>
    cases inTheEnd with
    | true => obtain ⟨r, rfl, hlast⟩ := hallows; exact hlast
    | false => exact absurd rfl hne

/-- After the end a story is whole. -/
theorem State.Over.isWhole (h : s.Over b true) : s.IsWhole b := by
  obtain ⟨r, hr, hlast, htold⟩ := h.told
  cases hfrees : (s.body b).outline.frees with
  | true =>
    refine ⟨.freed r, ⟨hr, hfrees⟩, ?_, hlast⟩
    rw [htold, Outline.freeing, if_pos hfrees]
    rfl
  | false =>
    refine ⟨.rest r, hr, ?_, trivial⟩
    rw [htold, Outline.freeing, if_neg (by simp [hfrees]), List.append_nil]
    rfl

/-- Whatever is told of a task belongs to its story, unless its data is freed before
its time. -/
theorem BodyMove.isWhole (h : BodyMove m n) (hm : InOrder m) (he : Endings m) (b : BodyId) :
    told b n.state.history = told b m.state.history ∨ n.state.IsWhole b ∨
      ∃ a, a.MayFree b ∧ a.isEnding = false ∧
        (.freeing a b ∈ m.underWay ∨ .freeing a b ∈ n.underWay) := by
  have hext := h.extends
  -- either another body is meant, or the phase after the move shows that the story is whole
  cases h with
  | @act u s a c i onGpu hmay htaken =>
    by_cases hcb : c = b
    · subst hcb
      have hagrees := hm.consistent.work a List.mem_cons_self
      have hfits := hm.inTurn.fits (c, .rest (.ready i))
        (mem_turns_head (hagrees.turns hmay) (State.isOpen_of_untaken _ htaken))
      exact .inr (.inl ((hfits.act (hagrees.lt_count hm.consistent.jobs hmay).2).isWhole nofun))
    · exact .inl (told_record_of_ne (if_neg hcb))
  | @actEnd u s a c i onGpu ok hmay =>
    by_cases hcb : c = b
    · subst hcb
      have hfits := hm.inTurn.fits (c, .acting i)
        (mem_turns_head (Activity.turns_acting a c i _) rfl)
      exact .inr (.inl (hfits.actEnd.isWhole nofun))
    · exact .inl (told_record_of_ne (if_neg hcb))
  | @fail u s e htaken hhook =>
    by_cases hcb : e.body = b
    · subst hcb
      have hfits := hm.inTurn.fits (e.body, .rest (.after e.cursor false))
        (mem_turns_head (Activity.turns_of_held_eq_nil rfl) (State.isOpen_of_untaken _ htaken))
      exact .inr (.inl ((hfits.fail hhook).isWhole nofun))
    · exact .inl (told_record_of_ne (if_neg hcb))
  | @failEnd u s e =>
    by_cases hcb : e.body = b
    · subst hcb
      have hfits := hm.inTurn.fits (e.body, .failing e.cursor)
        (mem_turns_head (Activity.turns_of_held_eq_nil rfl) rfl)
      exact .inr (.inl (hfits.failEnd.isWhole nofun))
    · exact .inl (told_record_of_ne (if_neg hcb))
  | @free u s a c asset hmay htaken hhook =>
    by_cases hcb : c = b
    · subst hcb
      right
      cases a with
      | ending e =>
        obtain rfl : e.body = c := hmay
        have hfits := hm.inTurn.fits (e.body, .closing)
          (mem_turns_head (Activity.turns_of_held_eq_nil rfl) (State.isOpen_of_untaken _ htaken))
        exact .inl ((hfits.freeInTheEnd hhook hext).isWhole nofun)
      | _ => exact .inr ⟨_, hmay, rfl, .inr List.mem_cons_self⟩
    · exact .inl (told_record_of_ne (if_neg hcb))
  | @freeEnd u s a c hmay =>
    by_cases hcb : c = b
    · subst hcb
      right
      -- only a body that is freed before its task has ended is left out
      have hover := hm.over_freeEnd (he.work (.freeing a c) List.mem_cons_self) hext
      cases hending : a.isEnding with
      | true =>
        rw [hending] at hover
        exact .inl hover.isWhole
      | false => exact .inr ⟨a, hmay, hending, .inl List.mem_cons_self⟩
    · exact .inl (told_record_of_ne (if_neg hcb))
  | _ => exact .inl rfl

end Whole

/-- The story of every accepted task is whole, unless it is discarded. -/
def Whole (m : Moment) : Prop :=
  ∀ id b, m.state.Accepts id b → ¬ m.Discards id → m.state.IsWhole b

namespace Whole

variable {m n : Moment} {b : BodyId}

theorem start (p : Session) : Whole ⟨[], p.start⟩ := by
  intro id b hid
  have hknown := (Enrolled.start p).numbered id b hid
  obtain ⟨asset, data, h⟩ := hid
  unfold Session.start at h
  dsimp only at h
  split at h <;> simp [State.record] at h

/-- Nothing is told of a task. -/
theorem carry (h : m.state.IsWhole b) (hb : b < m.state.bodies.size) (hmove : Move m n)
    (htold : told b n.state.history = told b m.state.history) : n.state.IsWhole b := by
  obtain ⟨p, hp, htrace, hwhole⟩ := h
  have houtline := (hmove.extends.body b hb).2.outline
  refine ⟨p, ?_, htold.trans htrace, ?_⟩
  · rw [houtline]
    exact hp
  · rw [houtline]
    exact hwhole

/-- Data that is freed before its time belongs to a discarded task, or to one that was
never accepted. -/
theorem discards_of_freeing {a : Activity} {id : Nat} (hm : InOrder m) (h : Enrolled m)
    (ha : .freeing a b ∈ m.underWay) (hmay : a.MayFree b) (hending : a.isEnding = false)
    (hid : m.state.Accepts id b) : m.Discards id := by
  have hagrees : a.Agrees m.state := (hm.consistent.work _ ha).1
  cases a with
  | ending e => cases hending
  | discarding e =>
    obtain rfl : e.body = b := hmay
    obtain ⟨data, haccepted⟩ := Entry.Agrees.accepted hagrees
    obtain rfl : e.id = id := (h.single _ _ _ _ ⟨_, data, haccepted⟩ hid).2 rfl
    exact .inr ⟨_, ha, rfl⟩
  | planned t => exact absurd hid (h.planned _ ha b hmay id)
  | _ => exact hmay.elim

/-- Nothing was told of a task that is about to be queued. -/
theorem fits_of_planned {u : List Activity} {s : State} {t : Task} {h : Handle}
    (hm : InOrder ⟨.holding .task h :: .planned t :: u, s⟩) : s.Fits t.body (.rest (.ready 0)) := by
  have huntaken : (s.body t.body).taken = false := by
    refine hm.owned.untaken _ ?_
    rw [owned_cons, owned_cons_of_bodies rfl]
    exact Multiset.mem_add.2 (.inr (Multiset.mem_cons_self _ _))
  refine hm.inTurn.fits (t.body, .rest (.ready 0)) (Multiset.mem_filter.2 ⟨?_, ?_⟩)
  · rw [allTurns_cons, allTurns_cons]
    exact Multiset.mem_add.2 (.inr (Multiset.mem_add.2 (.inl (Multiset.mem_singleton_self _))))
  · exact State.isOpen_of_untaken _ huntaken

theorem move (h : Whole m) (hm : InOrder m) (hn : InOrder n) (he : Endings m) (hl : Enrolled m)
    (hl' : Enrolled n) (hmove : Move m n) : Whole n := by
  intro id b hid hdiscards
  have hbefore : ¬ m.Discards id := fun hdiscarded => hdiscards (hdiscarded.move hmove)
  -- what nothing is told of stays whole
  have hold (haccepts : m.state.Accepts id b)
      (htold : told b n.state.history = told b m.state.history) : n.state.IsWhole b :=
    carry (h id b haccepts hbefore) (hl.known id b haccepts) hmove htold
  rcases hmove.work_or_same with (hbody | hjob | htask) | hsame
  · have haccepts := Enrolled.accepts_of_records hbody.records (by decide) id b hid
    rcases hbody.isWhole hm he b with htold | hwhole | ⟨a, hmay, hending, ha | ha⟩
    · exact hold haccepts htold
    · exact hwhole
    · exact absurd (discards_of_freeing hm hl ha hmay hending haccepts) hbefore
    · exact absurd (discards_of_freeing hn hl' ha hmay hending hid) hdiscards
  · exact hold (Enrolled.accepts_of_records hjob.records (by decide) id b hid)
      (hjob.records.told_eq (by decide) b)
  · have htold := htask.records.told_eq (by decide) b
    by_cases haccepts : m.state.Accepts id b
    · exact hold haccepts htold
    · cases htask with
      | @accept u s t =>
        obtain ⟨asset, data, hmem⟩ := hid
        rcases List.mem_cons.1 hmem with heq | hmem
        · obtain rfl : b = t.body := by cases heq; rfl
          have hfits := fits_of_planned hm
          exact carry (m := ⟨_, s⟩) (hfits.isWhole nofun) hfits.known hmove htold
        · exact absurd ⟨asset, data, hmem⟩ haccepts
      | _ =>
        obtain ⟨asset, data, hmem⟩ := hid
        refine absurd ⟨asset, data, ?_⟩ haccepts
        simpa [State.record, State.withQueue, State.withJobs, State.withClient] using hmem
  · obtain ⟨subject, -, hsubject, hrecords⟩ := hsame.records
    exact hold (Enrolled.accepts_of_records hrecords hsubject id b hid) (hsame.told b)

end Whole

end AssetLoading
