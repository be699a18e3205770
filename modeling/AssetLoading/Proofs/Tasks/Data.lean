import AssetLoading.Proofs.Tasks.Acceptance

/-! # The data that callbacks hand on

  The data of a task changes only while a callback of that task runs. So each
  callback gets it as the one before it left it, and the first one as it was when
  the task was accepted.
-/

namespace AssetLoading

/-- The data that a callback of a task gets. -/
def Event.received (b : BodyId) : Event → Option (List Int)
  | acted c _ _ _ data | failed c _ _ data | freed c _ _ data => if c = b then some data else none
  | _ => none

/-- The data that a callback of a task leaves, or that the task begins with. -/
def Event.left (b : BodyId) : Event → Option (List Int)
  | accepted _ c _ data | actionEnded c _ _ data | hookEnded c data =>
    if c = b then some data else none
  | _ => none

/-- The data that the last callback of a task has left. -/
def leftData (b : BodyId) (history : List Event) : Option (List Int) :=
  history.findSome? (Event.left b)

section Reading

variable {b : BodyId} {e : Event}

theorem leftData_cons_of_some {data : List Int} (he : e.left b = some data) (history : List Event) :
    leftData b (e :: history) = some data := by
  simp [leftData, he]

theorem leftData_cons_of_none (he : e.left b = none) (history : List Event) :
    leftData b (e :: history) = leftData b history := by
  simp [leftData, he]

theorem leftData_append {new : List Event} (hnew : ∀ e ∈ new, e.left b = none)
    (history : List Event) : leftData b (new ++ history) = leftData b history := by
  induction new with
  | nil => rfl
  | cons e new ih =>
    rw [List.cons_append, leftData_cons_of_none (hnew e List.mem_cons_self)]
    exact ih fun d hd => hnew d (List.mem_cons_of_mem e hd)

/-- What a callback gets is told of its task. -/
theorem Event.beat?_isSome_of_received {data : List Int} (he : e.received b = some data) :
    (e.beat? b).isSome := by
  cases e <;> simp_all [Event.received, Event.beat?]

/-- Nothing is received as long as nothing is told. -/
theorem received_of_told_eq_nil {history : List Event} (htold : told b history = []) :
    ∀ e ∈ history, e.received b = none := by
  intro e he
  cases hreceived : e.received b with
  | none => rfl
  | some data =>
    have hbeat := Event.beat?_isSome_of_received hreceived
    obtain ⟨beat, hbeat⟩ := Option.isSome_iff_exists.1 hbeat
    have hmem : beat ∈ told b history :=
      List.mem_reverse.2 (List.mem_filterMap.2 ⟨e, he, hbeat⟩)
    rw [htold] at hmem
    cases hmem

end Reading

/-! ### Whose code runs -/

/-- Whoever runs a callback of a task has the turn of the task. -/
theorem Activity.Runs.exists_turn {a : Activity} {b : BodyId} (h : a.Runs b) :
    ∃ stage : Stage, stage.isBusy = true ∧ (b, stage) ∈ a.turn := by
  cases a with
  | acting a c i => obtain rfl : c = b := h; exact ⟨_, rfl, List.mem_cons_self⟩
  | failing e => obtain rfl : e.body = b := h; exact ⟨_, rfl, List.mem_cons_self⟩
  | freeing a c => obtain rfl : c = b := h; exact ⟨_, rfl, List.mem_cons_self⟩
  | _ => exact h.elim

/-- While a task has a turn in which none of its code runs, no code of it runs
anywhere. -/
theorem InOrder.not_runs {m : Moment} {b : BodyId} {stage : Stage} (hm : InOrder m)
    (hturn : (b, stage) ∈ m.turns) (hidle : stage.isBusy = false) :
    ∀ a ∈ m.underWay, ¬ a.Runs b := by
  intro a ha hruns
  obtain ⟨busy, hbusy, hmem⟩ := hruns.exists_turn
  have hsame : (b, stage) = (b, busy) :=
    hm.inTurn.eq_of_mem hturn (mem_turns_of_isBusy ha hmem hbusy) rfl
  obtain rfl : stage = busy := congrArg Prod.snd hsame
  rw [hidle] at hbusy
  cases hbusy

theorem Activity.Runs.ofTasks {a : Activity} {b : BodyId} (h : a.Runs b) : a.ofTasks = true := by
  cases a <;> first | rfl | exact h.elim

theorem Activity.MayAct.not_runs {a : Activity} {b : BodyId} {i : Nat} {onGpu : Bool}
    (h : a.MayAct b i onGpu) (ok : Bool) (c : BodyId) : ¬ a.Runs c ∧ ¬ (a.concluded ok).Runs c := by
  cases a <;> first | exact h.elim | exact ⟨id, id⟩

theorem Activity.MayFree.not_runs {a : Activity} {b : BodyId} (h : a.MayFree b) (c : BodyId) :
    ¬ a.Runs c ∧ ¬ a.freed.Runs c := by
  cases a <;> first | exact h.elim | exact ⟨id, id⟩

/-! ### Handing on -/

/-- Every callback of an accepted task got what the one before had left, and between
two callbacks that is what the data is. -/
structure HandedOn (m : Moment) (b : BodyId) : Prop where
  received : ∀ e past data, e :: past <:+ m.state.history → e.received b = some data →
    leftData b past = some data
  current : (∀ a ∈ m.underWay, ¬ a.Runs b) →
    leftData b m.state.history = some (m.state.body b).data

namespace HandedOn

variable {m n : Moment} {b : BodyId}

/-- No callback of the task starts or ends. -/
theorem quiet (h : HandedOn m b) {new : List Event}
    (hhistory : n.state.history = new ++ m.state.history)
    (hnew : ∀ e ∈ new, e.received b = none ∧ e.left b = none)
    (hruns : (∀ a ∈ n.underWay, ¬ a.Runs b) → ∀ a ∈ m.underWay, ¬ a.Runs b)
    (hdata : (∀ a ∈ n.underWay, ¬ a.Runs b) → (n.state.body b).data = (m.state.body b).data) :
    HandedOn n b where
  received e past data hpast he := by
    rw [hhistory] at hpast
    refine h.received e past data (suffix_of_suffix_append hpast fun hmem => ?_) he
    rw [(hnew e hmem).1] at he
    cases he
  current hidle := by
    rw [hhistory, leftData_append fun e he => (hnew e he).2, hdata hidle]
    exact h.current (hruns hidle)

/-- Events that speak of neither bodies nor tasks leave the data alone. -/
theorem silent_of_subject {e : Event} (hbody : e.subject ≠ .body)
    (haccepted : ∀ id c asset data, e ≠ .accepted id c asset data) :
    e.received b = none ∧ e.left b = none := by
  cases e with
  | accepted id c asset data => exact absurd rfl (haccepted id c asset data)
  | acted => exact absurd rfl hbody
  | actionEnded => exact absurd rfl hbody
  | failed => exact absurd rfl hbody
  | freed => exact absurd rfl hbody
  | hookEnded => exact absurd rfl hbody
  | _ => exact ⟨rfl, rfl⟩

/-- A callback of the task starts, with the data as it is. -/
theorem begin {a c : Activity} {u : List Activity} {s t : State} {e : Event}
    (h : HandedOn ⟨a :: u, s⟩ b) (hidle : ∀ d ∈ a :: u, ¬ d.Runs b) (hruns : c.Runs b)
    (hhistory : t.history = e :: s.history) (he : e.received b = some (s.body b).data) :
    HandedOn ⟨c :: u, t⟩ b where
  received d past data hpast hd := by
    replace hpast : d :: past <:+ e :: s.history := hhistory ▸ hpast
    rcases List.suffix_cons_iff.1 hpast with heq | hold
    · obtain ⟨rfl, rfl⟩ := List.cons.inj heq
      rw [he] at hd
      rw [← hd]
      exact h.current hidle
    · exact h.received d past data hold hd
  current hnone := absurd hruns (hnone c List.mem_cons_self)

/-- A callback of the task returns. -/
theorem finish {a c : Activity} {u : List Activity} {s t : State} {e : Event}
    (h : HandedOn ⟨a :: u, s⟩ b) (hhistory : t.history = e :: s.history)
    (hnone : e.received b = none) (he : e.left b = some (t.body b).data) :
    HandedOn ⟨c :: u, t⟩ b where
  received d past data hpast hd := by
    replace hpast : d :: past <:+ e :: s.history := hhistory ▸ hpast
    rcases List.suffix_cons_iff.1 hpast with heq | hold
    · obtain ⟨rfl, rfl⟩ := List.cons.inj heq
      rw [hnone] at hd
      cases hd
    · exact h.received d past data hold hd
  current _ := by
    show leftData b t.history = _
    rw [hhistory]
    exact leftData_cons_of_some he _

/-- A callback of another task starts or returns. -/
theorem other {a c : Activity} {u : List Activity} {s t : State} {e : Event}
    (h : HandedOn ⟨a :: u, s⟩ b) (hhistory : t.history = e :: s.history)
    (he : e.received b = none ∧ e.left b = none) (ha : ¬ a.Runs b)
    (hdata : (t.body b).data = (s.body b).data) : HandedOn ⟨c :: u, t⟩ b := by
  have hone : (⟨c :: u, t⟩ : Moment).state.history = [e] ++ (⟨a :: u, s⟩ : Moment).state.history :=
    hhistory
  refine h.quiet hone ?_ ?_ fun _ => hdata
  · intro d hd
    rw [List.mem_singleton.1 hd]
    exact he
  · intro hidle d hd
    rcases List.mem_cons.1 hd with rfl | hu
    · exact ha
    · exact hidle d (List.mem_cons_of_mem _ hu)

/-- Nothing is recorded, and what runs runs no code of the task. -/
theorem silent {u v : List Activity} {s t : State} (h : HandedOn ⟨u, s⟩ b)
    (hhistory : t.history = s.history)
    (hruns : (∀ a ∈ v, ¬ a.Runs b) → ∀ a ∈ u, ¬ a.Runs b)
    (hdata : (∀ a ∈ v, ¬ a.Runs b) → (t.body b).data = (s.body b).data) : HandedOn ⟨v, t⟩ b := by
  have hnone : (⟨v, t⟩ : Moment).state.history = [] ++ (⟨u, s⟩ : Moment).state.history := hhistory
  exact h.quiet hnone (fun e he => absurd he List.not_mem_nil) hruns hdata

theorem bodyMove (h : HandedOn m b) (hm : InOrder m) (hb : b < m.state.bodies.size)
    (hmove : BodyMove m n) : HandedOn n b := by
  have htaken (s : State) (c : BodyId) : ((s.bodyTaken c).body b).data = (s.body b).data := by
    rw [State.bodyTaken, State.body_modifyBody]
    split <;> rfl
  cases hmove with
  | @plan u s t body hbody =>
    refine h.silent rfl (by grind) fun _ => ?_
    rw [State.body_push, if_neg (Nat.ne_of_lt hb)]
  | forget t => exact h.silent rfl (by grind [Activity.Runs]) fun _ => rfl
  | @estimate u s c f hf =>
    refine h.silent rfl (by grind) fun _ => ?_
    rw [State.body_modifyBody]
    split
    next => obtain ⟨noted, reported, hbody⟩ := hf (s.body b); rw [hbody]
    next => rfl
  | @write u s c f hruns hf =>
    refine h.silent rfl (by grind) fun hidle => ?_
    obtain ⟨a, ha, hc⟩ := hruns
    -- while no code of the task runs, nobody writes its data
    have hne : c ≠ b := fun heq => hidle a ha (heq ▸ hc)
    rw [State.body_modifyBody, if_neg fun heq => hne heq.1]
  | @act u s a c i onGpu hmay hopen =>
    by_cases hcb : c = b
    · subst hcb
      have hagrees := hm.consistent.work a List.mem_cons_self
      -- it is the turn of this action, so no other code of the task runs
      have hturn := mem_turns_head (u := u) (hagrees.turns hmay) (State.isOpen_of_untaken _ hopen)
      exact h.begin (hm.not_runs hturn rfl) rfl rfl (if_pos rfl)
    · exact h.other rfl ⟨if_neg hcb, rfl⟩ (hmay.not_runs true b).1 rfl
  | @actEnd u s a c i onGpu ok hmay =>
    by_cases hcb : c = b
    · subst hcb
      exact h.finish rfl rfl (if_pos rfl)
    · exact h.other rfl ⟨rfl, if_neg hcb⟩ hcb rfl
  | actSkip a c i onGpu hmay =>
    exact h.silent rfl (by grind [hmay.not_runs false b]) fun _ => rfl
  | @fail u s e hopen =>
    by_cases hcb : e.body = b
    · subst hcb
      have hturn := mem_turns_head (a := .concluding e false) (u := u)
        (Activity.turns_of_held_eq_nil rfl) (State.isOpen_of_untaken (b := e.body) _ hopen)
      exact h.begin (hm.not_runs hturn rfl) rfl rfl (if_pos rfl)
    · exact h.other rfl ⟨if_neg hcb, rfl⟩ id rfl
  | @failEnd u s e =>
    by_cases hcb : e.body = b
    · subst hcb
      exact h.finish rfl rfl (if_pos rfl)
    · exact h.other rfl ⟨rfl, if_neg hcb⟩ hcb rfl
  | failSkip e => exact h.silent rfl (by grind [Activity.Runs]) fun _ => rfl
  | @free u s a c asset hmay hopen =>
    by_cases hcb : c = b
    · subst hcb
      -- the hook that frees the data comes last, when no other code of the task is left
      obtain ⟨stage, hidle, hturn⟩ := hm.exists_rest hmay
      exact h.begin (hm.not_runs hturn hidle) rfl rfl (if_pos rfl)
    · exact h.other rfl ⟨if_neg hcb, rfl⟩ (hmay.not_runs b).1 (htaken s c)
  | @freeEnd u s a c hmay =>
    by_cases hcb : c = b
    · subst hcb
      exact h.finish rfl rfl (if_pos rfl)
    · exact h.other rfl ⟨rfl, if_neg hcb⟩ hcb rfl
  | @freeSkip u s a c hmay =>
    exact h.silent rfl (by grind [hmay.not_runs b]) fun _ => htaken s c

/-- Jobs and the task queue leave the data alone. -/
theorem jobMove (h : HandedOn m b) (hmove : JobMove m n) : HandedOn n b := by
  obtain ⟨new, hnew, hhistory⟩ := hmove.records
  refine h.quiet hhistory (fun e he => ?_) ?_ ?_
  · refine silent_of_subject (by rw [hnew e he]; decide) fun id c asset data heq => ?_
    have hsubject := hnew e he
    rw [heq] at hsubject
    cases hsubject
  · cases hmove with
    | start j hpick => cases hpick <;> grind [Activity.Runs]
    | skip j hpick => cases hpick <;> grind [Activity.Runs]
    | _ => grind [Activity.Runs]
  · cases hmove <;> exact fun _ => rfl

theorem taskMove (h : HandedOn m b) (hl : Enrolled m) (hmove : TaskMove m n)
    (hid : ∃ id, m.state.Accepts id b) : HandedOn n b := by
  have hquiet {e : Event} (hhistory : n.state.history = e :: m.state.history)
      (he : e.received b = none ∧ e.left b = none)
      (hruns : (∀ a ∈ n.underWay, ¬ a.Runs b) → ∀ a ∈ m.underWay, ¬ a.Runs b)
      (hdata : (n.state.body b).data = (m.state.body b).data) : HandedOn n b := by
    have hone : n.state.history = [e] ++ m.state.history := hhistory
    refine h.quiet hone (fun d hd => ?_) hruns fun _ => hdata
    rw [List.mem_singleton.1 hd]
    exact he
  cases hmove with
  | @accept u s t =>
    have hne : t.body ≠ b := by
      obtain ⟨id, hid⟩ := hid
      exact fun heq => hl.planned (.planned t) (by simp) t.body rfl id (heq ▸ hid)
    exact hquiet rfl ⟨rfl, if_neg hne⟩ (by grind [Activity.Runs]) rfl
  | step e onGpu => exact hquiet rfl ⟨rfl, rfl⟩ (by grind [Activity.Runs]) rfl
  | complete e => exact hquiet rfl ⟨rfl, rfl⟩ (by grind [Activity.Runs]) rfl
  | discard e => exact hquiet rfl ⟨rfl, rfl⟩ (by grind [Activity.Runs]) rfl
  | _ => exact h.silent rfl (by grind [Activity.Runs]) fun _ => rfl

/-- A task is accepted with the data that it has. -/
theorem accept {u : List Activity} {s t : State} {e : Event}
    (htold : told b s.history = []) (hhistory : t.history = e :: s.history)
    (hnone : e.received b = none) (he : e.left b = some (t.body b).data) : HandedOn ⟨u, t⟩ b where
  received d past data hpast hd := by
    replace hpast : d :: past <:+ e :: s.history := hhistory ▸ hpast
    have hmem := hpast.subset List.mem_cons_self
    rcases List.mem_cons.1 hmem with rfl | hold
    · rw [hnone] at hd
      cases hd
    · rw [received_of_told_eq_nil htold d hold] at hd
      cases hd
  current _ := by
    show leftData b t.history = _
    rw [hhistory]
    exact leftData_cons_of_some he _

end HandedOn

end AssetLoading
