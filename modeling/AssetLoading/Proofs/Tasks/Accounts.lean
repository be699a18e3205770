import AssetLoading.Proofs.Tasks.Lifecycle

/-! # The accounts of tasks

  The history has one event for the acceptance of each task, and one for its end.
  In every run, whoever shuts the scheduler down and on whatever threads tasks are
  advanced, the accounts are in order: no number was accepted twice, a number that
  was accepted is unfinished or has come to its end, and the counters of the queue
  are the numbers of such events. The data of a task is handed over to be freed at
  most once, and before the end of the task; nothing of the task starts after that.
-/

namespace AssetLoading

/-! ### Acceptances and ends -/

/-- The numbers and bodies of the tasks that were accepted, the latest first. -/
def acceptances (history : List Event) : List (Nat × BodyId) :=
  history.filterMap Event.acceptance?

/-- The numbers of the tasks that came to their end, and whether they were completed
or else discarded, the latest first. -/
def endings (history : List Event) : List (Nat × Bool) :=
  history.filterMap Event.endOf?

section Events

variable {history new : List Event}

theorem Event.acceptance?_eq_none {e : Event} (he : e.subject ≠ .task) : e.acceptance? = none := by
  cases e <;> first | rfl | exact absurd rfl he

theorem Event.endOf?_eq_none {e : Event} (he : e.subject ≠ .task) : e.endOf? = none := by
  cases e <;> first | rfl | exact absurd rfl he

theorem acceptances_append (hnew : ∀ e ∈ new, e.subject ≠ .task) :
    acceptances (new ++ history) = acceptances history := by
  have hnone : new.filterMap Event.acceptance? = [] :=
    List.filterMap_eq_nil_iff.2 fun e he => Event.acceptance?_eq_none (hnew e he)
  rw [acceptances, List.filterMap_append, hnone]
  rfl

theorem endings_append (hnew : ∀ e ∈ new, e.subject ≠ .task) :
    endings (new ++ history) = endings history := by
  have hnone : new.filterMap Event.endOf? = [] :=
    List.filterMap_eq_nil_iff.2 fun e he => Event.endOf?_eq_none (hnew e he)
  rw [endings, List.filterMap_append, hnone]
  rfl

theorem mem_acceptances {s : State} {id : Nat} {b : BodyId} :
    (id, b) ∈ acceptances s.history ↔ s.Accepts id b :=
  State.accepts_iff.symm

/-- Only moves of the task queue accept or end tasks. -/
theorem Records.accounts {subject : Subject} {m n : Moment} (h : Records subject m n)
    (hne : subject ≠ .task) :
    acceptances n.state.history = acceptances m.state.history ∧
      endings n.state.history = endings m.state.history := by
  obtain ⟨new, hnew, hhistory⟩ := h
  have hsubject : ∀ e ∈ new, e.subject ≠ .task := fun e he => hnew e he ▸ hne
  rw [hhistory]
  exact ⟨acceptances_append hsubject, endings_append hsubject⟩

end Events

/-! ### Numbers -/

/-- The counters of the queue are those of the other moment. -/
structure Moment.SameCounts (m n : Moment) : Prop where
  total : n.state.queue.total = m.state.queue.total
  completed : n.state.queue.completed = m.state.queue.completed

/-- Numbers, unfinished tasks and counters agree with the history. -/
structure Counted (m : Moment) : Prop where
  /-- No number is given out twice. -/
  fresh : ((acceptances m.state.history).map Prod.fst).Nodup
  /-- A task that was accepted is unfinished, or it came to its end, and not both. -/
  places : ((acceptances m.state.history).map Prod.fst).Perm
    (m.unfinished.map Claimed.id ++ (endings m.state.history).map Prod.fst)
  total : m.state.queue.total = (acceptances m.state.history).length
  completed : m.state.queue.completed = (endings m.state.history).countP Prod.snd

section Counting

variable {m n : Moment}

/-- What a move of the task queue does to the acceptances. -/
theorem TaskMove.acceptances (h : TaskMove m n) :
    (acceptances n.state.history = acceptances m.state.history ∧
      n.state.queue.total = m.state.queue.total) ∨
    ∃ b, acceptances n.state.history = (m.state.queue.lastId + 1, b) :: acceptances m.state.history ∧
      n.state.queue.total = m.state.queue.total + 1 := by
  cases h with
  | accept t => exact .inr ⟨t.body, rfl, rfl⟩
  | acquire e queue hq =>
    obtain ⟨front, back, -, -, -, rfl⟩ := TaskQueue.acquire_eq_some hq
    exact .inl ⟨rfl, rfl⟩
  | _ => exact .inl ⟨rfl, rfl⟩

/-- What a move of the task queue does to the ends. -/
theorem TaskMove.endings (h : TaskMove m n) :
    (endings n.state.history = endings m.state.history ∧
      n.state.queue.completed = m.state.queue.completed) ∨
    ∃ id inTheEnd, endings n.state.history = (id, inTheEnd) :: endings m.state.history ∧
      n.state.queue.completed = m.state.queue.completed + if inTheEnd then 1 else 0 := by
  cases h with
  | complete e => exact .inr ⟨e.id, true, rfl, rfl⟩
  | discard e => exact .inr ⟨e.id, false, rfl, rfl⟩
  | acquire e queue hq =>
    obtain ⟨front, back, -, -, -, rfl⟩ := TaskQueue.acquire_eq_some hq
    exact .inl ⟨rfl, rfl⟩
  | _ => exact .inl ⟨rfl, rfl⟩

/-- A task that joins or leaves the unfinished ones is accounted for. -/
theorem TaskEffect.places (h : TaskEffect m n)
    (hm : ((acceptances m.state.history).map Prod.fst).Perm
      (m.unfinished.map Claimed.id ++ (endings m.state.history).map Prod.fst)) :
    ((acceptances n.state.history).map Prod.fst).Perm
      (n.unfinished.map Claimed.id ++ (endings n.state.history).map Prod.fst) := by
  -- a task that joins is accepted, one that leaves has ended, and nothing else is counted
  cases h with
  | kept hperm _ hhistory =>
    have hsame : acceptances n.state.history = acceptances m.state.history ∧
        endings n.state.history = endings m.state.history := by
      rcases hhistory with heq | ⟨id, onGpu, heq⟩
      · rw [heq]
        exact ⟨rfl, rfl⟩
      · rw [heq]
        exact ⟨rfl, rfl⟩
    rw [hsame.1, hsame.2]
    exact hm.trans ((hperm.map Claimed.id).symm.append_right _)
  | joined c body data hperm _ hhistory =>
    rw [hhistory]
    have hjoined := (hperm.map Claimed.id).symm.append_right
      ((AssetLoading.endings m.state.history).map Prod.fst)
    exact (hm.cons c.id).trans hjoined
  | left c e he hperm _ hhistory =>
    have hleft := (hperm.map Claimed.id).append_right
      ((AssetLoading.endings m.state.history).map Prod.fst)
    have hmoved := hm.trans (hleft.trans List.perm_middle.symm)
    rw [hhistory]
    rcases he with rfl | rfl
    · exact hmoved
    · exact hmoved

namespace Counted

theorem start (p : Session) : Counted ⟨[], p.start⟩ := by
  have hempty : acceptances p.start.history = [] ∧ endings p.start.history = [] ∧
      p.start.queue = {} := by
    unfold Session.start
    dsimp only
    split <;> exact ⟨rfl, rfl, rfl⟩
  obtain ⟨haccepted, hended, hqueue⟩ := hempty
  have hunfinished : (⟨[], p.start⟩ : Moment).unfinished = [] := by
    show p.start.queue.pending.map Entry.claim ++ p.start.queue.active ++ [] = []
    rw [hqueue]
    rfl
  constructor
  · show ((acceptances p.start.history).map Prod.fst).Nodup
    simp [haccepted]
  · show ((acceptances p.start.history).map Prod.fst).Perm
      (_ ++ (endings p.start.history).map Prod.fst)
    rw [haccepted, hended, hunfinished]
    exact .refl _
  · show p.start.queue.total = (acceptances p.start.history).length
    rw [haccepted, hqueue]
    rfl
  · show p.start.queue.completed = (endings p.start.history).countP Prod.snd
    rw [hended, hqueue]
    rfl

/-- No task joins or leaves the unfinished ones. -/
theorem same (h : Counted m) {subject : Subject} (hrecords : Records subject m n)
    (hne : subject ≠ .task) (hunfinished : n.unfinished = m.unfinished) (hcounts : m.SameCounts n) :
    Counted n := by
  obtain ⟨haccepted, hended⟩ := hrecords.accounts hne
  constructor
  · rw [haccepted]
    exact h.fresh
  · rw [haccepted, hended, hunfinished]
    exact h.places
  · rw [haccepted, hcounts.total]
    exact h.total
  · rw [hended, hcounts.completed]
    exact h.completed

theorem taskMove (h : Counted m) (hcustody : Custody m) (henrolled : Enrolled m)
    (hmove : TaskMove m n) : Counted n := by
  have hplaces := (hmove.effect hcustody).places h.places
  have hended : n.state.queue.completed = (endings n.state.history).countP Prod.snd := by
    rcases hmove.endings with ⟨hsame, hcompleted⟩ | ⟨id, inTheEnd, hnew, hcompleted⟩
    · rw [hsame, hcompleted]
      exact h.completed
    · rw [hnew, hcompleted, h.completed, List.countP_cons]
  rcases hmove.acceptances with ⟨hsame, htotal⟩ | ⟨b, hnew, htotal⟩
  · refine ⟨?_, hplaces, ?_, hended⟩
    · rw [hsame]
      exact h.fresh
    · rw [hsame, htotal]
      exact h.total
  · refine ⟨?_, hplaces, ?_, hended⟩
    · rw [hnew, List.map_cons, List.nodup_cons]
      refine ⟨fun hmem => ?_, h.fresh⟩
      obtain ⟨p, hp, hid⟩ := List.mem_map.1 hmem
      have hle := henrolled.numbered p.1 p.2 (mem_acceptances.1 hp)
      rw [hid] at hle
      exact Nat.not_succ_le_self _ hle
    · rw [hnew, htotal, h.total, List.length_cons]

theorem move (h : Counted m) (hcustody : Custody m) (henrolled : Enrolled m) (hmove : Move m n) :
    Counted n := by
  cases hmove with
  | asset hmove =>
    refine h.same hmove.records (by decide) hmove.unfinished_eq ?_
    cases hmove <;> exact ⟨rfl, rfl⟩
  | body hmove =>
    refine h.same hmove.records (by decide) hmove.unfinished_eq.1 ?_
    cases hmove <;> exact ⟨rfl, rfl⟩
  | job hmove =>
    refine h.same hmove.records (by decide) hmove.unfinished_eq.1 ?_
    cases hmove <;> exact ⟨rfl, rfl⟩
  | task hmove => exact h.taskMove hcustody henrolled hmove
  | notice hmove =>
    have hrecords : Records .other m n := .none hmove.history_eq
    refine h.same hrecords (by decide) hmove.unfinished_eq ?_
    cases hmove <;> exact ⟨rfl, rfl⟩
  | plain hmove =>
    refine h.same hmove.records (by decide) hmove.unfinished_eq.1 ?_
    cases hmove <;> exact ⟨rfl, rfl⟩

/-- A task that came to its end was accepted. -/
theorem exists_acceptance (h : Counted m) {p : Nat × Bool} (hp : p ∈ endings m.state.history) :
    ∃ b, (p.1, b) ∈ acceptances m.state.history := by
  have hmem := h.places.symm.subset (List.mem_append_right _ (List.mem_map_of_mem hp))
  obtain ⟨q, hq, hid⟩ := List.mem_map.1 hmem
  exact ⟨q.2, hid ▸ hq⟩

end Counted

end Counting

/-! ### Entries -/

/-- What an entry says of its task for good: its number, its body and its asset. -/
def Entry.tag (e : Entry) : Nat × BodyId × Handle :=
  (e.id, e.body, e.asset)

/-- The tags of the tasks that an activity has. -/
def Activity.tags : Activity → List (Nat × BodyId × Handle)
  | claimed e | stepping e _ | concluding e _ | failing e | ending e | ended e | discarding e
  | discarded e => [e.tag]
  | drained es => es.map Entry.tag
  | acting a _ _ | freeing a _ => a.tags
  | _ => []

/-- The tags of all tasks, wherever they are. -/
def Moment.tags (m : Moment) : List (Nat × BodyId × Handle) :=
  m.underWay.flatMap Activity.tags ++
    (m.state.queue.pending.map Entry.tag ++ m.state.client.claims.map fun p => p.2.tag)

/-- What is tagged was accepted. -/
def Trusted (m : Moment) : Prop :=
  ∀ p ∈ m.tags, ∃ data, .accepted p.1 p.2.1 p.2.2 data ∈ m.state.history

section Trusting

variable {m n : Moment} {u : List Activity} {s t : State}

theorem Activity.tags_concluded {a : Activity} {b : BodyId} {i : Nat} {onGpu : Bool}
    (hmay : a.MayAct b i onGpu) (ok : Bool) : (a.concluded ok).tags = a.tags := by
  cases a <;> first | exact hmay.elim | rfl

theorem Activity.tags_freed {a : Activity} {b : BodyId} (hmay : a.MayFree b) :
    a.freed.tags = a.tags := by
  cases a <;> first | exact hmay.elim | rfl

theorem Activity.tags_eq_nil {a : Activity} (ha : a.ofTasks = false) : a.tags = [] := by
  cases a <;> first | rfl | cases ha

theorem Moment.mem_tags {a : Activity} (ha : a ∈ m.underWay) {p : Nat × BodyId × Handle}
    (hp : p ∈ a.tags) : p ∈ m.tags :=
  List.mem_append_left _ (List.mem_flatMap.2 ⟨a, ha, hp⟩)

namespace Trusted

theorem start (p : Session) : Trusted ⟨[], p.start⟩ := by
  unfold Session.start
  dsimp only
  split <;> exact fun q hq => absurd hq List.not_mem_nil

/-- No task is new. -/
theorem mono (h : Trusted m) (hext : m.state.Extends n.state) (htags : n.tags ⊆ m.tags) :
    Trusted n := by
  intro p hp
  obtain ⟨data, haccepted⟩ := h p (htags hp)
  exact ⟨data, hext.mem haccepted⟩

/-- Tasks stay where they are, or are passed on between activities. -/
theorem turn {v : List Activity} (h : Trusted ⟨u, s⟩) (hext : s.Extends t)
    (hqueue : t.queue = s.queue) (hclaims : t.client.claims = s.client.claims)
    (htags : v.flatMap Activity.tags ⊆ u.flatMap Activity.tags) : Trusted ⟨v, t⟩ := by
  refine h.mono hext ?_
  unfold Moment.tags
  rw [hqueue, hclaims]
  exact List.append_subset.2
    ⟨List.Subset.trans htags (List.subset_append_left _ _), List.subset_append_right _ _⟩

theorem flatMap_tags_cons {a b : Activity} (h : b.tags = a.tags) (u : List Activity) :
    (b :: u).flatMap Activity.tags ⊆ (a :: u).flatMap Activity.tags := by
  rw [List.flatMap_cons, List.flatMap_cons, h]
  exact List.Subset.refl _

theorem sameWork (h : Trusted m) (hmn : m.SameWork n) : Trusted n := by
  refine h.mono hmn.extends ?_
  unfold Moment.tags
  rw [hmn.flatMap_eq fun _ => Activity.tags_eq_nil, hmn.pending, hmn.claims]
  exact List.Subset.refl _

theorem bodyMove (h : Trusted m) (hmove : BodyMove m n) : Trusted n := by
  have hext := hmove.extends
  cases hmove with
  | actEnd a b i onGpu ok hmay =>
    exact h.turn hext rfl rfl (flatMap_tags_cons (Activity.tags_concluded hmay ok) _)
  | actSkip a b i onGpu hmay =>
    exact h.turn hext rfl rfl (flatMap_tags_cons (Activity.tags_concluded hmay false) _)
  | freeEnd a b hmay =>
    exact h.turn hext rfl rfl (flatMap_tags_cons (Activity.tags_freed hmay) _)
  | freeSkip a b hmay =>
    exact h.turn hext rfl rfl (flatMap_tags_cons (Activity.tags_freed hmay) _)
  | _ => exact h.turn hext rfl rfl (List.Subset.refl _)

theorem jobMove (h : Trusted m) (hmove : JobMove m n) : Trusted n := by
  have hext := hmove.extends
  cases hmove with
  | start j hpick =>
    refine h.turn hext rfl rfl ?_
    rw [List.flatMap_cons, hpick.flatMap_eq fun _ => rfl]
    exact List.Subset.refl _
  | skip j hpick =>
    refine h.turn hext rfl rfl ?_
    rw [hpick.flatMap_eq fun _ => rfl]
    exact List.Subset.refl _
  | _ => exact h.turn hext rfl rfl (List.Subset.refl _)

/-- A claimed task is given back. -/
theorem giveBack {a : Activity} {e : Entry} (h : Trusted ⟨a :: u, s⟩) (hext : s.Extends t)
    (ha : e.tag ∈ a.tags) (hqueue : t.queue = s.queue.giveBack e)
    (hclaims : t.client.claims = s.client.claims) : Trusted ⟨u, t⟩ := by
  refine h.mono hext ?_
  unfold Moment.tags
  rw [hqueue, hclaims]
  intro p hp
  simp only [TaskQueue.giveBack, List.map_cons, List.flatMap_cons, List.mem_append,
    List.mem_cons] at hp ⊢
  rcases hp with hold | (rfl | hold) | hold
  · exact .inl (.inr hold)
  · exact .inl (.inl ha)
  · exact .inr (.inl hold)
  · exact .inr (.inr hold)

theorem taskMove (h : Trusted m) (hmove : TaskMove m n) : Trusted n := by
  have hext := hmove.extends
  cases hmove with
  | @accept u s task =>
    obtain ⟨front, back, hpending, -, hpush⟩ := s.queue.push_pending task
    intro p hp
    -- the tag of the new entry is the only new one, and it is accepted in this move
    have hcases : p = (s.queue.push task).1.tag ∨
        p ∈ (⟨.holding .task task.asset :: .planned task :: u, s⟩ : Moment).tags := by
      unfold Moment.tags at hp ⊢
      change p ∈ _ ++ ((s.queue.push task).2.pending.map Entry.tag ++ _) at hp
      rw [hpush] at hp
      rw [hpending]
      simp only [List.map_append, List.map_cons, List.mem_append, List.mem_cons, List.flatMap_cons,
        Activity.tags, List.nil_append] at hp ⊢
      tauto
    rcases hcases with rfl | hold
    · exact ⟨_, List.mem_cons_self⟩
    · obtain ⟨data, haccepted⟩ := h p hold
      exact ⟨data, hext.mem haccepted⟩
  | @acquire u s e queue hq =>
    obtain ⟨front, back, hpending, -, -, rfl⟩ := TaskQueue.acquire_eq_some hq
    refine h.mono hext ?_
    intro p hp
    unfold Moment.tags at hp ⊢
    rw [hpending]
    simp only [State.withQueue, List.map_append, List.map_cons, List.mem_append, List.mem_cons,
      List.flatMap_cons, Activity.tags, List.not_mem_nil, or_false] at hp ⊢
    tauto
  | @shelve u s e label =>
    refine h.mono hext ?_
    intro p hp
    unfold Moment.tags at hp ⊢
    simp only [State.withClient, Table.put, List.map_cons, List.mem_append, List.mem_cons,
      List.flatMap_cons, Activity.tags, List.not_mem_nil, or_false] at hp ⊢
    -- an entry that was shelved under the label before is gone
    rcases hp with hold | hold | rfl | hold
    · exact .inl (.inr hold)
    · exact .inr (.inl hold)
    · exact .inl (.inl rfl)
    · obtain ⟨q, hq, rfl⟩ := List.mem_map.1 hold
      exact .inr (.inr (List.mem_map.2 ⟨q, List.mem_of_mem_filter hq, rfl⟩))
  | @unshelve u s e label he =>
    obtain ⟨front, back, hclaims, -⟩ := List.lookup_eq_some_iff.1 he
    refine h.mono hext ?_
    intro p hp
    unfold Moment.tags at hp ⊢
    simp only [State.withClient, List.mem_append, List.flatMap_cons, Activity.tags,
      List.mem_cons, List.not_mem_nil, or_false] at hp ⊢
    rcases hp with (rfl | hold) | hold | hold
    · right
      right
      rw [hclaims]
      exact List.mem_map.2 ⟨(label, e), by simp, rfl⟩
    · exact .inl hold
    · exact .inr (.inl hold)
    · obtain ⟨q, hq, rfl⟩ := List.mem_map.1 hold
      exact .inr (.inr (List.mem_map.2 ⟨q, List.mem_of_mem_filter hq, rfl⟩))
  | @forget u s =>
    refine h.mono hext ?_
    intro p hp
    unfold Moment.tags at hp ⊢
    simp only [State.withClient, List.map_nil, List.append_nil, List.mem_append] at hp ⊢
    tauto
  | exchange es e =>
    exact h.turn hext rfl rfl (List.perm_middle.symm.flatMap_right Activity.tags).subset
  | handOver e he hjob =>
    exact h.giveBack (e := e.handedOver _) hext List.mem_cons_self rfl rfl
  | wait e j he hjob hj => exact h.giveBack hext List.mem_cons_self rfl rfl
  | proceed e he => exact h.giveBack (e := e.advanced) hext List.mem_cons_self rfl rfl
  | @drain u s hu =>
    refine h.mono hext ?_
    intro p hp
    unfold Moment.tags at hp ⊢
    simp only [State.withQueue, TaskQueue.drain, List.map_nil, List.nil_append, List.mem_append,
      List.flatMap_cons, Activity.tags] at hp ⊢
    tauto
  | discardNext e es =>
    refine h.turn hext rfl rfl ?_
    simp [Activity.tags, List.flatMap_cons]
  | @complete u s e =>
    refine h.mono hext ?_
    unfold Moment.tags
    exact List.append_subset.2 ⟨List.Subset.trans (List.subset_append_right _ _)
      (List.subset_append_left _ _), List.subset_append_right _ _⟩
  | discard e => exact h.turn hext rfl rfl (List.subset_append_right _ _)
  | discardEnd => exact h.turn hext rfl rfl (List.Subset.refl _)
  | _ => exact h.turn hext rfl rfl (List.Subset.refl _)

theorem move (h : Trusted m) (hmove : Move m n) : Trusted n := by
  rcases hmove.work_or_same with (hbody | hjob | htask) | hsame
  · exact h.bodyMove hbody
  · exact h.jobMove hjob
  · exact h.taskMove htask
  · exact h.sameWork hsame

/-- The task of an activity was accepted with its body. -/
theorem acceptance (h : Trusted m) {a : Activity} (ha : a ∈ m.underWay) {e : Entry}
    (he : e.tag ∈ a.tags) : (e.id, e.body) ∈ acceptances m.state.history := by
  obtain ⟨data, haccepted⟩ := h e.tag (Moment.mem_tags ha he)
  exact mem_acceptances.2 ⟨_, _, haccepted⟩

end Trusted

end Trusting

/-! ### Data that is freed -/

/-- The data of each task was handed over to be freed once if its body is taken away,
as far as it has a hook for that, and not at all before. -/
def FreedOnce (m : Moment) : Prop :=
  ∀ b, (told b m.state.history).count .frees =
    if (m.state.body b).taken && (m.state.body b).outline.frees then 1 else 0

section Freeing

variable {m n : Moment} {u v : List Activity} {s t : State}

theorem count_told_record {b : BodyId} {e : Event} (h : e.beat? b ≠ some .frees) :
    (told b (s.record e).history).count .frees = (told b s.history).count .frees := by
  show (told b (e :: s.history)).count .frees = _
  rw [told_cons, List.count_append]
  cases hbeat : e.beat? b with
  | none => rfl
  | some beat =>
    have hne : beat ≠ .frees := fun heq => h (heq ▸ hbeat)
    simp [hne]

namespace FreedOnce

theorem start (p : Session) : FreedOnce ⟨[], p.start⟩ := by
  intro b
  have hnone : told b p.start.history = [] ∧ (p.start.body b).outline.frees = false := by
    unfold Session.start
    dsimp only
    split <;> exact ⟨rfl, rfl⟩
  show (told b p.start.history).count .frees =
    if (p.start.body b).taken && (p.start.body b).outline.frees then 1 else 0
  rw [hnone.1, hnone.2, Bool.and_false]
  rfl

/-- Nothing is freed. -/
theorem same (h : FreedOnce m)
    (htold : ∀ b, (told b n.state.history).count .frees = (told b m.state.history).count .frees)
    (hbody : ∀ b, (n.state.body b).outline = (m.state.body b).outline ∧
      (n.state.body b).taken = (m.state.body b).taken) : FreedOnce n := by
  intro b
  rw [htold b, (hbody b).1, (hbody b).2]
  exact h b

/-- An event that tells of no data being freed. -/
theorem record (h : FreedOnce ⟨u, s⟩) {e : Event} (he : ∀ b, e.beat? b ≠ some .frees) :
    FreedOnce ⟨v, s.record e⟩ :=
  h.same (n := ⟨v, s.record e⟩) (fun b => count_told_record (he b)) fun _ => ⟨rfl, rfl⟩

theorem modifyBody (h : FreedOnce ⟨u, s⟩) {b : BodyId} {f : TaskBody → TaskBody}
    (hf : ∀ body : TaskBody, (f body).outline = body.outline ∧ (f body).taken = body.taken) :
    FreedOnce ⟨v, s.modifyBody b f⟩ := by
  refine h.same (n := ⟨v, s.modifyBody b f⟩) (fun _ => rfl) fun c => ?_
  show ((s.modifyBody b f).body c).outline = _ ∧ ((s.modifyBody b f).body c).taken = _
  rw [State.body_modifyBody]
  split
  · exact hf _
  · exact ⟨rfl, rfl⟩

/-- A body is taken away: its data is freed just now, or there is nothing to do. -/
theorem bodyTaken (h : FreedOnce ⟨u, s⟩) (b : BodyId) (events : List Event)
    (hcount : ∀ c, c ≠ b →
      (told c (events ++ s.history)).count .frees = (told c s.history).count .frees)
    (hb : (told b (events ++ s.history)).count .frees = if (s.body b).outline.frees then 1 else 0)
    {w : State} (hbodies : w.bodies = (s.bodyTaken b).bodies) (hhistory : w.history = events ++ s.history) :
    FreedOnce ⟨v, w⟩ := by
  intro c
  show (told c w.history).count .frees =
    if (w.body c).taken && (w.body c).outline.frees then 1 else 0
  have hbody : w.body c =
      if b = c ∧ c < s.bodies.size then { s.body c with taken := true } else s.body c := by
    rw [State.body_congr hbodies]
    exact State.body_modifyBody s b c _
  rw [hhistory]
  by_cases hcb : b = c
  · subst hcb
    rw [hb]
    by_cases hknown : b < s.bodies.size
    · rw [hbody.trans (if_pos ⟨rfl, hknown⟩)]
      rfl
    · have hunknown : (s.body b).outline.frees = false := by
        simp [State.body, TaskBody.outline, hknown]
      rw [hbody.trans (if_neg fun hboth => hknown hboth.2), hunknown, Bool.and_false]
  · rw [hcount c fun heq => hcb heq.symm, hbody.trans (if_neg fun hboth => hcb hboth.1)]
    exact h c

theorem bodyMove (h : FreedOnce m) (hmove : BodyMove m n) : FreedOnce n := by
  cases hmove with
  | @plan u s task body hbody htaken =>
    intro b
    show (told b s.history).count .frees = _
    rw [show (⟨.planned task :: u, { s with bodies := s.bodies.push body }⟩ : Moment).state.body b =
      if b = s.bodies.size then body else s.body b from State.body_push s body b]
    split
    next hnew =>
      -- a body that is not made yet frees nothing
      have hunknown : (s.body b).outline.frees = false := by
        rw [hnew]
        simp [State.body, TaskBody.outline]
      have hnone := h b
      change (told b s.history).count .frees =
        if (s.body b).taken && (s.body b).outline.frees then 1 else 0 at hnone
      rw [hnone, hunknown, htaken, Bool.and_false]
      rfl
    next => exact h b
  | forget => exact h.same (fun _ => rfl) fun _ => ⟨rfl, rfl⟩
  | estimate b f hf =>
    refine h.modifyBody fun body => ?_
    obtain ⟨noted, reported, hbody⟩ := hf body
    rw [hbody]
    exact ⟨rfl, rfl⟩
  | write b f hruns hf =>
    refine h.modifyBody fun body => ?_
    obtain ⟨data, hbody⟩ := hf body
    rw [hbody]
    exact ⟨rfl, rfl⟩
  | act | actEnd | fail | failEnd | freeEnd =>
    refine h.record fun b => ?_
    unfold Event.beat?
    dsimp only
    split <;> simp
  | actSkip | failSkip => exact h.same (fun _ => rfl) fun _ => ⟨rfl, rfl⟩
  | @free u s a b asset hmay htaken hhook =>
    -- the data was not taken, so it was not freed before
    have hfirst : (told b s.history).count .frees = 0 := by
      have hb := h b
      change (told b s.history).count .frees =
        if (s.body b).taken && (s.body b).outline.frees then 1 else 0 at hb
      rw [hb, htaken]
      rfl
    refine h.bodyTaken b [.freed b (s.body b).name (s.asset asset).state (s.body b).data] ?_ ?_
      rfl rfl
    · intro c hc
      have hother : Event.beat? c (.freed b (s.body b).name (s.asset asset).state (s.body b).data) =
          none := if_neg fun heq => hc heq.symm
      show (told c (_ :: s.history)).count .frees = _
      rw [told_cons, hother]
      simp
    · have hthis : Event.beat? b (.freed b (s.body b).name (s.asset asset).state (s.body b).data) =
          some .frees := if_pos rfl
      have hfrees : (s.body b).outline.frees = true := hhook
      show (told b (_ :: s.history)).count .frees = _
      rw [told_cons, hthis, hfrees, List.count_append, hfirst]
      rfl
  | @freeSkip u s a b hmay hgone =>
    refine h.bodyTaken b [] (fun c _ => rfl) ?_ rfl rfl
    have hb := h b
    change (told b s.history).count .frees =
      if (s.body b).taken && (s.body b).outline.frees then 1 else 0 at hb
    show (told b s.history).count .frees = _
    rw [hb]
    -- taken already, or without a hook: either way nothing is told
    rcases hgone with htaken | hnone
    · rw [htaken, Bool.true_and]
    · have hfrees : (s.body b).outline.frees = false := by simp [TaskBody.outline, hnone]
      rw [hfrees, Bool.and_false]

/-- Only moves of bodies free data. -/
theorem move (h : FreedOnce m) (hmove : Move m n) : FreedOnce n := by
  rcases hmove.work_or_same with (hbody | hjob | htask) | hsame
  · exact h.bodyMove hbody
  · refine h.same (fun b => by rw [hjob.records.told_eq (by decide) b]) fun b => ?_
    cases hjob <;> exact ⟨rfl, rfl⟩
  · refine h.same (fun b => by rw [htask.records.told_eq (by decide) b]) fun b => ?_
    cases htask <;> exact ⟨rfl, rfl⟩
  · exact h.same (fun b => by rw [hsame.told b]) fun b => by rw [hsame.body]; exact ⟨rfl, rfl⟩

end FreedOnce

end Freeing

/-! ### After the end -/

/-- The body is there and was taken away. -/
def State.BodyGone (s : State) (b : BodyId) : Prop :=
  b < s.bodies.size ∧ (s.body b).taken = true

/-- The body of a task that is at its end was taken away. -/
def Activity.IsSpent (s : State) : Activity → Prop
  | ended e | discarded e => s.BodyGone e.body
  | freeing a b => a.MayFree b ∧ s.BodyGone b
  | _ => True

/-- After the end of a task nothing of it starts any more. -/
structure Spent (m : Moment) : Prop where
  work : ∀ a ∈ m.underWay, a.IsSpent m.state
  gone : ∀ p ∈ endings m.state.history, ∀ b, (p.1, b) ∈ acceptances m.state.history →
    m.state.BodyGone b
  quiet : ∀ e past b beat, e :: past <:+ m.state.history → e.beat? b = some beat →
    beat.isReturn = false → ∀ p ∈ endings past, (p.1, b) ∉ acceptances m.state.history

section Spending

variable {m n : Moment} {u : List Activity} {s t : State} {b : BodyId}

theorem State.BodyGone.extends (h : s.BodyGone b) (hst : s.Extends t) : t.BodyGone b :=
  ⟨(hst.body b h.1).1, (hst.body b h.1).2.taken h.2⟩

theorem Activity.IsSpent.extends {a : Activity} (h : a.IsSpent s) (hst : s.Extends t) :
    a.IsSpent t := by
  cases a with
  | ended e => exact State.BodyGone.extends h hst
  | discarded e => exact State.BodyGone.extends h hst
  | freeing a b => exact ⟨h.1, h.2.extends hst⟩
  | _ => trivial

theorem Activity.isSpent_of_not_ofTasks {a : Activity} (ha : a.ofTasks = false) : a.IsSpent s := by
  cases a <;> trivial

theorem Activity.isSpent_concluded {a : Activity} {i : Nat} {onGpu : Bool}
    (hmay : a.MayAct b i onGpu) (ok : Bool) : (a.concluded ok).IsSpent s := by
  cases a <;> first | exact hmay.elim | trivial

theorem Activity.isSpent_freed {a : Activity} (hmay : a.MayFree b) (hgone : s.BodyGone b) :
    a.freed.IsSpent s := by
  cases a with
  | ending e | discarding e =>
    have hbody : e.body = b := hmay
    show s.BodyGone e.body
    rw [hbody]
    exact hgone
  | planned t => trivial
  | _ => exact hmay.elim

theorem State.gone_bodyTaken (hb : b < s.bodies.size) : (s.bodyTaken b).BodyGone b := by
  unfold State.BodyGone State.bodyTaken
  rw [State.body_modifyBody, if_pos ⟨rfl, hb⟩]
  exact ⟨Nat.lt_of_lt_of_eq hb Array.size_modify.symm, rfl⟩

theorem endings_subset {past history : List Event} (h : past <:+ history) :
    endings past ⊆ endings history :=
  (h.sublist.filterMap _).subset

theorem beat?_eq_none {e : Event} (he : e.subject ≠ .body) (b : BodyId) : e.beat? b = none := by
  cases e <;> first | rfl | exact absurd rfl he

namespace Spent

theorem start (p : Session) : Spent ⟨[], p.start⟩ := by
  unfold Session.start
  dsimp only
  split
  · refine ⟨nofun, nofun, ?_⟩
    intro e past b beat hpast hbeat
    rcases List.suffix_cons_iff.1 hpast with heq | hnil
    · cases heq
      cases hbeat
    · exact absurd (List.suffix_nil.1 hnil) (List.cons_ne_nil _ _)
  · refine ⟨nofun, nofun, ?_⟩
    intro e past b beat hpast
    exact absurd (List.suffix_nil.1 hpast) (List.cons_ne_nil _ _)

/-- No task is accepted or ended, and nothing starts. -/
theorem same (h : Spent m) {subject : Subject} (hrecords : Records subject m n)
    (htask : subject ≠ .task) (hbody : subject ≠ .body) (hext : m.state.Extends n.state)
    (hwork : ∀ a ∈ n.underWay, a ∈ m.underWay ∨ a.IsSpent n.state) : Spent n := by
  obtain ⟨haccepted, hended⟩ := hrecords.accounts htask
  constructor
  · intro a ha
    rcases hwork a ha with hold | hnew
    · exact (h.work a hold).extends hext
    · exact hnew
  · intro p hp c hc
    exact (h.gone p (hended ▸ hp) c (haccepted ▸ hc)).extends hext
  · intro e past c beat hpast hbeat hstarts p hp hc
    have hsubject : e.subject ≠ subject := by
      intro heq
      rw [beat?_eq_none (heq ▸ hbody) c] at hbeat
      cases hbeat
    have hold := hrecords.suffix_of_subject_ne hpast hsubject
    exact h.quiet e past c beat hold hbeat hstarts p hp (haccepted ▸ hc)

/-- Something may be told of a task that has not come to its end. -/
theorem bodies (h : Spent m) (hrecords : Records .body m n) (hext : m.state.Extends n.state)
    (hwork : ∀ a ∈ n.underWay, a ∈ m.underWay ∨ a.IsSpent n.state)
    (htold : n.state.history = m.state.history ∨ ∃ e, n.state.history = e :: m.state.history ∧
      ∀ b beat, e.beat? b = some beat → beat.isReturn = false → (m.state.body b).taken = false) :
    Spent n := by
  obtain ⟨haccepted, hended⟩ := hrecords.accounts (by decide)
  constructor
  · intro a ha
    rcases hwork a ha with hold | hnew
    · exact (h.work a hold).extends hext
    · exact hnew
  · intro p hp c hc
    exact (h.gone p (hended ▸ hp) c (haccepted ▸ hc)).extends hext
  · intro e past c beat hpast hbeat hstarts p hp hc
    rw [haccepted] at hc
    rcases htold with hsame | ⟨d, hcons, huntaken⟩
    · exact h.quiet e past c beat (hsame ▸ hpast) hbeat hstarts p hp hc
    · rw [hcons] at hpast
      rcases List.suffix_cons_iff.1 hpast with heq | hold
      · cases heq
        have htaken := (h.gone p hp c hc).2
        rw [huntaken c beat hbeat hstarts] at htaken
        cases htaken
      · exact h.quiet e past c beat hold hbeat hstarts p hp hc

theorem bodyMove (h : Spent m) (howned : Owned m) (hmove : BodyMove m n) : Spent n := by
  have hext := hmove.extends
  have hrecords := hmove.records
  -- an activity that takes the place of another one, or comes on top of them
  have hhead {a : Activity} {u v : List Activity} {s : State} (hv : v ⊆ u) (ha : a.IsSpent s) :
      ∀ c ∈ a :: v, c ∈ u ∨ c.IsSpent s := by
    intro c hc
    rcases List.mem_cons.1 hc with rfl | hold
    · exact .inr ha
    · exact .inl (hv hold)
  cases hmove with
  | plan => exact h.bodies hrecords hext (hhead (List.Subset.refl _) trivial) (.inl rfl)
  | forget =>
    exact h.bodies hrecords hext (fun a ha => .inl (List.mem_cons_of_mem _ ha)) (.inl rfl)
  | estimate | write => exact h.bodies hrecords hext (fun a ha => .inl ha) (.inl rfl)
  | @act u s a b i onGpu hmay htaken =>
    refine h.bodies hrecords hext (hhead (List.subset_cons_self _ _) trivial) (.inr ⟨_, rfl, ?_⟩)
    intro c beat hbeat _
    unfold Event.beat? at hbeat
    dsimp only at hbeat
    split at hbeat
    next heq => exact heq ▸ htaken
    next => cases hbeat
  | @actEnd u s a b i onGpu ok hmay =>
    refine h.bodies hrecords hext
      (hhead (List.subset_cons_self _ _) (Activity.isSpent_concluded hmay ok)) (.inr ⟨_, rfl, ?_⟩)
    intro c beat hbeat hstarts
    unfold Event.beat? at hbeat
    dsimp only at hbeat
    split at hbeat
    · cases hbeat
      cases hstarts
    · cases hbeat
  | actSkip a b i onGpu hmay =>
    exact h.bodies hrecords hext
      (hhead (List.subset_cons_self _ _) (Activity.isSpent_concluded hmay false)) (.inl rfl)
  | @fail u s e htaken =>
    refine h.bodies hrecords hext (hhead (List.subset_cons_self _ _) trivial) (.inr ⟨_, rfl, ?_⟩)
    intro c beat hbeat _
    unfold Event.beat? at hbeat
    dsimp only at hbeat
    split at hbeat
    next heq => exact heq ▸ htaken
    next => cases hbeat
  | @failEnd u s e =>
    refine h.bodies hrecords hext (hhead (List.subset_cons_self _ _) trivial) (.inr ⟨_, rfl, ?_⟩)
    intro c beat hbeat hstarts
    unfold Event.beat? at hbeat
    dsimp only at hbeat
    split at hbeat
    · cases hbeat
      cases hstarts
    · cases hbeat
  | failSkip => exact h.bodies hrecords hext (hhead (List.subset_cons_self _ _) trivial) (.inl rfl)
  | @free u s a b asset hmay htaken =>
    have hgone : (s.bodyTaken b).BodyGone b := State.gone_bodyTaken (State.lt_size_of_untaken htaken)
    refine h.bodies hrecords hext (hhead (List.subset_cons_self _ _) ⟨hmay, hgone⟩) (.inr ⟨_, rfl, ?_⟩)
    intro c beat hbeat _
    unfold Event.beat? at hbeat
    dsimp only at hbeat
    split at hbeat
    next heq => exact heq ▸ htaken
    next => cases hbeat
  | @freeEnd u s a b hmay =>
    have hgone : s.BodyGone b := (h.work (.freeing a b) List.mem_cons_self).2
    refine h.bodies hrecords hext
      (hhead (List.subset_cons_self _ _) (Activity.isSpent_freed hmay hgone)) (.inr ⟨_, rfl, ?_⟩)
    intro c beat hbeat hstarts
    unfold Event.beat? at hbeat
    dsimp only at hbeat
    split at hbeat
    · cases hbeat
      cases hstarts
    · cases hbeat
  | @freeSkip u s a b hmay hgone =>
    have hmem : b ∈ (⟨a :: u, s⟩ : Moment).owned := by
      rw [owned_cons_of_bodies hmay.bodies.1]
      exact Multiset.mem_cons_self _ _
    have hknown : b < s.bodies.size := State.lt_size_of_untaken (howned.untaken b hmem)
    exact h.bodies hrecords hext (hhead (List.subset_cons_self _ _)
      (Activity.isSpent_freed hmay (State.gone_bodyTaken hknown))) (.inl rfl)

theorem jobMove (h : Spent m) (hmove : JobMove m n) : Spent n := by
  have hext := hmove.extends
  have hrecords := hmove.records
  -- a job that is picked or run does not free data; no activity of a freed task comes in
  have hpicked {u v : List Activity} {j : JobId} {s : State} (hpick : Picks j u v) :
      ∀ a ∈ v, a ∈ u ∨ a.IsSpent s := by
    intro a ha
    cases hpick with
    | next js u =>
      rcases List.mem_cons.1 ha with rfl | hold
      · exact .inr trivial
      · exact .inl (List.mem_cons_of_mem _ hold)
    | outOfTurn u => exact .inl ha
  have hhead {a : Activity} {u v : List Activity} {s : State} (ha : a.IsSpent s)
      (hv : ∀ c ∈ v, c ∈ u ∨ c.IsSpent s) : ∀ c ∈ a :: v, c ∈ u ∨ c.IsSpent s := by
    intro c hc
    rcases List.mem_cons.1 hc with rfl | hold
    · exact .inr ha
    · exact hv c hold
  cases hmove with
  | make | submit => exact h.same hrecords (by decide) (by decide) hext fun a ha => .inl ha
  | drain =>
    exact h.same hrecords (by decide) (by decide) hext (hhead trivial fun c hc => .inl hc)
  | start j hpick =>
    exact h.same hrecords (by decide) (by decide) hext (hhead trivial (hpicked hpick))
  | skip j hpick => exact h.same hrecords (by decide) (by decide) hext (hpicked hpick)
  | work =>
    exact h.same hrecords (by decide) (by decide) hext
      (hhead trivial fun c hc => .inl (List.mem_cons_of_mem _ hc))
  | finish | drained =>
    exact h.same hrecords (by decide) (by decide) hext fun a ha => .inl (List.mem_cons_of_mem _ ha)

/-- Tasks are accepted or ended, and nothing starts. A new task has a new number, and the
body of a task that ends was taken away. -/
theorem accounts (h : Spent m) (hrecords : Records .task m n) (hext : m.state.Extends n.state)
    (hwork : ∀ a ∈ n.underWay, a ∈ m.underWay ∨ a.IsSpent n.state)
    (haccepted : ∀ p ∈ acceptances n.state.history, p ∈ acceptances m.state.history ∨
      ∀ q ∈ endings n.state.history, q.1 ≠ p.1)
    (hended : ∀ p ∈ endings n.state.history, p ∈ endings m.state.history ∨
      ∀ b, (p.1, b) ∈ acceptances m.state.history → n.state.BodyGone b) : Spent n := by
  -- a task that came to its end is none of the new ones
  have hold {p : Nat × Bool} {c : BodyId} (hp : p ∈ endings n.state.history)
      (hc : (p.1, c) ∈ acceptances n.state.history) : (p.1, c) ∈ acceptances m.state.history := by
    rcases haccepted _ hc with hold | hnew
    · exact hold
    · exact absurd rfl (hnew p hp)
  constructor
  · intro a ha
    rcases hwork a ha with hold | hnew
    · exact (h.work a hold).extends hext
    · exact hnew
  · intro p hp c hc
    rcases hended p hp with hbefore | hgone
    · exact (h.gone p hbefore c (hold hp hc)).extends hext
    · exact hgone c (hold hp hc)
  · intro e past c beat hpast hbeat hstarts p hp hc
    have hsubject : e.subject ≠ .task := by
      intro heq
      rw [beat?_eq_none (by rw [heq]; decide) c] at hbeat
      cases hbeat
    have hafter : p ∈ endings n.state.history :=
      endings_subset ((List.suffix_cons e past).trans hpast) hp
    exact h.quiet e past c beat (hrecords.suffix_of_subject_ne hpast hsubject) hbeat hstarts p hp
      (hold hafter hc)

theorem taskMove (h : Spent m) (hcounted : Counted m) (henrolled : Enrolled m)
    (htrusted : Trusted m) (hmove : TaskMove m n) : Spent n := by
  have hext := hmove.extends
  have hrecords := hmove.records
  -- the body of the task that ends is the one that it was accepted with
  have hends {a : Activity} {u : List Activity} {s : State} {e : Entry} (hm : Spent ⟨a :: u, s⟩)
      (henrolled : Enrolled ⟨a :: u, s⟩) (htrusted : Trusted ⟨a :: u, s⟩) (he : e.tag ∈ a.tags)
      (ha : a.IsSpent s → s.BodyGone e.body) (c : BodyId) (hc : (e.id, c) ∈ acceptances s.history) :
      s.BodyGone c := by
    have hthis := htrusted.acceptance List.mem_cons_self he
    obtain rfl : c = e.body :=
      (henrolled.single _ _ _ _ (mem_acceptances.1 hc) (mem_acceptances.1 hthis)).1 rfl
    exact ha (hm.work a List.mem_cons_self)
  have hhead {a : Activity} {u v : List Activity} {s : State} (hv : v ⊆ u) (ha : a.IsSpent s) :
      ∀ c ∈ a :: v, c ∈ u ∨ c.IsSpent s := by
    intro c hc
    rcases List.mem_cons.1 hc with rfl | hold
    · exact .inr ha
    · exact .inl (hv hold)
  have hquiet {m n : Moment} (hm : Spent m) (hrecords : Records .task m n)
      (hext : m.state.Extends n.state)
      (hwork : ∀ a ∈ n.underWay, a ∈ m.underWay ∨ a.IsSpent n.state)
      (haccepted : acceptances n.state.history = acceptances m.state.history)
      (hended : endings n.state.history = endings m.state.history) : Spent n :=
    hm.accounts hrecords hext hwork (fun p hp => .inl (haccepted ▸ hp)) fun p hp =>
      .inl (hended ▸ hp)
  cases hmove with
  | @accept u s task =>
    refine h.accounts hrecords hext
      (fun a ha => .inl (List.mem_cons_of_mem _ (List.mem_cons_of_mem _ ha))) ?_ fun p hp => .inl hp
    intro p hp
    rcases List.mem_cons.1 (show p ∈ (s.queue.lastId + 1, task.body) :: acceptances s.history from hp)
      with rfl | hold
    · refine .inr fun q hq heq => ?_
      obtain ⟨c, hc⟩ := hcounted.exists_acceptance hq
      have hle : q.1 ≤ s.queue.lastId := henrolled.numbered _ c (mem_acceptances.1 hc)
      rw [heq] at hle
      exact Nat.not_succ_le_self _ hle
    · exact .inl hold
  | @complete u s e =>
    refine h.accounts hrecords hext (hhead (List.subset_cons_self _ _) trivial)
      (fun p hp => .inl hp) fun p hp => ?_
    rcases List.mem_cons.1 (show p ∈ (e.id, true) :: endings s.history from hp) with rfl | hold
    · exact .inr fun c hc => hends h henrolled htrusted List.mem_cons_self id c hc
    · exact .inl hold
  | @discard u s e =>
    refine h.accounts hrecords hext (hhead (List.subset_cons_self _ _) trivial)
      (fun p hp => .inl hp) fun p hp => ?_
    rcases List.mem_cons.1 (show p ∈ (e.id, false) :: endings s.history from hp) with rfl | hold
    · exact .inr fun c hc => hends h henrolled htrusted List.mem_cons_self id c hc
    · exact .inl hold
  | acquire | unshelve =>
    exact hquiet h hrecords hext (hhead (List.Subset.refl _) trivial) rfl rfl
  | drain => exact hquiet h hrecords hext (hhead (List.Subset.refl _) trivial) rfl rfl
  | forget => exact hquiet h hrecords hext (fun a ha => .inl ha) rfl rfl
  | exchange es e =>
    exact hquiet h hrecords hext (fun a ha => .inl ((mem_exchange es e _).1 ha)) rfl rfl
  | shelve | handOver | wait | proceed | discardEnd =>
    exact hquiet h hrecords hext (fun a ha => .inl (List.mem_cons_of_mem _ ha)) rfl rfl
  | step | runOut | collect | reckon | succeed =>
    exact hquiet h hrecords hext (hhead (List.subset_cons_self _ _) trivial) rfl rfl
  | @discardNext u s e es =>
    refine hquiet h hrecords hext (fun a ha => ?_) rfl rfl
    rcases List.mem_cons.1 ha with rfl | hrest
    · exact .inr trivial
    · rcases List.mem_cons.1 hrest with rfl | hold
      · exact .inr trivial
      · exact .inl (List.mem_cons_of_mem _ hold)

theorem freesTaken (h : Spent m) : FreesTaken m := by
  intro a b hmem
  obtain ⟨hmay, hgone⟩ : a.MayFree b ∧ m.state.BodyGone b := h.work _ hmem
  exact ⟨hmay, hgone.2⟩

theorem move (h : Spent m) (hcounted : Counted m) (henrolled : Enrolled m) (htrusted : Trusted m)
    (howned : Owned m) (hmove : Move m n) : Spent n := by
  have hext := hmove.extends
  rcases hmove.work_or_same with (hbody | hjob | htask) | hsame
  · exact h.bodyMove howned hbody
  · exact h.jobMove hjob
  · exact h.taskMove hcounted henrolled htrusted htask
  · obtain ⟨subject, hbody, htask, hrecords⟩ := hsame.records
    refine h.same hrecords htask hbody hext fun a ha => ?_
    cases hwork : a.ofTasks with
    | true => exact .inl ((hsame.mem_work hwork).1 ha)
    | false => exact .inr (Activity.isSpent_of_not_ofTasks hwork)

end Spent

end Spending

/-! ### Together -/

/-- The accounts of all tasks are in order. -/
structure Booked (m : Moment) : Prop where
  custody : Custody m
  owned : Owned m
  enrolled : Enrolled m
  counted : Counted m
  trusted : Trusted m
  freedOnce : FreedOnce m
  spent : Spent m

namespace Booked

variable {m n : Moment}

theorem start (p : Session) : Booked ⟨[], p.start⟩ :=
  ⟨.start p, .start p, .start p, .start p, .start p, .start p, .start p⟩

theorem move (h : Booked m) (hmove : Move m n) : Booked n where
  custody := h.custody.move hmove
  owned := h.owned.move hmove
  enrolled := h.enrolled.move h.owned h.spent.freesTaken hmove
  counted := h.counted.move h.custody h.enrolled hmove
  trusted := h.trusted.move hmove
  freedOnce := h.freedOnce.move hmove
  spent := h.spent.move h.counted h.enrolled h.trusted h.owned hmove

end Booked

/-- In every moment of every run the accounts of all tasks are in order. -/
theorem Occurs.booked {c : Scene} (hc : Occurs c) : Booked c.toMoment :=
  hc.moves_invariant Booked.start fun _ _ hmove hm => hm.move hmove

end AssetLoading
