import AssetLoading.Proofs.Tasks.Custody

/-! # Unfinished tasks

  A task is unfinished from its acceptance to its completion or its discarding.
  Until then it waits, is claimed, or is among the tasks that a shutdown took out
  of the queue. Tasks come and go one at a time, each with an event and with a
  reference that changes hands.
-/

namespace AssetLoading

/-! ### Where unfinished tasks are -/

/-- The tasks that an activity is to discard. -/
def Activity.toDiscard : Activity → List Claimed
  | drained es => es.map Entry.claim
  | discarding e | discarded e => [e.claim]
  | acting a _ _ | freeing a _ => a.toDiscard
  | _ => []

/-- The references that an activity has in hand for a moment. -/
def Activity.inTransit : Activity → List (Holder × Handle)
  | holding holder h => [(holder, h)]
  | releasing hs => hs.map fun h => (.notice, h)
  | acting a _ _ | freeing a _ => a.inTransit
  | _ => []

/-- All unfinished tasks. -/
def Moment.unfinished (m : Moment) : List Claimed :=
  m.state.queue.pending.map Entry.claim ++ m.state.queue.active ++
    m.underWay.flatMap Activity.toDiscard

/-- The references that running code has in hand for a moment. -/
def Moment.inTransit (m : Moment) : List (Holder × Handle) :=
  m.underWay.flatMap Activity.inTransit

theorem Activity.toDiscard_freed (a : Activity) : a.freed.toDiscard = a.toDiscard := by
  cases a <;> rfl

theorem Activity.toDiscard_concluded (a : Activity) (ok : Bool) :
    (a.concluded ok).toDiscard = a.toDiscard := by
  cases a <;> rfl

theorem Activity.inTransit_freed (a : Activity) : a.freed.inTransit = a.inTransit := by
  cases a <;> rfl

theorem Activity.inTransit_concluded (a : Activity) (ok : Bool) :
    (a.concluded ok).inTransit = a.inTransit := by
  cases a <;> rfl

theorem flatMap_toDiscard_gained (holder : Holder) (h : Handle) (u : List Activity) :
    (gained holder h u).flatMap Activity.toDiscard = u.flatMap Activity.toDiscard := by
  cases holder <;> rfl

/-! ### Moves that finish no task -/

/-- The same tasks are unfinished. -/
theorem unfinished_eq {u v : List Activity} {s t : State}
    (hpending : t.queue.pending = s.queue.pending) (hactive : t.queue.active = s.queue.active)
    (hu : v.flatMap Activity.toDiscard = u.flatMap Activity.toDiscard) :
    (⟨v, t⟩ : Moment).unfinished = (⟨u, s⟩ : Moment).unfinished := by
  show t.queue.pending.map Entry.claim ++ t.queue.active ++ _ =
    s.queue.pending.map Entry.claim ++ s.queue.active ++ _
  rw [hpending, hactive, hu]

theorem flatMap_cons_congr {α β : Type} {f : α → List β} {a b : α} (h : f b = f a) (u : List α) :
    (b :: u).flatMap f = (a :: u).flatMap f := by
  rw [List.flatMap_cons, List.flatMap_cons, h]

theorem AssetMove.unfinished_eq {m n : Moment} (h : AssetMove m n) :
    n.unfinished = m.unfinished := by
  cases h with
  | take holder h => exact AssetLoading.unfinished_eq rfl rfl (flatMap_toDiscard_gained holder h _)
  | revive holder h => exact AssetLoading.unfinished_eq rfl rfl (flatMap_toDiscard_gained holder h _)
  | drop holder h =>
    exact AssetLoading.unfinished_eq rfl rfl (flatMap_toDiscard_gained holder h _).symm
  | _ => rfl

theorem BodyMove.unfinished_eq {m n : Moment} (h : BodyMove m n) :
    n.unfinished = m.unfinished ∧ n.inTransit = m.inTransit := by
  cases h with
  | actEnd a b i onGpu ok =>
    exact ⟨AssetLoading.unfinished_eq rfl rfl (flatMap_cons_congr (a.toDiscard_concluded ok) _),
      flatMap_cons_congr (a.inTransit_concluded ok) _⟩
  | actSkip a =>
    exact ⟨AssetLoading.unfinished_eq rfl rfl (flatMap_cons_congr (a.toDiscard_concluded false) _),
      flatMap_cons_congr (a.inTransit_concluded false) _⟩
  | freeEnd a =>
    exact ⟨AssetLoading.unfinished_eq rfl rfl (flatMap_cons_congr a.toDiscard_freed _),
      flatMap_cons_congr a.inTransit_freed _⟩
  | freeSkip a =>
    exact ⟨AssetLoading.unfinished_eq rfl rfl (flatMap_cons_congr a.toDiscard_freed _),
      flatMap_cons_congr a.inTransit_freed _⟩
  | _ => exact ⟨rfl, rfl⟩

theorem Picks.flatMap_eq {β : Type} {f : Activity → List β} (hf : ∀ js, f (.draining js) = [])
    {j : JobId} {u v : List Activity} (h : Picks j u v) : v.flatMap f = u.flatMap f := by
  cases h with
  | next js u => rw [List.flatMap_cons, List.flatMap_cons, hf, hf]
  | outOfTurn u => rfl

theorem JobMove.unfinished_eq {m n : Moment} (h : JobMove m n) :
    n.unfinished = m.unfinished ∧ n.inTransit = m.inTransit := by
  cases h with
  | start j hpick =>
    exact ⟨AssetLoading.unfinished_eq rfl rfl (hpick.flatMap_eq fun _ => rfl),
      hpick.flatMap_eq fun _ => rfl⟩
  | skip j hpick =>
    exact ⟨AssetLoading.unfinished_eq rfl rfl (hpick.flatMap_eq fun _ => rfl),
      hpick.flatMap_eq fun _ => rfl⟩
  | _ => exact ⟨rfl, rfl⟩

theorem NoticeMove.unfinished_eq {m n : Moment} (h : NoticeMove m n) :
    n.unfinished = m.unfinished := by
  cases h <;> rfl

theorem PlainMove.unfinished_eq {m n : Moment} (h : PlainMove m n) :
    n.unfinished = m.unfinished ∧ n.inTransit = m.inTransit := by
  cases h <;> exact ⟨rfl, rfl⟩

/-! ### Moves that accept, complete and discard tasks -/

/-- What a move of the task queue does to the unfinished tasks. A task that joins
them takes over a reference that was taken for it, and one that leaves them hands
its reference back. -/
inductive TaskEffect (m n : Moment) : Prop where
  /-- The same tasks are unfinished. -/
  | kept (hperm : n.unfinished.Perm m.unfinished) (htransit : n.inTransit = m.inTransit)
      (hhistory : n.state.history = m.state.history ∨
        ∃ id onGpu, n.state.history = .stepped id onGpu :: m.state.history)
  /-- A task was accepted. -/
  | joined (c : Claimed) (body : BodyId) (data : List Int)
      (hperm : n.unfinished.Perm (c :: m.unfinished))
      (htransit : m.inTransit = (.task, c.asset) :: n.inTransit)
      (hhistory : n.state.history = .accepted c.id body c.asset data :: m.state.history)
  /-- A task was completed or discarded. -/
  | left (c : Claimed) (e : Event) (he : e = .completed c.id ∨ e = .discarded c.id)
      (hperm : m.unfinished.Perm (c :: n.unfinished))
      (htransit : n.inTransit = (.task, c.asset) :: m.inTransit)
      (hhistory : n.state.history = e :: m.state.history)

/-- A claimed task that is given back is still unfinished. -/
theorem unfinished_giveBack {u v : List Activity} {s t : State} {e : Entry}
    (h : Custody ⟨u, s⟩) (he : e.claim ∈ (⟨u, s⟩ : Moment).hands)
    (hqueue : t.queue = s.queue.giveBack e)
    (hu : v.flatMap Activity.toDiscard = u.flatMap Activity.toDiscard) :
    (⟨v, t⟩ : Moment).unfinished.Perm (⟨u, s⟩ : Moment).unfinished := by
  show (t.queue.pending.map Entry.claim ++ t.queue.active ++ _).Perm
    (s.queue.pending.map Entry.claim ++ s.queue.active ++ _)
  rw [hu, hqueue]
  refine .append_right _ (.trans ?_ ((h.perm_without he).symm.append_left _))
  exact List.perm_middle.symm

theorem TaskMove.effect {m n : Moment} (hm : Custody m) (h : TaskMove m n) : TaskEffect m n := by
  cases h with
  | @accept u s t =>
    -- one more than before, wherever its priority puts it in the queue
    obtain ⟨front, back, hpending, -, hpush⟩ := s.queue.push_pending t
    refine .joined (s.queue.push t).1.claim t.body (s.body t.body).data ?_ rfl rfl
    show ((s.queue.push t).2.pending.map Entry.claim ++ s.queue.active ++ _).Perm
      ((s.queue.push t).1.claim :: s.queue.pending.map Entry.claim ++ s.queue.active ++ _)
    rw [hpush, hpending, List.map_append, List.map_append, List.map_cons]
    refine .append_right _ (.append_right _ ?_)
    exact List.perm_middle
  | @acquire u s e queue hq =>
    obtain ⟨front, back, hpending, -, -, rfl⟩ := TaskQueue.acquire_eq_some hq
    refine .kept ?_ rfl (.inl rfl)
    show ((front ++ back).map Entry.claim ++ e.claim :: s.queue.active ++ _).Perm
      (s.queue.pending.map Entry.claim ++ s.queue.active ++ _)
    rw [hpending, List.map_append, List.map_append, List.map_cons]
    refine .append_right _ (List.perm_middle.trans ?_)
    exact .append_right s.queue.active List.perm_middle.symm
  | shelve e label => exact .kept (.refl _) rfl (.inl rfl)
  | unshelve e label he => exact .kept (.refl _) rfl (.inl rfl)
  | forget => exact .kept (.refl _) rfl (.inl rfl)
  | exchange es e =>
    refine .kept (.of_eq (unfinished_eq rfl rfl ?_)) ?_ (.inl rfl)
    · exact flatMap_exchange es e _ fun _ => rfl
    · exact flatMap_exchange es e _ fun _ => rfl
  | step e onGpu => exact .kept (.refl _) rfl (.inr ⟨e.id, onGpu, rfl⟩)
  | runOut e onGpu he => exact .kept (.refl _) rfl (.inl rfl)
  | handOver e he hjob =>
    exact .kept (unfinished_giveBack (e := e.handedOver _) hm
      ((hands_cons_perm _ _ _).mem_iff.2 List.mem_cons_self) rfl rfl) rfl (.inl rfl)
  | wait e j he hjob hj =>
    exact .kept (unfinished_giveBack hm
      ((hands_cons_perm _ _ _).mem_iff.2 List.mem_cons_self) rfl rfl) rfl (.inl rfl)
  | collect e j complexity he hjob hj => exact .kept (.refl _) rfl (.inl rfl)
  | reckon e ok complexity => exact .kept (.refl _) rfl (.inl rfl)
  | proceed e he =>
    exact .kept (unfinished_giveBack (e := e.advanced) hm
      ((hands_cons_perm _ _ _).mem_iff.2 List.mem_cons_self) rfl rfl) rfl (.inl rfl)
  | succeed e he => exact .kept (.refl _) rfl (.inl rfl)
  | @complete u s e =>
    refine .left e.claim (.completed e.id) (.inl rfl) ?_ rfl rfl
    -- the number stood among the active ones exactly once, so exactly one entry leaves
    have hactive := hm.perm_without ((hands_cons_perm (.ended e) u s).mem_iff.2 List.mem_cons_self)
    show (s.queue.pending.map Entry.claim ++ s.queue.active ++ _).Perm
      (e.claim :: (s.queue.pending.map Entry.claim ++ TaskQueue.without s.queue.active e.id) ++ _)
    refine .append_right _ ((hactive.append_left _).trans ?_)
    exact List.perm_middle
  -- what was pending is now with the activity that discards it
  | @drain u s hu =>
    refine .kept ?_ rfl (.inl rfl)
    show ([] ++ s.queue.active ++ (s.queue.pending.map Entry.claim ++ _)).Perm
      (s.queue.pending.map Entry.claim ++ s.queue.active ++ _)
    rw [List.nil_append, ← List.append_assoc]
    exact .append_right _ List.perm_append_comm
  | discardNext e es => exact .kept (.refl _) rfl (.inl rfl)
  | @discard u s e =>
    exact .left e.claim (.discarded e.id) (.inr rfl) List.perm_middle rfl rfl
  | discardEnd => exact .kept (.refl _) rfl (.inl rfl)

end AssetLoading
