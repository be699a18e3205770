import AssetLoading.Proofs.Shutdown.Accounting
import Mathlib.Algebra.Ring.Nat

/-! # Calls of subscribers

  A delivery decides all its calls before it makes the first one. So a call is due
  from then on and comes to be made; both count as calls. Only three things
  add calls: a subscription that is made while its asset is loaded, a delivery for
  each staged load, and nothing else; loads are staged only where tasks are completed.

  Subscriptions have numbers of their own, so the calls of one subscription can be
  counted by its number.
-/

namespace AssetLoading

/-! ### Calls -/

/-- The number of the subscription that is called. -/
def Event.call? : Event → Option Nat
  | .loaded id .. => some id
  | _ => none

/-- The asset that is staged: a reference is taken for the load event. -/
def Event.staging? : Event → Option Handle
  | .took .notice h => some h
  | _ => none

/-- The numbers of the subscriptions that were called, the latest first. -/
def calledIn (history : List Event) : List Nat :=
  history.filterMap Event.call?

/-- The assets that were staged, the latest first. -/
def stagedIn (history : List Event) : List Handle :=
  history.filterMap Event.staging?

/-- The calls and the stagings that a history tells of. -/
def loadEvents (history : List Event) : List Nat × List Handle :=
  (calledIn history, stagedIn history)

/-- The numbers of the subscriptions that were called, and of those that deliveries
under way still have to call. -/
def Scene.calls (c : Scene) : List Nat :=
  calledIn c.state.history ++ c.due.flatten.map Subscription.id

/-- Subscriptions and staged loads are the same, no load is staged and no call is made or
decided. -/
structure Scene.SameNotices (c d : Scene) : Prop where
  notices : d.state.notices = c.state.notices
  events : loadEvents d.state.history = loadEvents c.state.history
  due : d.due = c.due

section Calling

variable {c d : Scene} {m n : Moment} {u : List Activity} {s t : State}

theorem Scene.SameNotices.calls (h : c.SameNotices d) : d.calls = c.calls := by
  unfold Scene.calls
  rw [(Prod.mk.inj h.events).1, h.due]

theorem Scene.SameNotices.stagedIn (h : c.SameNotices d) :
    stagedIn d.state.history = stagedIn c.state.history :=
  (Prod.mk.inj h.events).2

theorem loadEvents_append {new history : List Event}
    (hnew : ∀ e ∈ new, e.call? = none ∧ e.staging? = none) :
    loadEvents (new ++ history) = loadEvents history := by
  have hcalls : new.filterMap Event.call? = [] :=
    List.filterMap_eq_nil_iff.2 fun e he => (hnew e he).1
  have hstagings : new.filterMap Event.staging? = [] :=
    List.filterMap_eq_nil_iff.2 fun e he => (hnew e he).2
  unfold loadEvents calledIn stagedIn
  rw [List.filterMap_append, List.filterMap_append, hcalls, hstagings]
  rfl

/-- Calls are told among the other events, and stagings among those of references. -/
theorem Records.loadEvents_eq {subject : Subject} (h : Records subject m n) (hother : subject ≠ .other)
    (hasset : subject ≠ .asset) : loadEvents n.state.history = loadEvents m.state.history := by
  obtain ⟨new, hnew, hhistory⟩ := h
  rw [hhistory]
  refine loadEvents_append fun e he => ?_
  have hsubject := hnew e he
  subst hsubject
  cases e <;> first | exact ⟨rfl, rfl⟩ | exact absurd rfl hother | exact absurd rfl hasset

theorem loadEvents_referenced (s : State) {holder : Holder} (hholder : holder ≠ .notice) (h : Handle) :
    loadEvents (s.referenced holder h).history = loadEvents s.history := by
  have htook (history : List Event) : loadEvents (.took holder h :: history) = loadEvents history := by
    cases holder <;> first | rfl | exact absurd rfl hholder
  unfold State.referenced
  split
  · exact htook (.revived h (s.rival? h) :: s.history)
  · exact htook s.history

theorem loadEvents_letGo (s : State) (r : RegistryId) (holder : Holder) (h : Handle) :
    loadEvents (s.letGo r holder h).history = loadEvents s.history := by
  rw [State.history_letGo]
  rfl

theorem AssetStride.loadEvents_eq (h : AssetStride m n) :
    loadEvents n.state.history = loadEvents m.state.history := by
  have hfalls {h : Handle} {m n : Moment} (hfalls : Falls h m n) :
      loadEvents n.state.history = loadEvents m.state.history := by
    cases hfalls <;> rfl
  cases h with
  | take holder h hholder =>
    refine loadEvents_referenced _ ?_ h
    -- a load event is told by the scheduler alone, for a reference of its own
    rintro rfl
    cases hholder
  | defer r h => exact loadEvents_letGo _ r .client h
  | expire h c hfall | again h hfall =>
    have hevents := hfalls hfall
    exact hevents
  | @bury u s r h =>
    show loadEvents (s.unlinked r h).history = _
    unfold State.unlinked
    split
    · rfl
    · split
      · split <;> rfl
      · rfl
  | _ => rfl

theorem JobStride.loadEvents_eq (h : JobStride m n) :
    loadEvents n.state.history = loadEvents m.state.history := by
  cases h with
  | submit => rfl
  | summon =>
    unfold State.summoned
    split <;> rfl
  | move h => exact h.records.loadEvents_eq (by decide) (by decide)

theorem JobStride.notices_eq (h : JobStride m n) : n.state.notices = m.state.notices := by
  cases h with
  | submit => rfl
  | summon =>
    unfold State.summoned
    split <;> rfl
  | move h => cases h <;> rfl

/-- The state after a task was completed and its reference was dropped. -/
def State.taskEnded (s : State) (e : Entry) : State :=
  (s.taskCompleted e).letGo 0 .task e.asset

theorem notices_taskEnded (s : State) (e : Entry) :
    (s.taskEnded e).notices =
      if (s.asset e.asset).state.isLoaded then
        { s.notices with staged := s.notices.staged ++ [e.asset] } else s.notices := by
  have hsame := (State.sameScheduler_letGo (s.taskCompleted e) 0 .task e.asset).notices
  rw [State.taskEnded, hsame]
  unfold State.taskCompleted
  split <;> rfl

theorem loadEvents_taskEnded (s : State) (e : Entry) :
    loadEvents (s.taskEnded e).history = (calledIn s.history,
      if (s.asset e.asset).state.isLoaded then e.asset :: stagedIn s.history
      else stagedIn s.history) := by
  rw [State.taskEnded, loadEvents_letGo]
  unfold State.taskCompleted
  split
  · unfold State.staged State.referenced
    split <;> rfl
  · rfl

theorem TaskStride.same_or_complete (h : TaskStride m n) :
    (n.state.notices = m.state.notices ∧
        loadEvents n.state.history = loadEvents m.state.history) ∨
      ∃ e u, m.underWay = .ended e :: u ∧ n = ⟨u, m.state.taskEnded e⟩ := by
  cases h with
  | @accept u s t =>
    exact .inl ⟨State.notices_referenced s .task t.asset, loadEvents_referenced s (by decide) t.asset⟩
  | @complete u s e => exact .inr ⟨e, u, rfl, rfl⟩
  | discard e =>
    exact .inl ⟨(State.sameScheduler_letGo _ 0 .task e.asset).notices, loadEvents_letGo _ 0 .task e.asset⟩
  | shutDown | drain => exact .inl ⟨rfl, rfl⟩
  | move h =>
    refine .inl ⟨?_, h.records.loadEvents_eq (by decide) (by decide)⟩
    cases h <;> rfl

/-- Load events have to do with strides of their own, and with the completion of a task. -/
theorem Stride.notices_or_same (h : Stride c d) :
    c.SameNotices d ∨ NoticeStride c d ∨
      ∃ e u, c.underWay = .ended e :: u ∧ d = ⟨⟨u, c.state.taskEnded e⟩, c.due⟩ := by
  cases h with
  | asset h => exact .inl ⟨h.sameScheduler.notices, h.loadEvents_eq, rfl⟩
  | body h =>
    exact .inl ⟨h.sameScheduler.notices, h.records.loadEvents_eq (by decide) (by decide), rfl⟩
  | job h => exact .inl ⟨h.notices_eq, h.loadEvents_eq, rfl⟩
  | task h =>
    rcases h.same_or_complete with ⟨hnotices, hevents⟩ | ⟨e, u, hu, rfl⟩
    · exact .inl ⟨hnotices, hevents, rfl⟩
    · exact .inr (.inr ⟨e, u, hu, rfl⟩)
  | notice h => exact .inr (.inl h)
  | plain h =>
    refine .inl ⟨h.sameScheduler.notices, ?_, rfl⟩
    cases h with
    | note e he => cases e <;> first | rfl | exact he.elim
    | _ => rfl

end Calling

/-! ### Tables of subscriptions -/

namespace Notices

variable {n : Notices}

theorem keys_setSubscribers (n : Notices) (h : Handle) (list : List Subscription)
    (hn : (n.subscriptions.map Prod.fst).Nodup) :
    ((n.setSubscribers h list).subscriptions.map Prod.fst).Nodup := by
  have hremoved : ((n.subscriptions.remove h).map Prod.fst).Nodup :=
    hn.sublist (List.filter_sublist.map Prod.fst)
  unfold setSubscribers
  split
  · exact hremoved
  · refine List.nodup_cons.2 ⟨fun hmem => ?_, hremoved⟩
    obtain ⟨p, hp, heq⟩ := List.mem_map.1 hmem
    have hne := (List.mem_filter.1 hp).2
    exact absurd heq (of_decide_eq_true hne)

theorem keys_prune (n : Notices) (keep : Subscription → Bool)
    (hn : (n.subscriptions.map Prod.fst).Nodup) :
    ((n.prune keep).subscriptions.map Prod.fst).Nodup := by
  refine List.Nodup.sublist (List.filter_sublist.map Prod.fst) ?_
  rw [List.map_map]
  exact hn

theorem lookup_pruned (keep : Subscription → Bool) (h : Handle)
    {table : Table Handle (List Subscription)} (hn : (table.map Prod.fst).Nodup) :
    (((table.map fun p => (p.1, p.2.filter keep)).filter fun p => !p.2.isEmpty).lookup h).getD [] =
      ((table.lookup h).getD []).filter keep := by
  induction table with
  | nil => rfl
  | cons p table ih =>
    obtain ⟨k, list⟩ := p
    obtain ⟨hnew, hrest⟩ := List.nodup_cons.1 hn
    have ih := ih hrest
    rw [List.map_cons, List.lookup_cons]
    by_cases hk : h = k
    · subst hk
      -- what is dropped here is not found further down
      have hnone : table.lookup h = none := by
        refine List.lookup_eq_none_iff.2 fun q hq => ?_
        rw [bne_iff_ne]
        rintro rfl
        exact hnew (List.mem_map.2 ⟨q, hq, rfl⟩)
      by_cases hempty : list.filter keep = []
      · rw [List.filter_cons_of_neg (by simp [hempty]), ih, hnone, beq_self_eq_true]
        exact hempty.symm
      · rw [List.filter_cons_of_pos (by simpa using hempty), List.lookup_cons]
        simp
    · have hne : (h == k) = false := beq_eq_false_iff_ne.2 hk
      rw [hne, ← ih]
      by_cases hempty : list.filter keep = []
      · rw [List.filter_cons_of_neg (by simp [hempty])]
      · rw [List.filter_cons_of_pos (by simpa using hempty), List.lookup_cons, hne]

/-- Pruning keeps of each asset the subscriptions that satisfy the condition. -/
theorem subscribers_prune (keep : Subscription → Bool) (h : Handle)
    (hn : (n.subscriptions.map Prod.fst).Nodup) :
    (n.prune keep).subscribers h = (n.subscribers h).filter keep :=
  lookup_pruned keep h hn

theorem subscribers_subscribe (n : Notices) (h k : Handle) (label : String) (code : Script) :
    (n.subscribe h label code).2.subscribers k =
      if k = h then n.subscribers h ++ [(n.subscribe h label code).1] else n.subscribers k :=
  n.subscribers_setSubscribers h k _

theorem subscribers_unsubscribe (n : Notices) (h k : Handle) (id : Option Nat) :
    ((n.unsubscribe h id).2.subscribers k).Sublist (n.subscribers k) := by
  have hkept (list : List Subscription) (hlist : list.Sublist (n.subscribers h)) :
      ((n.setSubscribers h list).subscribers k).Sublist (n.subscribers k) := by
    rw [subscribers_setSubscribers]
    split
    next heq => exact heq ▸ hlist
    next => exact List.Sublist.refl _
  unfold unsubscribe
  cases id with
  | none => exact hkept _ (List.nil_sublist _)
  | some id => exact hkept _ List.filter_sublist

/-- Among the calls for staged loads each load counts with its asset's subscriptions. -/
theorem countP_calls (n : Notices) (p : Subscription → Bool) (staged : List Handle) :
    (n.calls staged).countP p = (staged.map fun h => (n.subscribers h).countP p).sum := by
  unfold calls
  rw [List.countP_flatMap]
  rfl

end Notices

/-! ### Numbers of subscriptions -/

/-- The numbers of subscriptions were given out before. -/
structure Scene.Numbered (c : Scene) : Prop where
  keys : (c.state.notices.subscriptions.map Prod.fst).Nodup
  listed : ∀ h, ∀ sub ∈ c.state.notices.subscribers h, sub.id < c.state.notices.nextId
  called : ∀ id ∈ c.calls, id < c.state.notices.nextId

/-- A subscription got its number, which it shares with no other, and it is found with
its asset if at all. -/
structure Scene.Knows (c : Scene) (sub : Subscription) : Prop where
  given : sub.id < c.state.notices.nextId
  single : (c.state.notices.subscribers sub.asset).countP (·.id = sub.id) ≤ 1
  elsewhere : ∀ h, h ≠ sub.asset → (c.state.notices.subscribers h).countP (·.id = sub.id) = 0

/-- The same subscriptions and calls. -/
structure Scene.SameSubscriptions (c d : Scene) : Prop where
  subscriptions : d.state.notices.subscriptions = c.state.notices.subscriptions
  nextId : d.state.notices.nextId = c.state.notices.nextId
  calls : d.calls = c.calls

section Numbering

variable {c d : Scene} {sub : Subscription}

theorem Scene.SameSubscriptions.subscribers (h : c.SameSubscriptions d) (k : Handle) :
    d.state.notices.subscribers k = c.state.notices.subscribers k := by
  unfold Notices.subscribers
  rw [h.subscriptions]

theorem Scene.SameNotices.sameSubscriptions (h : c.SameNotices d) : c.SameSubscriptions d :=
  ⟨congrArg Notices.subscriptions h.notices, congrArg Notices.nextId h.notices, h.calls⟩

/-- The completion of a task makes no subscription and no call. -/
theorem sameSubscriptions_taskEnded (c : Scene) (e : Entry) (u : List Activity) :
    c.SameSubscriptions ⟨⟨u, c.state.taskEnded e⟩, c.due⟩ := by
  have hnotices := notices_taskEnded c.state e
  have hcalled := (Prod.mk.inj (loadEvents_taskEnded c.state e)).1
  refine ⟨?_, ?_, ?_⟩
  · show (c.state.taskEnded e).notices.subscriptions = _
    rw [hnotices]
    split <;> rfl
  · show (c.state.taskEnded e).notices.nextId = _
    rw [hnotices]
    split <;> rfl
  · unfold Scene.calls
    rw [← hcalled]

theorem Scene.Numbered.start (p : Session) : Scene.Numbered ⟨⟨[], p.start⟩, []⟩ := by
  have hnone : p.start.notices = {} ∧ calledIn p.start.history = [] := by
    unfold Session.start
    dsimp only
    split <;> exact ⟨rfl, rfl⟩
  obtain ⟨hnotices, hcalled⟩ := hnone
  refine ⟨?_, fun h sub hsub => ?_, fun id hid => ?_⟩
  · show (p.start.notices.subscriptions.map Prod.fst).Nodup
    rw [hnotices]
    exact List.nodup_nil
  · change sub ∈ p.start.notices.subscribers h at hsub
    rw [hnotices] at hsub
    cases hsub
  · change id ∈ calledIn p.start.history ++ [] at hid
    rw [hcalled] at hid
    cases hid

theorem Scene.Numbered.same (hc : c.Numbered) (hcd : c.SameSubscriptions d) : d.Numbered := by
  refine ⟨?_, fun h => ?_, ?_⟩
  · rw [hcd.subscriptions]
    exact hc.keys
  · rw [hcd.subscribers, hcd.nextId]
    exact hc.listed h
  · rw [hcd.nextId, hcd.calls]
    exact hc.called

theorem Scene.Knows.same (hc : c.Knows sub) (hcd : c.SameSubscriptions d) : d.Knows sub := by
  refine ⟨?_, ?_, fun h => ?_⟩
  · rw [hcd.nextId]
    exact hc.given
  · rw [hcd.subscribers]
    exact hc.single
  · rw [hcd.subscribers]
    exact hc.elsewhere h

/-- A call that is due comes to be made. -/
theorem perm_calls_call {u : List Activity} {s : State} {due : List (List Subscription)}
    {subs : List Subscription} {label : String} {h : Handle} {name : Option String}
    {state : LoadState} :
    (Scene.calls ⟨⟨u, s.record (.loaded sub.id label h name state)⟩, subs :: due⟩).Perm
      (Scene.calls ⟨⟨u, s⟩, (sub :: subs) :: due⟩) :=
  List.perm_middle.symm

/-- The calls of a delivery that begins come to the others. -/
theorem perm_calls_begun (subs : List Subscription) (history : List Event)
    (due : List (List Subscription)) :
    (calledIn history ++ (subs :: due).flatten.map Subscription.id).Perm
      (subs.map Subscription.id ++ (calledIn history ++ due.flatten.map Subscription.id)) := by
  rw [List.flatten_cons, List.map_append]
  exact List.perm_append_comm_assoc _ _ _

/-- A load event keeps the numbers in order. -/
theorem Scene.Numbered.notice (hc : c.Numbered) (h : NoticeStride c d) : d.Numbered := by
  cases h with
  | @subscribe u s due h label code =>
    refine ⟨s.notices.keys_setSubscribers h _ hc.keys, fun k sub hsub => ?_, fun id hid => ?_⟩
    · -- the new subscription gets the next number, and that is used up
      change sub ∈ (s.notices.subscribe h label code).2.subscribers k at hsub
      show sub.id < s.notices.nextId + 1
      rw [Notices.subscribers_subscribe] at hsub
      split at hsub
      next =>
        rcases List.mem_append.1 hsub with hold | hnew
        · exact Nat.lt_succ_of_lt (hc.listed h sub hold)
        · rw [List.mem_singleton.1 hnew]
          exact Nat.lt_succ_self _
      next => exact Nat.lt_succ_of_lt (hc.listed k sub hsub)
    · show id < s.notices.nextId + 1
      -- a call made at once has the new number, all others have old ones
      rcases List.mem_append.1 ((perm_calls_begun _ s.history due).mem_iff.1 hid) with hnew | hold
      · split at hnew
        · rw [List.mem_singleton.1 hnew]
          exact Nat.lt_succ_self _
        · cases hnew
      · exact Nat.lt_succ_of_lt (hc.called id hold)
  | @unsubscribe u s due h id =>
    refine ⟨s.notices.keys_setSubscribers h _ hc.keys, fun k sub hsub => ?_, hc.called⟩
    exact hc.listed k sub ((s.notices.subscribers_unsubscribe h k id).subset hsub)
  | @takeUp u s due =>
    -- what is taken up was listed before
    let keep : Subscription → Bool := fun sub => !(s.asset sub.asset).destroyed
    have hkept (k : Handle) (sub : Subscription) (hsub : sub ∈ (s.notices.prune keep).subscribers k) :
        sub.id < s.notices.nextId := by
      rw [Notices.subscribers_prune keep k hc.keys] at hsub
      exact hc.listed k sub (List.mem_of_mem_filter hsub)
    refine ⟨s.notices.keys_prune keep hc.keys, hkept, fun id hid => ?_⟩
    rcases List.mem_append.1 ((perm_calls_begun _ s.history due).mem_iff.1 hid) with hnew | hold
    · obtain ⟨sub, hsub, rfl⟩ := List.mem_map.1 hnew
      obtain ⟨k, -, hk⟩ := List.mem_flatMap.1 hsub
      exact hkept k sub hk
    · exact hc.called id hold
  | clear => exact ⟨List.nodup_nil, fun _ _ hsub => absurd hsub List.not_mem_nil, hc.called⟩
  | call sub subs =>
    exact ⟨hc.keys, hc.listed, fun id hid => hc.called id (perm_calls_call.mem_iff.1 hid)⟩
  | called | releaseNext | released => exact ⟨hc.keys, hc.listed, hc.called⟩

theorem Scene.Numbered.stride (hc : c.Numbered) (h : Stride c d) : d.Numbered := by
  rcases h.notices_or_same with hsame | hnotice | ⟨e, u, -, rfl⟩
  · exact hc.same hsame.sameSubscriptions
  · exact hc.notice hnotice
  · exact hc.same (sameSubscriptions_taskEnded c e u)

theorem Occurs.numbered (hc : Occurs c) : c.Numbered :=
  hc.invariant Scene.Numbered.start fun _ _ _ hstride h => h.stride hstride

/-- A load event lists no subscription under a number that was given out before. -/
theorem NoticeStride.countP_subscribers_le (h : NoticeStride c d) (hc : c.Numbered)
    (hgiven : sub.id < c.state.notices.nextId) (k : Handle) :
    (d.state.notices.subscribers k).countP (·.id = sub.id) ≤
      (c.state.notices.subscribers k).countP (·.id = sub.id) := by
  cases h with
  | @subscribe u s due h label code =>
    show ((s.notices.subscribe h label code).2.subscribers k).countP _ ≤ _
    rw [Notices.subscribers_subscribe]
    split
    next heq =>
      have hnew : s.notices.nextId ≠ sub.id := Nat.ne_of_gt hgiven
      rw [heq, List.countP_append, List.countP_singleton]
      simp [Notices.subscribe, hnew]
    next => exact Nat.le_refl _
  | @unsubscribe u s due h id => exact (s.notices.subscribers_unsubscribe h k id).countP_le
  | @takeUp u s due =>
    show ((s.notices.prune _).subscribers k).countP _ ≤ _
    rw [Notices.subscribers_prune _ k hc.keys]
    exact List.filter_sublist.countP_le
  | clear => exact Nat.zero_le _
  | call | called | releaseNext | released => exact Nat.le_refl _

theorem NoticeStride.nextId_le (h : NoticeStride c d) :
    c.state.notices.nextId ≤ d.state.notices.nextId := by
  cases h with
  | subscribe => exact Nat.le_succ _
  | _ => exact Nat.le_refl _

theorem Scene.Knows.stride (hknows : c.Knows sub) (hc : c.Numbered) (h : Stride c d) :
    d.Knows sub := by
  rcases h.notices_or_same with hsame | hnotice | ⟨e, u, -, rfl⟩
  · exact hknows.same hsame.sameSubscriptions
  · have hle := hnotice.countP_subscribers_le hc hknows.given
    refine ⟨Nat.lt_of_lt_of_le hknows.given hnotice.nextId_le, ?_, fun k hk => ?_⟩
    · exact Nat.le_trans (hle sub.asset) hknows.single
    · exact Nat.le_zero.1 (Nat.le_trans (hle k) (Nat.le_of_eq (hknows.elsewhere k hk)))
  · exact hknows.same (sameSubscriptions_taskEnded c e u)

end Numbering

/-! ### Counting the calls of a subscription -/

/-- Between two scenes of a run a subscription is called at most once for each load that
was staged, and exactly so if it is still there. -/
structure Scene.Advances (sub : Subscription) (c d : Scene) : Prop where
  /-- No call is taken back. -/
  mono : c.calls.count sub.id ≤ d.calls.count sub.id
  atMost : d.calls.count sub.id + d.state.notices.staged.count sub.asset +
      (stagedIn c.state.history).count sub.asset ≤
    c.calls.count sub.id + c.state.notices.staged.count sub.asset +
      (stagedIn d.state.history).count sub.asset
  /-- A subscription that was removed does not come back. -/
  kept : sub ∈ d.state.notices.subscribers sub.asset →
    sub ∈ c.state.notices.subscribers sub.asset
  exact : sub ∈ d.state.notices.subscribers sub.asset →
    d.calls.count sub.id + d.state.notices.staged.count sub.asset +
        (stagedIn c.state.history).count sub.asset =
      c.calls.count sub.id + c.state.notices.staged.count sub.asset +
        (stagedIn d.state.history).count sub.asset

section Counting

variable {b c d : Scene} {sub : Subscription}

theorem Scene.Advances.refl (sub : Subscription) (c : Scene) : c.Advances sub c :=
  ⟨Nat.le_refl _, Nat.le_refl _, id, fun _ => rfl⟩

theorem Scene.Advances.trans (hbc : b.Advances sub c) (hcd : c.Advances sub d) :
    b.Advances sub d where
  mono := Nat.le_trans hbc.mono hcd.mono
  atMost := by
    have hfirst := hbc.atMost
    have hsecond := hcd.atMost
    omega
  kept hd := hbc.kept (hcd.kept hd)
  exact hd := by
    have hfirst := hbc.exact (hcd.kept hd)
    have hsecond := hcd.exact hd
    omega

/-- Calls, staged loads and the subscription are the same, as far as it is concerned. -/
theorem Scene.Advances.same (hcalls : d.calls.count sub.id = c.calls.count sub.id)
    (hstaged : d.state.notices.staged = c.state.notices.staged)
    (hevents : stagedIn d.state.history = stagedIn c.state.history)
    (hkept : sub ∈ d.state.notices.subscribers sub.asset →
      sub ∈ c.state.notices.subscribers sub.asset) : c.Advances sub d := by
  refine ⟨Nat.le_of_eq hcalls.symm, Nat.le_of_eq ?_, hkept, fun _ => ?_⟩
  · rw [hcalls, hstaged, hevents]
  · rw [hcalls, hstaged, hevents]

theorem count_map_id (subs : List Subscription) (k : Nat) :
    (subs.map Subscription.id).count k = subs.countP (·.id = k) := by
  rw [List.count, List.countP_map]
  refine List.countP_congr fun sub _ => ?_
  simp

/-- What each staged load counts for, if at most that of one asset counts. -/
theorem sum_map_le_count {f : Handle → Nat} {a : Handle} (ha : f a ≤ 1) (hne : ∀ h, h ≠ a → f h = 0)
    (staged : List Handle) : (staged.map f).sum ≤ staged.count a := by
  induction staged with
  | nil => exact Nat.le_refl _
  | cons h staged ih =>
    rw [List.map_cons, List.sum_cons, List.count_cons]
    by_cases heq : h = a
    · subst heq
      rw [beq_self_eq_true, if_pos rfl]
      omega
    · rw [hne h heq]
      omega

theorem sum_map_eq_count {f : Handle → Nat} {a : Handle} (ha : f a = 1) (hne : ∀ h, h ≠ a → f h = 0)
    (staged : List Handle) : (staged.map f).sum = staged.count a := by
  induction staged with
  | nil => rfl
  | cons h staged ih =>
    rw [List.map_cons, List.sum_cons, List.count_cons, ih]
    by_cases heq : h = a
    · rw [heq, ha, beq_self_eq_true, if_pos rfl, Nat.add_comm]
    · rw [hne h heq, beq_eq_false_iff_ne.2 heq, if_neg Bool.false_ne_true, Nat.zero_add, Nat.add_zero]

/-- A delivery decides at most one call of a subscription for each staged load of its
asset, and one if the subscription is still there. -/
theorem countP_calls_staged {n : Notices} (staged : List Handle)
    (hsingle : (n.subscribers sub.asset).countP (·.id = sub.id) ≤ 1)
    (helsewhere : ∀ h, h ≠ sub.asset → (n.subscribers h).countP (·.id = sub.id) = 0) :
    (n.calls staged).countP (·.id = sub.id) ≤ staged.count sub.asset ∧
      (sub ∈ n.subscribers sub.asset →
        (n.calls staged).countP (·.id = sub.id) = staged.count sub.asset) := by
  let counted (h : Handle) : Nat := (n.subscribers h).countP (·.id = sub.id)
  rw [Notices.countP_calls]
  refine ⟨sum_map_le_count (f := counted) hsingle helsewhere staged, fun hsub => ?_⟩
  have hsome : 0 < (n.subscribers sub.asset).countP (·.id = sub.id) :=
    List.countP_pos_iff.2 ⟨sub, hsub, decide_eq_true rfl⟩
  exact sum_map_eq_count (f := counted) (Nat.le_antisymm hsingle hsome) helsewhere staged

/-- A load event brings no subscription back. -/
theorem NoticeStride.mem_subscribers (h : NoticeStride c d) (hc : c.Numbered)
    (hgiven : sub.id < c.state.notices.nextId)
    (hsub : sub ∈ d.state.notices.subscribers sub.asset) :
    sub ∈ c.state.notices.subscribers sub.asset := by
  cases h with
  | @subscribe u s due h label code =>
    change sub ∈ (s.notices.subscribe h label code).2.subscribers sub.asset at hsub
    rw [Notices.subscribers_subscribe] at hsub
    split at hsub
    next heq =>
      rcases List.mem_append.1 hsub with hold | hnew
      · rwa [heq]
      · rw [List.mem_singleton.1 hnew] at hgiven
        exact absurd hgiven (Nat.lt_irrefl _)
    next => exact hsub
  | @unsubscribe u s due h id => exact (s.notices.subscribers_unsubscribe h sub.asset id).subset hsub
  | @takeUp u s due =>
    change sub ∈ (s.notices.prune _).subscribers sub.asset at hsub
    rw [Notices.subscribers_prune _ sub.asset hc.keys] at hsub
    exact List.mem_of_mem_filter hsub
  | clear => exact absurd hsub List.not_mem_nil
  | call | called | releaseNext | released => exact hsub

theorem NoticeStride.advances (h : NoticeStride c d) (hc : c.Numbered) (hknows : c.Knows sub) :
    c.Advances sub d := by
  have hkept := h.mem_subscribers hc hknows.given
  have hknown := hknows.stride hc (.notice h)
  cases h with
  | @subscribe u s due h label code =>
    refine .same ?_ rfl rfl hkept
    -- a new subscription has another number, so this one gets no call at once
    have hnew : s.notices.nextId ≠ sub.id := Nat.ne_of_gt hknows.given
    show (calledIn s.history ++ (_ :: due).flatten.map Subscription.id).count sub.id = _
    rw [(perm_calls_begun _ s.history due).count_eq, List.count_append]
    refine Nat.add_eq_right.2 (List.count_eq_zero.2 fun hmem => ?_)
    split at hmem
    · exact hnew (List.mem_singleton.1 hmem).symm
    · cases hmem
  | unsubscribe => exact .same rfl rfl rfl hkept
  | @takeUp u s due =>
    let notices := s.notices.prune fun sub => !(s.asset sub.asset).destroyed
    have hcalls : (Scene.calls ⟨⟨.releasing s.notices.staged :: u,
        s.withNotices { notices with staged := [] }⟩, notices.calls s.notices.staged :: due⟩).count
          sub.id = (notices.calls s.notices.staged).countP (·.id = sub.id) +
            (Scene.calls ⟨⟨u, s⟩, due⟩).count sub.id := by
      rw [← count_map_id, ← List.count_append]
      exact (perm_calls_begun _ s.history due).count_eq _
    -- each staged load leads to one call as long as the subscription is there
    obtain ⟨hle, heq⟩ := countP_calls_staged (n := notices) s.notices.staged hknown.single
      hknown.elsewhere
    refine ⟨?_, ?_, hkept, fun hsub => ?_⟩
    · rw [hcalls]
      exact Nat.le_add_left _ _
    · rw [hcalls]
      show _ + 0 + (stagedIn s.history).count sub.asset ≤
        _ + s.notices.staged.count sub.asset + (stagedIn s.history).count sub.asset
      omega
    · rw [hcalls]
      have heq := heq hsub
      show _ + 0 + (stagedIn s.history).count sub.asset =
        _ + s.notices.staged.count sub.asset + (stagedIn s.history).count sub.asset
      omega
  | @clear u s due =>
    -- whatever is staged is forgotten, so only the upper bound is left
    refine ⟨Nat.le_refl _, ?_, hkept, fun hsub => absurd hsub List.not_mem_nil⟩
    exact Nat.add_le_add_right (Nat.add_le_add_left (Nat.zero_le _) _) _
  | call next rest => exact .same (perm_calls_call.count_eq sub.id) rfl rfl hkept
  | called | releaseNext | released => exact .same rfl rfl rfl hkept

theorem Stride.advances (h : Stride c d) (hc : c.Numbered) (hknows : c.Knows sub) :
    c.Advances sub d := by
  rcases h.notices_or_same with hsame | hnotice | ⟨e, u, -, rfl⟩
  · have hsubscribers := hsame.sameSubscriptions.subscribers sub.asset
    exact .same (congrArg (List.count sub.id) hsame.calls) (congrArg Notices.staged hsame.notices)
      hsame.stagedIn fun hsub => hsubscribers ▸ hsub
  · exact hnotice.advances hc hknows
  · have hsame := sameSubscriptions_taskEnded c e u
    have hcalls := congrArg (List.count sub.id) hsame.calls
    have hsubscribers := hsame.subscribers sub.asset
    -- what the completed task stages is counted among the load events, too
    have hstagings : (c.state.taskEnded e).notices.staged.count sub.asset +
          (stagedIn c.state.history).count sub.asset =
        c.state.notices.staged.count sub.asset +
          (stagedIn (c.state.taskEnded e).history).count sub.asset := by
      rw [notices_taskEnded, (Prod.mk.inj (loadEvents_taskEnded c.state e)).2]
      split
      · rw [List.count_append, List.count_singleton, List.count_cons]
        omega
      · rfl
    refine ⟨Nat.le_of_eq hcalls.symm, Nat.le_of_eq ?_, fun hsub => hsubscribers ▸ hsub, fun _ => ?_⟩
    · rw [hcalls, Nat.add_assoc, Nat.add_assoc, ← hstagings]
    · rw [hcalls, Nat.add_assoc, Nat.add_assoc, ← hstagings]

/-- In any number of strides a subscription is called at most once for each load that was
staged, and exactly so if it is still there. -/
theorem Strides.advances (h : Strides c d) (hc : c.Numbered) (hknows : c.Knows sub) :
    d.Knows sub ∧ c.Advances sub d := by
  have hall : d.Numbered ∧ d.Knows sub ∧ c.Advances sub d := by
    induction h with
    | refl => exact ⟨hc, hknows, .refl sub c⟩
    | tail _ hstride ih =>
      obtain ⟨hnumbered, hknows, hadvances⟩ := ih
      exact ⟨hnumbered.stride hstride, hknows.stride hnumbered hstride,
        hadvances.trans (hstride.advances hnumbered hknows)⟩
  exact hall.2

/-! ### A new subscription -/

/-- The subscription that is made next. -/
def Scene.subscription (c : Scene) (h : Handle) (label : String) (code : Script) : Subscription :=
  (c.state.notices.subscribe h label code).1

/-- The scene in which that subscription has been made, and it is decided whether it is
called at once. -/
def Scene.subscribed (c : Scene) (h : Handle) (label : String) (code : Script) : Scene :=
  ⟨⟨c.underWay, c.state.withNotices (c.state.notices.subscribe h label code).2⟩,
    (if (c.state.asset h).state.isLoaded && !c.state.notices.staged.contains h then
      [c.subscription h label code] else []) :: c.due⟩

variable (h : Handle) (label : String) (code : Script)

theorem stride_subscribed (c : Scene) : Stride c (c.subscribed h label code) :=
  .notice (.subscribe h label code)

/-- When subscribing returns, the subscriber has been called if that was decided. -/
theorem strides_of_subscribe {fuel : Nat} {thread : Thread} {u : List Activity} {s t : State}
    {due : List (List Subscription)} {id : Nat}
    (hrun : subscribe (run fuel) thread h label code s = .ok id t) :
    id = (Scene.subscription ⟨⟨u, s⟩, due⟩ h label code).id ∧
      Strides (Scene.subscribed ⟨⟨u, s⟩, due⟩ h label code) ⟨⟨u, t⟩, due⟩ := by
  let sub := Scene.subscription ⟨⟨u, s⟩, due⟩ h label code
  let made : State := s.withNotices (s.notices.subscribe h label code).2
  -- the code and the scene ask the same question: is it loaded, and not staged?
  change (if (s.asset h).state.isLoaded && !s.notices.staged.contains h then
    notify (run fuel) thread sub >>= fun _ => pure sub.id else pure sub.id) made = .ok id t at hrun
  show id = sub.id ∧ Strides ⟨⟨u, made⟩, (if (s.asset h).state.isLoaded && !s.notices.staged.contains h
    then [sub] else []) :: due⟩ ⟨⟨u, t⟩, due⟩
  split at hrun
  next hnow =>
    obtain ⟨_, r, hnotify, hpure⟩ := Exec.bind_eq_ok hrun
    obtain ⟨rfl, rfl⟩ := EStateM.Result.ok.inj hpure
    rw [if_pos hnow]
    have htraced : Traced ⟨⟨u, made⟩, [sub] :: due⟩ (notify (run fuel) thread sub) fun _ =>
        Scene.Has u ([] :: due) := traced_notify (run_isTraced fuel) thread sub []
    exact ⟨rfl, (Traced.strides htraced hnotify).tail (.notice .called)⟩
  next hlater =>
    obtain ⟨rfl, rfl⟩ := EStateM.Result.ok.inj hrun
    rw [if_neg hlater]
    exact ⟨rfl, .single (.notice .called)⟩

theorem Scene.Numbered.knows_subscription (hc : c.Numbered) :
    (c.subscribed h label code).Knows (c.subscription h label code) := by
  have hnone (k : Handle) :
      (c.state.notices.subscribers k).countP (·.id = (c.subscription h label code).id) = 0 :=
    List.countP_eq_zero.2 fun sub hsub heq =>
      Nat.ne_of_lt (hc.listed k sub hsub) (of_decide_eq_true heq)
  refine ⟨Nat.lt_succ_self _, ?_, fun k hk => ?_⟩
  · show ((c.state.notices.subscribe h label code).2.subscribers h).countP _ ≤ 1
    rw [Notices.subscribers_subscribe, if_pos rfl, List.countP_append, hnone h, Nat.zero_add]
    exact List.countP_le_length
  · show ((c.state.notices.subscribe h label code).2.subscribers k).countP _ = 0
    rw [Notices.subscribers_subscribe, if_neg (show k ≠ h from hk)]
    exact hnone k

/-- So far the new subscription is called once if its asset is loaded and no delivery is
still to come, and else not at all. -/
theorem Scene.Numbered.count_subscription (hc : c.Numbered) :
    (c.subscribed h label code).calls.count (c.subscription h label code).id =
      if (c.state.asset h).state.isLoaded && !c.state.notices.staged.contains h then 1 else 0 := by
  have hnone : c.calls.count c.state.notices.nextId = 0 :=
    List.count_eq_zero.2 fun hmem => Nat.lt_irrefl _ (hc.called _ hmem)
  show (calledIn c.state.history ++ (_ :: c.due).flatten.map Subscription.id).count
    c.state.notices.nextId = _
  rw [(perm_calls_begun _ c.state.history c.due).count_eq, List.count_append]
  refine (Nat.add_eq_left.2 hnone).trans ?_
  split
  · exact List.count_singleton_self
  · rfl

/-- **The calls of a subscription.** As long as a subscription is there, it is called once
for each load of its asset that was staged when it was made or later, as far as that was
taken up, and once more at the beginning if the asset was loaded then and not staged. -/
theorem calls_of_subscription (hc : Occurs c) (hcd : Strides (c.subscribed h label code) d)
    (hsub : c.subscription h label code ∈ d.state.notices.subscribers h) :
    d.calls.count (c.subscription h label code).id + d.state.notices.staged.count h +
        (stagedIn c.state.history).count h =
      (if (c.state.asset h).state.isLoaded && !c.state.notices.staged.contains h then 1 else 0) +
        c.state.notices.staged.count h + (stagedIn d.state.history).count h := by
  have hnumbered := hc.numbered
  have hadvances := hcd.advances (hnumbered.stride (stride_subscribed h label code c))
    (hnumbered.knows_subscription h label code)
  have hexact := hadvances.2.exact hsub
  rw [hnumbered.count_subscription] at hexact
  exact hexact

/-! ### Deliveries -/

/-- The scene in which a delivery has taken up the staged loads. -/
def Scene.takenUp (c : Scene) : Scene :=
  let notices := c.state.notices.prune fun sub => !(c.state.asset sub.asset).destroyed
  ⟨⟨.releasing c.state.notices.staged :: c.underWay,
    c.state.withNotices { notices with staged := [] }⟩, notices.calls c.state.notices.staged :: c.due⟩

theorem stride_takenUp (c : Scene) : Stride c c.takenUp :=
  .notice .takeUp

/-- A delivery that returns has made its calls and dropped its references. -/
theorem strides_of_deliver {fuel n : Nat} {thread : Thread} {u : List Activity} {s t : State}
    {due : List (List Subscription)} (hrun : deliver (run fuel) thread s = .ok n t) :
    Strides (Scene.takenUp ⟨⟨u, s⟩, due⟩) ⟨⟨u, t⟩, due⟩ := by
  let calls := (s.notices.prune fun sub => !(s.asset sub.asset).destroyed).calls s.notices.staged
  have htraced : Traced (Scene.takenUp ⟨⟨u, s⟩, due⟩)
      (notifyAll (run fuel) thread calls >>= fun _ =>
        releaseAll (run fuel) { thread } .notice s.notices.staged >>= fun _ => pure calls.length)
      fun _ => Scene.Has u due := by
    refine .bind (traced_notifyAll (run_isTraced fuel) thread calls) ?_
    rintro _ ⟨⟨v, r⟩, l⟩ ⟨hv, hl⟩
    obtain rfl : v = .releasing s.notices.staged :: u := hv
    obtain rfl : l = due := hl
    exact (leads_releaseAll (run_isTraced fuel) (.inl rfl) _).first fun _ r => .pure ⟨rfl, rfl⟩
  have hrest : (notifyAll (run fuel) thread calls >>= fun _ =>
      releaseAll (run fuel) { thread } .notice s.notices.staged >>= fun _ => pure calls.length)
        (Scene.takenUp ⟨⟨u, s⟩, due⟩).state = .ok n t := hrun
  exact Traced.strides htraced hrest

end Counting

end AssetLoading
