import AssetLoading.Proofs.Notices.Calls

/-! # The roll of subscribers

  Subscriptions are kept in a table of lists, one list for each asset. To a client this is
  one list, the roll, in the order of subscription. A table reads as a roll if each of its
  lists is what the roll says of one asset; it reads as no other roll then
  (`Notices.ReadsAs.unique`).

  Each operation on tables is matched by one on rolls that appends to the list or filters
  it. So a whole run is matched by a run of a desk, which holds a roll and the calls that
  were decided and not made (`Stride.readsAs`, `Strides.readsAs`). Deliveries may be
  nested, so the desk has a pile of such calls.
-/

namespace AssetLoading

/-! ### Rolls -/

/-- All subscriptions in order of their numbers, and the staged assets. -/
structure Roll where
  listed : List Subscription
  /-- Assets to notify about, oldest first. -/
  staged : List Handle
  /-- Number of the next subscription. -/
  nextId : Nat
  ordered : listed.Pairwise fun a b => a.id < b.id
  given : ∀ sub ∈ listed, sub.id < nextId

/-- A subscription is meant by the removal of one subscription to an asset, or of all. -/
def Subscription.isMeant (h : Handle) (id : Option Nat) (sub : Subscription) : Bool :=
  sub.asset = h && id.all fun id => sub.id = id

namespace Roll

/-- The subscriptions of an asset. -/
def of (r : Roll) (h : Handle) : List Subscription :=
  r.listed.filter (·.asset = h)

/-- The next subscription. -/
def subscription (r : Roll) (h : Handle) (label : String) (code : Script) : Subscription :=
  ⟨r.nextId, h, label, code⟩

/-- The roll with one more subscription. -/
def added (r : Roll) (h : Handle) (label : String) (code : Script) : Roll where
  listed := r.listed ++ [r.subscription h label code]
  staged := r.staged
  nextId := r.nextId + 1
  ordered := by
    refine List.pairwise_append.2 ⟨r.ordered, List.pairwise_singleton _ _, fun a ha b hb => ?_⟩
    rw [List.mem_singleton.1 hb]
    exact r.given a ha
  given sub hsub := by
    rcases List.mem_append.1 hsub with hold | hnew
    · exact Nat.lt_succ_of_lt (r.given sub hold)
    · rw [List.mem_singleton.1 hnew]
      exact Nat.lt_succ_self _

/-- The roll with those subscriptions only that satisfy a condition. -/
def keeping (r : Roll) (keep : Subscription → Bool) : Roll where
  listed := r.listed.filter keep
  staged := r.staged
  nextId := r.nextId
  ordered := r.ordered.sublist List.filter_sublist
  given sub hsub := r.given sub (List.mem_of_mem_filter hsub)

/-- The roll with other staged assets. -/
def staging (r : Roll) (staged : List Handle) : Roll :=
  { r with staged }

/-- The roll without one subscription to an asset, or without all. -/
def removed (r : Roll) (h : Handle) (id : Option Nat) : Roll :=
  r.keeping fun sub => !sub.isMeant h id

/-- The roll without the subscriptions to destroyed assets. -/
def pruned (r : Roll) (s : State) : Roll :=
  r.keeping fun sub => !(s.asset sub.asset).destroyed

/-- The calls for the staged assets: for one after the other, its subscriptions. -/
def calls (r : Roll) : List Subscription :=
  r.staged.flatMap r.of

/-- The roll without any subscription and staged asset. -/
def cleared (r : Roll) : Roll :=
  (r.keeping fun _ => false).staging []

/-- A roll is known by its list, its staged assets and its next number. -/
theorem ext {q r : Roll} (hlisted : q.listed = r.listed) (hstaged : q.staged = r.staged)
    (hnext : q.nextId = r.nextId) : q = r := by
  cases q
  cases r
  simp only at hlisted hstaged hnext
  subst hlisted hstaged hnext
  rfl

theorem of_added (r : Roll) (h k : Handle) (label : String) (code : Script) :
    (r.added h label code).of k =
      if k = h then r.of h ++ [r.subscription h label code] else r.of k := by
  unfold of added
  rw [List.filter_append]
  by_cases hk : k = h
  · rw [if_pos hk, hk]
    simp [subscription]
  · rw [if_neg hk, List.filter_singleton]
    simp [subscription, Ne.symm hk]

theorem of_keeping (r : Roll) (keep : Subscription → Bool) (h : Handle) :
    (r.keeping keep).of h = (r.of h).filter keep := by
  unfold of keeping
  rw [List.filter_filter, List.filter_filter]
  exact List.filter_congr fun sub _ => Bool.and_comm _ _

theorem mem_of {r : Roll} {h : Handle} {sub : Subscription} :
    sub ∈ r.of h ↔ sub ∈ r.listed ∧ sub.asset = h := by
  rw [of, List.mem_filter, decide_eq_true_iff]

end Roll

/-! ### Tables that read as rolls -/

/-- A table of subscriptions that says the same as a roll. -/
structure Notices.ReadsAs (n : Notices) (r : Roll) : Prop where
  /-- Each asset has one list at most, -/
  keys : (n.subscriptions.map Prod.fst).Nodup
  /-- none is empty, -/
  filled : ∀ p ∈ n.subscriptions, p.2 ≠ []
  /-- and each holds what the roll says of its asset. -/
  lists : ∀ h, n.subscribers h = r.of h
  staged : n.staged = r.staged
  nextId : n.nextId = r.nextId

namespace Notices

variable {n : Notices} {q r : Roll} {h : Handle}

/-- What a table reads as is known. -/
theorem ReadsAs.unique (hq : n.ReadsAs q) (hr : n.ReadsAs r) : q = r := by
  have hmem (sub : Subscription) : sub ∈ q.listed ↔ sub ∈ r.listed := by
    have hsame : sub ∈ q.of sub.asset ↔ sub ∈ r.of sub.asset := by
      rw [← hq.lists, ← hr.lists]
    simpa [Roll.mem_of] using hsame
  have hdistinct (r : Roll) : r.listed.Nodup :=
    r.ordered.imp fun {a b} (hlt : a.id < b.id) heq => Nat.ne_of_lt hlt (congrArg _ heq)
  have hperm : q.listed.Perm r.listed :=
    (List.perm_ext_iff_of_nodup (hdistinct q) (hdistinct r)).2 hmem
  -- both are in the order of the numbers
  have hlisted : q.listed = r.listed := by
    refine hperm.eq_of_pairwise (fun a b _ _ hab hba => ?_) q.ordered r.ordered
    exact absurd (Nat.lt_trans hab hba) (Nat.lt_irrefl _)
  exact Roll.ext hlisted (hq.staged.symm.trans hr.staged) (hq.nextId.symm.trans hr.nextId)

/-- Replacing the list of an asset leaves no empty list behind. -/
theorem filled_setSubscribers (hn : ∀ p ∈ n.subscriptions, p.2 ≠ []) (h : Handle)
    (list : List Subscription) : ∀ p ∈ (n.setSubscribers h list).subscriptions, p.2 ≠ [] := by
  intro p hp
  unfold setSubscribers at hp
  split at hp
  next => exact hn p (List.mem_of_mem_filter hp)
  next hsome =>
    rcases List.mem_cons.1 hp with rfl | hp
    · simpa using hsome
    · exact hn p (List.mem_of_mem_filter hp)

theorem filled_prune (n : Notices) (keep : Subscription → Bool) :
    ∀ p ∈ (n.prune keep).subscriptions, p.2 ≠ [] := by
  intro p hp
  have hsome := (List.mem_filter.1 hp).2
  simpa using hsome

theorem ReadsAs.subscription_eq (hn : n.ReadsAs r) (h : Handle) (label : String) (code : Script) :
    (n.subscribe h label code).1 = r.subscription h label code := by
  show (⟨n.nextId, h, label, code⟩ : Subscription) = _
  rw [hn.nextId]
  rfl

/-- A subscription comes last. -/
theorem ReadsAs.subscribe (hn : n.ReadsAs r) (h : Handle) (label : String) (code : Script) :
    (n.subscribe h label code).2.ReadsAs (r.added h label code) where
  keys := n.keys_setSubscribers h _ hn.keys
  filled := filled_setSubscribers hn.filled h _
  lists k := by
    rw [n.subscribers_subscribe, r.of_added, hn.subscription_eq, hn.lists, hn.lists]
  staged := hn.staged
  nextId := congrArg (· + 1) hn.nextId

/-- Only an asset's own subscriptions can be meant by a removal. -/
theorem filter_isMeant (r : Roll) (h k : Handle) (id : Option Nat) :
    (r.of k).filter (fun sub => !sub.isMeant h id) =
      if k = h then (r.of h).filter fun sub => !id.all fun id => sub.id = id else r.of k := by
  by_cases hk : k = h
  · subst hk
    rw [if_pos rfl]
    refine List.filter_congr fun sub hsub => ?_
    simp [Subscription.isMeant, (Roll.mem_of.1 hsub).2]
  · rw [if_neg hk, List.filter_eq_self]
    intro sub hsub
    simp [Subscription.isMeant, (Roll.mem_of.1 hsub).2, hk]

/-- A removal filters the list, -/
theorem ReadsAs.unsubscribe (hn : n.ReadsAs r) (h : Handle) (id : Option Nat) :
    (n.unsubscribe h id).2.ReadsAs (r.removed h id) where
  keys := n.keys_setSubscribers h _ hn.keys
  filled := filled_setSubscribers hn.filled h _
  lists k := by
    rw [Roll.removed, Roll.of_keeping, filter_isMeant]
    cases id with
    | none =>
      show (n.setSubscribers h []).subscribers k = _
      rw [subscribers_setSubscribers, hn.lists]
      simp
    | some id =>
      show (n.setSubscribers h ((n.subscribers h).filter fun s => s.id ≠ id)).subscribers k = _
      rw [subscribers_setSubscribers, hn.lists, hn.lists]
      simp
  staged := hn.staged
  nextId := hn.nextId

/-- and tells how many it has left out. -/
theorem ReadsAs.count_unsubscribe (hn : n.ReadsAs r) (h : Handle) (id : Option Nat) :
    (n.unsubscribe h id).1 = r.listed.countP (·.isMeant h id) := by
  have hof : r.listed.countP (·.isMeant h id) =
      (r.of h).countP fun sub => id.all fun id => sub.id = id := by
    rw [Roll.of, List.countP_filter]
    exact List.countP_congr fun sub _ => by simp [Subscription.isMeant, and_comm]
  rw [hof]
  cases id with
  | none =>
    show (n.subscribers h).length - 0 = _
    rw [hn.lists]
    simp
  | some id =>
    show (n.subscribers h).length - ((n.subscribers h).filter fun s => s.id ≠ id).length = _
    rw [hn.lists, ← List.countP_eq_length_filter, Nat.sub_eq_iff_eq_add List.countP_le_length,
      List.length_eq_countP_add_countP (fun sub : Subscription => decide (sub.id = id)) ]
    simp

/-- Pruning filters the list. -/
theorem ReadsAs.prune (hn : n.ReadsAs r) (keep : Subscription → Bool) :
    (n.prune keep).ReadsAs (r.keeping keep) where
  keys := n.keys_prune keep hn.keys
  filled := n.filled_prune keep
  lists h := by rw [subscribers_prune keep h hn.keys, hn.lists, Roll.of_keeping]
  staged := hn.staged
  nextId := hn.nextId

theorem ReadsAs.withStaged (hn : n.ReadsAs r) (staged : List Handle) :
    ({ n with staged } : Notices).ReadsAs (r.staging staged) :=
  ⟨hn.keys, hn.filled, hn.lists, rfl, hn.nextId⟩

theorem ReadsAs.calls_eq (hn : n.ReadsAs r) : n.calls n.staged = r.calls := by
  unfold Notices.calls Roll.calls
  rw [hn.staged, funext hn.lists]

theorem ReadsAs.clear (hn : n.ReadsAs r) :
    ({ n with subscriptions := [], staged := [] } : Notices).ReadsAs r.cleared where
  keys := List.nodup_nil
  filled _ hp := absurd hp List.not_mem_nil
  lists h := by
    show [] = (r.keeping fun _ => false).of h
    rw [Roll.of_keeping]
    simp
  staged := rfl
  nextId := hn.nextId

end Notices

/-! ### Desks -/

/-- A roll, with the calls that are decided and those that were made. -/
structure Desk where
  roll : Roll
  /-- The calls that were decided and not made, a list for each subscription and each
  delivery under way, the latest first. -/
  due : List (List Subscription)
  /-- The numbers of the subscriptions that were called, the latest first. -/
  made : List Nat

/-- A new subscriber is called at once. -/
def State.callsAtOnce (s : State) (r : Roll) (h : Handle) : Bool :=
  (s.asset h).state.isLoaded && !r.staged.contains h

/-- What can happen at a desk, given the states that the assets are in. -/
inductive Desk.Step (s : State) : Desk → Desk → Prop where
  /-- A subscription is appended. It is called at once, or not. -/
  | subscribe (r : Roll) (due : List (List Subscription)) (made : List Nat) (h : Handle)
      (label : String) (code : Script) :
      Step s ⟨r, due, made⟩ ⟨r.added h label code,
        (if s.callsAtOnce r h then [r.subscription h label code] else []) :: due, made⟩
  /-- Subscriptions are removed. -/
  | unsubscribe (r : Roll) (due : List (List Subscription)) (made : List Nat) (h : Handle)
      (id : Option Nat) : Step s ⟨r, due, made⟩ ⟨r.removed h id, due, made⟩
  /-- A loaded asset is staged. -/
  | stage (r : Roll) (due : List (List Subscription)) (made : List Nat) (h : Handle)
      (hloaded : (s.asset h).state.isLoaded = true) :
      Step s ⟨r, due, made⟩ ⟨r.staging (r.staged ++ [h]), due, made⟩
  /-- The staged assets are taken up, and all calls are decided. -/
  | dispatch (r : Roll) (due : List (List Subscription)) (made : List Nat) :
      Step s ⟨r, due, made⟩ ⟨(r.pruned s).staging [], (r.pruned s).calls :: due, made⟩
  /-- Everything is dropped. -/
  | clear (r : Roll) (due : List (List Subscription)) (made : List Nat) :
      Step s ⟨r, due, made⟩ ⟨r.cleared, due, made⟩
  /-- The next call is made. -/
  | call (r : Roll) (sub : Subscription) (subs : List Subscription)
      (due : List (List Subscription)) (made : List Nat) :
      Step s ⟨r, (sub :: subs) :: due, made⟩ ⟨r, subs :: due, sub.id :: made⟩
  /-- All calls have been made. -/
  | called (r : Roll) (due : List (List Subscription)) (made : List Nat) :
      Step s ⟨r, [] :: due, made⟩ ⟨r, due, made⟩

/-- Any number of steps, while the assets change. -/
abbrev Desk.Steps : Desk → Desk → Prop :=
  Relation.ReflTransGen fun d e => ∃ s, Desk.Step s d e

/-- A scene in which the load events say the same as a desk. -/
structure Scene.ReadsAs (c : Scene) (d : Desk) : Prop where
  notices : c.state.notices.ReadsAs d.roll
  due : c.due = d.due
  made : calledIn c.state.history = d.made

section Runs

variable {c c' : Scene} {d e : Desk}

theorem Scene.ReadsAs.unique (hd : c.ReadsAs d) (he : c.ReadsAs e) : d = e := by
  obtain ⟨r, due, made⟩ := d
  obtain ⟨r', due', made'⟩ := e
  have hroll : r = r' := hd.notices.unique he.notices
  have hdue : due = due' := hd.due.symm.trans he.due
  have hmade : made = made' := hd.made.symm.trans he.made
  rw [hroll, hdue, hmade]

/-- The numbers that are given out never go back. -/
theorem Desk.Step.nextId_le {s : State} (h : d.Step s e) : d.roll.nextId ≤ e.roll.nextId := by
  cases h with
  | subscribe => exact Nat.le_succ _
  | _ => exact Nat.le_refl _

theorem Desk.Steps.nextId_le (h : d.Steps e) : d.roll.nextId ≤ e.roll.nextId := by
  induction h with
  | refl => exact Nat.le_refl _
  | tail _ hstep ih =>
    obtain ⟨s, hstep⟩ := hstep
    exact Nat.le_trans ih hstep.nextId_le

theorem Scene.SameNotices.readsAs (h : c.SameNotices c') (hd : c.ReadsAs d) : c'.ReadsAs d where
  notices := h.notices ▸ hd.notices
  due := h.due.trans hd.due
  made := (Prod.mk.inj h.events).1.trans hd.made

/-- What has to do with load events is a step of the desk. -/
theorem NoticeStride.readsAs (h : NoticeStride c c') (hd : c.ReadsAs d) :
    ∃ e, c'.ReadsAs e ∧ (e = d ∨ d.Step c.state e) := by
  obtain ⟨r, due, made⟩ := d
  -- each stride of the notices is one step of the roll, releases aside
  cases h with
  | @subscribe u s due' h label code =>
    have hn : s.notices.ReadsAs r := hd.notices
    obtain rfl : due' = due := hd.due
    refine ⟨_, ?_, .inr (Desk.Step.subscribe (s := s) r due' made h label code)⟩
    refine ⟨hn.subscribe h label code, ?_, hd.made⟩
    show (if (s.asset h).state.isLoaded && !s.notices.staged.contains h then _ else []) :: due' = _
    rw [hn.subscription_eq, hn.staged]
    rfl
  | @unsubscribe u s due' h id =>
    have hn : s.notices.ReadsAs r := hd.notices
    refine ⟨_, ?_, .inr (Desk.Step.unsubscribe (s := s) r due made h id)⟩
    exact ⟨hn.unsubscribe h id, hd.due, hd.made⟩
  | @takeUp u s due' =>
    have hn : s.notices.ReadsAs r := hd.notices
    obtain rfl : due' = due := hd.due
    have hpruned := hn.prune fun sub => !(s.asset sub.asset).destroyed
    refine ⟨_, ?_, .inr (Desk.Step.dispatch (s := s) r due' made)⟩
    exact ⟨hpruned.withStaged [], congrArg (· :: due') hpruned.calls_eq, hd.made⟩
  | @clear u s due' =>
    have hn : s.notices.ReadsAs r := hd.notices
    refine ⟨_, ?_, .inr (Desk.Step.clear (s := s) r due made)⟩
    exact ⟨hn.clear, hd.due, hd.made⟩
  | @call u s due' sub subs =>
    obtain rfl : (sub :: subs) :: due' = due := hd.due
    refine ⟨_, ?_, .inr (Desk.Step.call (s := s) r sub subs due' made)⟩
    exact ⟨hd.notices, rfl, congrArg (sub.id :: ·) hd.made⟩
  | @called m due' =>
    obtain rfl : [] :: due' = due := hd.due
    refine ⟨_, ?_, .inr (Desk.Step.called (s := m.state) r due' made)⟩
    exact ⟨hd.notices, rfl, hd.made⟩
  | releaseNext | released => exact ⟨_, ⟨hd.notices, hd.due, hd.made⟩, .inl rfl⟩

/-- **A stretch of a run is a step of the desk**, or has nothing to do with load events. -/
theorem Stride.readsAs (h : Stride c c') (hd : c.ReadsAs d) :
    ∃ e, c'.ReadsAs e ∧ (e = d ∨ d.Step c.state e) := by
  rcases h.notices_or_same with hsame | hnotice | ⟨entry, u, -, rfl⟩
  · exact ⟨d, hsame.readsAs hd, .inl rfl⟩
  · exact hnotice.readsAs hd
  · -- the completion of a task stages its asset if that is loaded
    obtain ⟨r, due, made⟩ := d
    have hn : c.state.notices.ReadsAs r := hd.notices
    have hnotices := notices_taskEnded c.state entry
    have hmade : calledIn (c.state.taskEnded entry).history = made :=
      (Prod.mk.inj (loadEvents_taskEnded c.state entry)).1.trans hd.made
    by_cases hloaded : (c.state.asset entry.asset).state.isLoaded = true
    · rw [if_pos hloaded, hn.staged] at hnotices
      refine ⟨_, ?_, .inr (Desk.Step.stage (s := c.state) r due made entry.asset hloaded)⟩
      refine ⟨?_, hd.due, hmade⟩
      show (c.state.taskEnded entry).notices.ReadsAs _
      rw [hnotices]
      exact hn.withStaged _
    · rw [if_neg hloaded] at hnotices
      refine ⟨_, ?_, .inl rfl⟩
      refine ⟨?_, hd.due, hmade⟩
      show (c.state.taskEnded entry).notices.ReadsAs _
      rw [hnotices]
      exact hn

/-- So a run is one of the desk. -/
theorem Strides.readsAs (h : Strides c c') (hd : c.ReadsAs d) : ∃ e, c'.ReadsAs e ∧ d.Steps e := by
  induction h with
  | refl => exact ⟨d, hd, .refl⟩
  | tail _ hstride ih =>
    obtain ⟨e, he, hsteps⟩ := ih
    obtain ⟨f, hf, rfl | hstep⟩ := hstride.readsAs he
    · exact ⟨f, hf, hsteps⟩
    · exact ⟨f, hf, hsteps.tail ⟨_, hstep⟩⟩

/-- Wherever client code may run in a session, the load events read as those of a desk. -/
theorem Occurs.readsAs (hc : Occurs c) : ∃ d, c.ReadsAs d := by
  refine hc.invariant (P := fun c => ∃ d, c.ReadsAs d) (fun p => ?_) fun c c' _ hstride hd => ?_
  · have hnotices : p.start.notices = {} := by
      unfold Session.start
      dsimp only
      split <;> rfl
    have hempty : ({} : Notices).ReadsAs ⟨[], [], 0, .nil, nofun⟩ :=
      ⟨List.nodup_nil, nofun, fun _ => rfl, rfl, rfl⟩
    refine ⟨⟨⟨[], [], 0, .nil, nofun⟩, [], calledIn p.start.history⟩, ?_, rfl, rfl⟩
    show p.start.notices.ReadsAs _
    rw [hnotices]
    exact hempty
  · obtain ⟨d, hd⟩ := hd
    obtain ⟨e, he, -⟩ := hstride.readsAs hd
    exact ⟨e, he⟩

end Runs

end AssetLoading
