import AssetLoading.Proofs.References.Destruction

/-! # Conservation of references

  Between two operations the count of an asset is what client code took and did
  not drop, and one reference for every unfinished task and every staged load.

  As long as client code drops no more than it took, two things follow. No
  reference is dropped once too often, and none that the scheduler takes on its
  own account comes too late: the only asset that is ever asked for after its
  destruction is one on which client code holds nothing. And while a task for an
  asset is unfinished, or a load of it is staged, the asset is not destroyed.
-/

namespace AssetLoading

/-! ### Client code that drops no more than it took -/

/-- At no time had client code dropped more references than it had taken. -/
def Thrifty (history : List Event) : Prop :=
  ∀ past, past <:+ history → ∀ h, 0 ≤ clientNet h past

/-- A task for the asset is waiting or claimed, or a load of it is staged. -/
def State.Needs (s : State) (h : Handle) : Prop :=
  (∃ e ∈ s.queue.pending, e.asset = h) ∨ (∃ c ∈ s.queue.active, c.asset = h) ∨
    h ∈ s.notices.staged

/-- `true` for events that tell of a dropped reference. -/
def Event.isDrop : Event → Bool
  | dropped .. => true
  | _ => false

theorem Event.gain_nonneg {e : Event} (he : e.isDrop = false) (holder : Holder) (h : Handle) :
    0 ≤ e.gain holder h := by
  cases e with
  | took k l =>
    show (0 : Int) ≤ if k = holder ∧ l = h then 1 else 0
    split <;> decide
  | dropped k l => cases he
  | _ => exact Int.le_refl 0

/-- Where nothing is dropped, client code is thrifty. -/
theorem Thrifty.of_any_isDrop {history : List Event} (h : history.any Event.isDrop = false) :
    Thrifty history := by
  have hnet (holder : Holder) (k : Handle) (past : List Event) (hpast : past <:+ history) :
      0 ≤ net holder k past := by
    induction past with
    | nil => exact Int.le_refl 0
    | cons e past ih =>
      have hkept := List.any_eq_false.1 h e (hpast.subset List.mem_cons_self)
      have he := Event.gain_nonneg (Bool.not_eq_true _ ▸ hkept) holder k
      have hrest := ih ((List.suffix_cons e past).trans hpast)
      rw [net_cons]
      omega
  exact fun past hpast k => Int.add_nonneg (hnet .client k past hpast) (hnet .dependency k past hpast)

theorem Thrifty.nonneg {history : List Event} (h : Thrifty history) (k : Handle) :
    0 ≤ clientNet k history :=
  h history (List.suffix_refl _) k

/-! ### Early ends -/

/-- If client code is thrifty, no reference is dropped once too often. -/
theorem Balanced.not_releasedTooMany {m : Moment} (hm : Balanced m) {t : State} {holder : Holder}
    {h : Handle} {category : Category} {name : String} {refs : Int} {state : LoadState}
    (hend : (Halt.fatal (.releasedTooMany holder h category name refs state)).EndsIn m t)
    (hclient : 0 ≤ clientNet h t.history) : False := by
  obtain ⟨rfl, hrefs, u, hu⟩ := hend
  have hbefore : clientNet h m.state.history =
      clientNet h (m.state.dropped holder h).history + if holder.isScheduler then 0 else 1 := by
    show _ = clientNet h (.dropped holder h :: m.state.history) + _
    simp only [clientNet, net_cons, Event.gain]
    cases holder <;> simp [Holder.isScheduler] <;> omega
  have hheld (hholder : holder.isScheduler = true) : 0 < net holder h m.state.history := by
    have hm' : Balanced ⟨gained holder h u, m.state⟩ := hu ▸ hm
    rw [hm'.held holder hholder, count_references_gained (s := m.state) holder h rfl rfl hholder]
    simp
  have htask := hm.net_nonneg .task rfl h
  have hnotice := hm.net_nonneg .notice rfl h
  have hpos : 0 < netOfAll h m.state.history := by
    rw [netOfAll_eq]
    cases holder <;> simp [Holder.isScheduler] at hbefore hheld <;> omega
  by_cases hh : h < m.state.assets.size
  · rw [hm.counted h hh] at hrefs
    omega
  · have hnone := hm.unknown h (Nat.le_of_not_lt hh)
    simp [netOfAll, hnone] at hpos

/-- A task in hand is unfinished. -/
theorem Custody.mem_unfinished {m : Moment} (h : Custody m) {a : Activity} (ha : a ∈ m.underWay)
    {c : Claimed} (hc : a.inHand = some c) : c ∈ m.unfinished := by
  have hhand : c ∈ m.hands := List.mem_append_right _ (List.mem_filterMap.2 ⟨a, ha, hc⟩)
  exact List.mem_append_left _ (List.mem_append_right _ (h.claimed hhand))

/-- If client code is thrifty, a reference on a destroyed asset is asked for only by
client code, and only where it holds none. -/
theorem Balanced.addedToDestroyed {m : Moment} (hm : Balanced m) (hcustody : Custody m) {t : State}
    {holder : Holder} {h : Handle} {category : Category} {name : String}
    (hend : (Halt.fatal (.addedToDestroyed holder h category name)).EndsIn m t)
    (hclient : 0 ≤ clientNet h t.history) : holder ≠ .notice ∧ clientNet h t.history = 0 := by
  obtain ⟨rfl, hgone, hnotice⟩ := hend
  obtain ⟨hnone, htask, -⟩ := hm.nets_of_destroyed hgone hclient
  refine ⟨fun hholder => ?_, hnone⟩
  obtain ⟨e, he, rfl⟩ := hnotice hholder
  have hpos : 0 < net .task e.asset m.state.history :=
    hm.net_task_pos (hcustody.mem_unfinished he rfl)
  omega

/-! ### The laws of references -/

/-- Everything that the laws of references rest on. -/
structure Reckoned (m : Moment) : Prop where
  custody : Custody m
  balanced : Balanced m
  accepted : AcceptedAreKept m
  dying : DyingAreGone m
  ends : EndsAreClean m.state.history

theorem Reckoned.start (p : Session) : Reckoned ⟨[], p.start⟩ := by
  refine ⟨.start p, .start p, fun id body h data hmem => ?_, nofun, fun past h _ _ _ _ hpast => ?_⟩
  · unfold Session.start at hmem
    dsimp only at hmem
    split at hmem <;> simp [State.record] at hmem
  · unfold Session.start at hpast
    dsimp only at hpast
    split at hpast <;> simp [State.record, List.suffix_cons_iff] at hpast

theorem Reckoned.move (m n : Moment) (h : Move m n) (hm : Reckoned m) : Reckoned n where
  custody := hm.custody.move h
  balanced := hm.balanced.move hm.custody h
  accepted := hm.accepted.move hm.custody h
  dying := hm.dying.move h
  ends := endsAreClean_move hm.ends hm.balanced hm.accepted hm.dying h

theorem Reached.reckoned {s : State} (hs : Reached s) : Reckoned ⟨[], s⟩ :=
  hs.invariant Reckoned.start Reckoned.move

/-- Between two operations tasks hold one reference for each that is waiting or
claimed. -/
theorem Reached.net_task {s : State} (hs : Reached s) (h : Handle) :
    net .task h s.history =
      s.queue.pending.countP (·.asset = h) + s.queue.active.countP (·.asset = h) := by
  have hpending : (s.queue.pending.map Entry.claim).countP (·.asset = h) =
      s.queue.pending.countP (·.asset = h) := List.countP_map
  have hheld := hs.reckoned.balanced.held .task rfl h
  rw [count_task_references] at hheld
  simpa [Moment.unfinished, Moment.inTransit, List.countP_append, hpending] using hheld

/-- Between two operations load events hold one reference for each staged load. -/
theorem Reached.net_notice {s : State} (hs : Reached s) (h : Handle) :
    net .notice h s.history = s.notices.staged.count h := by
  have hheld := hs.reckoned.balanced.held .notice rfl h
  rw [count_notice_references] at hheld
  simpa [Moment.inTransit] using hheld

/-- What is needed for a task or a load is not destroyed. -/
theorem Reached.not_destroyed {s : State} (hs : Reached s) {h : Handle}
    (hclient : 0 ≤ clientNet h s.history) (hneeds : s.Needs h) :
    (s.asset h).destroyed = false := by
  rw [← Bool.not_eq_true]
  intro hgone
  obtain ⟨-, htask, hnotice⟩ := hs.reckoned.balanced.nets_of_destroyed hgone hclient
  change net .task h s.history = 0 at htask
  change net .notice h s.history = 0 at hnotice
  rw [hs.net_task] at htask
  rw [hs.net_notice] at hnotice
  rcases hneeds with ⟨e, he, heh⟩ | ⟨c, hc, hch⟩ | hstaged
  · have hpos : 0 < s.queue.pending.countP (·.asset = h) :=
      List.countP_pos_iff.2 ⟨e, he, decide_eq_true heh⟩
    omega
  · have hpos : 0 < s.queue.active.countP (·.asset = h) :=
      List.countP_pos_iff.2 ⟨c, hc, decide_eq_true hch⟩
    omega
  · have hpos : 0 < s.notices.staged.count h := List.count_pos_iff.2 hstaged
    omega

/-- In every state between two operations of a run, the count of an asset is what
client code took and did not drop, and one reference for every task that is
waiting or claimed and for every staged load.

If client code drops no more than it took, then what a task or a load needs is not
destroyed, and no destructor ever started before everything was finished with its
asset. Also, no further operation drops a reference once too often, and none asks
for a reference on a destroyed asset, except on behalf of client code that holds
none. -/
theorem references_conserved {s : State} (hs : Reached s) :
    (∀ h, h < s.assets.size →
      (s.asset h).refs = clientNet h s.history + s.queue.pending.countP (·.asset = h)
        + s.queue.active.countP (·.asset = h) + s.notices.staged.count h) ∧
    (Thrifty s.history →
      (∀ h, s.Needs h → (s.asset h).destroyed = false) ∧
      ∀ past h refs tag category value,
        .destroyed h refs tag category value :: past <:+ s.history → FinishedWith h past) ∧
    ∀ fuel thread op reason t, performOn fuel s thread op = (.halted (.fatal reason), t) →
      Thrifty t.history →
        (∀ holder h category name refs state,
          reason ≠ .releasedTooMany holder h category name refs state) ∧
        ∀ holder h category name, reason = .addedToDestroyed holder h category name →
          holder ≠ .notice ∧ clientNet h t.history = 0 := by
  have hreckoned := hs.reckoned
  refine ⟨fun h hh => ?_, fun hthrifty => ⟨fun h hneeds => ?_, fun past h refs tag category value hpast => ?_⟩,
    fun fuel thread op reason t hhalted hthrifty => ?_⟩
  · have hcount := hreckoned.balanced.counted h hh
    change (s.asset h).refs = netOfAll h s.history at hcount
    rw [hcount, netOfAll_eq, hs.net_task, hs.net_notice]
    omega
  · exact hs.not_destroyed (hthrifty.nonneg h) hneeds
  · refine hreckoned.ends past h refs tag category value hpast ?_
    exact hthrifty past ((List.suffix_cons _ _).trans hpast) h
  · -- a call that stops the process stopped in some moment, where the books were right
    obtain ⟨n, hn, hend⟩ := hs.invariant_of_halted Reckoned.start Reckoned.move hhalted
    refine ⟨?_, ?_⟩
    · rintro holder h category name refs state rfl
      exact hn.balanced.not_releasedTooMany hend (hthrifty.nonneg h)
    · rintro holder h category name rfl
      exact hn.balanced.addedToDestroyed hn.custody hend (hthrifty.nonneg h)

/-- A session in which a worker has claimed the only task. -/
def claimedTask : State :=
  let plan : TaskPlan Script :=
    { name := "load", asset := .labelled "mesh", priority := 0, complexity := 0, data := [],
      actions := [⟨.worker, [], true⟩], onFailure := none, onFree := none }
  (Session.bare .manual).start.after 4
    [(.main, .findOrCreate "mesh" (.standard .mesh) (.ofId ⟨1⟩)), (.main, .enqueue plan),
      (.worker 0, .claim "load" false)]

theorem claimedTask_references :
    Reached claimedTask ∧ (claimedTask.asset 0).refs = 1 + 0 + 1 + 0 ∧
      (claimedTask.asset 0).destroyed = false := by
  have hreached : Reached claimedTask := (Reached.start _).after 4 _
  have hlaws := references_conserved hreached
  have hthrifty : Thrifty claimedTask.history := .of_any_isDrop rfl
  have hactive : claimedTask.queue.active = [⟨1, 0, 0⟩] := rfl
  refine ⟨hreached, ?_, ?_⟩
  · exact hlaws.1 0 (by decide)
  · refine (hlaws.2.1 hthrifty).1 0 (.inr (.inl ?_))
    rw [hactive]
    exact ⟨_, List.mem_cons_self, rfl⟩

end AssetLoading
