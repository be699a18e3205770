import AssetLoading.Proofs.Registry.Roster
import AssetLoading.Proofs.Run.Lasting
import AssetLoading.Proofs.Shutdown.Phases

/-! # What a shutdown leaves in the registry

  The last thing that a shutdown does with assets is to destroy those that wait for
  it, once. What a destructor then leaves to the main thread is not destroyed any
  more: it stays linked without a reference, and a report of leaks passes over it.
  So the queue of such assets is empty after a shutdown, and every linked asset has a
  reference, if nothing is left to the main thread from that phase on
  (`shutdown_remains`).
-/

namespace AssetLoading

/-! ### Leaving assets to the main thread -/

/-- Code that may have left an asset to the main thread has come to its end. -/
def Event.defers : Event → Bool
  | .answered (.releaseDeferred _) _ | .completed _ | .discarded _ => true
  | _ => false

/-- No asset is added to those that wait in the scheduler's registry. -/
def State.NoMoreDoomed (s t : State) : Prop :=
  (t.registry 0).doomed = (s.registry 0).doomed ∨ (t.registry 0).doomed = []

section Deferring

variable {m n : Moment} {u : List Activity} {s : State}

theorem State.NoMoreDoomed.of_registries_eq {t : State} (h : t.registries = s.registries) :
    s.NoMoreDoomed t := by
  refine .inl ?_
  rw [State.registry, h]
  rfl

theorem State.noMoreDoomed_modifyRegistry {r : RegistryId} {f : Registry → Registry}
    (hf : (f (s.registry r)).doomed = (s.registry r).doomed ∨ (f (s.registry r)).doomed = []) :
    s.NoMoreDoomed (s.modifyRegistry r f) := by
  unfold State.NoMoreDoomed
  rw [State.registry_modifyRegistry]
  split
  next hr => rwa [← hr.1]
  next => exact .inl rfl

theorem Falls.registries_eq {h : Handle} (hfalls : Falls h m n) :
    n.state.registries = m.state.registries := by
  cases hfalls <;> rfl

/-- Only a deferred release of client code adds an asset to those that wait. -/
theorem AssetStride.noMoreDoomed (h : AssetStride m n) :
    m.state.NoMoreDoomed n.state ∨ MayDefer m.underWay ∧ n.underWay = m.underWay := by
  -- only an operation of the client leaves an asset to the main thread
  cases h with
  | take => exact .inl (.of_registries_eq (State.registries_referenced ..))
  | defer r h hr hu => exact .inr ⟨hu, rfl⟩
  | expire h c hfalls => exact .inl (.of_registries_eq hfalls.registries_eq)
  | again h hfalls => exact .inl (.of_registries_eq hfalls.registries_eq)
  | flush r => exact .inl (State.noMoreDoomed_modifyRegistry (.inr rfl))
  | @bury u s r h =>
    left
    show s.NoMoreDoomed (s.unlinked r h)
    unfold State.unlinked
    split
    next => exact .of_registries_eq rfl
    next =>
      split
      next =>
        split
        next => exact .of_registries_eq rfl
        next => exact State.noMoreDoomed_modifyRegistry (.inl rfl)
      next => exact .of_registries_eq rfl
  | @insert u s r kind key slot linked =>
    left
    show s.NoMoreDoomed (State.modifyRegistry _ r fun reg => { reg with linked })
    exact State.noMoreDoomed_modifyRegistry (s := { s with assets := _ }) (.inl rfl)
  | countNames r => exact .inl (State.noMoreDoomed_modifyRegistry (.inl rfl))
  | @newRegistry u s =>
    left
    left
    show (((s.registries.push ({} : Registry))[0]?).getD ({} : Registry)).doomed =
      ((s.registries[0]?).getD ({} : Registry)).doomed
    rw [Array.getElem?_push]
    split
    next hnone => rw [Array.getElem?_eq_none (Nat.le_of_eq hnone.symm)]; rfl
    next => rfl
  | _ => exact .inl (.of_registries_eq rfl)

theorem State.history_letGo (s : State) (r : RegistryId) (holder : Holder) (h : Handle) :
    (s.letGo r holder h).history = .dropped holder h :: s.history := by
  unfold State.letGo
  split <;> rfl

theorem State.history_referenced (s : State) (holder : Holder) (h : Handle) :
    ∃ fresh, (s.referenced holder h).history = fresh ++ s.history := by
  unfold State.referenced
  split
  next => exact ⟨[_, _, _], rfl⟩
  next => exact ⟨[_], rfl⟩

theorem State.history_taskCompleted (s : State) (e : Entry) :
    ∃ fresh, (s.taskCompleted e).history = .completed e.id :: fresh ++ s.history := by
  unfold State.taskCompleted
  split
  next =>
    obtain ⟨fresh, hfresh⟩ := s.history_referenced .notice e.asset
    exact ⟨_ :: fresh, congrArg (fun l => Event.completed e.id :: _ :: l) hfresh⟩
  next => exact ⟨[_], rfl⟩

/-- Of what happens to tasks, only an end adds an asset to those that wait, and that
is told. -/
theorem TaskStride.noMoreDoomed (h : TaskStride m n) :
    m.state.NoMoreDoomed n.state ∨
      ∃ fresh, n.state.history = fresh ++ m.state.history ∧ ∃ e ∈ fresh, e.defers = true := by
  cases h with
  | accept t => exact .inl (.of_registries_eq (State.registries_referenced ..))
  | @complete u s e =>
    obtain ⟨fresh, hfresh⟩ := s.history_taskCompleted e
    refine .inr ⟨.dropped .task e.asset :: .completed e.id :: fresh, ?_, .completed e.id, by simp, rfl⟩
    rw [State.history_letGo, hfresh]
    rfl
  | @discard u s e =>
    refine .inr ⟨[.dropped .task e.asset, .discarded e.id], ?_, .discarded e.id, by simp, rfl⟩
    rw [State.history_letGo]
    rfl
  | shutDown | drain => exact .inl (.of_registries_eq rfl)
  | move h => exact .inl (.of_registries_eq h.sameAssets.registries)

/-- A stride adds no asset to those that wait, or one is left to the main thread
now. -/
theorem Stride.noMoreDoomed {c d : Scene} (h : Stride c d) (hne : c.underWay ≠ []) :
    c.state.NoMoreDoomed d.state ∨ d.MayTell Event.defers c.state.history := by
  cases h with
  | asset h =>
    refine h.noMoreDoomed.imp_right ?_
    rintro ⟨hmay, hsame⟩
    obtain ⟨ref, href⟩ := hmay.resolve_left hne
    refine .inr ⟨.releaseDeferred ref, ?_, fun _ => rfl⟩
    rwa [hsame]
  | body h => exact .inl (.of_registries_eq h.sameAssets.registries)
  | job h => exact .inl (.of_registries_eq h.sameAssets.registries)
  | task h => exact h.noMoreDoomed.imp_right .inl
  | notice h => exact .inl (.of_registries_eq h.sameAssets.registries)
  | plain h => exact .inl (.of_registries_eq h.sameAssets.registries)

/-- From a moment without waiting assets on, in code that has not returned: none
waits, or one may have been left to the main thread. -/
theorem Strides.doomed_eq_nil_or {c d : Scene} (h : Strides c d) {k : Handle}
    (hfloor : .holding .client k ∈ c.underWay) (hnone : (c.state.registry 0).doomed = []) :
    (d.state.registry 0).doomed = [] ∨ d.MayTell Event.defers c.state.history := by
  refine holds_or_told Scene.toMoment (P := fun c => (c.state.registry 0).doomed = [])
    (fun _ _ hstride => hstride.moves) (fun b e hcb hbe hempty => ?_) h hnone
  -- the client holds its reference all along, so something is under way
  have hne : b.underWay ≠ [] := List.ne_nil_of_mem ((Strides.moves hcb).floor hfloor)
  refine (hbe.noMoreDoomed hne).imp_left ?_
  rintro (hsame | hemptied)
  · exact hsame.trans hempty
  · exact hemptied

end Deferring

/-! ### The last phase -/

/-- A flush after which some assets wait has run code that may have left them. -/
theorem flush_defers {call : Runner} (hcall : call.IsTraced) {s t : State} {n : Nat}
    (h : flush call { thread := .main } s = .ok n t) (hsome : (t.registry 0).doomed ≠ [])
    (hfirst : 0 < s.registries.size) :
    ∃ fresh, t.history = fresh ++ s.history ∧ ∃ e ∈ fresh, e.defers = true := by
  -- a client's reference below everything tells that the flush has not returned
  let floor : List Activity := [.holding .client 0]
  have hrun : destroyUnreferenced call { thread := .main } (s.registry 0).doomed
      (s.modifyRegistry 0 fun reg => { reg with doomed := [] }) = .ok n t := h
  have hstrides := (leads_destroyUnreferenced (u := floor) hcall (.inl rfl) _).strides hrun []
  have hnone : ((s.modifyRegistry 0 fun reg => { reg with doomed := [] }).registry 0).doomed = [] := by
    rw [State.registry_modifyRegistry, if_pos ⟨rfl, hfirst⟩]
  have hfloor : Activity.holding .client 0 ∈ Activity.flushing (s.registry 0).doomed :: floor := by
    simp [floor]
  rcases hstrides.doomed_eq_nil_or hfloor hnone with hempty | hdeferred
  · exact absurd hempty hsome
  · exact hdeferred.told rfl

/-- No asset is without references and yet not destroyed. -/
def State.NoneHalfDead (s : State) : Prop :=
  ∀ k, k < s.assets.size → (s.asset k).destroyed = false → 0 < (s.asset k).refs

/-- With a sole registry nothing waits for its destruction if nothing waits there. -/
theorem Occurs.noneHalfDead {s : State} {due : List (List Subscription)} (hc : Occurs ⟨⟨[], s⟩, due⟩)
    (hsole : s.Sole) (hempty : (s.registry 0).doomed = []) : s.NoneHalfDead := by
  intro k hk hwhole
  have hnonneg : 0 ≤ (s.asset k).refs := hc.reckoned.balanced.nonneg k hk
  have hne : (s.asset k).refs ≠ 0 := by
    intro hnone
    rcases (life_of_asset hc hk).awaited hwhole hnone with ⟨r, hr⟩ | ⟨hs, hmem, -⟩
    · change k ∈ (s.registry r).doomed at hr
      match r with
      | 0 =>
        rw [hempty] at hr
        cases hr
      | r + 1 =>
        have hunknown : s.registries[r + 1]? = none :=
          Array.getElem?_eq_none (Nat.le_trans (Nat.le_of_eq hsole) (Nat.le_add_left 1 r))
        rw [State.registry, hunknown] at hr
        cases hr
    · cases hmem
  omega

/-- **What a shutdown leaves.** An asset that is not destroyed and has no reference
waits for its destruction. While there is no other registry, exactly the assets that
are not destroyed are linked, and the report of leaks counts every linked asset if
and only if none is half dead. That is so, and nothing waits, if nothing was left to
the main thread from the last phase on. -/
theorem shutdown_remains {fuel : Nat} {s t : State} {reply : Reply} (hs : Reached s)
    (hopen : s.closed = false) (h : performOn fuel s .main .shutdown = (.answered reply, t)) :
    (∀ k, k < t.assets.size → (t.asset k).destroyed = false → (t.asset k).refs = 0 →
      ∃ r, k ∈ (t.registry r).doomed) ∧
    (t.Sole → (∀ k, k ∈ t.linked 0 ↔ k < t.assets.size ∧ (t.asset k).destroyed = false) ∧
      ((t.leaks 0).length = (t.registry 0).linked.size ↔ t.NoneHalfDead)) ∧
    ∃ r, ∃ phases : ShutdownPhases (run fuel) s r,
      t = r.withClient { r.client with discreet := false } ∧
      ((∀ e ∈ t.eventsSince phases.cleared.history.length, e.defers = false) →
        (t.registry 0).doomed = [] ∧
        (t.Sole → t.NoneHalfDead ∧ (t.leaks 0).length = (t.registry 0).linked.size)) := by
  have hoccurs : Occurs ⟨⟨[], t⟩, []⟩ := (Reached.perform fuel .main .shutdown reply hs h).occurs
  obtain ⟨r, hrun, ht⟩ := shutdown_of_answered h
  obtain ⟨phases⟩ := shutdown_phases hrun hopen
  refine ⟨fun k hk hwhole hnone => ?_, fun hsole => ?_, r, phases, ht, fun hquiet => ?_⟩
  · -- an asset that is only waited for by a flush under way: there is none after the call
    rcases (life_of_asset hoccurs hk).awaited hwhole hnone with hwaits | ⟨hs, hmem, -⟩
    · exact hwaits
    · cases hmem
  · exact ⟨hoccurs.mem_linked_iff hsole, hoccurs.length_leaks_eq_iff hsole⟩
  · have hempty : (t.registry 0).doomed = [] := by
      have hregistry : t.registry 0 = phases.flushed.registry 0 := by
        rw [ht]
        exact phases.registry_eq 0
      rw [hregistry]
      -- what is doomed after the flush was left there by it, which the history would tell
      refine Decidable.byContradiction fun hsome => ?_
      have hcleared : Strides ⟨⟨[], s⟩, []⟩ ⟨⟨[], phases.cleared⟩, []⟩ :=
        (((phases.strides_joined hopen [] []).trans
          (phases.strides_discarded (.inl rfl) [])).trans (phases.strides_drained [] [])).trans
            ((phases.strides_delivered [] []).trans (phases.strides_cleared [] []))
      have hfirst : 0 < phases.cleared.registries.size :=
        (hs.occurs.strides hcleared).expiring.1.first
      obtain ⟨fresh, hfresh, e, hmem, he⟩ := flush_defers (run_isTraced fuel) phases.flushes hsome hfirst
      rw [ht] at hquiet
      have hnot := hquiet e (phases.mem_eventsSince (u := []) .refl hfresh hmem)
      exact Bool.false_ne_true (hnot.symm.trans he)
    refine ⟨hempty, fun hsole => ?_⟩
    have hnone := hoccurs.noneHalfDead hsole hempty
    exact ⟨hnone, (hoccurs.length_leaks_eq_iff hsole).2 hnone⟩

/-- `true` for an operation that returned. -/
def Outcome.isAnswered : Outcome → Bool
  | .answered _ => true
  | .halted _ => false

/-- Three assets were made, and the first waits for its destruction, in which it runs
some code. -/
def firstWaits (code : Script) : State :=
  (Session.bare .manual).start.after 8
    [(.main, .findOrCreate "first" (.standard .mesh) (.ofId ⟨1⟩)),
      (.main, .findOrCreate "second" (.standard .mesh) (.ofId ⟨2⟩)),
      (.main, .findOrCreate "third" (.standard .mesh) (.ofId ⟨3⟩)),
      (.main, .setOnDestroy (.labelled "first") (.standard .mesh) code),
      (.main, .releaseDeferred (.labelled "first"))]

/-- The destructor of the first asset drops the last reference of the second. -/
@[irreducible]
def dropsSecond : State :=
  firstWaits [Op.anyway (.release (.labelled "second"))]

/-- It leaves the second asset to the main thread. -/
@[irreducible]
def leavesSecond : State :=
  firstWaits [Op.anyway (.releaseDeferred (.labelled "second"))]

/-- The state that a shutdown leaves. -/
@[irreducible]
def State.shut (s : State) : State :=
  (performOn 8 s .main .shutdown).2

theorem State.shut_of_isAnswered {s : State} (h : (performOn 8 s .main .shutdown).1.isAnswered = true) :
    ∃ reply, performOn 8 s .main .shutdown = (.answered reply, s.shut) := by
  unfold shut
  match hrun : performOn 8 s .main .shutdown with
  | (.answered reply, t) => exact ⟨reply, rfl⟩
  | (.halted reason, t) =>
    rw [hrun] at h
    cases h

theorem dropsSecond_remains :
    (dropsSecond.shut.registry 0).doomed = [] ∧ dropsSecond.shut.NoneHalfDead ∧
      (dropsSecond.shut.leaks 0).length = (dropsSecond.shut.registry 0).linked.size := by
  have hreached : Reached dropsSecond := by
    unfold dropsSecond firstWaits
    exact (Reached.start _).after 8 _
  obtain ⟨reply, hanswered⟩ := State.shut_of_isAnswered (s := dropsSecond) (by decide +kernel)
  obtain ⟨-, -, r, phases, -, hremains⟩ :=
    shutdown_remains hreached (by decide +kernel) hanswered
  have hquiet : dropsSecond.shut.history.any Event.defers = false := by decide +kernel
  obtain ⟨hempty, hrest⟩ := hremains fun e he =>
    Bool.eq_false_iff.2 (List.any_eq_false.1 hquiet e (List.mem_of_mem_take (List.mem_reverse.1 he)))
  exact ⟨hempty, hrest (show dropsSecond.shut.registries.size = 1 by decide +kernel)⟩

/-- A shutdown may leave an asset half dead: the one that the last destructor left to
the main thread is linked without a reference, waits for ever, and is not reported. -/
theorem shutdown_can_leave_half_dead :
    Reached leavesSecond ∧ leavesSecond.closed = false ∧
      (∃ reply, performOn 8 leavesSecond .main .shutdown = (.answered reply, leavesSecond.shut)) ∧
      (leavesSecond.shut.registry 0).doomed = [1] ∧ (leavesSecond.shut.asset 1).destroyed = false ∧
      (leavesSecond.shut.asset 1).refs = 0 ∧ (leavesSecond.shut.leaks 0).length = 1 ∧
      (leavesSecond.shut.registry 0).linked.size = 2 := by
  refine ⟨?_, by decide +kernel, State.shut_of_isAnswered (by decide +kernel), by decide +kernel,
    by decide +kernel, by decide +kernel, by decide +kernel, by decide +kernel⟩
  unfold leavesSecond firstWaits
  exact (Reached.start _).after 8 _

end AssetLoading
