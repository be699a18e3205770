import AssetLoading.Proofs.References.Demise
import AssetLoading.Proofs.Registry.Links

/-! # Flushing the queue for destruction

  A flush takes everything out of the queue of a registry and looks at one asset after
  the other. What it does with each is decided when it looks at it, because the
  destructors of those before it may have taken references on it, dropped them again,
  destroyed it, or put it back into the queue, and may have flushed the queue themselves.

  A flush that returns is told as the list of its visits. The visits say what each look
  has found and left; that they are all the flush does is known for every runner of
  client code (`destroyUnreferenced_eq_ok_iff`). What is known of sessions then tells what
  has become of the assets and of the queue (`flush_visits_each_once`).
-/

namespace AssetLoading

/-! ### Visits -/

/-- The look that a flush takes at an asset. -/
structure Visit where
  asset : Handle
  /-- The state that the asset is found in. -/
  before : State
  /-- The flush has run the destructor of the asset. -/
  ran : Bool
  /-- The state that is left. -/
  after : State

/-- The state after an asset was found to have references again. -/
def State.spared (s : State) (h : Handle) : State :=
  s.record (.logged .trace "Skipping rescued asset"
    [("asset", .text (s.asset h).displayName), ("refs", .number (s.asset h).refs)])

/-- What comes of a look at an asset. -/
inductive Visit.Happens (call : Runner) (scope : Scope) : Visit → Prop where
  /-- It has references again. -/
  | rescued (h : Handle) (s : State) (hsome : (s.asset h).refs ≠ 0) :
      Happens call scope ⟨h, s, false, s.spared h⟩
  /-- It has none, but was destroyed before. -/
  | gone (h : Handle) (s : State) (hnone : (s.asset h).refs = 0)
      (hgone : (s.asset h).destroyed = true ∨ (s.asset h).contents = none) :
      Happens call scope ⟨h, s, false, s.remarked h⟩
  /-- It is destroyed, and its destructor has returned. -/
  | felled (h : Handle) (s : State) (c : Contents) (ran : Bool) (r : State)
      (hnone : (s.asset h).refs = 0) (hwhole : (s.asset h).destroyed = false)
      (hc : (s.asset h).contents = some c)
      (hcalled : call (.destructor { thread := scope.thread, registry := scope.registry } h c)
        (s.condemned h) = .ok ran r) :
      Happens call scope ⟨h, s, true, r.buried scope.registry h⟩

/-- Visits that follow each other from a state to another. -/
inductive Tour (call : Runner) (scope : Scope) : State → List Visit → State → Prop where
  | done (s : State) : Tour call scope s [] s
  | visit {v : Visit} {vs : List Visit} {t : State} (hv : v.Happens call scope)
      (hrest : Tour call scope v.after vs t) : Tour call scope v.before (v :: vs) t

section Visits

variable {call : Runner} {scope : Scope} {s t : State} {h : Handle} {hs : List Handle} {n : Nat}

/-- Where an asset has no references, the look at it is a call of `destroy`. -/
theorem happens_of_destroy {ran : Bool} (hnone : (s.asset h).refs = 0)
    (hrun : destroy call scope h s = .ok ran t) : Visit.Happens call scope ⟨h, s, ran, t⟩ := by
  rcases s.spent_or_whole h with hgone | ⟨hwhole, c, hc⟩
  · rw [destroy_of_gone hgone] at hrun
    cases hrun
    exact .gone h s hnone hgone
  · obtain ⟨rfl, ran, r, hcalled, rfl⟩ := destroy_eq_ok hwhole hc hrun
    exact .felled h s c ran r hnone hwhole hc hcalled

theorem Visit.Happens.destroy_eq {v : Visit} (hv : v.Happens call scope)
    (hnone : (v.before.asset v.asset).refs = 0) :
    destroy call scope v.asset v.before = .ok v.ran v.after := by
  cases hv with
  | rescued h s hsome => exact absurd hnone hsome
  | gone h s hnone hgone => exact destroy_of_gone hgone
  | felled h s c ran r hnone hwhole hc hcalled =>
    show destroy call scope h s = _
    rw [destroy_of_whole hwhole hc, Exec.bind_of_ok hcalled, Exec.bind_of_ok (unlink_run _ _ _)]
    rfl

/-- A look at an asset that has references again comes before the others. -/
theorem destroyUnreferenced_of_rescued (hsome : (s.asset h).refs ≠ 0) :
    destroyUnreferenced call scope (h :: hs) s = destroyUnreferenced call scope hs (s.spared h) := by
  rw [destroyUnreferenced, Exec.getAsset_bind, if_neg hsome]
  rfl

theorem destroyUnreferenced_of_none (hnone : (s.asset h).refs = 0) :
    destroyUnreferenced call scope (h :: hs) s =
      (destroy call scope h >>= fun done => destroyUnreferenced call scope hs >>= fun rest =>
        pure (rest + if done then 1 else 0)) s := by
  rw [destroyUnreferenced, Exec.getAsset_bind, if_pos hnone]

/-- What a flush does with the assets that it has taken out of the queue: it visits each
of them once, in order, and counts those whose destructor it has run. -/
theorem destroyUnreferenced_eq_ok_iff :
    destroyUnreferenced call scope hs s = .ok n t ↔
      ∃ vs, Tour call scope s vs t ∧ vs.map Visit.asset = hs ∧ n = vs.countP Visit.ran := by
  constructor
  · intro hrun
    -- a run gives a tour: on the queue, one visit for each asset in it
    induction hs generalizing s n with
    | nil =>
      cases hrun
      exact ⟨[], .done _, rfl, rfl⟩
    | cons h hs ih =>
      by_cases hnone : (s.asset h).refs = 0
      · rw [destroyUnreferenced_of_none hnone] at hrun
        obtain ⟨done, r, hdestroy, hrest⟩ := Exec.bind_eq_ok hrun
        obtain ⟨rest, r', hothers, hpure⟩ := Exec.bind_eq_ok hrest
        cases hpure
        obtain ⟨vs, htour, rfl, rfl⟩ := ih hothers
        have hv := happens_of_destroy hnone hdestroy
        refine ⟨⟨h, s, done, r⟩ :: vs, .visit hv htour, rfl, ?_⟩
        rw [List.countP_cons]
      · rw [destroyUnreferenced_of_rescued hnone] at hrun
        obtain ⟨vs, htour, rfl, rfl⟩ := ih hrun
        exact ⟨⟨h, s, false, s.spared h⟩ :: vs, .visit (.rescued h s hnone) htour, rfl, rfl⟩
  · rintro ⟨vs, htour, rfl, rfl⟩
    -- a tour gives a run: on the tour, and each kind of visit is what the code does
    induction htour with
    | done s => rfl
    | @visit v vs t hv hrest ih =>
      by_cases hnone : (v.before.asset v.asset).refs = 0
      · rw [List.map_cons, destroyUnreferenced_of_none hnone, Exec.bind_of_ok (hv.destroy_eq hnone),
          Exec.bind_of_ok ih, List.countP_cons]
        rfl
      · cases hv with
        | rescued h s hsome =>
          rw [List.map_cons, destroyUnreferenced_of_rescued hsome]
          exact ih
        | gone h s hzero => exact absurd hzero hnone
        | felled h s c ran r hzero => exact absurd hzero hnone

/-- A flush comes to an early end only if a destructor that it runs does. -/
theorem destroyUnreferenced_eq_error {e : Halt}
    (hrun : destroyUnreferenced call scope hs s = .error e t) :
    ∃ vs r h rest c, hs = vs.map Visit.asset ++ h :: rest ∧ Tour call scope s vs r ∧
      (r.asset h).refs = 0 ∧ (r.asset h).destroyed = false ∧ (r.asset h).contents = some c ∧
      call (.destructor { thread := scope.thread, registry := scope.registry } h c)
        (r.condemned h) = .error e t := by
  induction hs generalizing s with
  | nil => cases hrun
  | cons h hs ih =>
    by_cases hnone : (s.asset h).refs = 0
    · rw [destroyUnreferenced_of_none hnone] at hrun
      rcases Exec.bind_eq_error hrun with hdestroy | ⟨done, r, hdestroy, hrest⟩
      · -- what is left of the destruction after the destructor does not fail
        rcases s.spent_or_whole h with hgone | ⟨hwhole, c, hc⟩
        · rw [destroy_of_gone hgone] at hdestroy
          cases hdestroy
        · rw [destroy_of_whole hwhole hc] at hdestroy
          rcases Exec.bind_eq_error hdestroy with hcalled | ⟨ran, r, -, hburied⟩
          · exact ⟨[], s, h, hs, c, rfl, .done s, hnone, hwhole, hc, hcalled⟩
          · rw [Exec.bind_of_ok (unlink_run scope.registry h r)] at hburied
            cases hburied
      · rcases Exec.bind_eq_error hrest with hothers | ⟨rest, r', -, hpure⟩
        · obtain ⟨vs, r', k, rest, c, rfl, htour, hfacts⟩ := ih hothers
          have hv := happens_of_destroy hnone hdestroy
          exact ⟨_ :: vs, r', k, rest, c, rfl, .visit hv htour, hfacts⟩
        · cases hpure
    · rw [destroyUnreferenced_of_rescued hnone] at hrun
      obtain ⟨vs, r', k, rest, c, rfl, htour, hfacts⟩ := ih hrun
      exact ⟨_ :: vs, r', k, rest, c, rfl, .visit (.rescued h s hnone) htour, hfacts⟩

end Visits

/-! ### Visits in a run -/

section Scenes

variable {fuel : Nat} {scope : Scope} {u : List Activity} {s t : State} {v : Visit}
  {vs : List Visit} {due : List (List Subscription)}

section

variable (hscope : Serves u scope.registry)

include hscope

/-- A visit comes to strides. -/
theorem Visit.Happens.strides (hv : v.Happens (run fuel) scope) (hs : List Handle)
    (due : List (List Subscription)) :
    Strides ⟨⟨.flushing (v.asset :: hs) :: u, v.before⟩, due⟩ ⟨⟨.flushing hs :: u, v.after⟩, due⟩ := by
  cases hv with
  | rescued h s hsome =>
    have hskip : Stride ⟨⟨.flushing (h :: hs) :: u, s⟩, due⟩ ⟨⟨.flushing hs :: u, s⟩, due⟩ :=
      .asset (.skip h hs hsome)
    exact .tail (.single hskip) (.plain (.note _ trivial))
  | gone h s hnone hgone => exact .single (.asset (.again h (.visited hs hnone) hgone))
  | felled h s c ran r hnone hwhole hc hcalled =>
    have hexpire : Stride ⟨⟨.flushing (h :: hs) :: u, s⟩, due⟩
        ⟨⟨.destroying h :: .flushing hs :: u, s.expired h c⟩, due⟩ :=
      .asset (.expire h c (.visited hs hnone) hwhole hc)
    have hrun := (Visit.Happens.felled h s c ran r hnone hwhole hc hcalled).destroy_eq hnone
    exact .head hexpire (strides_of_destroy (hscope.cons _) hwhole hc hrun due).2

/-- So do all visits of a flush. -/
theorem Tour.strides (htour : Tour (run fuel) scope s vs t) (due : List (List Subscription)) :
    Strides ⟨⟨.flushing (vs.map Visit.asset) :: u, s⟩, due⟩ ⟨⟨u, t⟩, due⟩ := by
  induction htour with
  | done s => exact .single (.asset .flushed)
  | visit hv hrest ih => exact (hv.strides hscope _ due).trans ih

/-- What holds of every visit in a scene of a session holds of all visits of a flush. -/
theorem Tour.forall_visits {P : Visit → Prop} (htour : Tour (run fuel) scope s vs t)
    (hoccurs : Occurs ⟨⟨.flushing (vs.map Visit.asset) :: u, s⟩, due⟩)
    (hP : ∀ (v : Visit) hs, v.Happens (run fuel) scope →
      Occurs ⟨⟨.flushing (v.asset :: hs) :: u, v.before⟩, due⟩ → P v) : ∀ v ∈ vs, P v := by
  induction htour with
  | done s => exact fun v hv => absurd hv List.not_mem_nil
  | visit hv hrest ih =>
    intro w hw
    rcases List.mem_cons.1 hw with rfl | hw
    · exact hP w _ hv hoccurs
    · exact ih (hoccurs.strides (hv.strides hscope _ due)) w hw

/-- An asset that is gone is not destroyed again. -/
theorem Tour.not_ran_of_gone (htour : Tour (run fuel) scope s vs t) {h : Handle} (hgone : s.Gone h) :
    ∀ v ∈ vs, v.asset = h → v.ran = false := by
  induction htour with
  | done s => exact fun v hv => absurd hv List.not_mem_nil
  | @visit v vs t hv hrest ih =>
    intro w hw heq
    rcases List.mem_cons.1 hw with rfl | hw
    · cases hv with
      | rescued => rfl
      | gone => rfl
      | felled k s c ran r hnone hwhole =>
        change s.Gone h at hgone
        change k = h at heq
        rw [heq, hgone.2] at hwhole
        cases hwhole
    · exact ih ((hv.strides hscope [] []).moves.gone hgone) w hw heq

/-- When the destructor of an asset has run the asset is gone. -/
theorem Visit.Happens.gone_of_ran (hv : v.Happens (run fuel) scope) (hran : v.ran = true) :
    v.after.Gone v.asset := by
  cases hv with
  | rescued => cases hran
  | gone => cases hran
  | felled h s c ran r hnone hwhole hc hcalled =>
    have hrun := (Visit.Happens.felled h s c ran r hnone hwhole hc hcalled).destroy_eq hnone
    exact gone_of_destroy hscope hwhole hc hrun

/-- A flush destroys no asset twice, however often that waits. -/
theorem Tour.nodup_ran (htour : Tour (run fuel) scope s vs t) :
    ((vs.filter Visit.ran).map Visit.asset).Nodup := by
  induction htour with
  | done s => exact List.nodup_nil
  | @visit v vs t hv hrest ih =>
    cases hran : v.ran with
    | false => rwa [List.filter_cons_of_neg (by simp [hran])]
    | true =>
      rw [List.filter_cons_of_pos hran, List.map_cons, List.nodup_cons]
      refine ⟨fun hmem => ?_, ih⟩
      obtain ⟨w, hw, heq⟩ := List.mem_map.1 hmem
      obtain ⟨hw, hranW⟩ := List.mem_filter.1 hw
      have hnot := hrest.not_ran_of_gone hscope (hv.gone_of_ran hscope hran) w hw heq
      rw [hranW] at hnot
      cases hnot

end

/-- Whether a flush destroys an asset is decided by what it finds. -/
theorem Visit.Happens.ran_iff (hv : v.Happens (run fuel) scope)
    (hoccurs : Occurs ⟨⟨u, v.before⟩, due⟩) : v.ran = true ↔
      (v.before.asset v.asset).refs = 0 ∧ (v.before.asset v.asset).destroyed = false := by
  cases hv with
  | rescued h s hsome => simp [hsome]
  | gone h s hnone hgone =>
    have hdestroyed := hoccurs.expiring.2.destroyed_of_gone hnone hgone
    simp [hdestroyed]
  | felled h s c ran r hnone hwhole => simp [hnone, hwhole]

end Scenes

/-! ### The queue -/

/-- The moment after a flush has taken everything out of the queue of a registry. -/
def Moment.emptied (m : Moment) (r : RegistryId) : Moment :=
  ⟨.flushing (m.state.registry r).doomed :: m.underWay,
    m.state.modifyRegistry r fun reg => { reg with doomed := [] }⟩

/-- Nothing but a flush takes anything out of a queue, and what is added comes last. -/
theorem AssetMove.queue {m n : Moment} (h : AssetMove m n) (r : RegistryId) :
    (m.state.registry r).doomed <+: (n.state.registry r).doomed ∨ n = m.emptied r := by
  have hkept {s : State} {q : RegistryId} {f : Registry → Registry}
      (hf : (s.registry q).doomed <+: (f (s.registry q)).doomed) :
      (s.registry r).doomed <+: ((s.modifyRegistry q f).registry r).doomed := by
    rw [State.registry_modifyRegistry]
    split
    next hq =>
      rw [← hq.1]
      exact hf
    next => exact List.prefix_refl _
  -- a queue gets longer at its end or is emptied by a flush, and no other move touches it
  cases h with
  | doom q h => exact .inl (hkept (List.prefix_append _ _))
  | @flush u s q =>
    by_cases hq : q = r
    · rw [hq]
      exact .inr rfl
    · have hsame : (s.modifyRegistry q fun reg => { reg with doomed := [] }).registry r =
          s.registry r := by
        rw [State.registry_modifyRegistry, if_neg fun heq => hq heq.1]
      exact .inl (hsame ▸ List.prefix_refl _)
  | unlink q h k slot linked => exact .inl (hkept (List.prefix_refl _))
  | @insert u s q kind key slot linked =>
    have hs := hkept (q := q) (f := fun reg => { reg with linked }) (s := { s with
      assets := s.assets.push { Asset.fresh kind key with slot := some slot } }) (List.prefix_refl _)
    exact .inl hs
  | countNames q i => exact .inl (hkept (List.prefix_refl _))
  | @newRegistry u s =>
    exact .inl (s.registry_newRegistry r ▸ List.prefix_refl _)
  | _ => exact .inl (List.prefix_refl _)

/-- What waits in a queue at one moment still waits there at a later one, in this order
and before all that has come since, unless a flush took all of it in between. -/
def Moment.QueueLasts (m n : Moment) (r : RegistryId) : Prop :=
  (m.state.registry r).doomed <+: (n.state.registry r).doomed ∨
    ∃ k, Moves m k ∧ (m.state.registry r).doomed <+: (k.state.registry r).doomed ∧
      Moves (k.emptied r) n

theorem Moves.queueLasts {m n : Moment} (h : Moves m n) (r : RegistryId) : m.QueueLasts n r := by
  induction h with
  | refl => exact .inl (List.prefix_refl _)
  | @tail k n hmk hmove ih =>
    rcases ih with hlasts | ⟨l, hml, hwaits, hafter⟩
    · rcases hmove.asset_or_same with hasset | ⟨hsame, -⟩
      · rcases hasset.queue r with hkept | rfl
        · exact .inl (hlasts.trans hkept)
        · exact .inr ⟨k, hmk, hlasts, .refl⟩
      · refine .inl ?_
        rw [hsame.registry]
        exact hlasts
    · exact .inr ⟨l, hml, hwaits, hafter.tail hmove⟩

/-! ### What has become of the assets -/

/-- What every move preserves and the laws of destruction rest on. -/
structure Moment.Upright (m : Moment) : Prop where
  linkage : Linkage m
  dying : DyingAreGone m
  counts : m.CountsNonneg

theorem AssetMove.countsNonneg {m n : Moment} (h : AssetMove m n) (hm : m.CountsNonneg) :
    n.CountsNonneg := by
  have hkept {u v : List Activity} {s : State} {h : Handle} {f : Asset → Asset}
      (hs : Moment.CountsNonneg ⟨u, s⟩)
      (hf : 0 ≤ (s.asset h).refs → 0 ≤ (f (s.asset h)).refs) :
      Moment.CountsNonneg ⟨v, s.modifyAsset h f⟩ := by
    intro k hk
    change k < (s.modifyAsset h f).assets.size at hk
    rw [State.size_modifyAsset] at hk
    show 0 ≤ ((s.modifyAsset h f).asset k).refs
    rw [State.asset_modifyAsset]
    split
    next heq =>
      rw [← heq.1]
      exact hf (heq.1 ▸ hs k hk)
    next => exact hs k hk
  -- a reference is only dropped where there was one
  cases h with
  | @take u s holder h =>
    exact hkept (v := u) (f := fun a => { a with refs := a.refs + 1 }) hm
      fun hle => by dsimp only; omega
  | @revive u s holder h =>
    exact hkept (u := u) (v := u) (f := fun a => { a with refs := a.refs + 1 }) hm
      fun hle => by dsimp only; omega
  | @drop u s holder h hsome =>
    exact hkept (v := u) (f := fun a => { a with refs := a.refs - 1 }) hm
      fun _ => by dsimp only; omega
  | beginDestroy h c => exact hkept hm id
  | redestroy h => exact hkept hm id
  | endDestroy h => exact hkept hm id
  | rekey r h key => exact hkept hm id
  | edit h f hf =>
    refine hkept hm fun hle => ?_
    rw [hf.1]
    exact hle
  | @insert u s r kind key slot linked =>
    intro k hk
    change k < (s.inserted r kind key slot linked).assets.size at hk
    rw [State.size_inserted] at hk
    show 0 ≤ ((s.inserted r kind key slot linked).asset k).refs
    rw [State.asset_inserted]
    split
    next => exact Int.one_nonneg
    next hne => exact hm k (Nat.lt_of_le_of_ne (Nat.le_of_lt_succ hk) hne)
  | _ => exact hm

theorem Moment.Upright.move {m n : Moment} (hm : m.Upright) (h : Move m n) : n.Upright where
  linkage := hm.linkage.move hm.dying h
  dying := hm.dying.move h
  counts := by
    rcases h.asset_or_same with hasset | ⟨hsame, -⟩
    · exact hasset.countsNonneg hm.counts
    · intro k hk
      rw [hsame.assets] at hk
      rw [hsame.asset]
      exact hm.counts k hk

/-- Whatever is done, an asset without references goes on waiting for its destruction. -/
theorem Strides.expiring {c d : Scene} (hcd : Strides c d) (hupright : c.Upright)
    (hc : Expiring none c.toMoment) : d.Upright ∧ Expiring none d.toMoment := by
  induction hcd with
  | refl => exact ⟨hupright, hc⟩
  | tail _ hstride ih =>
    obtain ⟨hupright, hexpiring⟩ := ih
    refine ⟨?_, hexpiring.stride hupright.counts hupright.linkage hstride⟩
    exact hstride.moves.preserve (fun m n hmove hm => hm.move hmove) hupright

/-- An activity for which an asset does not wait. -/
def Activity.without (h : Handle) : Activity → Activity
  | .flushing hs => .flushing (hs.filter (· ≠ h))
  | a => a

theorem mem_of_mem_without {h : Handle} {a : Activity} {u : List Activity}
    (ha : ∀ hs, a ≠ .flushing hs) (hmem : a ∈ u.map (Activity.without h)) : a ∈ u := by
  obtain ⟨b, hb, rfl⟩ := List.mem_map.1 hmem
  cases b with
  | flushing hs => exact absurd rfl (ha _)
  | _ => exact hb

/-- What a flush has looked at is destroyed when it returns, or has references, or waits
in a queue again. -/
theorem Tour.settled {fuel : Nat} {scope : Scope} {u : List Activity} {s t : State}
    {vs : List Visit} {due : List (List Subscription)} (hscope : Serves u scope.registry)
    (htour : Tour (run fuel) scope s vs t)
    (hoccurs : Occurs ⟨⟨.flushing (vs.map Visit.asset) :: u, s⟩, due⟩) {h : Handle}
    (hh : h ∈ vs.map Visit.asset) :
    (t.asset h).destroyed = true ∨ 0 < (t.asset h).refs ∨ ∃ q, h ∈ (t.registry q).doomed := by
  -- the same flush within code that has no other flush waiting for this asset
  let v := u.map (Activity.without h)
  have hreckoned := hoccurs.reckoned
  obtain ⟨hlinkage, hexpiring⟩ := hoccurs.expiring
  have hmem {a : Activity} (ha : ∀ hs, a ≠ .flushing hs)
      (hmem : a ∈ Activity.flushing (vs.map Visit.asset) :: v) :
      a ∈ Activity.flushing (vs.map Visit.asset) :: u := by
    rcases List.mem_cons.1 hmem with heq | hmem
    · exact absurd heq (ha _)
    · exact List.mem_cons_of_mem _ (mem_of_mem_without ha hmem)
  have hupright : Moment.Upright ⟨.flushing (vs.map Visit.asset) :: v, s⟩ := by
    refine ⟨?_, ?_, hreckoned.balanced.nonneg⟩
    · exact hlinkage.of_eq rfl rfl rfl fun r => hmem nofun
    · exact fun k hk => hreckoned.dying k (hmem nofun hk)
  have hstart : Expiring none ⟨.flushing (vs.map Visit.asset) :: v, s⟩ := by
    refine ⟨hexpiring.whole, hexpiring.once, hexpiring.never, hexpiring.zero, ?_⟩
    intro k _ hk hwhole hnone
    by_cases hkh : k = h
    · rw [hkh]
      exact .inr ⟨_, List.mem_cons_self, hh⟩
    · rcases hexpiring.awaited k nofun hk hwhole hnone with hdoomed | ⟨hs, hflush, hkhs⟩
      · exact .inl hdoomed
      · rcases List.mem_cons.1 hflush with heq | hflush
        · exact .inr ⟨hs, List.mem_cons.2 (.inl heq), hkhs⟩
        · refine .inr ⟨hs.filter (· ≠ h), ?_, List.mem_filter.2 ⟨hkhs, by simp [hkh]⟩⟩
          exact List.mem_cons_of_mem _ (List.mem_map.2 ⟨_, hflush, rfl⟩)
  have hserves : Serves v scope.registry := by
    rcases hscope with hzero | hwithin
    · exact .inl hzero
    · exact .inr (List.mem_map.2 ⟨_, hwithin, rfl⟩)
  have hstrides := htour.strides hserves []
  obtain ⟨hupright', hend⟩ := hstrides.expiring hupright hstart
  cases hgone : (t.asset h).destroyed with
  | true => exact .inl rfl
  | false =>
    by_cases hsome : 0 < (t.asset h).refs
    · exact .inr (.inl hsome)
    · have hknown : h < t.assets.size := State.lt_size_of_whole (.inl hgone)
      have hnonneg : 0 ≤ (t.asset h).refs := hupright'.counts h hknown
      have hnone : (t.asset h).refs = 0 := by omega
      rcases hend.awaited h nofun hknown hgone hnone with hdoomed | ⟨hs, hflush, hhs⟩
      · exact .inr (.inr hdoomed)
      · -- nobody else was to look at it
        obtain ⟨a, -, ha⟩ := List.mem_map.1 hflush
        cases a with
        | flushing ks =>
          cases ha
          have hne := (List.mem_filter.1 hhs).2
          simp at hne
        | _ => cases ha

/-! ### The law -/

/-- What a visit is known to have done in a session. -/
structure Visit.Decided (fuel : Nat) (scope : Scope) (v : Visit) : Prop where
  /-- The destructor is run exactly if the asset has no reference at this moment and was
  not destroyed before, -/
  ran_iff : v.ran = true ↔
    (v.before.asset v.asset).refs = 0 ∧ (v.before.asset v.asset).destroyed = false
  /-- and then it has started for the first time, and the asset is gone. -/
  ends : v.ran = true →
    v.before.endsOf v.asset = 0 ∧ v.after.endsOf v.asset = 1 ∧ v.after.Gone v.asset
  /-- Else nothing is done, or a log line tells that the asset has references. -/
  quiet : v.ran = false → v.after =
    if (v.before.asset v.asset).refs = 0 then v.before else v.before.spared v.asset
  /-- Where the destructor is run, the queues are those that it has left. -/
  queues : v.ran = true → ∃ c ran r, (v.before.asset v.asset).contents = some c ∧
    run fuel (.destructor { thread := scope.thread, registry := scope.registry } v.asset c)
      (v.before.condemned v.asset) = .ok ran r ∧
    ∀ q, ((v.before.condemned v.asset).registry q).doomed = (v.before.registry q).doomed ∧
      (v.after.registry q).doomed = (r.registry q).doomed

/-- What is known of a flush that has returned. -/
structure Flushed (fuel : Nat) (scope : Scope) (c : Scene) (n : Nat) (t : State)
    (vs : List Visit) : Prop where
  /-- It has visited what was in the queue when it began, each entry once and in order, -/
  visits : vs.map Visit.asset = (c.state.registry scope.registry).doomed
  /-- after it had emptied the queue, and has done nothing besides. -/
  tour : Tour (run fuel) scope (c.emptied scope.registry).state vs t
  /-- Each visit was decided by what it has found. -/
  decided : ∀ v ∈ vs, v.Decided fuel scope
  /-- The result is the number of assets whose destructor the flush itself has run, -/
  count : n = vs.countP Visit.ran
  /-- none of them twice. -/
  once : ((vs.filter Visit.ran).map Visit.asset).Nodup
  /-- Whatever was in the queue is destroyed now, or has references, or waits in a queue
  again, -/
  settled : ∀ h ∈ (c.state.registry scope.registry).doomed, (t.asset h).destroyed = true ∨
    0 < (t.asset h).refs ∨ ∃ q, h ∈ (t.registry q).doomed
  /-- which is the same one while there is no other. -/
  again : t.Sole → ∀ h q, h ∈ (t.registry q).doomed → h ∈ (t.registry scope.registry).doomed
  /-- An asset that has references when the flush returns, and all the more one that had
  some all the time, has kept its contents, its slot and its links. -/
  keeps : ∀ h, h < c.state.assets.size → 0 < (t.asset h).refs →
    (t.asset h).destroyed = false ∧ (t.asset h).contents.isSome ∧
      (t.asset h).slot = (c.state.asset h).slot ∧
        ∀ q slot, c.state.LinksAt q slot h → t.LinksAt q slot h
  /-- Whatever came into a queue on the way is still there, unless another flush took it. -/
  lasts : ∀ m q, Moves (c.emptied scope.registry) m → Moves m ⟨c.underWay, t⟩ →
    m.QueueLasts ⟨c.underWay, t⟩ q

theorem State.remarked_eq {s : State} {h : Handle} (hgone : (s.asset h).destroyed = true) :
    s.remarked h = s := by
  have hassets : s.assets.modify h (fun a => { a with destroyed := true }) = s.assets := by
    apply Array.ext_getElem?
    intro k
    rw [Array.getElem?_modify]
    split
    next hk =>
      subst hk
      unfold State.asset at hgone
      cases hfound : s.assets[h]? with
      | none => rfl
      | some a =>
        rw [hfound] at hgone
        simp only [Option.getD_some] at hgone
        simp [← hgone]
    next => rfl
  unfold State.remarked State.modifyAsset
  rw [hassets]

theorem Visit.Happens.decided {fuel : Nat} {scope : Scope} {u : List Activity} {v : Visit}
    {hs : List Handle} {due : List (List Subscription)} (hscope : Serves u scope.registry)
    (hv : v.Happens (run fuel) scope)
    (hoccurs : Occurs ⟨⟨.flushing (v.asset :: hs) :: u, v.before⟩, due⟩) :
    v.Decided fuel scope := by
  have hafter := hoccurs.strides (hv.strides hscope hs due)
  have hran := hv.ran_iff hoccurs
  constructor
  · exact hran
  · intro hyes
    have hgone := hv.gone_of_ran hscope hyes
    -- an asset that was whole has no end yet, and one when it is gone
    refine ⟨?_, hafter.expiring.2.once _ hgone, hgone⟩
    refine hoccurs.expiring.2.never _ fun hbefore => ?_
    have hwhole := (hran.1 hyes).2
    rw [hbefore.2] at hwhole
    cases hwhole
  · intro hno
    -- a visit that does not destroy leaves the asset or marks it once more
    cases hv with
    | rescued h s hsome => exact (if_neg hsome).symm
    | gone h s hnone hgone =>
      have hdestroyed := hoccurs.expiring.2.destroyed_of_gone hnone hgone
      exact (s.remarked_eq hdestroyed).trans (if_pos hnone).symm
    | felled => cases hno
  · intro hyes
    cases hv with
    | rescued => cases hyes
    | gone => cases hyes
    | felled h s c ran r hnone hwhole hc hcalled =>
      refine ⟨c, ran, r, hc, hcalled, fun q => ⟨rfl, ?_⟩⟩
      obtain ⟨f, hf⟩ := r.unlinked_eq scope.registry h
      show (((r.unlinked scope.registry h).modifyAsset h _).registry q).doomed = _
      rw [hf]
      show ((r.modifyRegistry scope.registry _).registry q).doomed = _
      rw [State.registry_modifyRegistry]
      split <;> rfl

/-- **Flushing the queue.** Wherever client code may run, so also in a destructor that
another flush has run, whatever it has done before, and whatever the destructors do that
this flush runs. A flush that does not return has visited what comes before the asset
whose destructor did not. -/
theorem flush_visits_each_once {c : Scene} (hc : Occurs c) {scope : Scope}
    (hscope : Serves c.underWay scope.registry) (fuel : Nat) :
    (∀ n t, flush (run fuel) scope c.state = .ok n t → ∃ vs, Flushed fuel scope c n t vs) ∧
    ∀ e t, flush (run fuel) scope c.state = .error e t → ∃ vs r h rest contents,
      (c.state.registry scope.registry).doomed = vs.map Visit.asset ++ h :: rest ∧
      Tour (run fuel) scope (c.emptied scope.registry).state vs r ∧
      (r.asset h).refs = 0 ∧ (r.asset h).destroyed = false ∧
      (r.asset h).contents = some contents ∧
      run fuel (.destructor { thread := scope.thread, registry := scope.registry } h contents)
        (r.condemned h) = .error e t := by
  refine ⟨fun n t hrun => ?_, fun e t hrun => destroyUnreferenced_eq_error hrun⟩
  change destroyUnreferenced (run fuel) scope (c.state.registry scope.registry).doomed
    (c.emptied scope.registry).state = .ok n t at hrun
  obtain ⟨vs, htour, hvisits, hcount⟩ := destroyUnreferenced_eq_ok_iff.1 hrun
  have hflush : Stride c ⟨c.emptied scope.registry, c.due⟩ := .asset (.flush scope.registry)
  have hemptied : Occurs ⟨⟨.flushing (vs.map Visit.asset) :: c.underWay,
      (c.emptied scope.registry).state⟩, c.due⟩ := by
    rw [hvisits]
    exact hc.strides (.single hflush)
  have hstrides := htour.strides hscope c.due
  have hend := hemptied.strides hstrides
  have hmoves : Moves c.toMoment ⟨c.underWay, t⟩ := by
    rw [hvisits] at hstrides
    exact hflush.moves.trans hstrides.moves
  refine ⟨vs, hvisits, htour, ?_, hcount, htour.nodup_ran hscope, ?_, ?_, ?_, ?_⟩
  · exact htour.forall_visits hscope hemptied fun v hs hv hoccurs => hv.decided hscope hoccurs
  · intro h hh
    exact htour.settled hscope hemptied (hvisits ▸ hh)
  · intro hsole h q hq
    have hzero : scope.registry = 0 := hend.expiring.1.eq_zero hsole hscope
    -- a registry that was not made is empty
    have hq0 : q = 0 := by
      by_contra hne
      have hnone : t.registries[q]? = none := by
        refine Array.getElem?_eq_none ?_
        rw [show t.registries.size = 1 from hsole]
        exact Nat.one_le_iff_ne_zero.2 hne
      rw [State.registry, hnone] at hq
      exact absurd hq List.not_mem_nil
    rw [hzero, ← hq0]
    exact hq
  · intro h hh hsome
    have hknown : h < t.assets.size := State.lt_size_of_whole (.inr hsome)
    have hwhole : (t.asset h).destroyed = false := by
      rw [← Bool.not_eq_true]
      intro hgone
      have hnone : (t.asset h).refs = 0 := hend.reckoned.balanced.destroyed h hknown hgone
      omega
    obtain ⟨hslot, hlinks⟩ := hmoves.keeps_links hc.soundLinks hc.reckoned.dying hh hwhole
    refine ⟨hwhole, ?_, hslot, hlinks⟩
    have hcontents : (t.asset h).contents.isSome = !(t.asset h).destroyed :=
      hend.expiring.2.whole h hknown
    rw [hcontents, hwhole]
    rfl
  · exact fun m q _ hm => hm.queueLasts q

/-- Of four assets the first, the second, which was rescued and left to the flush again,
and the third wait for their destruction. The destructor of the first rescues the third
and leaves the fourth to a flush. -/
@[irreducible]
def queuedTwice : State :=
  (Session.bare .manual).start.after 8
    ([.findOrCreate "first" (.standard .mesh) (.ofId ⟨1⟩),
      .findOrCreate "second" (.standard .mesh) (.ofId ⟨2⟩),
      .findOrCreate "third" (.standard .mesh) (.ofId ⟨3⟩),
      .findOrCreate "fourth" (.standard .mesh) (.ofId ⟨4⟩),
      .setOnDestroy (.labelled "first") (.standard .mesh)
        ([.addref (.labelled "third"), .releaseDeferred (.labelled "fourth")].map Op.anyway),
      .releaseDeferred (.labelled "first"), .releaseDeferred (.labelled "second"),
      .addref (.labelled "second"), .releaseDeferred (.labelled "second"),
      .releaseDeferred (.labelled "third")].map fun op => (.main, op))

/-- Four visits destroy two assets; the third is skipped, and the fourth waits. -/
theorem queuedTwice_flushed :
    (queuedTwice.registry 0).doomed = [0, 1, 1, 2] ∧
      ∃ t vs, flush (run 8) {} queuedTwice = .ok 2 t ∧
        Flushed 8 {} ⟨⟨[], queuedTwice⟩, []⟩ 2 t vs ∧ (t.registry 0).doomed = [3] ∧
        (t.asset 2).refs = 1 ∧ (t.asset 2).destroyed = false := by
  have hc : Occurs ⟨⟨[], queuedTwice⟩, []⟩ := by
    unfold queuedTwice
    exact ((Reached.start _).after 8 _).occurs
  obtain ⟨n, hrun⟩ := State.run_of_isOk (s := queuedTwice) (x := flush (run 8) {})
    (by decide +kernel)
  have hcount : (match flush (run 8) {} queuedTwice with
      | .ok n _ => decide (n = 2)
      | .error _ _ => false) = true := by decide +kernel
  rw [hrun] at hcount
  obtain rfl : n = 2 := of_decide_eq_true hcount
  obtain ⟨vs, hflushed⟩ := (flush_visits_each_once hc (.inl rfl) 8).1 2 _ hrun
  exact ⟨by decide +kernel, _, vs, hrun, hflushed, by decide +kernel, by decide +kernel,
    by decide +kernel⟩

end AssetLoading
