import AssetLoading.Proofs.References.Lifetime

/-! # The roster of linked assets

  While the scheduler's registry is the only one, it links every asset once that is
  not destroyed, and no other but those whose destruction is under way. Linkage says
  that nothing is missing there; here it is shown that nothing is left over. So when
  no client code runs, the number of links is the number of assets that are not
  destroyed (`Occurs.mem_linked_iff`).
-/

namespace AssetLoading

/-- Every asset is linked once at most, and only until it is destroyed. -/
structure Roster (m : Moment) : Prop where
  nodup : (m.state.linked 0).Nodup
  counted : (m.state.registry 0).linked.size = (m.state.linked 0).length
  /-- A linked asset knows its slot. -/
  known : ∀ h ∈ m.state.linked 0, m.state.IsLinked h
  made : ∀ h ∈ m.state.linked 0, h < m.state.assets.size
  whole : ∀ h ∈ m.state.linked 0, (m.state.asset h).destroyed = false ∨ .destroying h ∈ m.underWay

/-! ### What leaves links alone -/

/-- No asset is linked, unlinked, made or destroyed. -/
structure Moment.KeepsLinks (m n : Moment) : Prop where
  size : n.state.assets.size = m.state.assets.size
  slot : ∀ h, (n.state.asset h).slot = (m.state.asset h).slot
  destroyed : ∀ h, (n.state.asset h).destroyed = (m.state.asset h).destroyed
  linked : (n.state.registry 0).linked = (m.state.registry 0).linked
  dying : ∀ h, .destroying h ∈ m.underWay → .destroying h ∈ n.underWay

section Keeping

variable {m n k : Moment} {u v : List Activity} {s : State}

theorem Moment.KeepsLinks.trans (hmn : m.KeepsLinks n) (hnk : n.KeepsLinks k) : m.KeepsLinks k where
  size := hnk.size.trans hmn.size
  slot h := (hnk.slot h).trans (hmn.slot h)
  destroyed h := (hnk.destroyed h).trans (hmn.destroyed h)
  linked := hnk.linked.trans hmn.linked
  dying h hh := hnk.dying h (hmn.dying h hh)

theorem Moment.SameAssets.keepsLinks (hsame : m.SameAssets n) : m.KeepsLinks n where
  size := by rw [hsame.assets]
  slot h := by rw [hsame.asset]
  destroyed h := by rw [hsame.asset]
  linked := by rw [hsame.registry]
  dying h := (hsame.mem_iff rfl).2

theorem keepsLinks_modifyAsset {t : State} {h : Handle} {f : Asset → Asset}
    (hassets : t.assets = (s.modifyAsset h f).assets) (hregistries : t.registries = s.registries)
    (hslot : (f (s.asset h)).slot = (s.asset h).slot)
    (hdestroyed : (f (s.asset h)).destroyed = (s.asset h).destroyed)
    (hdying : ∀ k, .destroying k ∈ u → .destroying k ∈ v) : Moment.KeepsLinks ⟨u, s⟩ ⟨v, t⟩ := by
  have hasset := asset_of_assets_eq hassets
  refine ⟨?_, fun k => ?_, fun k => ?_, ?_, hdying⟩
  · show t.assets.size = s.assets.size
    rw [hassets, State.size_modifyAsset]
  · rw [hasset]
    split
    next hk => rw [← hk.1, hslot]
    next => rfl
  · rw [hasset]
    split
    next hk => rw [← hk.1, hdestroyed]
    next => rfl
  · show (t.registry 0).linked = (s.registry 0).linked
    rw [State.registry, hregistries]
    rfl

theorem keepsLinks_modifyRegistry {r : RegistryId} {f : Registry → Registry}
    (hf : (f (s.registry r)).linked = (s.registry r).linked)
    (hdying : ∀ k, .destroying k ∈ u → .destroying k ∈ v) :
    Moment.KeepsLinks ⟨u, s⟩ ⟨v, s.modifyRegistry r f⟩ := by
  refine ⟨rfl, fun _ => rfl, fun _ => rfl, ?_, hdying⟩
  show ((s.modifyRegistry r f).registry 0).linked = _
  rw [State.registry_modifyRegistry]
  split
  next hr => rw [← hr.1, hf]
  next => rfl

theorem keepsLinks_referenced (holder : Holder) (h : Handle) :
    Moment.KeepsLinks ⟨u, s⟩ ⟨u, s.referenced holder h⟩ := by
  unfold State.referenced
  split
  next =>
    exact keepsLinks_modifyAsset (f := fun a => { a with refs := a.refs + 1 }) rfl rfl rfl rfl
      fun _ => id
  next =>
    exact keepsLinks_modifyAsset (f := fun a => { a with refs := a.refs + 1 }) rfl rfl rfl rfl
      fun _ => id

theorem keepsLinks_dropped (holder : Holder) (h : Handle) :
    Moment.KeepsLinks ⟨gained holder h u, s⟩ ⟨u, s.dropped holder h⟩ :=
  keepsLinks_modifyAsset (f := fun a => { a with refs := a.refs - 1 }) rfl rfl rfl rfl
    fun _ => (mem_gained rfl holder h u).1

theorem keepsLinks_letGo (r : RegistryId) (holder : Holder) (h : Handle) :
    Moment.KeepsLinks ⟨gained holder h u, s⟩ ⟨u, s.letGo r holder h⟩ := by
  have hdropped : Moment.KeepsLinks ⟨gained holder h u, s⟩ ⟨u, s.dropped holder h⟩ :=
    keepsLinks_dropped holder h
  unfold State.letGo
  split
  next => exact hdropped.trans (keepsLinks_modifyRegistry rfl fun _ => id)
  next => exact hdropped

theorem Falls.keepsLinks {h : Handle} (hfalls : Falls h m n) : m.KeepsLinks n := by
  cases hfalls with
  | last holder => exact keepsLinks_dropped holder h
  | visited hs => exact ⟨rfl, fun _ => rfl, fun _ => rfl, rfl, by simp⟩

theorem TaskStride.keepsLinks (h : TaskStride m n) : m.KeepsLinks n := by
  have hsame {u v : List Activity} {s t : State} (hassets : t.assets = s.assets)
      (hregistries : t.registries = s.registries)
      (hwork : v.filter Activity.ofAssets = u.filter Activity.ofAssets) :
      Moment.KeepsLinks ⟨u, s⟩ ⟨v, t⟩ :=
    Moment.SameAssets.keepsLinks ⟨hassets, hregistries, hwork⟩
  cases h with
  | @accept u s t =>
    exact (keepsLinks_referenced (u := .planned t :: u) .task t.asset).trans (hsame rfl rfl rfl)
  | @complete u s e =>
    have hcompleted : Moment.KeepsLinks ⟨.ended e :: u, s⟩
        ⟨.holding .task e.asset :: u, s.taskCompleted e⟩ := by
      unfold State.taskCompleted State.staged
      split
      next => exact (keepsLinks_referenced .notice e.asset).trans (hsame rfl rfl rfl)
      next => exact hsame rfl rfl rfl
    exact hcompleted.trans (keepsLinks_letGo 0 .task e.asset)
  | @discard u s e =>
    have hdiscarded : Moment.KeepsLinks ⟨.discarded e :: u, s⟩
        ⟨.holding .task e.asset :: u, s.record (.discarded e.id)⟩ := hsame rfl rfl rfl
    exact hdiscarded.trans (keepsLinks_letGo 0 .task e.asset)
  | shutDown | drain => exact hsame rfl rfl rfl
  | move h => exact h.sameAssets.keepsLinks

/-! ### What becomes of links -/

/-- The asset whose destruction an activity is. -/
def Activity.dying? : Activity → Option Handle
  | destroying h => some h
  | _ => none

/-- The assets whose destruction is under way. -/
def Moment.dying (m : Moment) : List Handle :=
  m.underWay.filterMap Activity.dying?

theorem Moment.mem_dying {h : Handle} : h ∈ m.dying ↔ .destroying h ∈ m.underWay := by
  unfold Moment.dying
  rw [List.mem_filterMap]
  constructor
  · rintro ⟨a, ha, hdying⟩
    cases a <;> cases hdying
    exact ha
  · exact fun hmem => ⟨_, hmem, rfl⟩

theorem Moment.SameAssets.dying_eq (hsame : m.SameAssets n) : n.dying = m.dying := by
  -- only activities of assets destroy any
  have hwork (k : Moment) : k.dying = k.assetWork.filterMap Activity.dying? := by
    unfold Moment.dying Moment.assetWork
    rw [List.filterMap_filter]
    congr 1
    funext a
    cases a <;> rfl
  rw [hwork, hwork, hsame.work]

theorem dying_gained (holder : Holder) (h : Handle) (s t : State) :
    (⟨gained holder h u, s⟩ : Moment).dying = (⟨u, t⟩ : Moment).dying := by
  cases holder <;> rfl

/-- What a stride does to the links of the only registry: it leaves them alone, begins
or ends a destruction, or links a new asset. -/
inductive LinkStride : Moment → Moment → Prop where
  | kept {m n : Moment} (hkept : m.KeepsLinks n) (hdying : n.dying = m.dying) : LinkStride m n
  | expired {m : Moment} {u : List Activity} {s : State} (h : Handle) (c : Contents)
      (hwhole : (s.asset h).destroyed = false) (hkept : m.KeepsLinks ⟨u, s⟩)
      (hdying : (⟨u, s⟩ : Moment).dying = m.dying) :
      LinkStride m ⟨.destroying h :: u, s.expired h c⟩
  | buried {u : List Activity} {s : State} (h : Handle) :
      LinkStride ⟨.destroying h :: u, s⟩ ⟨u, s.buried 0 h⟩
  | inserted {u : List Activity} {s : State} (kind : Kind) (key : Key) (slot : Slot)
      (linked : Arena Handle) (hpush : (s.registry 0).linked.push s.assets.size = .ok (slot, linked)) :
      LinkStride ⟨u, s⟩ ⟨u, s.inserted 0 kind key slot linked⟩

theorem Falls.dying_eq {h : Handle} (hfalls : Falls h m n) : n.dying = m.dying := by
  cases hfalls with
  | last holder => exact (dying_gained holder h _ _).symm
  | visited hs => rfl

theorem AssetStride.links (h : AssetStride m n) (hlinkage : Linkage m) (hexpiring : Expiring none m)
    (hsole : m.state.Sole) (hstill : n.state.Sole) : LinkStride m n := by
  have hedited {u : List Activity} {s t : State} {h : Handle} {f : Asset → Asset}
      (hassets : t.assets = (s.modifyAsset h f).assets) (hregistries : t.registries = s.registries)
      (hslot : (f (s.asset h)).slot = (s.asset h).slot)
      (hdestroyed : (f (s.asset h)).destroyed = (s.asset h).destroyed) :
      LinkStride ⟨u, s⟩ ⟨u, t⟩ :=
    .kept (keepsLinks_modifyAsset hassets hregistries hslot hdestroyed fun _ => id) rfl
  cases h with
  | take holder h => exact .kept (keepsLinks_referenced holder h) rfl
  | drop holder h => exact .kept (keepsLinks_dropped holder h) (dying_gained holder h _ _).symm
  | defer r h => exact .kept (keepsLinks_letGo r .client h) rfl
  | expire h c hfalls hwhole => exact .expired h c hwhole hfalls.keepsLinks hfalls.dying_eq
  | @again m u s h hfalls hgone =>
    have hfallen := hexpiring.falls hfalls
    have hdestroyed := hfallen.destroyed_of_gone hfalls.refs_eq_zero hgone
    have hmarked : Moment.KeepsLinks ⟨u, s⟩ ⟨u, s.modifyAsset h fun a => { a with destroyed := true }⟩ :=
      keepsLinks_modifyAsset rfl rfl rfl hdestroyed.symm fun _ => id
    exact .kept (hfalls.keepsLinks.trans hmarked) hfalls.dying_eq
  | flush r => exact .kept (keepsLinks_modifyRegistry rfl (by simp)) rfl
  | skip h hs => exact .kept ⟨rfl, fun _ => rfl, fun _ => rfl, rfl, by simp⟩ rfl
  | flushed => exact .kept ⟨rfl, fun _ => rfl, fun _ => rfl, rfl, by simp⟩ rfl
  | bury r h hr =>
    have hzero := hlinkage.eq_zero hsole (hr.cons _)
    subst hzero
    exact .buried h
  | insert r kind key slot linked hr _ hpush =>
    have hzero := hlinkage.eq_zero hsole hr
    subst hzero
    exact .inserted kind key slot linked hpush
  | countNames r => exact .kept (keepsLinks_modifyRegistry rfl fun _ => id) rfl
  | rekey r h => exact hedited rfl rfl rfl rfl
  | write h f hf => exact hedited rfl rfl (by rw [hf.1]) (by rw [hf.1])
  | setState h state => exact hedited (f := fun a => { a with state }) rfl rfl rfl rfl
  | loading t => exact hedited rfl rfl rfl rfl
  | fail e => exact hedited rfl rfl rfl rfl
  | @newRegistry u s =>
    -- with a second registry nothing is claimed any more
    change (s.registries.push {}).size = 1 at hstill
    rw [Array.size_push] at hstill
    have hfirst : 0 < s.registries.size := hlinkage.first
    omega
  | leaveRegistry r => exact .kept ⟨rfl, fun _ => rfl, fun _ => rfl, rfl, by simp⟩ rfl

theorem TaskStride.links (h : TaskStride m n) : LinkStride m n := by
  refine .kept h.keepsLinks ?_
  cases h with
  | move h => exact h.sameAssets.dying_eq
  | _ => rfl

theorem Stride.links {c d : Scene} (h : Stride c d) (hlinkage : Linkage c.toMoment)
    (hexpiring : Expiring none c.toMoment) (hsole : c.state.Sole) (hstill : d.state.Sole) :
    LinkStride c.toMoment d.toMoment := by
  have hsame {m n : Moment} (hsame : m.SameAssets n) : LinkStride m n :=
    .kept hsame.keepsLinks hsame.dying_eq
  cases h with
  | asset h => exact h.links hlinkage hexpiring hsole hstill
  | body h => exact hsame h.sameAssets
  | job h => exact hsame h.sameAssets
  | task h => exact h.links
  | notice h => exact hsame h.sameAssets
  | plain h => exact hsame h.sameAssets

end Keeping

namespace Roster

variable {m n : Moment} {u : List Activity} {s : State} {h : Handle}

theorem start (p : Session) : Roster ⟨[], p.start⟩ := by
  unfold Session.start
  constructor <;> dsimp only <;> split <;> simp [State.record, State.registry, State.linked,
    Arena.toList]

theorem kept (hm : Roster m) (hmn : m.KeepsLinks n) : Roster n := by
  have hlinked : n.state.linked 0 = m.state.linked 0 := by
    unfold State.linked
    rw [hmn.linked]
  constructor
  · rw [hlinked]
    exact hm.nodup
  · rw [hmn.linked, hlinked]
    exact hm.counted
  · intro h hh
    rw [hlinked] at hh
    unfold State.IsLinked
    rw [hmn.slot, hmn.linked]
    exact hm.known h hh
  · intro h hh
    rw [hlinked] at hh
    rw [hmn.size]
    exact hm.made h hh
  · intro h hh
    rw [hlinked] at hh
    rw [hmn.destroyed]
    exact (hm.whole h hh).imp_right (hmn.dying h)

/-- An asset is linked as long as its destructor runs. -/
theorem expired (hm : Roster ⟨u, s⟩) (c : Contents) : Roster ⟨.destroying h :: u, s.expired h c⟩ := by
  have hasset (k : Handle) : (s.expired h c).asset k =
      if h = k ∧ k < s.assets.size then { s.asset k with destroyed := true, contents := none }
      else s.asset k :=
    State.asset_modifyAsset s h k _
  refine ⟨hm.nodup, hm.counted, fun k hk => ?_, fun k hk => ?_, fun k hk => ?_⟩
  · obtain ⟨slot, hslot, hget⟩ := hm.known k hk
    refine ⟨slot, ?_, hget⟩
    rw [hasset]
    split <;> exact hslot
  · show k < (s.expired h c).assets.size
    have hsize : (s.expired h c).assets.size = s.assets.size := State.size_modifyAsset s h _
    rw [hsize]
    exact hm.made k hk
  · by_cases hkh : k = h
    · rw [hkh]
      exact .inr List.mem_cons_self
    · rw [hasset, if_neg fun hk => hkh hk.1.symm]
      exact (hm.whole k hk).imp_right (List.mem_cons_of_mem _)

/-- An asset that is unlinked is not linked any more, and no other link changes. -/
theorem unlinked (hm : Roster ⟨u, s⟩) (hfirst : 0 < s.registries.size) (h : Handle) :
    (s.unlinked 0 h).assets = s.assets ∧ ((s.unlinked 0 h).linked 0).Nodup ∧
      ((s.unlinked 0 h).registry 0).linked.size = ((s.unlinked 0 h).linked 0).length ∧
      ∀ k ∈ (s.unlinked 0 h).linked 0, k ≠ h ∧ k ∈ s.linked 0 ∧ ∀ slot,
        (s.registry 0).linked.get? slot = some k →
          ((s.unlinked 0 h).registry 0).linked.get? slot = some k := by
  -- an asset that does not know its slot, or is not found there, is not linked
  have hkeep (hnot : ¬ s.IsLinked h) : s.assets = s.assets ∧ (s.linked 0).Nodup ∧
      (s.registry 0).linked.size = (s.linked 0).length ∧
      ∀ k ∈ s.linked 0, k ≠ h ∧ k ∈ s.linked 0 ∧ ∀ slot,
        (s.registry 0).linked.get? slot = some k → (s.registry 0).linked.get? slot = some k := by
    refine ⟨rfl, hm.nodup, hm.counted, fun k hk => ⟨?_, hk, fun _ => id⟩⟩
    rintro rfl
    exact hnot (hm.known k hk)
  unfold State.unlinked
  split
  next hslot =>
    refine hkeep ?_
    rintro ⟨slot, hslot', -⟩
    rw [hslot] at hslot'
    cases hslot'
  next slot hslot =>
    split
    next hget =>
      split
      next htake => exact absurd htake (Arena.take?_ne_none hget)
      next k linked htake =>
        have hlinked : ((s.modifyRegistry 0 fun reg => { reg with linked }).registry 0).linked =
            linked := by
          rw [State.registry_modifyRegistry, if_pos ⟨rfl, hfirst⟩]
        obtain rfl : k = h :=
          Option.some.inj ((Arena.take?_eq_some htake).1.symm.trans hget)
        obtain ⟨hperm, hsize⟩ := Arena.toList_take? htake
        have hnodup : (k :: linked.toList).Nodup := hperm.nodup_iff.1 hm.nodup
        rw [List.nodup_cons] at hnodup
        have hcounted : (s.registry 0).linked.size = (s.registry 0).linked.toList.length := hm.counted
        refine ⟨rfl, ?_, ?_, ?_⟩
        · rw [State.linked, hlinked]
          exact hnodup.2
        · rw [State.linked, hlinked, hsize, hcounted, hperm.length_eq]
          exact Nat.succ_sub_one _
        · intro l hl
          rw [State.linked, hlinked] at hl
          have hne : l ≠ k := fun heq => hnodup.1 (heq ▸ hl)
          refine ⟨hne, hperm.mem_iff.2 (List.mem_cons_of_mem k hl), fun slot' hslot' => ?_⟩
          rw [hlinked]
          exact Arena.get?_take?_of_ne htake hslot' hne
    next hget =>
      refine hkeep ?_
      rintro ⟨slot', hslot', hget'⟩
      rw [hslot, Option.some.injEq] at hslot'
      exact hget (hslot' ▸ hget')

/-- When its destruction ends, an asset is linked no more. -/
theorem buried (hm : Roster ⟨.destroying h :: u, s⟩) (hfirst : 0 < s.registries.size) :
    Roster ⟨u, s.buried 0 h⟩ := by
  obtain ⟨hassets, hnodup, hcounted, hrest⟩ := hm.unlinked hfirst h
  have hasset {k : Handle} (hk : k ≠ h) : (s.buried 0 h).asset k = s.asset k := by
    rw [State.buried, State.asset_modifyAsset, if_neg fun heq => hk heq.1.symm, State.asset, hassets]
    rfl
  refine ⟨hnodup, hcounted, fun k hk => ?_, fun k hk => ?_, fun k hk => ?_⟩
  · obtain ⟨hne, hold, hget⟩ := hrest k hk
    obtain ⟨slot, hslot, hslotGet⟩ := hm.known k hold
    refine ⟨slot, ?_, hget slot hslotGet⟩
    rw [hasset hne]
    exact hslot
  · obtain ⟨-, hold, -⟩ := hrest k hk
    show k < ((s.unlinked 0 h).modifyAsset h _).assets.size
    rw [State.size_modifyAsset, hassets]
    exact hm.made k hold
  · obtain ⟨hne, hold, -⟩ := hrest k hk
    rw [hasset hne]
    refine (hm.whole k hold).imp_right fun hmem => ?_
    rcases List.mem_cons.1 hmem with heq | hmem
    · exact absurd (Activity.destroying.inj heq) hne
    · exact hmem

/-- A new asset is linked once. -/
theorem inserted (hm : Roster ⟨u, s⟩) (hlinkage : Linkage ⟨u, s⟩) (hsole : s.Sole) {kind : Kind}
    {key : Key} {slot : Slot} {linked : Arena Handle}
    (hpush : (s.registry 0).linked.push s.assets.size = .ok (slot, linked)) :
    Roster ⟨u, s.inserted 0 kind key slot linked⟩ := by
  have hsound := hlinkage.sound hsole
  obtain ⟨hperm, hsize⟩ := hsound.toList_push hpush
  have hlinked : ((s.inserted 0 kind key slot linked).registry 0).linked = linked := by
    show ((State.modifyRegistry _ 0 fun reg => { reg with linked }).registry 0).linked = linked
    rw [State.registry_modifyRegistry, if_pos ⟨rfl, hlinkage.first⟩]
  have hall : (s.inserted 0 kind key slot linked).linked 0 = linked.toList := by
    rw [State.linked, hlinked]
  have hnew : s.assets.size ∉ (s.registry 0).linked.toList :=
    fun hmem => Nat.lt_irrefl _ (hm.made _ hmem)
  have hold {k : Handle} (hk : k < s.assets.size) :
      (s.inserted 0 kind key slot linked).asset k = s.asset k := by
    rw [State.asset_inserted, if_neg (Nat.ne_of_lt hk)]
  have hlast : (s.inserted 0 kind key slot linked).asset s.assets.size =
      { Asset.fresh kind key with slot := some slot } := by
    rw [State.asset_inserted, if_pos rfl]
  -- the roster is the old one with the new asset somewhere in it
  constructor
  · rw [hall, hperm.nodup_iff]
    exact List.nodup_cons.2 ⟨hnew, hm.nodup⟩
  · have hcounted : (s.registry 0).linked.size = (s.registry 0).linked.toList.length := hm.counted
    rw [hall, hlinked, hsize, hcounted, hperm.length_eq]
    rfl
  · intro k hk
    rw [hall, hperm.mem_iff] at hk
    unfold State.IsLinked
    rw [hlinked]
    rcases List.mem_cons.1 hk with rfl | hk
    · rw [hlast]
      exact ⟨slot, rfl, hsound.get?_push hpush⟩
    · obtain ⟨slot', hslot', hget'⟩ := hm.known k hk
      rw [hold (hm.made k hk)]
      exact ⟨slot', hslot', hsound.get?_push_of_get? hpush hget'⟩
  · intro k hk
    rw [hall, hperm.mem_iff] at hk
    show k < (s.inserted 0 kind key slot linked).assets.size
    rw [State.size_inserted]
    rcases List.mem_cons.1 hk with rfl | hk
    · exact Nat.lt_succ_self _
    · exact Nat.lt_succ_of_lt (hm.made k hk)
  · intro k hk
    rw [hall, hperm.mem_iff] at hk
    rcases List.mem_cons.1 hk with rfl | hk
    · rw [hlast]
      exact .inl rfl
    · rw [hold (hm.made k hk)]
      exact hm.whole k hk

/-! ### Every stride -/

theorem linkStride (hm : Roster m) (hlinkage : Linkage m) (hsole : m.state.Sole)
    (h : LinkStride m n) : Roster n := by
  cases h with
  | kept hkept => exact hm.kept hkept
  | expired h c hwhole hkept => exact (hm.kept hkept).expired c
  | buried h => exact hm.buried hlinkage.first
  | inserted kind key slot linked hpush => exact hm.inserted hlinkage hsole hpush

end Roster

/-! ### Linked assets -/

/-- A registry that is the only one was the only one before. -/
theorem Moves.sole {m n : Moment} (hmn : Moves m n) (hm : Reckoned m ∧ Linkage m)
    (hsole : n.state.Sole) : m.state.Sole := by
  induction hmn using Relation.ReflTransGen.head_induction_on with
  | refl => exact hsole
  | head hmove _ ih =>
    exact hm.2.sole_of_move hmove (ih ⟨hm.1.move _ _ hmove, hm.2.move hm.1.dying hmove⟩)

theorem Occurs.roster {c : Scene} (hc : Occurs c) (hsole : c.state.Sole) : Roster c.toMoment := by
  refine hc.invariant (P := fun c => c.state.Sole → Roster c.toMoment) (fun p _ => Roster.start p)
    (fun c d hc h hm hstill => ?_) hsole
  have hbefore := h.moves.sole ⟨hc.reckoned, hc.expiring.1⟩ hstill
  exact (hm hbefore).linkStride hc.expiring.1 hbefore (h.links hc.expiring.1 hc.expiring.2 hbefore hstill)

/-- When no client code runs, exactly the assets that are not destroyed are linked. -/
theorem Occurs.mem_linked_iff {s : State} {due : List (List Subscription)} (hc : Occurs ⟨⟨[], s⟩, due⟩)
    (hsole : s.Sole) (h : Handle) :
    h ∈ s.linked 0 ↔ h < s.assets.size ∧ (s.asset h).destroyed = false := by
  constructor
  · intro hmem
    refine ⟨(hc.roster hsole).made h hmem, ?_⟩
    exact ((hc.roster hsole).whole h hmem).resolve_right List.not_mem_nil
  · rintro ⟨hmade, hwhole⟩
    obtain ⟨slot, -, hget⟩ := hc.expiring.1.linked hsole h hmade hwhole
    exact Arena.mem_toList_of_get? hget

/-- Then a report of leaks counts every linked asset if none of them is without
references, and else fewer. -/
theorem Occurs.length_leaks_eq_iff {s : State} {due : List (List Subscription)}
    (hc : Occurs ⟨⟨[], s⟩, due⟩) (hsole : s.Sole) :
    (s.leaks 0).length = (s.registry 0).linked.size ↔
      ∀ h, h < s.assets.size → (s.asset h).destroyed = false → 0 < (s.asset h).refs := by
  rw [(hc.roster hsole).counted, State.leaks, List.length_filter_eq_length_iff]
  simp only [decide_eq_true_eq, hc.mem_linked_iff hsole, and_imp]

end AssetLoading
