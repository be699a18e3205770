import AssetLoading.Proofs.References.Destruction
import AssetLoading.Proofs.Slot.Arena

/-! # Linkage

  While the scheduler's registry is the only one, every asset that is not
  destroyed is linked in it, under the slot that the asset itself knows. Other
  registries are left out: client code may use an asset with a registry that
  does not link it.
-/

namespace AssetLoading

/-- The scheduler's registry is the only one. -/
def State.Sole (s : State) : Prop :=
  s.registries.size = 1

/-- An asset is linked in the scheduler's registry, under the slot that it knows. -/
def State.IsLinked (s : State) (h : Handle) : Prop :=
  ∃ slot, (s.asset h).slot = some slot ∧ (s.registry 0).linked.get? slot = some h

/-- The registries that code works with exist, and while there is one only, all
assets that are not destroyed are linked in it. -/
structure Linkage (m : Moment) : Prop where
  first : 0 < m.state.registries.size
  serving : ∀ r, .within r ∈ m.underWay → r < m.state.registries.size
  sound : m.state.Sole → (m.state.registry 0).linked.Sound
  linked : m.state.Sole → ∀ h, h < m.state.assets.size → (m.state.asset h).destroyed = false →
    m.state.IsLinked h

namespace Linkage

variable {m n : Moment} {u v : List Activity} {s : State}

theorem start (p : Session) : Linkage ⟨[], p.start⟩ := by
  unfold Session.start
  constructor <;> dsimp only <;> split <;> simp [State.record, State.registry, Arena.Sound.empty]

/-- The scheduler's registry is the only one that serves, if there is no other. -/
theorem eq_zero (hm : Linkage ⟨u, s⟩) (hsole : s.Sole) {r : RegistryId} (hr : Serves u r) :
    r = 0 := by
  rcases hr with hzero | hwithin
  · exact hzero
  · have hlt : r < s.registries.size := hm.serving r hwithin
    rw [hsole] at hlt
    exact Nat.lt_one_iff.1 hlt

/-- Changes that leave assets and links alone. -/
theorem of_eq (hm : Linkage m) (hassets : n.state.assets = m.state.assets)
    (hsize : n.state.registries.size = m.state.registries.size)
    (hlinked : (n.state.registry 0).linked = (m.state.registry 0).linked)
    (hwithin : ∀ r, .within r ∈ n.underWay → .within r ∈ m.underWay) : Linkage n := by
  have hsole (h : n.state.Sole) : m.state.Sole := hsize.symm.trans h
  constructor
  · rw [hsize]
    exact hm.first
  · intro r hr
    rw [hsize]
    exact hm.serving r (hwithin r hr)
  · intro h
    rw [hlinked]
    exact hm.sound (hsole h)
  · intro h k hk hwhole
    unfold State.IsLinked State.asset at *
    rw [hassets] at hk hwhole ⊢
    rw [hlinked]
    exact hm.linked (hsole h) k hk hwhole

theorem sameAssets (hm : Linkage m) (hsame : m.SameAssets n) : Linkage n := by
  have hwithin (r : RegistryId) : .within r ∈ n.underWay → .within r ∈ m.underWay :=
    (hsame.mem_iff rfl).1
  exact hm.of_eq hsame.assets (by rw [hsame.registries]) (by rw [hsame.registry]) hwithin

/-- An asset changes, but keeps its slot unless it is destroyed. -/
theorem modifyAsset (hm : Linkage ⟨u, s⟩) {h : Handle} {f : Asset → Asset}
    (hslot : (s.asset h).destroyed = false → (f (s.asset h)).slot = (s.asset h).slot)
    (hwhole : (f (s.asset h)).destroyed = false → (s.asset h).destroyed = false)
    (hwithin : ∀ r, .within r ∈ v → .within r ∈ u) : Linkage ⟨v, s.modifyAsset h f⟩ := by
  constructor
  · exact hm.first
  · intro r hr
    exact hm.serving r (hwithin r hr)
  · exact hm.sound
  · intro hsole k hk hkWhole
    rw [State.size_modifyAsset] at hk
    unfold State.IsLinked
    rw [State.asset_modifyAsset] at hkWhole ⊢
    split at hkWhole
    next hhk =>
      obtain ⟨rfl, -⟩ := hhk
      have hold := hwhole hkWhole
      rw [if_pos ⟨rfl, hk⟩, hslot hold]
      exact hm.linked hsole h hk hold
    next hne =>
      rw [if_neg hne]
      exact hm.linked hsole k hk hkWhole

/-- A registry changes, but not its links. -/
theorem modifyRegistry (hm : Linkage ⟨u, s⟩) {r : RegistryId} {f : Registry → Registry}
    (hf : (f (s.registry r)).linked = (s.registry r).linked)
    (hwithin : ∀ r, .within r ∈ v → .within r ∈ u) : Linkage ⟨v, s.modifyRegistry r f⟩ := by
  have hlinked : ((s.modifyRegistry r f).registry 0).linked = (s.registry 0).linked := by
    rw [State.registry_modifyRegistry]
    split
    next hr => rw [← hr.1, hf]
    next => rfl
  exact hm.of_eq rfl Array.size_modify hlinked hwithin

/-- An asset that is destroyed is unlinked. -/
theorem unlink (hm : Linkage ⟨u, s⟩) {r : RegistryId} {h k : Handle} {slot : Slot}
    {linked : Arena Handle} (hgone : (s.asset h).destroyed = true)
    (hget : (s.registry r).linked.get? slot = some h)
    (htake : (s.registry r).linked.take? slot = some (k, linked)) :
    Linkage ⟨u, s.modifyRegistry r fun reg => { reg with linked }⟩ := by
  by_cases hr : r = 0
  · subst hr
    have hregistry : ((s.modifyRegistry 0 fun reg => { reg with linked }).registry 0).linked =
        linked := by
      rw [State.registry_modifyRegistry, if_pos ⟨rfl, hm.first⟩]
    have hsize : (s.modifyRegistry 0 fun reg => { reg with linked }).registries.size =
        s.registries.size := Array.size_modify
    constructor
    · rw [hsize]
      exact hm.first
    · intro q hq
      rw [hsize]
      exact hm.serving q hq
    · intro hs
      rw [hregistry]
      exact (hm.sound (hsize.symm.trans hs)).take? htake
    · intro hs l hl hwhole
      change (s.asset l).destroyed = false at hwhole
      obtain ⟨slot', hslot', hget'⟩ := hm.linked (hsize.symm.trans hs) l hl hwhole
      -- the asset that is unlinked is destroyed, so it is not this one
      have hne : l ≠ k := by
        rintro rfl
        rw [(Arena.take?_eq_some htake).1, Option.some.injEq] at hget
        rw [hget, hgone] at hwhole
        cases hwhole
      refine ⟨slot', hslot', ?_⟩
      rw [hregistry]
      exact Arena.get?_take?_of_ne htake hget' hne
  · refine hm.of_eq rfl Array.size_modify ?_ fun _ => id
    rw [State.registry_modifyRegistry, if_neg fun h => hr h.1]

/-- A new asset is linked, and what was linked stays where it is. -/
theorem insert (hm : Linkage ⟨u, s⟩) {r : RegistryId} {kind : Kind} {key : Key} {slot : Slot}
    {linked : Arena Handle} (hr : Serves u r)
    (hpush : (s.registry r).linked.push s.assets.size = .ok (slot, linked)) :
    Linkage ⟨u, s.inserted r kind key slot linked⟩ := by
  have hsize : (s.inserted r kind key slot linked).registries.size = s.registries.size :=
    Array.size_modify
  have hregistry (hsole : s.Sole) :
      ((s.inserted r kind key slot linked).registry 0).linked = linked := by
    have hzero := hm.eq_zero hsole hr
    subst hzero
    show ((State.modifyRegistry _ 0 fun reg => { reg with linked }).registry 0).linked = linked
    rw [State.registry_modifyRegistry, if_pos ⟨rfl, hm.first⟩]
  constructor
  · rw [hsize]
    exact hm.first
  · intro q hq
    rw [hsize]
    exact hm.serving q hq
  · intro hs
    have hsole : s.Sole := hsize.symm.trans hs
    have hzero := hm.eq_zero hsole hr
    subst hzero
    rw [hregistry hsole]
    exact (hm.sound hsole).push hpush
  · intro hs k hk hwhole
    have hsole : s.Sole := hsize.symm.trans hs
    have hzero := hm.eq_zero hsole hr
    subst hzero
    unfold State.IsLinked
    rw [State.asset_inserted] at hwhole ⊢
    rw [hregistry hsole]
    -- the new asset stands where it was put, and the others where they were
    by_cases hnew : k = s.assets.size
    · rw [if_pos hnew, hnew]
      exact ⟨slot, rfl, (hm.sound hsole).get?_push hpush⟩
    · rw [if_neg hnew] at hwhole ⊢
      have hold : k < s.assets.size := by
        rw [State.size_inserted] at hk
        exact Nat.lt_of_le_of_ne (Nat.le_of_lt_succ hk) hnew
      obtain ⟨slot', hslot', hget'⟩ := hm.linked hsole k hold hwhole
      exact ⟨slot', hslot', (hm.sound hsole).get?_push_of_get? hpush hget'⟩

/-- With a second registry nothing is said of links any more. -/
theorem newRegistry (hm : Linkage ⟨u, s⟩) :
    Linkage ⟨.within s.registries.size :: u, { s with registries := s.registries.push {} }⟩ := by
  have hsize : (s.registries.push {}).size = s.registries.size + 1 := Array.size_push _
  have hnotSole : ¬ State.Sole { s with registries := s.registries.push {} } := by
    intro hs
    have hfirst : 0 < s.registries.size := hm.first
    rw [State.Sole, hsize] at hs
    omega
  constructor
  · show 0 < (s.registries.push {}).size
    omega
  · intro r hr
    show r < (s.registries.push {}).size
    rw [hsize]
    rcases List.mem_cons.1 hr with heq | hold
    · cases heq
      exact Nat.lt_succ_self _
    · exact Nat.lt_succ_of_lt (hm.serving r hold)
  · exact fun hs => absurd hs hnotSole
  · exact fun hs => absurd hs hnotSole

/-- Every move of assets and registries keeps the links. -/
theorem assetMove (hm : Linkage m) (hdying : DyingAreGone m) (h : AssetMove m n) : Linkage n := by
  have hcounted {u v : List Activity} {s t : State} (h : Handle) (count : Int → Int)
      (hm : Linkage ⟨u, s⟩)
      (hsame : (⟨v, s.modifyAsset h fun a => { a with refs := count a.refs }⟩ : Moment).SameAssets
        ⟨v, t⟩) (hwithin : ∀ r, .within r ∈ v → .within r ∈ u) : Linkage ⟨v, t⟩ :=
    (hm.modifyAsset (fun _ => rfl) id hwithin).sameAssets hsame
  cases h with
  | take holder h =>
    exact hcounted h (· + 1) hm ⟨rfl, rfl, rfl⟩ fun r => (mem_gained rfl holder h _).1
  | revive holder h =>
    exact hcounted h (· + 1) hm ⟨rfl, rfl, rfl⟩ fun r => (mem_gained rfl holder h _).1
  | drop holder h =>
    exact hcounted h (· - 1) hm ⟨rfl, rfl, rfl⟩ fun r => (mem_gained rfl holder h _).2
  | doom r h => exact hm.modifyRegistry rfl fun _ => id
  | flush r => exact hm.modifyRegistry rfl (by simp)
  | visit h hs => exact hm.of_eq rfl rfl rfl (by simp)
  | flushed => exact hm.of_eq rfl rfl rfl (by simp)
  | beginDestroy h c => exact hm.modifyAsset (fun _ => rfl) nofun (by simp)
  | redestroy h => exact hm.modifyAsset (fun _ => rfl) nofun fun _ => id
  | destructor h => exact hm.of_eq rfl rfl rfl fun _ => id
  -- what is unlinked is being destroyed, so no whole asset loses its link
  | unlink r h k slot linked hslot hget htake =>
    exact hm.unlink (hdying h List.mem_cons_self).2 hget htake
  -- the slot is forgotten only after the asset was destroyed
  | @endDestroy u s h =>
    have hgone : (s.asset h).destroyed = true := (hdying h List.mem_cons_self).2
    exact hm.modifyAsset (by simp [hgone]) id (by simp)
  | insert r kind key slot linked hr _ hpush => exact hm.insert hr hpush
  | countNames r k => exact hm.modifyRegistry rfl fun _ => id
  | rekey r h key => exact hm.modifyAsset (fun _ => rfl) id fun _ => id
  | edit h f hf =>
    refine hm.modifyAsset (fun _ => ?_) (fun hwhole => ?_) fun _ => id
    · rw [hf.1]
    · rw [hf.1] at hwhole
      exact hwhole
  | newRegistry => exact hm.newRegistry
  | leaveRegistry r => exact hm.of_eq rfl rfl rfl fun _ => List.mem_cons_of_mem _

/-- If there is no other registry now, then there was none before. -/
theorem sole_of_move (hm : Linkage m) (h : Move m n) (hsole : n.state.Sole) : m.state.Sole := by
  have hle : m.state.registries.size ≤ n.state.registries.size := by
    rcases h.asset_or_same with hasset | ⟨hsame, -⟩
    · cases hasset with
      | newRegistry =>
        show _ ≤ (Array.push _ _).size
        rw [Array.size_push]
        exact Nat.le_succ _
      | doom => exact Nat.le_of_eq Array.size_modify.symm
      | flush => exact Nat.le_of_eq Array.size_modify.symm
      | unlink => exact Nat.le_of_eq Array.size_modify.symm
      | insert => exact Nat.le_of_eq Array.size_modify.symm
      | countNames => exact Nat.le_of_eq Array.size_modify.symm
      | _ => exact Nat.le_refl _
    · exact Nat.le_of_eq (by rw [hsame.registries])
  have hfirst := hm.first
  unfold State.Sole at *
  omega

theorem move (hm : Linkage m) (hdying : DyingAreGone m) (h : Move m n) : Linkage n := by
  rcases h.asset_or_same with hasset | ⟨hsame, -⟩
  · exact hm.assetMove hdying hasset
  · exact hm.sameAssets hsame

end Linkage

end AssetLoading
