import AssetLoading.Proofs.Registry.Linkage
import AssetLoading.Proofs.Run.Reached

/-! # Destruction at zero

  Between two strides no asset is half dead. One that has no reference left is
  destroyed, or it waits for that: in the queue of a registry, or among the assets
  that a flush under way has yet to look at. The destructor of an asset starts
  once, and only while the asset has no reference.

  Most strides spare all assets. The others take or drop one reference, make an
  asset, or destroy one that has just lost its last reference or was found without
  any by a flush.
-/

namespace AssetLoading

/-! ### Ends -/

/-- `true` for the start of a destructor. -/
def Event.isEnd : Event → Bool
  | .destroyed .. => true
  | _ => false

/-- `true` for the start of the destructor of an asset. -/
def Event.isEndOf (h : Handle) : Event → Bool
  | .destroyed k .. => k == h
  | _ => false

theorem Event.isEnd_of_isEndOf {h : Handle} {e : Event} (he : e.isEndOf h = true) :
    e.isEnd = true := by
  cases e <;> first | rfl | cases he

theorem Event.isEnd_eq_false {e : Event} (he : e.subject ≠ .asset) : e.isEnd = false := by
  cases e with
  | destroyed => exact absurd rfl he
  | _ => rfl

/-- The destructors that have started. -/
def State.ends (s : State) : List Event :=
  s.history.filter Event.isEnd

/-- How often the destructor of an asset has started. -/
def State.endsOf (s : State) (h : Handle) : Nat :=
  s.history.countP (Event.isEndOf h)

theorem State.endsOf_eq (s : State) (h : Handle) : s.endsOf h = s.ends.countP (Event.isEndOf h) := by
  rw [endsOf, ends, List.countP_filter]
  refine List.countP_congr fun e _ => ?_
  simp only [Bool.and_eq_true, iff_self_and]
  exact Event.isEnd_of_isEndOf

/-- Only the start of a destructor counts. -/
theorem State.ends_record (s : State) {e : Event} (he : e.isEnd = false) :
    (s.record e).ends = s.ends :=
  List.filter_cons_of_neg (by rw [he]; exact Bool.false_ne_true)

theorem Records.ends_eq {subject : Subject} {m n : Moment} (h : Records subject m n)
    (hsubject : subject ≠ .asset) : n.state.ends = m.state.ends := by
  obtain ⟨new, hnew, hhistory⟩ := h
  have hnone : new.filter Event.isEnd = [] := by
    rw [List.filter_eq_nil_iff]
    intro e he
    rw [Event.isEnd_eq_false (hnew e he ▸ hsubject)]
    exact Bool.false_ne_true
  rw [State.ends, hhistory, List.filter_append, hnone, List.nil_append, State.ends]

/-! ### Waiting for destruction -/

/-- An asset waits for its destruction: in the queue of a registry, or in the rest
of what a flush under way looks at. -/
def Moment.Awaits (m : Moment) (h : Handle) : Prop :=
  (∃ r, h ∈ (m.state.registry r).doomed) ∨ ∃ hs, .flushing hs ∈ m.underWay ∧ h ∈ hs

/-- No asset gains or loses a reference, is made or destroyed, or waits no longer
while it has none. -/
structure Moment.Spares (m n : Moment) : Prop where
  size : n.state.assets.size = m.state.assets.size
  refs : ∀ h, (n.state.asset h).refs = (m.state.asset h).refs
  destroyed : ∀ h, (n.state.asset h).destroyed = (m.state.asset h).destroyed
  contents : ∀ h, (n.state.asset h).contents.isSome = (m.state.asset h).contents.isSome
  ends : n.state.ends = m.state.ends
  awaits : ∀ h, (m.state.asset h).refs = 0 → m.Awaits h → n.Awaits h

section Sparing

variable {m n : Moment} {u v : List Activity} {s : State}

theorem Moment.SameAssets.awaits (hsame : m.SameAssets n) {h : Handle} (hm : m.Awaits h) :
    n.Awaits h := by
  rcases hm with ⟨r, hr⟩ | ⟨hs, hflush, hh⟩
  · exact .inl ⟨r, by rwa [hsame.registry]⟩
  · exact .inr ⟨hs, (hsame.mem_iff rfl).2 hflush, hh⟩

theorem Moment.SameAssets.spares (hsame : m.SameAssets n) (hends : n.state.ends = m.state.ends) :
    m.Spares n where
  size := by rw [hsame.assets]
  refs h := by rw [hsame.asset]
  destroyed h := by rw [hsame.asset]
  contents h := by rw [hsame.asset]
  ends := hends
  awaits _ _ := hsame.awaits

theorem Moment.Spares.refl (m : Moment) : m.Spares m :=
  ⟨rfl, fun _ => rfl, fun _ => rfl, fun _ => rfl, rfl, fun _ _ => id⟩

theorem asset_of_assets_eq {t : State} {h : Handle} {f : Asset → Asset}
    (hassets : t.assets = (s.modifyAsset h f).assets) (k : Handle) :
    t.asset k = if h = k ∧ k < s.assets.size then f (s.asset k) else s.asset k := by
  rw [State.asset, hassets]
  exact State.asset_modifyAsset s h k f

theorem awaits_of_registries_eq {t : State} (hregistries : t.registries = s.registries)
    (hflush : ∀ hs, .flushing hs ∈ u → .flushing hs ∈ v) {h : Handle}
    (hh : Moment.Awaits ⟨u, s⟩ h) : Moment.Awaits ⟨v, t⟩ h := by
  rcases hh with ⟨r, hdoomed⟩ | ⟨hs, hmem, hh⟩
  · refine .inl ⟨r, ?_⟩
    show h ∈ (t.registry r).doomed
    rwa [State.registry, hregistries]
  · exact .inr ⟨hs, hflush hs hmem, hh⟩

/-- An asset changes, but neither its count nor whether it is destroyed. -/
theorem spares_modifyAsset {t : State} {h : Handle} {f : Asset → Asset}
    (hassets : t.assets = (s.modifyAsset h f).assets) (hregistries : t.registries = s.registries)
    (hends : t.ends = s.ends) (hrefs : (f (s.asset h)).refs = (s.asset h).refs)
    (hgone : (f (s.asset h)).destroyed = (s.asset h).destroyed)
    (hcontents : (f (s.asset h)).contents.isSome = (s.asset h).contents.isSome)
    (hflush : ∀ hs, .flushing hs ∈ u → .flushing hs ∈ v) : Moment.Spares ⟨u, s⟩ ⟨v, t⟩ := by
  have hasset := asset_of_assets_eq hassets
  refine ⟨?_, fun k => ?_, fun k => ?_, fun k => ?_, hends, fun k _ hk => ?_⟩
  · show t.assets.size = s.assets.size
    rw [hassets, State.size_modifyAsset]
  · rw [hasset]
    split
    next hk => rw [← hk.1, hrefs]
    next => rfl
  · rw [hasset]
    split
    next hk => rw [← hk.1, hgone]
    next => rfl
  · rw [hasset]
    split
    next hk => rw [← hk.1, hcontents]
    next => rfl
  · exact awaits_of_registries_eq hregistries hflush hk

/-- A registry changes; who waited there waits there or elsewhere. -/
theorem spares_modifyRegistry {r : RegistryId} {f : Registry → Registry}
    (hdoomed : ∀ h ∈ (s.registry r).doomed, h ∈ (f (s.registry r)).doomed ∨
      ∃ hs, .flushing hs ∈ v ∧ h ∈ hs)
    (hflush : ∀ hs, .flushing hs ∈ u → .flushing hs ∈ v) :
    Moment.Spares ⟨u, s⟩ ⟨v, s.modifyRegistry r f⟩ := by
  refine ⟨rfl, fun _ => rfl, fun _ => rfl, fun _ => rfl, rfl, fun h _ hh => ?_⟩
  rcases hh with ⟨q, hq⟩ | ⟨hs, hmem, hh⟩
  · by_cases hqr : r = q ∧ q < s.registries.size
    · obtain ⟨rfl, hknown⟩ := hqr
      rcases hdoomed h hq with hstill | hflushed
      · refine .inl ⟨r, ?_⟩
        show h ∈ ((s.modifyRegistry r f).registry r).doomed
        rwa [State.registry_modifyRegistry, if_pos ⟨rfl, hknown⟩]
      · exact .inr hflushed
    · refine .inl ⟨q, ?_⟩
      show h ∈ ((s.modifyRegistry r f).registry q).doomed
      rwa [State.registry_modifyRegistry, if_neg hqr]
  · exact .inr ⟨hs, hflush hs hmem, hh⟩

end Sparing

/-! ### The invariant -/

/-- No count is below zero. -/
def Moment.CountsNonneg (m : Moment) : Prop :=
  ∀ h, h < m.state.assets.size → 0 ≤ (m.state.asset h).refs

/-- Assets are destroyed at zero, once, and none is forgotten; `falling` may be one
that has just lost its last reference. -/
structure Expiring (falling : Option Handle) (m : Moment) : Prop where
  /-- An asset has contents until it is destroyed. -/
  whole : ∀ h, h < m.state.assets.size →
    (m.state.asset h).contents.isSome = !(m.state.asset h).destroyed
  /-- The destructor of a destroyed asset has started once. -/
  once : ∀ h, m.state.Gone h → m.state.endsOf h = 1
  /-- No other destructor has started. -/
  never : ∀ h, ¬ m.state.Gone h → m.state.endsOf h = 0
  /-- Destructors start without references. -/
  zero : ∀ h refs tag category value, .destroyed h refs tag category value ∈ m.state.ends → refs = 0
  /-- What has no reference and is not destroyed waits for that. -/
  awaited : ∀ h, some h ≠ falling → h < m.state.assets.size → (m.state.asset h).destroyed = false →
    (m.state.asset h).refs = 0 → m.Awaits h

namespace Expiring

variable {m n : Moment} {u v : List Activity} {s : State} {falling : Option Handle} {h : Handle}

theorem start (p : Session) : Expiring none ⟨[], p.start⟩ := by
  unfold Session.start
  constructor <;> dsimp only <;> split <;>
    simp [State.record, State.Gone, State.endsOf, State.ends, Event.isEndOf, Event.isEnd]

theorem spared (hm : Expiring falling m) (hmn : m.Spares n) : Expiring falling n := by
  have hgone (k : Handle) : n.state.Gone k ↔ m.state.Gone k := by
    rw [State.Gone, State.Gone, hmn.size, hmn.destroyed]
  have hendsOf (k : Handle) : n.state.endsOf k = m.state.endsOf k := by
    rw [State.endsOf_eq, State.endsOf_eq, hmn.ends]
  constructor
  · intro k hk
    rw [hmn.size] at hk
    rw [hmn.contents, hmn.destroyed]
    exact hm.whole k hk
  · intro k hk
    rw [hendsOf]
    exact hm.once k ((hgone k).1 hk)
  · intro k hk
    rw [hendsOf]
    exact hm.never k fun hold => hk ((hgone k).2 hold)
  · intro k refs tag category value hmem
    rw [hmn.ends] at hmem
    exact hm.zero k refs tag category value hmem
  · intro k hne hk hwhole hnone
    rw [hmn.size] at hk
    rw [hmn.destroyed] at hwhole
    rw [hmn.refs] at hnone
    exact hmn.awaits k hnone (hm.awaited k hne hk hwhole hnone)

/-- The count of an asset changes; then it is not at zero, or it falls. -/
theorem counted (hm : Expiring none ⟨u, s⟩) {t : State} {f : Int → Int}
    (hassets : t.assets = (s.modifyAsset h fun a => { a with refs := f a.refs }).assets)
    (hregistries : t.registries = s.registries) (hends : t.ends = s.ends)
    (hfalling : h < s.assets.size → f (s.asset h).refs = 0 → falling = some h)
    (hflush : ∀ hs, .flushing hs ∈ u → .flushing hs ∈ v) : Expiring falling ⟨v, t⟩ := by
  have hasset := asset_of_assets_eq hassets
  have hsize : t.assets.size = s.assets.size := by rw [hassets, State.size_modifyAsset]
  have hgone (k : Handle) : t.Gone k ↔ s.Gone k := by
    rw [State.Gone, State.Gone, hasset, hsize]
    split <;> rfl
  have hendsOf (k : Handle) : t.endsOf k = s.endsOf k := by
    rw [State.endsOf_eq, State.endsOf_eq, hends]
  -- only the count of one asset changes, so whole, once, never and zero carry over
  constructor
  · intro k hk
    change k < t.assets.size at hk
    rw [hsize] at hk
    rw [hasset]
    split <;> exact hm.whole k hk
  · intro k hk
    rw [hendsOf]
    exact hm.once k ((hgone k).1 hk)
  · intro k hk
    rw [hendsOf]
    exact hm.never k fun hold => hk ((hgone k).2 hold)
  · intro k refs tag category value hmem
    rw [hends] at hmem
    exact hm.zero k refs tag category value hmem
  · intro k hne hk hwhole hnone
    change k < t.assets.size at hk
    rw [hsize] at hk
    rw [hasset] at hwhole hnone
    -- the asset whose count fell to zero is the one that is excused
    have hkh : ¬ (h = k ∧ k < s.assets.size) := by
      rintro ⟨rfl, -⟩
      rw [if_pos ⟨rfl, hk⟩] at hnone
      exact hne (hfalling hk hnone).symm
    rw [if_neg hkh] at hwhole hnone
    exact awaits_of_registries_eq hregistries hflush (hm.awaited k nofun hk hwhole hnone)

theorem referenced (hm : Expiring none ⟨u, s⟩) (hnonneg : 0 ≤ (s.asset h).refs ∨ s.assets.size ≤ h)
    (holder : Holder) (hflush : ∀ hs, .flushing hs ∈ u → .flushing hs ∈ v) :
    Expiring none ⟨v, s.referenced holder h⟩ := by
  have hpos (hknown : h < s.assets.size) (hnone : (s.asset h).refs + 1 = 0) : none = some h := by
    rcases hnonneg with hnonneg | hunknown
    · omega
    · exact absurd hknown (Nat.not_lt.2 hunknown)
  unfold State.referenced
  split
  next =>
    exact hm.counted (f := (· + 1)) rfl rfl rfl hpos hflush
  next => exact hm.counted (f := (· + 1)) rfl rfl rfl hpos hflush

/-- An asset that has just lost its last reference is the only one whose fate is not
decided. -/
theorem falls (hm : Expiring none m) (hfalls : Falls h m n) : Expiring (some h) n := by
  cases hfalls with
  | last holder hone =>
    exact hm.counted (f := (· - 1)) rfl rfl rfl (fun _ _ => rfl)
      fun hs hmem => (mem_gained rfl holder h _).1 hmem
  | @visited u s hs hnone =>
    refine ⟨hm.whole, hm.once, hm.never, hm.zero, fun k hne hk hwhole hnone => ?_⟩
    rcases hm.awaited k nofun hk hwhole hnone with hdoomed | ⟨ks, hmem, hkks⟩
    · exact .inl hdoomed
    · rcases List.mem_cons.1 hmem with heq | hmem
      · cases heq
        rcases List.mem_cons.1 hkks with rfl | hkks
        · exact absurd rfl hne
        · exact .inr ⟨hs, List.mem_cons_self, hkks⟩
      · exact .inr ⟨ks, List.mem_cons_of_mem _ hmem, hkks⟩

/-- It is left to the main thread. -/
theorem deferred (hm : Expiring (some h) ⟨u, s⟩) {r : RegistryId} (hr : r < s.registries.size) :
    Expiring none ⟨u, s.deferred r h⟩ := by
  have hspared : Moment.Spares ⟨u, s⟩ ⟨u, s.deferred r h⟩ :=
    spares_modifyRegistry (fun k hk => .inl (List.mem_append_left [h] hk)) fun _ => id
  have hn := hm.spared hspared
  refine ⟨hn.whole, hn.once, hn.never, hn.zero, fun k _ hk hwhole hnone => ?_⟩
  by_cases hkh : k = h
  · refine .inl ⟨r, ?_⟩
    show k ∈ ((s.modifyRegistry r _).registry r).doomed
    rw [State.registry_modifyRegistry, if_pos ⟨rfl, hr⟩, hkh]
    exact List.mem_append_right _ List.mem_cons_self
  · exact hn.awaited k (fun heq => hkh (Option.some.inj heq)) hk hwhole hnone

/-- A reference is dropped; with the last one the asset is left to the main thread. -/
theorem letGo (holder : Holder) (hm : Expiring none ⟨gained holder h u, s⟩) {r : RegistryId}
    (hr : r < s.registries.size) : Expiring none ⟨u, s.letGo r holder h⟩ := by
  unfold State.letGo
  split
  next hone => exact (hm.falls (.last holder hone)).deferred hr
  next hmore =>
    refine hm.counted (f := (· - 1)) rfl rfl rfl (fun _ hnone => ?_)
      fun hs hmem => (mem_gained rfl holder h _).1 hmem
    exact absurd (Int.sub_eq_zero.1 hnone) hmore

/-- Or it is destroyed. -/
theorem expired (hm : Expiring (some h) ⟨u, s⟩) (c : Contents)
    (hwhole : (s.asset h).destroyed = false) (hnone : (s.asset h).refs = 0) :
    Expiring none ⟨.destroying h :: u, s.expired h c⟩ := by
  have hknown := State.lt_size_of_whole (.inl hwhole)
  have hasset (k : Handle) : (s.expired h c).asset k =
      if h = k ∧ k < s.assets.size then { s.asset k with destroyed := true, contents := none }
      else s.asset k :=
    State.asset_modifyAsset s h k _
  have hsize : (s.expired h c).assets.size = s.assets.size := State.size_modifyAsset s h _
  have hold {k : Handle} (hkh : k ≠ h) : (s.expired h c).asset k = s.asset k := by
    rw [hasset, if_neg fun hk => hkh hk.1.symm]
  have hnew : (s.expired h c).asset h = { s.asset h with destroyed := true, contents := none } := by
    rw [hasset, if_pos ⟨rfl, hknown⟩]
  have hends (k : Handle) : (s.expired h c).endsOf k = s.endsOf k + if h = k then 1 else 0 := by
    show List.countP (Event.isEndOf k) (_ :: _ :: s.history) = _
    rw [List.countP_cons, List.countP_cons]
    by_cases hk : h = k <;> simp [Event.isEndOf, State.endsOf, hk]
  have hgone {k : Handle} (hkh : k ≠ h) : (s.expired h c).Gone k ↔ s.Gone k := by
    rw [State.Gone, State.Gone, hsize, hold hkh]
  -- the excuse for the asset ends here: it is destroyed, and told to be for the first time
  constructor
  · intro k hk
    dsimp only at hk ⊢
    rw [hsize] at hk
    by_cases hkh : k = h
    · rw [hkh, hnew]
      rfl
    · rw [hold hkh]
      exact hm.whole k hk
  · intro k hk
    dsimp only at hk ⊢
    rw [hends]
    by_cases hkh : k = h
    · rw [if_pos hkh.symm, hkh]
      -- it was whole, so there was no end of it before
      have hnever : s.endsOf h = 0 :=
        hm.never h fun hgone => Bool.false_ne_true (hwhole.symm.trans hgone.2)
      omega
    · rw [if_neg (Ne.symm hkh)]
      exact hm.once k ((hgone hkh).1 hk)
  · intro k hk
    dsimp only at hk ⊢
    have hkh : k ≠ h := by
      rintro rfl
      exact hk ⟨by rw [hsize]; exact hknown, by rw [hnew]⟩
    rw [hends, if_neg (Ne.symm hkh)]
    exact hm.never k fun hold => hk ((hgone hkh).2 hold)
  · intro k refs tag category value hmem
    have hmem : .destroyed k refs tag category value ∈
        (.destroyed h ((s.expired h c).asset h).refs c.tag c.kind.category c.value) :: s.ends := hmem
    rcases List.mem_cons.1 hmem with heq | hmem
    · injection heq with _ hrefs
      rw [hrefs, hnew]
      exact hnone
    · exact hm.zero k refs tag category value hmem
  · intro k _ hk hkWhole hkNone
    dsimp only at hk hkWhole hkNone
    rw [hsize] at hk
    by_cases hkh : k = h
    · rw [hkh, hnew] at hkWhole
      cases hkWhole
    · rw [hold hkh] at hkWhole hkNone
      rcases hm.awaited k (fun heq => hkh (Option.some.inj heq)) hk hkWhole hkNone with
        hdoomed | ⟨hs, hmem, hkhs⟩
      · exact .inl hdoomed
      · exact .inr ⟨hs, List.mem_cons_of_mem _ hmem, hkhs⟩

/-- An asset without contents was destroyed before. -/
theorem destroyed_of_gone (hm : Expiring falling ⟨u, s⟩) (hnone : (s.asset h).refs = 0)
    (hgone : (s.asset h).destroyed = true ∨ (s.asset h).contents = none) :
    (s.asset h).destroyed = true := by
  have hknown : h < s.assets.size := by
    refine Nat.lt_of_not_le fun hh => ?_
    rw [State.asset_of_size_le hh] at hnone
    exact absurd hnone (by decide)
  rcases hgone with hgone | hempty
  · exact hgone
  · have hwhole := hm.whole h hknown
    dsimp only at hwhole
    rw [hempty] at hwhole
    exact Bool.not_eq_false _ ▸ fun hfalse => by simp [hfalse] at hwhole

/-- Or it was destroyed before. -/
theorem again (hm : Expiring (some h) ⟨u, s⟩) (hnone : (s.asset h).refs = 0)
    (hgone : (s.asset h).destroyed = true ∨ (s.asset h).contents = none) :
    Expiring none ⟨u, s.modifyAsset h fun a => { a with destroyed := true }⟩ := by
  have hdestroyed := hm.destroyed_of_gone hnone hgone
  have hspared : Moment.Spares ⟨u, s⟩ ⟨u, s.modifyAsset h fun a => { a with destroyed := true }⟩ :=
    spares_modifyAsset rfl rfl rfl rfl hdestroyed.symm rfl fun _ => id
  have hn := hm.spared hspared
  refine ⟨hn.whole, hn.once, hn.never, hn.zero, fun k _ hk hwhole hkNone => ?_⟩
  refine hn.awaited k (fun heq => ?_) hk hwhole hkNone
  obtain rfl : k = h := Option.some.inj heq
  rw [hspared.destroyed] at hwhole
  exact Bool.false_ne_true (hwhole.symm.trans hdestroyed)

/-- A new asset has a reference. -/
theorem inserted (hm : Expiring none ⟨u, s⟩) (r : RegistryId) (kind : Kind) (key : Key) (slot : Slot)
    (linked : Arena Handle) : Expiring none ⟨u, s.inserted r kind key slot linked⟩ := by
  have hold {k : Handle} (hk : k < s.assets.size) :
      (s.inserted r kind key slot linked).asset k = s.asset k := by
    rw [State.asset_inserted, if_neg (Nat.ne_of_lt hk)]
  have hsize := s.size_inserted r kind key slot linked
  have hnew : (s.inserted r kind key slot linked).asset s.assets.size =
      { Asset.fresh kind key with slot := some slot } := by
    rw [State.asset_inserted, if_pos rfl]
  have hgone (k : Handle) : (s.inserted r kind key slot linked).Gone k ↔ s.Gone k := by
    rw [State.Gone, State.Gone, hsize]
    by_cases hk : k < s.assets.size
    · simp only [hold hk, hk, Nat.lt_succ_of_lt hk]
    · have hlast (hlt : k < s.assets.size + 1) : k = s.assets.size :=
        Nat.le_antisymm (Nat.le_of_lt_succ hlt) (Nat.not_lt.1 hk)
      refine ⟨fun hgone => ?_, fun hgone => absurd hgone.1 hk⟩
      rw [hlast hgone.1, hnew] at hgone
      exact absurd hgone.2 Bool.false_ne_true
  have hdoomed (q : RegistryId) :
      ((s.inserted r kind key slot linked).registry q).doomed = (s.registry q).doomed := by
    show ((State.modifyRegistry _ r fun reg => { reg with linked }).registry q).doomed = _
    rw [State.registry_modifyRegistry]
    split <;> rfl
  -- the new asset has a reference and is not destroyed, so it awaits nothing
  refine ⟨fun k hk => ?_, fun k hk => hm.once k ((hgone k).1 hk),
    fun k hk => hm.never k fun hold => hk ((hgone k).2 hold), hm.zero,
    fun k _ hk hwhole hnone => ?_⟩
  · change k < (s.inserted r kind key slot linked).assets.size at hk
    rw [hsize] at hk
    by_cases hks : k < s.assets.size
    · rw [hold hks]
      exact hm.whole k hks
    · obtain rfl : k = s.assets.size := Nat.le_antisymm (Nat.le_of_lt_succ hk) (Nat.not_lt.1 hks)
      rw [hnew]
      rfl
  · change k < (s.inserted r kind key slot linked).assets.size at hk
    rw [hsize] at hk
    by_cases hks : k < s.assets.size
    · rw [hold hks] at hwhole hnone
      rcases hm.awaited k nofun hks hwhole hnone with ⟨q, hq⟩ | hflush
      · refine .inl ⟨q, ?_⟩
        show k ∈ ((s.inserted r kind key slot linked).registry q).doomed
        rwa [hdoomed]
      · exact .inr hflush
    · obtain rfl : k = s.assets.size := Nat.le_antisymm (Nat.le_of_lt_succ hk) (Nat.not_lt.1 hks)
      rw [hnew] at hnone
      cases hnone

/-! ### Every stride -/

/-- A change of the load state or the contents of an asset. -/
theorem edited (hm : Expiring none ⟨u, s⟩) {t : State} {f : Asset → Asset}
    (hassets : t.assets = (s.modifyAsset h f).assets) (hregistries : t.registries = s.registries)
    (hends : t.ends = s.ends) (hf : (s.asset h).EditedTo (f (s.asset h))) :
    Expiring none ⟨u, t⟩ :=
  hm.spared (spares_modifyAsset hassets hregistries hends (by rw [hf.1]) (by rw [hf.1]) hf.2
    fun _ => id)

theorem assetStride (hm : Expiring none m) (hcounts : m.CountsNonneg) (hlinkage : Linkage m)
    (h : AssetStride m n) : Expiring none n := by
  cases h with
  | @take u s holder h =>
    refine hm.referenced ?_ holder fun _ => id
    by_cases hknown : h < s.assets.size
    · exact .inl (hcounts h hknown)
    · exact .inr (Nat.le_of_not_lt hknown)
  | drop holder h hmore =>
    refine hm.counted (f := (· - 1)) rfl rfl rfl (fun _ hnone => ?_)
      fun hs hmem => (mem_gained rfl holder h _).1 hmem
    omega
  | defer r h hr =>
    refine Expiring.letGo .client hm ?_
    rcases hr with rfl | hwithin
    · exact hlinkage.first
    · exact hlinkage.serving r hwithin
  | expire h c hfalls hwhole hc => exact (hm.falls hfalls).expired c hwhole hfalls.refs_eq_zero
  | again h hfalls hgone => exact (hm.falls hfalls).again hfalls.refs_eq_zero hgone
  | flush r =>
    refine hm.spared (spares_modifyRegistry (fun k hk => ?_) fun _ => List.mem_cons_of_mem _)
    exact .inr ⟨_, List.mem_cons_self, hk⟩
  -- a flush passes over an asset that has references again, so nothing awaits it
  | @skip u s h hs hsome =>
    refine hm.spared ⟨rfl, fun _ => rfl, fun _ => rfl, fun _ => rfl, rfl, fun k hnone hk => ?_⟩
    rcases hk with hdoomed | ⟨ks, hmem, hkks⟩
    · exact .inl hdoomed
    · rcases List.mem_cons.1 hmem with heq | hmem
      · cases heq
        rcases List.mem_cons.1 hkks with rfl | hkks
        · exact absurd hnone hsome
        · exact .inr ⟨hs, List.mem_cons_self, hkks⟩
      · exact .inr ⟨ks, List.mem_cons_of_mem _ hmem, hkks⟩
  -- a flush ends when nothing is left of what it took
  | flushed =>
    refine hm.spared ⟨rfl, fun _ => rfl, fun _ => rfl, fun _ => rfl, rfl, fun k _ hk => ?_⟩
    rcases hk with hdoomed | ⟨ks, hmem, hkks⟩
    · exact .inl hdoomed
    · rcases List.mem_cons.1 hmem with heq | hmem
      · cases heq
        cases hkks
      · exact .inr ⟨ks, hmem, hkks⟩
  -- burying changes the links and the slot, of which nothing is asked here
  | @bury u s r h =>
    have hunlinked : Moment.Spares ⟨.destroying h :: u, s⟩ ⟨.destroying h :: u, s.unlinked r h⟩ := by
      unfold State.unlinked
      split
      next => exact .refl _
      next =>
        split
        next =>
          split
          next => exact .refl _
          next => exact spares_modifyRegistry (fun k hk => .inl hk) fun _ => id
        next => exact .refl _
    refine (hm.spared hunlinked).spared (spares_modifyAsset rfl rfl rfl rfl rfl rfl fun hs hmem => ?_)
    exact (List.mem_cons.1 hmem).resolve_left nofun
  | insert r kind key slot linked => exact hm.inserted r kind key slot linked
  | countNames r => exact hm.spared (spares_modifyRegistry (fun k hk => .inl hk) fun _ => id)
  | rekey r h => exact hm.spared (spares_modifyAsset rfl rfl rfl rfl rfl rfl fun _ => id)
  | write h f hf => exact hm.edited rfl rfl rfl hf
  | setState h state body => exact hm.edited (f := fun a => { a with state }) rfl rfl rfl ⟨rfl, rfl⟩
  | loading t => exact hm.edited rfl rfl rfl ⟨rfl, rfl⟩
  | fail e => exact hm.edited rfl rfl rfl ⟨rfl, rfl⟩
  -- a new registry has nothing left to destroy
  | @newRegistry u s =>
    refine hm.spared ⟨rfl, fun _ => rfl, fun _ => rfl, fun _ => rfl, rfl, fun k _ hk => ?_⟩
    rcases hk with ⟨r, hr⟩ | ⟨ks, hmem, hkks⟩
    · refine .inl ⟨r, ?_⟩
      show k ∈ (((s.registries.push {})[r]?).getD {}).doomed
      rw [Array.getElem?_push]
      split
      next hlast =>
        change k ∈ ((s.registries[r]?).getD {}).doomed at hr
        rw [hlast, Array.getElem?_eq_none (Nat.le_refl _)] at hr
        exact hr
      next => exact hr
    · exact .inr ⟨ks, List.mem_cons_of_mem _ hmem, hkks⟩
  | leaveRegistry r =>
    refine hm.spared ⟨rfl, fun _ => rfl, fun _ => rfl, fun _ => rfl, rfl, fun k _ hk => ?_⟩
    rcases hk with hdoomed | ⟨ks, hmem, hkks⟩
    · exact .inl hdoomed
    · exact .inr ⟨ks, (List.mem_cons.1 hmem).resolve_left nofun, hkks⟩

end Expiring

/-! ### Strides that are not about assets -/

section Sparing

variable {m n : Moment}

theorem JobStride.sameAssets (h : JobStride m n) : m.SameAssets n := by
  cases h with
  | submit j => exact ⟨rfl, rfl, rfl⟩
  | @summon u s w =>
    unfold State.summoned
    split
    next => exact ⟨rfl, rfl, rfl⟩
    next => exact ⟨rfl, rfl, rfl⟩
  | move h => exact h.sameAssets

theorem NoticeStride.sameAssets {c d : Scene} (h : NoticeStride c d) :
    c.toMoment.SameAssets d.toMoment := by
  cases h <;> exact ⟨rfl, rfl, rfl⟩

theorem PlainStride.sameAssets (h : PlainStride m n) : m.SameAssets n := by
  cases h <;> exact ⟨rfl, rfl, rfl⟩

theorem JobStride.spares (h : JobStride m n) : m.Spares n := by
  refine h.sameAssets.spares ?_
  cases h with
  | submit j => rfl
  | @summon u s w =>
    unfold State.summoned
    split
    next => exact State.ends_record _ rfl
    next => rfl
  | move h => exact h.records.ends_eq nofun

theorem NoticeStride.spares {c d : Scene} (h : NoticeStride c d) : c.toMoment.Spares d.toMoment := by
  refine h.sameAssets.spares ?_
  cases h with
  | call => exact State.ends_record _ rfl
  | _ => rfl

theorem PlainStride.spares (h : PlainStride m n) : m.Spares n := by
  refine h.sameAssets.spares ?_
  cases h with
  | note e he =>
    refine State.ends_record _ ?_
    cases e <;> first | rfl | exact he.elim
  | answer => exact State.ends_record _ rfl
  | _ => rfl

end Sparing

namespace Expiring

variable {m n : Moment} {u : List Activity} {s : State}

theorem taskReferenced (hm : Expiring none ⟨u, s⟩) (hcounts : Moment.CountsNonneg ⟨u, s⟩)
    (holder : Holder) {h : Handle} (hwhole : (s.asset h).destroyed = false) :
    Expiring none ⟨u, s.referenced holder h⟩ :=
  hm.referenced (.inl (hcounts h (State.lt_size_of_whole (.inl hwhole)))) holder fun _ => id

theorem taskStride (hm : Expiring none m) (hcounts : m.CountsNonneg) (hlinkage : Linkage m)
    (h : TaskStride m n) : Expiring none n := by
  cases h with
  | @accept u s t _ hwhole =>
    have hends : (s.taskAccepted t).ends = (s.referenced .task t.asset).ends :=
      (State.ends_record _ rfl).trans (State.ends_record _ rfl)
    exact (hm.taskReferenced hcounts .task hwhole).spared
      (Moment.SameAssets.spares ⟨rfl, rfl, rfl⟩ hends)
  | @complete u s e hwhole =>
    -- what is told besides and the queue do not matter, whether or not it was staged
    have hrest {t : State} (ht : Expiring none ⟨.ended e :: u, t⟩) (line : Event)
        (hline : line.isEnd = false) (queue : TaskQueue) :
        Expiring none ⟨.holding .task e.asset :: u,
          ((t.record line).withQueue queue).record (.completed e.id)⟩ :=
      ht.spared (Moment.SameAssets.spares ⟨rfl, rfl, rfl⟩
        ((State.ends_record _ rfl).trans (State.ends_record _ hline)))
    have hcompleted : Expiring none ⟨.holding .task e.asset :: u, s.taskCompleted e⟩ ∧
        (s.taskCompleted e).registries = s.registries := by
      unfold State.taskCompleted
      split
      next hloaded =>
        have hstaged : Expiring none ⟨.ended e :: u, s.staged e.asset⟩ :=
          (hm.taskReferenced hcounts .notice (hwhole hloaded)).spared
            (Moment.SameAssets.spares ⟨rfl, rfl, rfl⟩ rfl)
        exact ⟨hrest hstaged _ rfl _, s.registries_referenced .notice e.asset⟩
      next => exact ⟨hrest hm _ rfl _, rfl⟩
    refine Expiring.letGo .task hcompleted.1 ?_
    rw [hcompleted.2]
    exact hlinkage.first
  | @discard u s e =>
    have hdiscarded : Expiring none ⟨.holding .task e.asset :: u, s.record (.discarded e.id)⟩ :=
      hm.spared (Moment.SameAssets.spares ⟨rfl, rfl, rfl⟩ (State.ends_record _ rfl))
    exact Expiring.letGo .task hdiscarded hlinkage.first
  | @shutDown u s =>
    have hends : s.shutDown.ends = s.ends := State.ends_record _ rfl
    exact hm.spared (Moment.SameAssets.spares ⟨rfl, rfl, rfl⟩ hends)
  | drain => exact hm.spared (Moment.SameAssets.spares ⟨rfl, rfl, rfl⟩ rfl)
  | move h => exact hm.spared (h.sameAssets.spares (h.records.ends_eq nofun))

theorem stride {c d : Scene} (hm : Expiring none c.toMoment) (hcounts : c.CountsNonneg)
    (hlinkage : Linkage c.toMoment) (h : Stride c d) : Expiring none d.toMoment := by
  cases h with
  | asset h => exact hm.assetStride hcounts hlinkage h
  | body h => exact hm.spared (h.sameAssets.spares (h.records.ends_eq nofun))
  | job h => exact hm.spared h.spares
  | task h => exact hm.taskStride hcounts hlinkage h
  | notice h => exact hm.spared h.spares
  | plain h => exact hm.spared h.spares

end Expiring

end AssetLoading
