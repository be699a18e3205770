import AssetLoading.Proofs.References.Conservation
import AssetLoading.Proofs.Registry.Linkage

/-! # Unique addresses

  An id and a category shall address at most one live asset, so that a lookup
  does not depend on the order of slots. Making and renaming assets check this,
  but a lookup does not see an asset that waits for destruction. If another asset
  was made under its address in the meantime, then a new reference on the first
  brings back to life what is no longer alone.

  This is the only way in which addresses become ambiguous: as long as no asset
  is brought back beside a live one with its address, addresses are unique, and
  a reference keeps them so exactly if it does not do that
  (`addresses_unique_until_rescue`). It can happen (`addresses_can_be_shared`).
-/

namespace AssetLoading

/-! ### Addresses -/

namespace State

/-- An id and a category address at most one live asset. -/
def UniquelyAddressed (s : State) : Prop :=
  ∀ id category h k, s.answersTo id category h = true → s.answersTo id category k = true → h = k

theorem answersTo_iff {s : State} {id : AssetId} {category : Category} {h : Handle} :
    s.answersTo id category h = true ↔
      (s.asset h).id = id ∧ (s.asset h).category = category ∧ 0 < (s.asset h).refs := by
  simp [answersTo, and_assoc]

/-- A live asset answers to its own address. -/
theorem answersTo_self {s : State} {h : Handle} (hlive : 0 < (s.asset h).refs) :
    s.answersTo (s.asset h).id (s.asset h).category h = true :=
  answersTo_iff.2 ⟨rfl, rfl, hlive⟩

theorem answersTo_modifyAsset_of_ne (s : State) {h k : Handle} (f : Asset → Asset) (hne : k ≠ h)
    (id : AssetId) (category : Category) :
    (s.modifyAsset h f).answersTo id category k = s.answersTo id category k := by
  have hasset : (s.modifyAsset h f).asset k = s.asset k := by
    rw [asset_modifyAsset, if_neg fun hhk => hne hhk.1.symm]
  unfold answersTo
  rw [hasset]

theorem UniquelyAddressed.of_assets_eq {s t : State} (hs : s.UniquelyAddressed)
    (hassets : t.assets = s.assets) : t.UniquelyAddressed := by
  unfold UniquelyAddressed answersTo asset at *
  rwa [hassets]

/-- Beside a live asset no other one answers to its address. -/
theorem UniquelyAddressed.silent {s : State} (hs : s.UniquelyAddressed) {h k : Handle}
    (hlive : 0 < (s.asset h).refs) (hne : k ≠ h) :
    s.answersTo (s.asset h).id (s.asset h).category k = false := by
  rw [← Bool.not_eq_true]
  intro hk
  exact hne (hs _ _ k h hk (answersTo_self hlive))

/-- An asset may change as long as no other one answers to the address it has then. -/
theorem UniquelyAddressed.modifyAsset {s : State} (hs : s.UniquelyAddressed) {h : Handle}
    {f : Asset → Asset}
    (hf : 0 < (f (s.asset h)).refs → ∀ k, k ≠ h →
      s.answersTo (f (s.asset h)).id (f (s.asset h)).category k = false) :
    (s.modifyAsset h f).UniquelyAddressed := by
  have hother (id : AssetId) (category : Category) (k : Handle) (hne : k ≠ h)
      (hh : (s.modifyAsset h f).answersTo id category h = true)
      (hk : (s.modifyAsset h f).answersTo id category k = true) : False := by
    rw [answersTo_modifyAsset_of_ne s f hne] at hk
    by_cases hknown : h < s.assets.size
    · rw [answersTo_iff, asset_modifyAsset, if_pos ⟨rfl, hknown⟩] at hh
      obtain ⟨rfl, rfl, hlive⟩ := hh
      rw [hf hlive k hne] at hk
      cases hk
    · rw [answersTo_iff, asset_modifyAsset, if_neg fun hh => hknown hh.2,
        asset_of_size_le (Nat.le_of_not_lt hknown)] at hh
      exact absurd hh.2.2 (by decide)
  -- two that answer to one name: both are this asset, one of them, or neither
  intro id category k l hk hl
  by_cases hkh : k = h
  · by_cases hlh : l = h
    · rw [hkh, hlh]
    · exact (hother id category l hlh (hkh ▸ hk) hl).elim
  · by_cases hlh : l = h
    · exact (hother id category k hkh (hlh ▸ hl) hk).elim
    · rw [answersTo_modifyAsset_of_ne s f hkh] at hk
      rw [answersTo_modifyAsset_of_ne s f hlh] at hl
      exact hs id category k l hk hl

/-- A change of a live asset that leaves its address alone. -/
theorem UniquelyAddressed.modifyLive {s : State} (hs : s.UniquelyAddressed) {h : Handle}
    {f : Asset → Asset} (hlive : 0 < (f (s.asset h)).refs → 0 < (s.asset h).refs)
    (hid : (f (s.asset h)).id = (s.asset h).id)
    (hcategory : (f (s.asset h)).category = (s.asset h).category) :
    (s.modifyAsset h f).UniquelyAddressed := by
  apply hs.modifyAsset
  intro hpos k hne
  rw [hid, hcategory]
  exact hs.silent (hlive hpos) hne

/-! ### Rivals -/

/-- An asset has no rival exactly if no other asset answers to its address. -/
theorem rival?_eq_none {s : State} {h : Handle} :
    s.rival? h = none ↔
      ∀ k, k ≠ h → s.answersTo (s.asset h).id (s.asset h).category k = false := by
  unfold rival?
  rw [List.find?_eq_none]
  constructor
  · intro hnone k hne
    by_cases hk : k < s.assets.size
    · have hsilent := hnone k (List.mem_range.2 hk)
      simpa [hne] using hsilent
    · rw [← Bool.not_eq_true, answersTo_iff, asset_of_size_le (Nat.le_of_not_lt hk)]
      intro hlive
      exact absurd hlive.2.2 (by decide)
  · intro hsilent k _
    by_cases hne : k = h
    · simp [hne]
    · simp [hsilent k hne]

end State

/-- No asset was ever brought back beside a live one with its address. -/
def RescuedAlone (history : List Event) : Prop :=
  ∀ h k, .revived h (some k) ∉ history

/-! ### Lookups -/

/-- Everything that unique addresses rest on. -/
structure Addressed (m : Moment) : Prop where
  reckoned : Reckoned m
  linkage : Linkage m
  unique : m.state.Sole → RescuedAlone m.state.history → m.state.UniquelyAddressed

namespace Addressed

variable {m n : Moment} {u v : List Activity} {s : State}

/-- Lookups see every live asset. -/
theorem mem_linked (hm : Addressed ⟨u, s⟩) (hsole : s.Sole) {h : Handle}
    (hlive : 0 < (s.asset h).refs) : h ∈ s.linked 0 := by
  have hknown := State.lt_size_of_whole (.inr hlive)
  have hwhole : (s.asset h).destroyed = false := by
    rw [← Bool.not_eq_true]
    intro hgone
    have hnone : (s.asset h).refs = 0 := hm.reckoned.balanced.destroyed h hknown hgone
    omega
  obtain ⟨slot, -, hget⟩ := hm.linkage.linked hsole h hknown hwhole
  exact Arena.mem_toList_of_get? hget

/-- If a lookup finds nothing, then no live asset has the address. -/
theorem silent_of_find?_eq_none (hm : Addressed ⟨u, s⟩) (hsole : s.Sole) {id : AssetId}
    {category : Category} (hfind : s.find? 0 id category = none) (h : Handle) :
    s.answersTo id category h = false := by
  rw [← Bool.not_eq_true]
  intro hanswers
  have hlinked := hm.mem_linked hsole (State.answersTo_iff.1 hanswers).2.2
  exact List.find?_eq_none.1 hfind h hlinked hanswers

/-- A lookup finds the live asset that has the address. -/
theorem find?_eq_some (hm : Addressed ⟨u, s⟩) (hsole : s.Sole) (hs : s.UniquelyAddressed)
    {id : AssetId} {category : Category} {h : Handle}
    (hanswers : s.answersTo id category h = true) : s.find? 0 id category = some h := by
  cases hfind : s.find? 0 id category with
  | none =>
    rw [hm.silent_of_find?_eq_none hsole hfind h] at hanswers
    cases hanswers
  | some k =>
    have hk : s.answersTo id category k = true := List.find?_some hfind
    rw [hs id category k h hk hanswers]

/-! ### What keeps addresses unique -/

/-- A further reference on an asset keeps addresses unique, if it had one before or
has no rival. -/
theorem took (hm : Addressed ⟨u, s⟩) (hs : s.UniquelyAddressed) {h : Handle}
    (hwhole : (s.asset h).destroyed = false ∨ 0 < (s.asset h).refs)
    (halone : (s.asset h).refs = 0 → s.rival? h = none) :
    (s.modifyAsset h fun a => { a with refs := a.refs + 1 }).UniquelyAddressed := by
  have hknown := State.lt_size_of_whole hwhole
  have hnonneg : 0 ≤ (s.asset h).refs := hm.reckoned.balanced.nonneg h hknown
  by_cases hnone : (s.asset h).refs = 0
  · apply hs.modifyAsset
    intro _ k hne
    exact State.rival?_eq_none.1 (halone hnone) k hne
  · have hlive : 0 < (s.asset h).refs := by omega
    exact hs.modifyLive (fun _ => hlive) rfl rfl

/-- A new asset keeps addresses unique, because nothing was found under its own. -/
theorem inserted (hm : Addressed ⟨u, s⟩) (hsole : s.Sole) (hs : s.UniquelyAddressed)
    {kind : Kind} {key : Key} (slot : Slot) (linked : Arena Handle)
    (hfree : s.find? 0 key.id kind.category = none) :
    (s.inserted 0 kind key slot linked).UniquelyAddressed := by
  have hnew (id : AssetId) (category : Category) (h : Handle)
      (hanswers : (s.inserted 0 kind key slot linked).answersTo id category h = true) :
      h = s.assets.size ∧ id = key.id ∧ category = kind.category ∨
        h ≠ s.assets.size ∧ s.answersTo id category h = true := by
    rw [State.answersTo_iff, State.asset_inserted] at hanswers
    split at hanswers
    next heq => exact .inl ⟨heq, hanswers.1.symm, hanswers.2.1.symm⟩
    next hne => exact .inr ⟨hne, State.answersTo_iff.2 hanswers⟩
  have hsilent := hm.silent_of_find?_eq_none hsole hfree
  intro id category h k hh hk
  rcases hnew id category h hh with ⟨rfl, rfl, rfl⟩ | ⟨hhOld, hh⟩
  · rcases hnew _ _ k hk with ⟨rfl, -⟩ | ⟨-, hk⟩
    · rfl
    · rw [hsilent k] at hk
      cases hk
  · rcases hnew id category k hk with ⟨rfl, rfl, rfl⟩ | ⟨-, hk⟩
    · rw [hsilent h] at hh
      cases hh
    · exact hs id category h k hh hk

/-- A new key keeps addresses unique, because no other asset was found under it. -/
theorem rekeyed (hm : Addressed ⟨u, s⟩) (hsole : s.Sole) (hs : s.UniquelyAddressed) {h : Handle}
    {key : Key} (hfree : (s.find? 0 key.id (s.asset h).category).any (· ≠ h) = false) :
    (s.modifyAsset h fun a => { a with id := key.id, name := key.name }).UniquelyAddressed := by
  apply hs.modifyAsset
  intro _ k hne
  rw [← Bool.not_eq_true]
  intro hanswers
  rw [hm.find?_eq_some hsole hs hanswers] at hfree
  simp [hne] at hfree

theorem assetMove (hm : Addressed m) (h : AssetMove m n) (hsole : m.state.Sole)
    (hs : m.state.UniquelyAddressed) (hrescued : RescuedAlone n.state.history) :
    n.state.UniquelyAddressed := by
  cases h with
  | take holder h hwhole hsome =>
    exact (hm.took hs hwhole fun hnone => absurd hnone hsome).of_assets_eq rfl
  | @revive u s holder h hwhole hnone =>
    -- an asset that came back to life has no rival, since the history would tell of it
    have halone : s.rival? h = none := by
      cases hrival : s.rival? h with
      | none => rfl
      | some k =>
        have hmem : .revived h (some k) ∈ ((s.record (.revived h (s.rival? h))).took holder
            h).history := by
          rw [hrival]
          exact List.mem_cons_of_mem _ List.mem_cons_self
        exact absurd hmem (hrescued h k)
    exact (hm.took hs (.inl hwhole) fun _ => halone).of_assets_eq rfl
  | @drop u s holder h hsome =>
    have hdropped : (s.modifyAsset h fun a => { a with refs := a.refs - 1 }).UniquelyAddressed :=
      hs.modifyLive (fun _ => hsome) rfl rfl
    exact hdropped.of_assets_eq rfl
  | beginDestroy h c => exact hs.modifyLive id rfl rfl
  | redestroy h => exact hs.modifyLive id rfl rfl
  | endDestroy h => exact hs.modifyLive id rfl rfl
  | @edit u s h f hf =>
    apply hs.modifyLive
    · rw [hf.1]
      exact id
    · rw [hf.1]
    · rw [hf.1]
  -- what is named anew was looked up right before, in the only registry there is
  | insert r kind key slot linked hr hfree =>
    have hzero := hm.linkage.eq_zero hsole hr
    subst hzero
    exact hm.inserted hsole hs slot linked hfree
  | rekey r h key hr hfree =>
    have hzero := hm.linkage.eq_zero hsole hr
    subst hzero
    exact hm.rekeyed hsole hs hfree
  | _ => exact hs.of_assets_eq rfl

theorem start (p : Session) : Addressed ⟨[], p.start⟩ where
  reckoned := .start p
  linkage := .start p
  unique := by
    intro _ _ id category h k hh
    -- nothing answers, for there is no asset
    have hnone : p.start.asset h = .absent := by
      unfold Session.start
      dsimp only
      split <;> rfl
    rw [State.answersTo_iff, hnone] at hh
    exact absurd hh.2.2 (by decide)

theorem move (m n : Moment) (h : Move m n) (hm : Addressed m) : Addressed n where
  reckoned := hm.reckoned.move m n h
  linkage := hm.linkage.move hm.reckoned.dying h
  unique := by
    intro hsole hrescued
    have hsoleBefore := hm.linkage.sole_of_move h hsole
    rcases h.asset_or_same with hasset | ⟨hsame, hhistory⟩
    · have hrescuedBefore : RescuedAlone m.state.history := by
        intro k l hmem
        exact hrescued k l (hasset.records.mem hmem)
      have hs := hm.unique hsoleBefore hrescuedBefore
      exact hm.assetMove hasset hsoleBefore hs hrescued
    · have hrescuedBefore : RescuedAlone m.state.history := by
        intro k l hmem
        exact hrescued k l ((hhistory _ rfl).2 hmem)
      exact (hm.unique hsoleBefore hrescuedBefore).of_assets_eq hsame.assets

end Addressed

/-! ### The law -/

/-- A reference that is taken changes the count of an asset that is not destroyed,
and no other asset. -/
theorem addref_eq_ok {holder : Holder} {h : Handle} {s t : State}
    (hadd : addref holder h s = .ok () t) :
    (s.asset h).destroyed = false ∧
      t.assets = (s.modifyAsset h fun a => { a with refs := a.refs + 1 }).assets := by
  rw [addref_run] at hadd
  split at hadd
  next => cases hadd
  next hwhole =>
    cases hadd
    refine ⟨Bool.eq_false_iff.2 hwhole, ?_⟩
    unfold State.referenced
    split <;> rfl

/-- Where a reference brings an asset back beside a rival, both answer to one address. -/
theorem rival?_eq_none_of_unique {s t : State} {h : Handle}
    (hwhole : (s.asset h).destroyed = false) (hnone : (s.asset h).refs = 0)
    (hassets : t.assets = (s.modifyAsset h fun a => { a with refs := a.refs + 1 }).assets)
    (ht : t.UniquelyAddressed) : s.rival? h = none := by
  have hunique := ht.of_assets_eq hassets.symm
  have hknown := State.lt_size_of_whole (.inl hwhole)
  have hback : (s.modifyAsset h fun a => { a with refs := a.refs + 1 }).answersTo (s.asset h).id
      (s.asset h).category h = true := by
    rw [State.answersTo_iff, State.asset_modifyAsset, if_pos ⟨rfl, hknown⟩]
    simp [hnone]
  rw [State.rival?_eq_none]
  intro k hne
  rw [← Bool.not_eq_true]
  intro hrival
  rw [← State.answersTo_modifyAsset_of_ne s (fun a => { a with refs := a.refs + 1 }) hne] at hrival
  exact hne (hunique _ _ k h hrival hback)

/-- As long as no asset was brought back beside a live one with its address, an id
and a category address at most one live asset, which a lookup finds, and a further
reference keeps this so exactly if it does not bring an asset back beside a rival. -/
theorem addresses_unique_until_rescue {s : State} (hs : Passed s) (hsole : s.Sole)
    (hrescued : RescuedAlone s.history) :
    s.UniquelyAddressed ∧
      (∀ id category h, s.answersTo id category h = true → s.find? 0 id category = some h) ∧
      ∀ holder h t, addref holder h s = .ok () t →
        (t.UniquelyAddressed ↔ ((s.asset h).refs = 0 → s.rival? h = none)) := by
  obtain ⟨u, hm⟩ := hs.invariant Addressed.start Addressed.move
  have hunique := hm.unique hsole hrescued
  refine ⟨hunique, ?_, ?_⟩
  · intro id category h hanswers
    exact hm.find?_eq_some hsole hunique hanswers
  · intro holder h t hadd
    obtain ⟨hwhole, hassets⟩ := addref_eq_ok hadd
    constructor
    · intro ht hnone
      exact rival?_eq_none_of_unique hwhole hnone hassets ht
    · intro halone
      exact (hm.took hunique (.inl hwhole) halone).of_assets_eq hassets

/-! ### A rescue without and with a rival -/

/-- `true` for events that tell of an asset brought back beside a rival. -/
def Event.isClash : Event → Bool
  | revived _ (some _) => true
  | _ => false

theorem RescuedAlone.of_any_isClash {history : List Event}
    (h : history.any Event.isClash = false) : RescuedAlone history := by
  intro k l hmem
  exact List.any_eq_false.1 h _ hmem rfl

/-- An asset was made, left to the main thread, and brought back in time. -/
def rescuedInTime : State :=
  (Session.bare .manual).start.after 4
    [(.main, .findOrCreate "first" (.standard .mesh) (.ofId ⟨1⟩)),
      (.main, .releaseDeferred (.labelled "first")), (.main, .addref (.labelled "first"))]

theorem rescuedInTime_found :
    Passed rescuedInTime ∧ rescuedInTime.Sole ∧ RescuedAlone rescuedInTime.history ∧
      rescuedInTime.UniquelyAddressed ∧ rescuedInTime.find? 0 ⟨1⟩ .mesh = some 0 := by
  have hpassed : Passed rescuedInTime := ((Reached.start _).after 4 _).passed
  have hrescued : RescuedAlone rescuedInTime.history := .of_any_isClash rfl
  have hlaws := addresses_unique_until_rescue hpassed rfl hrescued
  exact ⟨hpassed, rfl, hrescued, hlaws.1, hlaws.2.1 ⟨1⟩ .mesh 0 rfl⟩

/-- An asset was made and left to the main thread, another one was made under the
same id, and then the first was brought back. -/
def rescuedTooLate : State :=
  (Session.bare .manual).start.after 4
    [(.main, .findOrCreate "first" (.standard .mesh) (.ofId ⟨1⟩)),
      (.main, .releaseDeferred (.labelled "first")),
      (.main, .findOrCreate "second" (.standard .mesh) (.ofId ⟨1⟩)),
      (.main, .addref (.labelled "first"))]

/-- An id and a category can come to address two live assets. -/
theorem addresses_can_be_shared :
    Reached rescuedTooLate ∧ rescuedTooLate.Sole ∧
      rescuedTooLate.answersTo ⟨1⟩ .mesh 0 = true ∧ rescuedTooLate.answersTo ⟨1⟩ .mesh 1 = true ∧
      ¬ rescuedTooLate.UniquelyAddressed := by
  have hfirst : rescuedTooLate.answersTo ⟨1⟩ .mesh 0 = true := rfl
  have hsecond : rescuedTooLate.answersTo ⟨1⟩ .mesh 1 = true := rfl
  have hshared : ¬ rescuedTooLate.UniquelyAddressed := by
    intro hunique
    exact absurd (hunique _ _ 0 1 hfirst hsecond) (by decide)
  exact ⟨(Reached.start _).after 4 _, rfl, hfirst, hsecond, hshared⟩

end AssetLoading
