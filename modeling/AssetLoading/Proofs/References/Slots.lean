import AssetLoading.Proofs.References.Expiry
import AssetLoading.Proofs.References.Ledger
import AssetLoading.Proofs.Run.References
import Mathlib.Algebra.BigOperators.Group.Finset.Basic

/-! # Owners of references

  Contents hold references on other assets in slots. As long as slots are filled and
  emptied by swapping references only, the count of an asset is made up of what client
  code holds and of the slots that hold it, in all assets that are not destroyed.

  Within an operation some references belong to neither: the contents of an asset that
  is being destroyed have left it, and a swap has the references in hand for a moment.
  `Attributed` keeps account of them, and every single change of the state leaves it true.
-/

namespace AssetLoading

/-! ### Slots -/

/-- How many slots in the contents of an asset hold a reference on another. What is
destroyed has no contents. -/
def Asset.slotsOn (a : Asset) (h : Handle) : Nat :=
  if a.destroyed then 0 else (a.contents.elim [] Contents.dependencies).count (some h)

/-- How many slots hold a reference on an asset. -/
def State.slotsOn (s : State) (h : Handle) : Nat :=
  ∑ k ∈ Finset.range s.assets.size, (s.asset k).slotsOn h

/-- The assets that slots hold. -/
def targets (slots : List (Option Handle)) : List Handle :=
  slots.filterMap id

theorem count_targets (slots : List (Option Handle)) (h : Handle) :
    (targets slots).count h = slots.count (some h) := by
  induction slots with
  | nil => rfl
  | cons slot slots ih =>
    cases slot with
    | none =>
      rw [List.count_cons_of_ne (Option.some_ne_none h).symm]
      exact ih
    | some k =>
      show (k :: targets slots).count h = _
      by_cases hk : k = h
      · rw [hk, List.count_cons_self, List.count_cons_self, ih]
      · rw [List.count_cons_of_ne hk, List.count_cons_of_ne fun heq => hk (Option.some.inj heq), ih]

/-- An asset has contents without a destructor of their own, unless it is destroyed. -/
def Asset.Simple (a : Asset) : Prop :=
  a.destroyed = false → ∃ c, a.contents = some c ∧ c.onDestroy = []

section Sums

variable {s : State}

/-- One asset changes, and its slots with it. -/
theorem State.slotsOn_modifyAsset {h : Handle} (hh : h < s.assets.size) (f : Asset → Asset)
    (k : Handle) : (s.modifyAsset h f).slotsOn k + (s.asset h).slotsOn k =
      s.slotsOn k + (f (s.asset h)).slotsOn k := by
  have hmem : h ∈ Finset.range s.assets.size := Finset.mem_range.2 hh
  have hothers : ∑ l ∈ (Finset.range s.assets.size).erase h, ((s.modifyAsset h f).asset l).slotsOn k =
      ∑ l ∈ (Finset.range s.assets.size).erase h, (s.asset l).slotsOn k := by
    apply Finset.sum_congr rfl
    intro l hl
    rw [State.asset_modifyAsset, if_neg fun heq => (Finset.mem_erase.1 hl).1 heq.1.symm]
  have hself : (s.modifyAsset h f).asset h = f (s.asset h) := by
    rw [State.asset_modifyAsset, if_pos ⟨rfl, hh⟩]
  have hold := Finset.add_sum_erase (Finset.range s.assets.size) (fun l => (s.asset l).slotsOn k) hmem
  have hnew := Finset.add_sum_erase (Finset.range s.assets.size)
    (fun l => ((s.modifyAsset h f).asset l).slotsOn k) hmem
  rw [hothers, hself] at hnew
  unfold State.slotsOn
  rw [State.size_modifyAsset]
  omega

theorem State.slotsOn_congr {t : State} (hsize : t.assets.size = s.assets.size)
    (hasset : ∀ h k, (t.asset h).slotsOn k = (s.asset h).slotsOn k) (k : Handle) :
    t.slotsOn k = s.slotsOn k := by
  unfold State.slotsOn
  rw [hsize]
  apply Finset.sum_congr rfl
  intro l _
  exact hasset l k

end Sums

/-! ### Owners -/

/-- Every reference has an owner: client code, a slot, or the operation under way, which
has references on the assets of `hand`. Besides those of `idle`, every asset that is not
destroyed has a reference. -/
structure Attributed (s : State) (hand idle : List Handle) : Prop where
  counted : ∀ h, h < s.assets.size →
    (s.asset h).refs = net .client h s.history + s.slotsOn h + hand.count h
  /-- What was never made has no owner. -/
  unknown : ∀ h, s.assets.size ≤ h →
    net .client h s.history = 0 ∧ s.slotsOn h = 0 ∧ hand.count h = 0
  /-- Client code never dropped what it did not hold. -/
  client : ∀ h, 0 ≤ net .client h s.history
  gone : ∀ h, h < s.assets.size → (s.asset h).destroyed = true → (s.asset h).refs = 0
  simple : ∀ h, (s.asset h).Simple
  idle : ∀ h, (s.asset h).destroyed = false → (s.asset h).refs = 0 → h ∈ idle

/-- Nothing that an asset owns or is owned by has changed. -/
structure State.SameOwners (s t : State) : Prop where
  size : t.assets.size = s.assets.size
  refs : ∀ h, (t.asset h).refs = (s.asset h).refs
  destroyed : ∀ h, (t.asset h).destroyed = (s.asset h).destroyed
  contents : ∀ h, (t.asset h).contents = (s.asset h).contents
  client : ∀ h, net .client h t.history = net .client h s.history

namespace Attributed

variable {s t : State} {hand hand' idle idle' : List Handle} {h : Handle}

/-- What is held by anyone is alive. -/
theorem alive (hs : Attributed s hand idle)
    (hheld : 0 < net .client h s.history ∨ 0 < s.slotsOn h ∨ h ∈ hand) :
    h < s.assets.size ∧ (s.asset h).destroyed = false ∧ 0 < (s.asset h).refs := by
  have hcount : h ∈ hand → 0 < hand.count h := List.count_pos_iff.2
  have hmade : h < s.assets.size := by
    by_contra hnot
    obtain ⟨hclient, hslots, hnone⟩ := hs.unknown h (Nat.le_of_not_lt hnot)
    rcases hheld with hheld | hheld | hheld
    · omega
    · omega
    · have := hcount hheld
      omega
  have hrefs : 0 < (s.asset h).refs := by
    have hclient := hs.client h
    rw [hs.counted h hmade]
    rcases hheld with hheld | hheld | hheld
    · omega
    · omega
    · have := hcount hheld
      omega
  refine ⟨hmade, ?_, hrefs⟩
  rw [← Bool.not_eq_true]
  intro hgone
  have hnone := hs.gone h hmade hgone
  omega

theorem nonneg (hs : Attributed s hand idle) (hmade : h < s.assets.size) : 0 ≤ (s.asset h).refs := by
  have hclient := hs.client h
  rw [hs.counted h hmade]
  omega

theorem same (hs : Attributed s hand idle) (hst : s.SameOwners t) : Attributed t hand idle := by
  have hslots (k : Handle) : t.slotsOn k = s.slotsOn k := by
    apply State.slotsOn_congr hst.size
    intro l k
    unfold Asset.slotsOn
    rw [hst.destroyed, hst.contents]
  constructor
  · intro k hk
    rw [hst.size] at hk
    rw [hst.refs, hst.client, hslots]
    exact hs.counted k hk
  · intro k hk
    rw [hst.size] at hk
    rw [hst.client, hslots]
    exact hs.unknown k hk
  · intro k
    rw [hst.client]
    exact hs.client k
  · intro k hk hgone
    rw [hst.size] at hk
    rw [hst.destroyed] at hgone
    rw [hst.refs]
    exact hs.gone k hk hgone
  · intro k hwhole
    rw [hst.destroyed] at hwhole
    rw [hst.contents]
    exact hs.simple k hwhole
  · intro k hwhole hnone
    rw [hst.destroyed] at hwhole
    rw [hst.refs] at hnone
    exact hs.idle k hwhole hnone

/-- A list of idle assets may name more, and need not name what is held or destroyed. -/
theorem of_idle (hs : Attributed s hand idle)
    (hidle : ∀ k ∈ idle, (s.asset k).destroyed = false → (s.asset k).refs = 0 → k ∈ idle') :
    Attributed s hand idle' :=
  { hs with idle := fun k hwhole hnone => hidle k (hs.idle k hwhole hnone) hwhole hnone }

/-- One asset changes, and slots of it are filled from what is in hand or emptied into it. -/
theorem modifyAsset (hs : Attributed s hand idle) (hmade : h < s.assets.size) {f : Asset → Asset}
    (hrefs : (f (s.asset h)).refs = (s.asset h).refs)
    (hbalance : ∀ k, (f (s.asset h)).slotsOn k + hand'.count k =
      (s.asset h).slotsOn k + hand.count k)
    (hgone : (f (s.asset h)).destroyed = true →
      (s.asset h).destroyed = true ∨ (s.asset h).refs = 0)
    (hwhole : (f (s.asset h)).destroyed = false → (s.asset h).destroyed = false)
    (hsimple : (f (s.asset h)).Simple) : Attributed (s.modifyAsset h f) hand' idle := by
  have hasset (k : Handle) : (s.modifyAsset h f).asset k =
      if h = k then f (s.asset h) else s.asset k := by
    rw [State.asset_modifyAsset]
    by_cases hk : h = k
    · rw [if_pos ⟨hk, hk ▸ hmade⟩, if_pos hk, hk]
    · rw [if_neg fun heq => hk heq.1, if_neg hk]
  -- what the slots gain is what the hand loses
  have hslots (k : Handle) : (s.modifyAsset h f).slotsOn k + hand'.count k =
      s.slotsOn k + hand.count k := by
    have hsum := State.slotsOn_modifyAsset hmade f k
    have hslot := hbalance k
    omega
  constructor
  · intro k hk
    rw [State.size_modifyAsset] at hk
    have hcount := hs.counted k hk
    have hslot := hslots k
    have hsame : ((s.modifyAsset h f).asset k).refs = (s.asset k).refs := by
      rw [hasset]
      split
      next heq => rw [hrefs, heq]
      next => rfl
    rw [hsame, hcount]
    show _ = net .client k s.history + _ + _
    omega
  · intro k hk
    rw [State.size_modifyAsset] at hk
    obtain ⟨hclient, hnone, hempty⟩ := hs.unknown k hk
    have hslot := hslots k
    exact ⟨hclient, by omega, by omega⟩
  · exact hs.client
  · intro k hk hdestroyed
    rw [State.size_modifyAsset] at hk
    rw [hasset] at hdestroyed ⊢
    split at hdestroyed
    next heq =>
      rw [if_pos heq, hrefs]
      rcases hgone hdestroyed with hbefore | hnone
      · exact hs.gone h hmade hbefore
      · exact hnone
    next heq =>
      rw [if_neg heq]
      exact hs.gone k hk hdestroyed
  · intro k
    rw [hasset]
    split
    next => exact hsimple
    next => exact hs.simple k
  · intro k hk hnone
    rw [hasset] at hk hnone
    split at hk
    next heq =>
      rw [if_pos heq, hrefs] at hnone
      rw [← heq]
      exact hs.idle h (hwhole hk) hnone
    next heq =>
      rw [if_neg heq] at hnone
      exact hs.idle k hk hnone

/-! ### Counting -/

/-- The count of an asset changes, and with it what client code holds or what is in hand.
The asset may be left without a reference. -/
theorem count (hs : Attributed s hand idle) (hwhole : (s.asset h).destroyed = false) {d : Int}
    (hassets : t.assets = (s.modifyAsset h fun a => { a with refs := a.refs + d }).assets)
    (hclient : ∀ k, 0 ≤ net .client k t.history)
    (hbalance : ∀ k, net .client k t.history + hand'.count k =
      net .client k s.history + hand.count k + if h = k then d else 0) :
    Attributed t hand' (h :: idle) := by
  have hmade : h < s.assets.size := State.lt_size_of_whole (.inl hwhole)
  have hsize : t.assets.size = s.assets.size := by rw [hassets, State.size_modifyAsset]
  have hasset (k : Handle) : t.asset k =
      if h = k ∧ k < s.assets.size then { s.asset k with refs := (s.asset k).refs + d }
      else s.asset k :=
    asset_of_assets_eq hassets k
  have hdestroyed (k : Handle) : (t.asset k).destroyed = (s.asset k).destroyed := by
    rw [hasset]
    split <;> rfl
  have hcontents (k : Handle) : (t.asset k).contents = (s.asset k).contents := by
    rw [hasset]
    split <;> rfl
  have hrefs (k : Handle) : (t.asset k).refs = (s.asset k).refs + if h = k then d else 0 := by
    rw [hasset]
    by_cases hk : h = k
    · rw [if_pos ⟨hk, hk ▸ hmade⟩, if_pos hk]
    · rw [if_neg fun heq => hk heq.1, if_neg hk, Int.add_zero]
  have hslots (k : Handle) : t.slotsOn k = s.slotsOn k := by
    apply State.slotsOn_congr hsize
    intro l k
    unfold Asset.slotsOn
    rw [hdestroyed, hcontents]
  -- the change of the count is that of the client and of the hand together
  constructor
  · intro k hk
    rw [hsize] at hk
    have hsum := hbalance k
    rw [hrefs, hs.counted k hk, hslots]
    omega
  · intro k hk
    rw [hsize] at hk
    obtain ⟨hnet, hnone, hempty⟩ := hs.unknown k hk
    have hsum := hbalance k
    have hne : h ≠ k := by
      rintro rfl
      exact Nat.not_le.2 hmade hk
    rw [if_neg hne] at hsum
    have hpos := hclient k
    refine ⟨by omega, ?_, by omega⟩
    rw [hslots]
    exact hnone
  · exact hclient
  · intro k hk hgone
    rw [hsize] at hk
    rw [hdestroyed] at hgone
    have hne : h ≠ k := by
      rintro rfl
      rw [hwhole] at hgone
      cases hgone
    rw [hrefs, if_neg hne, hs.gone k hk hgone, Int.add_zero]
  · intro k hk
    rw [hdestroyed] at hk
    rw [hcontents]
    exact hs.simple k hk
  · intro k hk hnone
    rw [hdestroyed] at hk
    rw [hrefs] at hnone
    -- only the asset itself may have lost its last reference, and it counts as idle now
    by_cases heq : h = k
    · rw [heq]
      exact List.mem_cons_self
    · rw [if_neg heq, Int.add_zero] at hnone
      exact List.mem_cons_of_mem h (hs.idle k hk hnone)

/-- The references of slots are not those of client code. -/
theorem client_took_dependency (k : Handle) :
    net .client k (s.took .dependency h).history = net .client k s.history := by
  show net .client k (.took .dependency h :: s.history) = _
  rw [net_cons]
  simp [Event.gain]

theorem client_dropped_dependency (k : Handle) :
    net .client k (s.dropped .dependency h).history = net .client k s.history := by
  show net .client k (.dropped .dependency h :: s.history) = _
  rw [net_cons]
  simp [Event.gain]

theorem client_took_client (k : Handle) : net .client k (s.took .client h).history =
    net .client k s.history + if h = k then 1 else 0 := by
  show net .client k (.took .client h :: s.history) = _
  rw [net_cons, Int.add_comm]
  simp [Event.gain]

theorem client_dropped_client (k : Handle) : net .client k (s.dropped .client h).history =
    net .client k s.history + if h = k then -1 else 0 := by
  show net .client k (.dropped .client h :: s.history) = _
  rw [net_cons, Int.add_comm]
  simp [Event.gain]

/-- A reference is taken into the hand. -/
theorem took_dependency (hs : Attributed s hand idle) (hwhole : (s.asset h).destroyed = false) :
    Attributed (s.took .dependency h) (h :: hand) (h :: idle) := by
  apply hs.count (t := s.took .dependency h) (d := 1) hwhole rfl
  · intro k
    rw [client_took_dependency]
    exact hs.client k
  · intro k
    rw [client_took_dependency, List.count_cons]
    by_cases hk : h = k
    · simp [hk]
      omega
    · simp [hk]

/-- A reference out of the hand is dropped. -/
theorem dropped_dependency (hs : Attributed s (h :: hand) idle) :
    Attributed (s.dropped .dependency h) hand (h :: idle) := by
  have halive := hs.alive (.inr (.inr List.mem_cons_self))
  apply hs.count (t := s.dropped .dependency h) (d := -1) halive.2.1 rfl
  · intro k
    rw [client_dropped_dependency]
    exact hs.client k
  · intro k
    rw [client_dropped_dependency, List.count_cons]
    by_cases hk : h = k
    · simp [hk]
      omega
    · simp [hk]

/-- Client code takes a reference. -/
theorem took_client (hs : Attributed s hand idle) (hwhole : (s.asset h).destroyed = false) :
    Attributed (s.took .client h) hand (h :: idle) := by
  apply hs.count (t := s.took .client h) (d := 1) hwhole rfl
  · intro k
    have hclient := hs.client k
    rw [client_took_client]
    split <;> omega
  · intro k
    rw [client_took_client]
    omega

/-- Client code drops a reference that it holds. -/
theorem dropped_client (hs : Attributed s hand idle) (hheld : 0 < net .client h s.history) :
    Attributed (s.dropped .client h) hand (h :: idle) := by
  apply hs.count (t := s.dropped .client h) (d := -1) (hs.alive (.inl hheld)).2.1 rfl
  · intro k
    have hclient := hs.client k
    rw [client_dropped_client]
    by_cases hk : h = k
    · subst hk
      rw [if_pos rfl]
      omega
    · rw [if_neg hk]
      omega
  · intro k
    rw [client_dropped_client]
    omega

/-! ### Contents -/

/-- An asset without references loses its contents, and what they hold is in hand. -/
theorem expired (hs : Attributed s hand (h :: idle)) (hnone : (s.asset h).refs = 0) {c : Contents}
    (hwhole : (s.asset h).destroyed = false) (hc : (s.asset h).contents = some c) :
    Attributed (s.modifyAsset h fun a => { a with destroyed := true, contents := none })
      (targets c.dependencies ++ hand) idle := by
  have hmade : h < s.assets.size := State.lt_size_of_whole (.inl hwhole)
  have howned : Attributed (s.modifyAsset h fun a => { a with destroyed := true, contents := none })
      (targets c.dependencies ++ hand) (h :: idle) := by
    apply hs.modifyAsset hmade rfl
    · intro k
      rw [List.count_append, count_targets, Asset.slotsOn, if_pos rfl, Asset.slotsOn, hwhole,
        if_neg Bool.false_ne_true, hc]
      exact Nat.zero_add _
    · exact fun _ => .inr hnone
    · exact fun hfalse => by cases hfalse
    · exact fun hfalse => by cases hfalse
  apply howned.of_idle
  intro k hk hwholeK _
  rcases List.mem_cons.1 hk with rfl | hk
  · rw [State.asset_modifyAsset, if_pos ⟨rfl, hmade⟩] at hwholeK
    cases hwholeK
  · exact hk

/-- The contents of an asset are written, and slots change places with the hand. -/
theorem written (hs : Attributed s hand idle) {c c' : Contents}
    (hwhole : (s.asset h).destroyed = false) (hc : (s.asset h).contents = some c)
    (hscript : c'.onDestroy = c.onDestroy)
    (hbalance : ∀ k, c'.dependencies.count (some k) + hand'.count k =
      c.dependencies.count (some k) + hand.count k) :
    Attributed (s.modifyAsset h fun a => { a with contents := some c' }) hand' idle := by
  have hmade : h < s.assets.size := State.lt_size_of_whole (.inl hwhole)
  have hslots (a : Asset) (d : Contents) (ha : a.destroyed = false) (hd : a.contents = some d)
      (k : Handle) : a.slotsOn k = d.dependencies.count (some k) := by
    rw [Asset.slotsOn, ha, if_neg Bool.false_ne_true, hd]
    rfl
  apply hs.modifyAsset hmade rfl
  · intro k
    rw [hslots _ c hwhole hc, hslots { s.asset h with contents := some c' } c' hwhole rfl]
    exact hbalance k
  · exact fun hgone => .inl hgone
  · exact fun hstill => hstill
  · obtain ⟨d, hd, hempty⟩ := hs.simple h hwhole
    obtain rfl : c = d := Option.some.inj (hc.symm.trans hd)
    exact fun _ => ⟨c', rfl, hscript.trans hempty⟩

/-! ### Starting and making -/

theorem start (p : Session) : Attributed p.start [] [] := by
  unfold Session.start
  constructor <;> dsimp only <;> split <;>
    simp [State.record, State.slotsOn, State.asset, Asset.absent, Asset.Simple, net, Event.gain]

/-- A new asset is held by client code and holds nothing. -/
theorem inserted (hs : Attributed s hand idle) (r : RegistryId) (kind : Kind) (key : Key) (slot : Slot)
    (linked : Arena Handle) : Attributed (s.inserted r kind key slot linked) hand idle := by
  have hclient (k : Handle) : net .client k (s.inserted r kind key slot linked).history =
      net .client k s.history + if s.assets.size = k then 1 else 0 := by
    show net .client k (.took .client s.assets.size :: s.history) = _
    rw [net_cons, Int.add_comm]
    simp [Event.gain]
  have hslots (k : Handle) : (s.inserted r kind key slot linked).slotsOn k = s.slotsOn k := by
    unfold State.slotsOn
    rw [State.size_inserted, Finset.sum_range_succ, State.asset_inserted, if_pos rfl]
    have hnone : ({ Asset.fresh kind key with slot := some slot } : Asset).slotsOn k = 0 := rfl
    rw [hnone, Nat.add_zero]
    -- its contents have no dependencies, so no slot points anywhere new
    apply Finset.sum_congr rfl
    intro l hl
    rw [State.asset_inserted, if_neg (Nat.ne_of_lt (Finset.mem_range.1 hl))]
  have hnew := hs.unknown s.assets.size (Nat.le_refl _)
  -- the new asset has one reference, which is the one that the client took
  constructor
  · intro k hk
    rw [hclient, hslots, State.asset_inserted]
    by_cases hnewest : k = s.assets.size
    · subst hnewest
      obtain ⟨hnet, hnone, hempty⟩ := hnew
      rw [if_pos rfl, if_pos rfl, hnet, hnone, hempty]
      rfl
    · rw [if_neg hnewest, if_neg fun heq => hnewest heq.symm]
      rw [State.size_inserted] at hk
      have hcount := hs.counted k (by omega)
      omega
  · intro k hk
    rw [State.size_inserted] at hk
    rw [hclient, hslots, if_neg (by omega), Int.add_zero]
    exact hs.unknown k (by omega)
  · intro k
    have hbefore := hs.client k
    rw [hclient]
    split <;> omega
  · intro k hk hgone
    rw [State.asset_inserted] at hgone ⊢
    by_cases hnewest : k = s.assets.size
    · rw [if_pos hnewest] at hgone
      cases hgone
    · rw [if_neg hnewest] at hgone ⊢
      rw [State.size_inserted] at hk
      exact hs.gone k (by omega) hgone
  · intro k
    rw [State.asset_inserted]
    split
    next => exact fun _ => ⟨{ kind }, rfl, rfl⟩
    next => exact hs.simple k
  · intro k hk hnone
    rw [State.asset_inserted] at hk hnone
    by_cases hnewest : k = s.assets.size
    · rw [if_pos hnewest] at hnone
      cases hnone
    · rw [if_neg hnewest] at hk hnone
      exact hs.idle k hk hnone

end Attributed

end AssetLoading
