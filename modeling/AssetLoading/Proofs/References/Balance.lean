import AssetLoading.Proofs.References.Ledger

/-! # The balance of references

  At every moment of a run the reference count of an asset is what its holders
  took and did not drop, and what tasks and load events hold is what the moment
  shows: one reference for every unfinished task and every staged load.

  The balance is preserved by every move. Only taking, dropping and making an
  asset change counts; all other moves leave the books alone.
-/

namespace AssetLoading

/-! ### The balance -/

/-- The books of a moment balance. -/
structure Balanced (m : Moment) : Prop where
  /-- The count of an asset is what all holders took and did not drop. -/
  counted : ∀ h, h < m.state.assets.size →
    (m.state.asset h).refs = netOfAll h m.state.history
  /-- Nobody ever took a reference on what was never made. -/
  unknown : ∀ h, m.state.assets.size ≤ h → ∀ holder, net holder h m.state.history = 0
  /-- Tasks and load events hold what the moment shows. -/
  held : ∀ holder, holder.isScheduler = true → ∀ h,
    net holder h m.state.history = m.references.count (holder, h)
  /-- No count is below zero. -/
  nonneg : ∀ h, h < m.state.assets.size → 0 ≤ (m.state.asset h).refs
  /-- A destroyed asset has no reference left. -/
  destroyed : ∀ h, h < m.state.assets.size → (m.state.asset h).destroyed = true →
    (m.state.asset h).refs = 0

theorem Balanced.start (p : Session) : Balanced ⟨[], p.start⟩ := by
  unfold Session.start
  constructor <;> dsimp only <;> split <;>
    simp [State.record, Moment.references, Moment.unfinished, Moment.inTransit, net, Event.gain]

theorem Balanced.sameBooks {m n : Moment} (h : Balanced m) (hmn : m.SameBooks n) : Balanced n := by
  constructor
  · intro k hk
    rw [hmn.size] at hk
    simp only [hmn.refs, netOfAll, hmn.net]
    exact h.counted k hk
  · intro k hk holder
    rw [hmn.size] at hk
    rw [hmn.net]
    exact h.unknown k hk holder
  · intro holder hholder k
    rw [hmn.net, hmn.references.count_eq]
    exact h.held holder hholder k
  · intro k hk
    rw [hmn.size] at hk
    rw [hmn.refs]
    exact h.nonneg k hk
  · intro k hk hgone
    rw [hmn.size] at hk
    rw [hmn.refs]
    rcases hmn.destroyed k hgone with hgone | hnone
    · exact h.destroyed k hk hgone
    · exact hnone

/-! ### Taking and dropping -/

/-- Only what was made is whole or has references. -/
theorem State.lt_size_of_whole {s : State} {h : Handle}
    (hwhole : (s.asset h).destroyed = false ∨ 0 < (s.asset h).refs) : h < s.assets.size := by
  by_contra hh
  rw [State.asset_of_size_le (Nat.le_of_not_lt hh)] at hwhole
  rcases hwhole with hwhole | hsome
  · cases hwhole
  · exact absurd hsome (by decide)

/-- A reference that was taken is in the hands of the code that took it, if it is a
reference of the scheduler. -/
theorem count_references_gained {u : List Activity} {s t : State} (holder : Holder) (h : Handle)
    (hqueue : t.queue = s.queue) (hnotices : t.notices = s.notices) {k : Holder}
    (hk : k.isScheduler = true) (l : Handle) :
    (⟨gained holder h u, t⟩ : Moment).references.count (k, l) =
      (⟨u, s⟩ : Moment).references.count (k, l) + if holder = k ∧ h = l then 1 else 0 := by
  unfold Moment.references Moment.unfinished Moment.inTransit
  dsimp only
  rw [flatMap_toDiscard_gained, hqueue, hnotices]
  have htransit : (gained holder h u).flatMap Activity.inTransit =
      (if holder.isScheduler then [(holder, h)] else []) ++ u.flatMap Activity.inTransit := by
    cases holder <;> rfl
  rw [htransit]
  simp only [List.count_append]
  have hcount : List.count (k, l) (if holder.isScheduler then [(holder, h)] else []) =
      if holder = k ∧ h = l then 1 else 0 := by
    split
    next => simp [List.count_singleton]
    next hclient =>
      rw [if_neg]
      · rfl
      · rintro ⟨rfl, -⟩
        exact hclient hk
  omega

theorem Balanced.took {u : List Activity} {s : State} (hm : Balanced ⟨u, s⟩) (holder : Holder)
    {h : Handle} (hwhole : (s.asset h).destroyed = false ∨ 0 < (s.asset h).refs) :
    Balanced ⟨gained holder h u, s.took holder h⟩ := by
  have hknown := State.lt_size_of_whole hwhole
  -- field by field; an asset other than the one referenced is as before
  constructor
  · intro k hk
    rw [State.size_took] at hk
    show _ = netOfAll k (.took holder h :: s.history)
    rw [State.asset_took, netOfAll_took, ← hm.counted k hk]
    by_cases hkh : h = k <;> simp [hkh, hk]
  · intro k hk l
    rw [State.size_took] at hk
    show net l k (.took holder h :: s.history) = 0
    rw [net_cons, hm.unknown k hk, Event.gain, if_neg]
    · rfl
    · rintro ⟨-, rfl⟩
      exact absurd hknown (Nat.not_lt.2 hk)
  · intro k hk l
    show net k l (.took holder h :: s.history) = _
    rw [net_cons, hm.held k hk, count_references_gained (s := s) (t := s.took holder h) holder h rfl rfl hk]
    simp only [Event.gain]
    split <;> omega
  · intro k hk
    rw [State.size_took] at hk
    have := hm.nonneg k hk
    rw [State.asset_took]
    split <;> dsimp only at * <;> omega
  · intro k hk
    rw [State.size_took] at hk
    rw [State.asset_took]
    split
    next hkh =>
      obtain ⟨rfl, -⟩ := hkh
      -- whoever takes a reference found the asset whole, or referenced and so not destroyed
      intro hgone
      rcases hwhole with hwhole | hsome
      · exact absurd (hgone : (s.asset h).destroyed = true) (by simp [hwhole])
      · exact absurd (hm.destroyed h hk hgone) (by dsimp only; omega)
    next => exact hm.destroyed k hk

theorem Balanced.dropped {u : List Activity} {s : State} {holder : Holder} {h : Handle}
    (hm : Balanced ⟨gained holder h u, s⟩) (hsome : 0 < (s.asset h).refs) :
    Balanced ⟨u, s.dropped holder h⟩ := by
  have hknown := State.lt_size_of_whole (.inr hsome)
  -- field by field, as for a reference that is taken, with the signs turned
  constructor
  · intro k hk
    rw [State.size_dropped] at hk
    show _ = netOfAll k (.dropped holder h :: s.history)
    rw [State.asset_dropped, netOfAll_dropped, ← hm.counted k hk]
    by_cases hkh : h = k <;> simp [hkh, hk]
  · intro k hk l
    rw [State.size_dropped] at hk
    show net l k (.dropped holder h :: s.history) = 0
    rw [net_cons, hm.unknown k hk, Event.gain, if_neg]
    · rfl
    · rintro ⟨-, rfl⟩
      exact absurd hknown (Nat.not_lt.2 hk)
  · intro k hk l
    have hheld := hm.held k hk l
    rw [count_references_gained (s := s.dropped holder h) (t := s) holder h rfl rfl hk] at hheld
    show net k l (.dropped holder h :: s.history) = _
    rw [net_cons, hheld]
    simp only [Event.gain]
    split <;> omega
  · intro k hk
    rw [State.size_dropped] at hk
    have := hm.nonneg k hk
    rw [State.asset_dropped]
    split
    next hkh =>
      obtain ⟨rfl, -⟩ := hkh
      dsimp only
      omega
    next => exact this
  · intro k hk
    rw [State.size_dropped] at hk
    rw [State.asset_dropped]
    split
    next hkh =>
      obtain ⟨rfl, -⟩ := hkh
      -- a destroyed asset has no references, so none could be dropped
      intro hgone
      exact absurd (hm.destroyed h hk hgone) (by dsimp only; omega)
    next => exact hm.destroyed k hk

/-! ### Making an asset -/

theorem Balanced.inserted {u : List Activity} {s : State} (hm : Balanced ⟨u, s⟩) (r : RegistryId)
    (kind : Kind) (key : Key) (slot : Slot) (linked : Arena Handle) :
    Balanced ⟨u, s.inserted r kind key slot linked⟩ := by
  have hnew (holder : Holder) : net holder s.assets.size s.history = 0 :=
    hm.unknown s.assets.size (Nat.le_refl _) holder
  -- the new asset is the last one and has the reference that its maker takes
  constructor
  · intro k hk
    rw [State.size_inserted] at hk
    show _ = netOfAll k (.took .client s.assets.size :: s.history)
    rw [State.asset_inserted, netOfAll_took]
    by_cases hks : k = s.assets.size
    · simp [hks, netOfAll, hnew, Asset.fresh]
    · rw [if_neg hks, if_neg (Ne.symm hks), Int.add_zero]
      exact hm.counted k (by dsimp only; omega)
  · intro k hk holder
    rw [State.size_inserted] at hk
    show net holder k (.took .client s.assets.size :: s.history) = 0
    rw [net_cons, hm.unknown k (by dsimp only; omega), Event.gain, if_neg]
    · rfl
    · rintro ⟨-, rfl⟩
      omega
  · intro holder hholder k
    show net holder k (.took .client s.assets.size :: s.history) = _
    rw [net_cons, hm.held holder hholder, Event.gain, if_neg, Int.zero_add]
    · rfl
    · rintro ⟨rfl, -⟩
      cases hholder
  · intro k hk
    rw [State.size_inserted] at hk
    rw [State.asset_inserted]
    split
    next => exact Int.one_nonneg
    next hks =>
      have hold : k < s.assets.size := Nat.lt_of_le_of_ne (Nat.le_of_lt_succ hk) hks
      exact hm.nonneg k hold
  · intro k hk
    rw [State.size_inserted] at hk
    rw [State.asset_inserted]
    split
    next => exact fun hdestroyed => absurd hdestroyed Bool.false_ne_true
    next hks =>
      have hold : k < s.assets.size := Nat.lt_of_le_of_ne (Nat.le_of_lt_succ hk) hks
      exact hm.destroyed k hold

/-! ### Every move -/

/-- A change of an asset that leaves its count alone. -/
theorem Moment.SameBooks.of_modifyAsset {u v : List Activity} {s : State} {h : Handle}
    {f : Asset → Asset} (hrefs : (f (s.asset h)).refs = (s.asset h).refs)
    (hgone : (f (s.asset h)).destroyed = true →
      (s.asset h).destroyed = true ∨ (s.asset h).refs = 0)
    (hreferences : (⟨v, s.modifyAsset h f⟩ : Moment).references = (⟨u, s⟩ : Moment).references) :
    (⟨u, s⟩ : Moment).SameBooks ⟨v, s.modifyAsset h f⟩ := by
  refine ⟨State.size_modifyAsset s h f, fun k => ?_, fun k hk => ?_, fun _ _ => rfl,
    hreferences ▸ .refl _⟩
  · show ((s.modifyAsset h f).asset k).refs = (s.asset k).refs
    rw [State.asset_modifyAsset]
    split
    next hkh => rw [← hkh.1, hrefs]
    next => rfl
  · change ((s.modifyAsset h f).asset k).destroyed = true at hk
    rw [State.asset_modifyAsset] at hk
    split at hk
    next hkh =>
      obtain ⟨rfl, -⟩ := hkh
      exact hgone hk
    next => exact .inl hk

theorem AssetMove.balanced {m n : Moment} (h : AssetMove m n) (hm : Balanced m) : Balanced n := by
  cases h with
  | take holder h hwhole hsome => exact hm.took holder hwhole
  | @revive u s holder h hwhole hnone =>
    have hrecord : (⟨u, s⟩ : Moment).SameBooks ⟨u, s.record (.revived h (s.rival? h))⟩ := by
      refine .of_assets_eq rfl (fun k l => ?_) (.refl _)
      exact (net_cons k l _ _).trans (Int.zero_add _)
    exact (hm.sameBooks hrecord).took holder (.inl hwhole)
  | drop holder h hsome => exact hm.dropped hsome
  | beginDestroy h c hwhole hc hnone =>
    exact hm.sameBooks (.of_modifyAsset rfl (fun _ => .inr hnone) rfl)
  | redestroy h hgone hnone => exact hm.sameBooks (.of_modifyAsset rfl (fun _ => .inr hnone) rfl)
  | destructor h tag category value =>
    refine hm.sameBooks (.of_assets_eq rfl (fun k l => ?_) (.refl _))
    exact (net_cons k l _ _).trans (Int.zero_add _)
  | endDestroy h => exact hm.sameBooks (.of_modifyAsset rfl .inl rfl)
  | insert r kind key slot linked hfree hpush => exact hm.inserted r kind key slot linked
  | rekey r h key hfree => exact hm.sameBooks (.of_modifyAsset rfl .inl rfl)
  | @edit u s h f hf =>
    have hrefs : (f (s.asset h)).refs = (s.asset h).refs := by rw [hf.1]
    have hgone : (f (s.asset h)).destroyed = (s.asset h).destroyed := by rw [hf.1]
    exact hm.sameBooks (.of_modifyAsset hrefs (fun hd => .inl (hgone ▸ hd)) rfl)
  | _ => exact hm.sameBooks (.of_assets_eq rfl (fun _ _ => rfl) (.refl _))

/-- The books balance after every move. -/
theorem Balanced.move {m n : Moment} (hm : Balanced m) (hcustody : Custody m) (h : Move m n) :
    Balanced n := by
  cases h with
  | asset h => exact h.balanced hm
  | body h => exact hm.sameBooks h.sameBooks
  | job h => exact hm.sameBooks h.sameBooks
  | task h => exact hm.sameBooks (h.sameBooks hcustody)
  | notice h => exact hm.sameBooks h.sameBooks
  | plain h => exact hm.sameBooks h.sameBooks

/-! ### What the balance says of nets -/

section Balance

variable {m : Moment}

theorem Balanced.net_nonneg (hm : Balanced m) (holder : Holder) (hholder : holder.isScheduler = true)
    (h : Handle) : 0 ≤ net holder h m.state.history := by
  rw [hm.held holder hholder h]
  exact Int.natCast_nonneg _

/-- Nobody holds a reference on an asset that is destroyed, unless client code
dropped more than it took. -/
theorem Balanced.nets_of_destroyed (hm : Balanced m) {h : Handle}
    (hgone : (m.state.asset h).destroyed = true) (hclient : 0 ≤ clientNet h m.state.history) :
    clientNet h m.state.history = 0 ∧ net .task h m.state.history = 0 ∧
      net .notice h m.state.history = 0 := by
  have hall : netOfAll h m.state.history = 0 := by
    by_cases hh : h < m.state.assets.size
    · rw [← hm.counted h hh, hm.destroyed h hh hgone]
    · have hnone := hm.unknown h (Nat.le_of_not_lt hh)
      simp only [netOfAll, hnone]
      rfl
  have htask := hm.net_nonneg .task rfl h
  have hnotice := hm.net_nonneg .notice rfl h
  rw [netOfAll_eq] at hall
  omega

/-- A task that somebody has in hand holds a reference. -/
theorem Balanced.net_task_pos (hm : Balanced m) {c : Claimed} (hc : c ∈ m.unfinished) :
    0 < net .task c.asset m.state.history := by
  rw [hm.held .task rfl, Int.natCast_pos, List.count_pos_iff]
  unfold Moment.references
  refine List.mem_append_left _ (List.mem_append_left _ ?_)
  exact List.mem_map.2 ⟨c, hc, rfl⟩

end Balance

end AssetLoading
