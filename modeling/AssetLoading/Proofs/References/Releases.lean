import AssetLoading.Proofs.References.Demise

/-! # The last of several releases

  An asset lives as long as it has been released less often than references were taken
  on it. So if no other reference is taken, the last of the releases that are owed is the
  one that destroys it, whatever else happens between them (`Occurs.lastsFor`).

  Where the assets that are released hold nothing and their destructors do nothing, a row
  of releases is known to return, in any order (`releaseAll_returns`).
-/

namespace AssetLoading

/-! ### Releases with anything in between -/

/-- An asset is not destroyed before it has been released a number of times, and with the
last of them it is, if no reference is taken on it any more. -/
structure LastsFor (c : Scene) (h : Handle) (n : Nat) : Prop where
  /-- It lives while releases are owed, and none but the last does more than to lower the
  count. -/
  living : ∀ d later, Strides c d → d.state.history = later ++ c.state.history →
    later.countP (Event.takes h) = 0 → later.countP (Event.drops h) < n →
      (d.state.asset h).refs = n - later.countP (Event.drops h) ∧
      (d.state.asset h).destroyed = false ∧ d.state.endsOf h = 0 ∧
      (later.countP (Event.drops h) + 1 < n → ∀ call scope holder,
        release call scope holder h d.state = .ok () (d.state.dropped holder h))
  /-- When the last one has returned, the destructor has run. -/
  ending : ∀ d later, Strides c d → d.state.history = later ++ c.state.history →
    later.countP (Event.takes h) = 0 → later.countP (Event.drops h) + 1 = n →
      ∀ fuel scope t, Serves d.underWay scope.registry →
        release (run fuel) scope .client h d.state = .ok () t →
          (t.asset h).destroyed = true ∧ (t.asset h).refs = 0 ∧ t.endsOf h = 1

section Lasting

variable {c d : Scene} {h : Handle} {n : Nat}

/-- As long as releases are owed, the count of the asset is their number. -/
theorem Occurs.refs_of_owed (hc : Occurs c) (hn : (c.state.asset h).refs = n) (hcd : Strides c d)
    {later : List Event} (hhistory : d.state.history = later ++ c.state.history)
    (htakes : later.countP (Event.takes h) = 0) (hdrops : later.countP (Event.drops h) < n) :
    (d.state.asset h).refs = n - later.countP (Event.drops h) := by
  have hmade : h < c.state.assets.size := State.lt_size_of_whole (.inr (by omega))
  have hd := (hc.strides hcd).reckoned.balanced
  have hbefore := hc.reckoned.balanced.counted h hmade
  change (c.state.asset h).refs = netOfAll h c.state.history at hbefore
  rw [netOfAll_eq_counts] at hbefore
  have hnet : netOfAll h d.state.history = n - later.countP (Event.drops h) := by
    rw [netOfAll_eq_counts, hhistory, List.countP_append, List.countP_append, htakes]
    omega
  have hknown : h < d.state.assets.size := by
    refine Nat.lt_of_not_le fun hh => ?_
    have hnone : netOfAll h d.state.history = 0 := by simp [netOfAll, hd.unknown h hh]
    omega
  exact (hd.counted h hknown).trans hnet

/-- An asset with references is not destroyed. -/
theorem Occurs.whole_of_refs (hc : Occurs c) (hsome : 0 < (c.state.asset h).refs) :
    (c.state.asset h).destroyed = false := by
  rw [← Bool.not_eq_true]
  intro hgone
  have hknown : h < c.state.assets.size := State.lt_size_of_whole (.inr hsome)
  have hnone := hc.reckoned.balanced.destroyed h hknown hgone
  change (c.state.asset h).refs = 0 at hnone
  omega

/-- Before its destructor runs the asset is as it was, without references. -/
theorem State.asset_dropped_last {s : State} (holder : Holder) (hmade : h < s.assets.size)
    (hlast : (s.asset h).refs = 1) :
    (s.dropped holder h).asset h = { s.asset h with refs := 0 } := by
  rw [State.asset_dropped, if_pos ⟨rfl, hmade⟩, hlast]
  rfl

/-- The release of the last reference returns with the asset destroyed. -/
theorem Occurs.gone_of_release (hc : Occurs c) (hlast : (c.state.asset h).refs = 1) {fuel : Nat}
    {scope : Scope} {t : State} (hscope : Serves c.underWay scope.registry)
    (hrun : release (run fuel) scope .client h c.state = .ok () t) :
    (t.asset h).destroyed = true ∧ (t.asset h).refs = 0 ∧ t.endsOf h = 1 := by
  have hknown : h < c.state.assets.size := State.lt_size_of_whole (.inr (by omega))
  have halive := hc.whole_of_refs (h := h) (by omega)
  -- the asset has contents until now, and the reference is dropped first
  have hcontents := hc.expiring.2.whole h hknown
  change (c.state.asset h).contents.isSome = !(c.state.asset h).destroyed at hcontents
  rw [halive] at hcontents
  obtain ⟨contents, hsome⟩ := Option.isSome_iff_exists.1 hcontents
  have hdropped := State.asset_dropped_last .client hknown hlast
  have hwhole : ((c.state.dropped .client h).asset h).destroyed = false := by
    rw [hdropped]
    exact halive
  have hfull : ((c.state.dropped .client h).asset h).contents = some contents := by
    rw [hdropped]
    exact hsome
  have hreturned := hrun
  rw [release_of_last hlast] at hreturned
  obtain ⟨b, r, hdestroy, hpure⟩ := Exec.bind_eq_ok hreturned
  cases hpure
  have hgone := gone_of_destroy hscope hwhole hfull hdestroy
  -- the end of the release is a scene of the session
  have hleads : Leads c.underWay (release (run fuel) scope .client h) c.underWay :=
    leads_release (run_isTraced fuel) hscope .client h
  have ht := hc.strides (hleads.strides hrun c.due)
  exact ⟨hgone.2, ht.reckoned.balanced.destroyed h hgone.1 hgone.2, ht.expiring.2.once h hgone⟩

/-- An asset lasts for as many releases as it has references. -/
theorem Occurs.lastsFor (hc : Occurs c) (hn : (c.state.asset h).refs = n) : LastsFor c h n := by
  constructor
  · intro d later hcd hhistory htakes hdrops
    have hcount := hc.refs_of_owed hn hcd hhistory htakes hdrops
    have halive := (hc.strides hcd).whole_of_refs (h := h) (by omega)
    refine ⟨hcount, halive, ?_, fun hmore call scope holder => release_of_more (by omega)⟩
    refine (hc.strides hcd).expiring.2.never h fun hgone => ?_
    rw [hgone.2] at halive
    cases halive
  · intro d later hcd hhistory htakes hdrops fuel scope t hscope hrun
    have hcount := hc.refs_of_owed hn hcd hhistory htakes (by omega)
    exact (hc.strides hcd).gone_of_release (by omega) hscope hrun

end Lasting

/-! ### Releases without anything in between -/

/-- What a release of an asset does whose contents hold nothing and whose destructor does
nothing, if it has the reference that is dropped. -/
structure Dropping (h : Handle) (s t : State) : Prop where
  size : t.assets.size = s.assets.size
  /-- One reference less, -/
  refs : ∀ k, k < s.assets.size →
    (t.asset k).refs = (s.asset k).refs - if k = h then 1 else 0
  /-- and the asset is destroyed if it was the last one. -/
  destroyed : ∀ k, (t.asset k).destroyed = true ↔
    (s.asset k).destroyed = true ∨ k = h ∧ (s.asset h).refs = 1
  ends : ∀ k, t.endsOf k = s.endsOf k + if k = h ∧ (s.asset h).refs = 1 then 1 else 0
  contents : ∀ k, ¬ (k = h ∧ (s.asset h).refs = 1) → (t.asset k).contents = (s.asset k).contents

/-- The contents hold nothing, and their destructor does nothing. -/
def Contents.IsPlain (c : Contents) : Prop :=
  c.onDestroy = [] ∧ c.dependencies = []

section Releasing

variable {s : State} {h : Handle}

theorem dropping_dropped (holder : Holder) (hmore : 1 < (s.asset h).refs) :
    Dropping h s (s.dropped holder h) := by
  have hne : (s.asset h).refs ≠ 1 := by omega
  have hasset := s.asset_dropped holder h
  constructor
  · exact s.size_dropped holder h
  · intro k hk
    rw [hasset]
    by_cases heq : k = h
    · rw [if_pos ⟨heq.symm, hk⟩, if_pos heq]
    · rw [if_neg fun hboth => heq hboth.1.symm, if_neg heq, Int.sub_zero]
  · intro k
    rw [hasset]
    split <;> simp [hne]
  · intro k
    simp [State.endsOf, State.dropped, State.record, State.modifyAsset, Event.isEndOf, hne]
  · intro k _
    rw [hasset]
    split <;> rfl

/-- The state after the last reference of an asset with plain contents was released. -/
def State.releasedLast (s : State) (holder : Holder) (r : RegistryId) (h : Handle) (c : Contents) :
    State :=
  ((s.dropped holder h).expired h c).buried r h

theorem release_of_plain (fuel : Nat) (scope : Scope) (holder : Holder) {c : Contents}
    (hlast : (s.asset h).refs = 1) (hwhole : (s.asset h).destroyed = false)
    (hc : (s.asset h).contents = some c) (hplain : c.IsPlain) :
    release (run (fuel + 1)) scope holder h s =
      .ok () (s.releasedLast holder scope.registry h c) := by
  have hmade : h < s.assets.size := State.lt_size_of_whole (.inl hwhole)
  have hself := State.asset_dropped_last holder hmade hlast
  have hwhole' : ((s.dropped holder h).asset h).destroyed = false := by
    rw [hself]
    exact hwhole
  have hc' : ((s.dropped holder h).asset h).contents = some c := by
    rw [hself]
    exact hc
  -- the destructor does no more than to start
  have hcalled : run (fuel + 1) (.destructor { thread := scope.thread, registry := scope.registry }
      h c) ((s.dropped holder h).condemned h) = .ok true ((s.dropped holder h).expired h c) := by
    rw [run_destructor, hplain.1, hplain.2]
    rfl
  have hdestroy : destroy (run (fuel + 1)) scope h (s.dropped holder h) =
      .ok true (s.releasedLast holder scope.registry h c) := by
    rw [destroy_of_whole hwhole' hc', Exec.bind_of_ok hcalled,
      Exec.bind_of_ok (unlink_run scope.registry h _)]
    rfl
  rw [release_of_last hlast, Exec.bind_of_ok hdestroy]
  rfl

theorem State.size_releasedLast (s : State) (holder : Holder) (r : RegistryId) (h : Handle)
    (c : Contents) : (s.releasedLast holder r h c).assets.size = s.assets.size := by
  show ((((s.dropped holder h).expired h c).unlinked r h).modifyAsset h _).assets.size = _
  rw [State.size_modifyAsset, State.assets_unlinked]
  exact (State.size_modifyAsset _ h _).trans (s.size_dropped holder h)

/-- The asset is destroyed, and no other has changed. -/
theorem State.asset_releasedLast (holder : Holder) (r : RegistryId) (c : Contents)
    (hmade : h < s.assets.size) (hlast : (s.asset h).refs = 1) (k : Handle) :
    (s.releasedLast holder r h c).asset k =
      if k = h then
        { s.asset h with
          refs := 0, destroyed := true, contents := none, slot := none, state := .none }
      else s.asset k := by
  have hsize : ((s.dropped holder h).expired h c).assets.size = s.assets.size :=
    (State.size_modifyAsset _ h _).trans (s.size_dropped holder h)
  have hexpired : ((s.dropped holder h).expired h c).asset k =
      if h = k ∧ k < s.assets.size then
        { (s.dropped holder h).asset k with destroyed := true, contents := none }
      else (s.dropped holder h).asset k := by
    have hasset := State.asset_modifyAsset (s.dropped holder h) h k
      fun a => { a with destroyed := true, contents := none }
    rw [s.size_dropped holder h] at hasset
    exact hasset
  show ((((s.dropped holder h).expired h c).unlinked r h).modifyAsset h _).asset k = _
  rw [State.asset_modifyAsset, State.assets_unlinked, State.asset_unlinked, hsize, hexpired]
  by_cases heq : k = h
  · subst heq
    have hself : k = k ∧ k < s.assets.size := ⟨rfl, hmade⟩
    rw [if_pos hself, if_pos hself, if_pos rfl, State.asset_dropped_last holder hmade hlast]
  · have hother : ¬ (h = k ∧ k < s.assets.size) := fun hboth => heq hboth.1.symm
    rw [if_neg hother, if_neg hother, if_neg heq, State.asset_dropped, if_neg hother]

theorem State.history_releasedLast (s : State) (holder : Holder) (r : RegistryId) (h : Handle)
    (c : Contents) :
    (s.releasedLast holder r h c).history = ((s.dropped holder h).expired h c).history := by
  obtain ⟨f, hf⟩ := ((s.dropped holder h).expired h c).unlinked_eq r h
  show ((((s.dropped holder h).expired h c).unlinked r h).modifyAsset h _).history = _
  rw [hf]
  rfl

theorem dropping_releasedLast (holder : Holder) (r : RegistryId) (c : Contents)
    (hmade : h < s.assets.size) (hlast : (s.asset h).refs = 1) :
    Dropping h s (s.releasedLast holder r h c) := by
  have hasset := State.asset_releasedLast holder r c hmade hlast
  -- the last reference goes and with it the asset; every other one is as before
  constructor
  · exact s.size_releasedLast holder r h c
  · intro k hk
    rw [hasset]
    by_cases heq : k = h
    · rw [if_pos heq, if_pos heq, heq, hlast]
      rfl
    · rw [if_neg heq, if_neg heq, Int.sub_zero]
  · intro k
    rw [hasset]
    by_cases heq : k = h
    · rw [heq, if_pos rfl]
      simp [hlast]
    · rw [if_neg heq]
      simp [heq]
  · intro k
    unfold State.endsOf
    rw [State.history_releasedLast]
    by_cases heq : k = h
    · simp [State.expired, State.record, State.modifyAsset, State.dropped, Event.isEndOf, heq, hlast]
    · simp [State.expired, State.record, State.modifyAsset, State.dropped, Event.isEndOf, heq,
        Ne.symm heq]
  · intro k hk
    rw [hasset, if_neg]
    rintro rfl
    exact hk ⟨rfl, hlast⟩

/-- These releases take all references of an asset. -/
def State.Exhausts (s : State) (hs : List Handle) (h : Handle) : Prop :=
  h ∈ hs ∧ (hs.count h : Int) = (s.asset h).refs

instance (s : State) (hs : List Handle) (h : Handle) : Decidable (s.Exhausts hs h) :=
  inferInstanceAs (Decidable (_ ∧ _))

/-- A state can do with these releases: nobody gives up more than there is, and all assets
that are released for the last time have plain contents. -/
structure State.Affords (s : State) (hs : List Handle) : Prop where
  held : ∀ h ∈ hs, (hs.count h : Int) ≤ (s.asset h).refs
  plain : ∀ h, s.Exhausts hs h → (s.asset h).destroyed = false ∧
    ∃ c, (s.asset h).contents = some c ∧ c.IsPlain

variable {r : State} {hs : List Handle} {k : Handle}

theorem State.Affords.lt_size (ha : s.Affords hs) (hk : k ∈ hs) : k < s.assets.size := by
  have hpos := List.count_pos_iff.2 hk
  have hle := ha.held k hk
  exact State.lt_size_of_whole (.inr (by omega))

theorem count_cons_eq_add (h k : Handle) (hs : List Handle) :
    (h :: hs).count k = hs.count k + if k = h then 1 else 0 := by
  by_cases heq : k = h
  · rw [heq, List.count_cons_self, if_pos rfl]
  · rw [List.count_cons_of_ne (Ne.symm heq), if_neg heq, Nat.add_zero]

/-- The first of the releases returns. -/
theorem State.Affords.release (ha : s.Affords (h :: hs)) (fuel : Nat) (scope : Scope)
    (holder : Holder) :
    ∃ r, AssetLoading.release (run (fuel + 1)) scope holder h s = .ok () r ∧ Dropping h s r := by
  have hfirst := ha.held h List.mem_cons_self
  rw [List.count_cons_self] at hfirst
  by_cases hlast : (s.asset h).refs = 1
  · have hnone : hs.count h = 0 := by omega
    obtain ⟨hwhole, c, hc, hplain⟩ := ha.plain h
      ⟨List.mem_cons_self, by rw [List.count_cons_self, hnone, hlast]; rfl⟩
    exact ⟨_, release_of_plain fuel scope holder hlast hwhole hc hplain,
      dropping_releasedLast holder _ c (ha.lt_size List.mem_cons_self) hlast⟩
  · exact ⟨_, release_of_more (by omega), dropping_dropped holder (by omega)⟩

namespace Dropping

/-- After the last reference of an asset no other of the releases is for it. -/
theorem not_exhausts (ha : s.Affords (h :: hs)) (hfirst : k = h ∧ (s.asset h).refs = 1) :
    ¬ r.Exhausts hs k := by
  rintro ⟨hmem, -⟩
  obtain ⟨rfl, hlast⟩ := hfirst
  have hpos := List.count_pos_iff.2 hmem
  have hle := ha.held k List.mem_cons_self
  rw [List.count_cons_self] at hle
  omega

/-- What is exhausted by all releases is so by the first or by the others. -/
theorem exhausts_iff (hr : Dropping h s r) (ha : s.Affords (h :: hs)) (hk : k < s.assets.size) :
    s.Exhausts (h :: hs) k ↔ (k = h ∧ (s.asset h).refs = 1) ∨ r.Exhausts hs k := by
  unfold State.Exhausts
  rw [count_cons_eq_add, hr.refs k hk, List.mem_cons]
  by_cases heq : k = h
  · subst heq
    by_cases hmem : k ∈ hs
    · have hpos := List.count_pos_iff.2 hmem
      have hle := ha.held k List.mem_cons_self
      rw [List.count_cons_self] at hle
      have hone : (s.asset k).refs ≠ 1 := by omega
      simp only [hmem, hone, or_true, true_and, and_false, false_or, if_true]
      omega
    · have hnone := List.count_eq_zero.2 hmem
      simp [hmem, hnone, eq_comm]
  · simp [heq]

/-- After the first release the others can be afforded. -/
theorem affords (hr : Dropping h s r) (ha : s.Affords (h :: hs)) : r.Affords hs := by
  constructor
  · intro k hk
    have hle := ha.held k (List.mem_cons_of_mem h hk)
    rw [count_cons_eq_add] at hle
    rw [hr.refs k (ha.lt_size (List.mem_cons_of_mem h hk))]
    by_cases heq : k = h
    · rw [if_pos heq] at hle ⊢
      omega
    · rw [if_neg heq] at hle ⊢
      omega
  · intro k hk
    have hknown := ha.lt_size (List.mem_cons_of_mem h hk.1)
    have hnot : ¬ (k = h ∧ (s.asset h).refs = 1) := fun hboth => not_exhausts ha hboth hk
    obtain ⟨hwhole, hc⟩ := ha.plain k ((hr.exhausts_iff ha hknown).2 (.inr hk))
    refine ⟨?_, ?_⟩
    · rw [← Bool.not_eq_true, hr.destroyed, hwhole]
      simp [hnot]
    · rw [hr.contents k hnot]
      exact hc

end Dropping

/-- A row of releases that can be afforded returns, and destroys the assets that it
exhausts. -/
theorem releaseAll_returns (fuel : Nat) (scope : Scope) (holder : Holder) (ha : s.Affords hs) :
    ∃ t, releaseAll (run (fuel + 1)) scope holder hs s = .ok () t ∧ ∀ k, k < s.assets.size →
      (t.asset k).refs = (s.asset k).refs - hs.count k ∧
      ((t.asset k).destroyed = true ↔ (s.asset k).destroyed = true ∨ s.Exhausts hs k) ∧
      t.endsOf k = s.endsOf k + if s.Exhausts hs k then 1 else 0 := by
  -- on the references: one release, then the others from where it leaves things
  induction hs generalizing s with
  | nil =>
    refine ⟨s, rfl, fun k _ => ?_⟩
    simp [State.Exhausts]
  | cons h hs ih =>
    obtain ⟨r, hrun, hr⟩ := ha.release fuel scope holder
    obtain ⟨t, hrest, ht⟩ := ih (hr.affords ha)
    refine ⟨t, ?_, fun k hk => ?_⟩
    · unfold releaseAll
      rw [Exec.bind_of_ok hrun, hrest]
    · obtain ⟨hrefs, hdestroyed, hends⟩ := ht k (hr.size.symm ▸ hk)
      have hexhausts := hr.exhausts_iff ha hk
      refine ⟨?_, ?_, ?_⟩
      · rw [hrefs, hr.refs k hk, count_cons_eq_add]
        split
        next => omega
        next => simp
      · rw [hdestroyed, hr.destroyed, hexhausts, or_assoc]
      · rw [hends, hr.ends]
        -- an asset destroyed by this release has nothing left for the others to exhaust
        by_cases hboth : k = h ∧ (s.asset h).refs = 1
        · rw [if_pos hboth, if_neg (Dropping.not_exhausts ha hboth), if_pos (hexhausts.2 (.inl hboth))]
        · simp only [hexhausts, hboth, if_false, false_or, Nat.add_zero]

end Releasing

end AssetLoading
