import AssetLoading.Proofs.Registry.Addresses
import AssetLoading.Proofs.Registry.Roster

/-! # Lookups find what lives

  While the scheduler's registry is the only one, it links an asset from the moment it
  is made until its destruction has ended, also while its destructor runs and whatever
  that does to other assets. The end of a destruction takes out one link and leaves all
  others where they are, in places that may be used again.

  So lookups miss nothing and invent nothing: they find an asset exactly if a live one
  has the id and the category, and one is made exactly if nothing was found
  (`registry_links_until_buried`).
-/

namespace AssetLoading

/-! ### The end of a destruction -/

/-- An asset that was destroyed, and whose destruction has ended. -/
def Moment.Buried (m : Moment) (h : Handle) : Prop :=
  (m.state.asset h).destroyed = true ∧ h ∉ m.dying

instance (m : Moment) (h : Handle) : Decidable (m.Buried h) :=
  inferInstanceAs (Decidable (_ ∧ _))

/-- An asset keeps its link as long as its destructor runs, and then loses its slot. -/
structure Departing (m : Moment) : Prop where
  /-- A destructor runs for an asset that is linked. -/
  linked : ∀ h ∈ m.dying, m.state.IsLinked h
  /-- It runs once. -/
  once : m.dying.Nodup
  /-- When it has ended, the asset knows no slot. -/
  buried : ∀ h, m.Buried h → (m.state.asset h).slot = none

section Unlinking

variable {u : List Activity} {s : State} {h : Handle}

/-- Where an asset is linked, unlinking it leaves the list of all links without it. -/
theorem State.linked_unlinked (hfirst : 0 < s.registries.size) (hnodup : (s.linked 0).Nodup)
    (hlinked : s.IsLinked h) : (s.unlinked 0 h).linked 0 = (s.linked 0).erase h := by
  obtain ⟨slot, hslot, hget⟩ := hlinked
  obtain ⟨i, hi, hplace⟩ := Arena.get?_eq_some.1 hget
  obtain ⟨front, back, hold, hnew⟩ :=
    Arena.toList_modify (f := fun p => ⟨p.generation + 1, none⟩) hplace
  have hbefore : s.linked 0 = front.filterMap Arena.Place.content ++
      h :: back.filterMap Arena.Place.content := by
    unfold State.linked Arena.toList
    rw [hold, List.filterMap_append, List.filterMap_cons]
  have hafter : (s.unlinked 0 h).linked 0 = front.filterMap Arena.Place.content ++
      back.filterMap Arena.Place.content := by
    unfold State.unlinked
    simp only [hslot, if_pos hget]
    simp only [Arena.take?, hi, hget, State.linked, State.registry_modifyRegistry, hfirst, and_self,
      if_true, Arena.toList, hnew, List.filterMap_append, List.filterMap_cons]
  rw [hafter, hbefore]
  rw [hbefore] at hnodup
  have hfront : h ∉ front.filterMap Arena.Place.content := by
    intro hmem
    exact (List.nodup_append.1 hnodup).2.2 h hmem h List.mem_cons_self rfl
  rw [List.erase_append_right _ hfront, List.erase_cons_head]

/-- Every other asset stays linked under its slot. -/
theorem State.IsLinked.unlinked {k : Handle} (hfirst : 0 < s.registries.size) (hk : s.IsLinked k)
    (hne : k ≠ h) : (s.unlinked 0 h).IsLinked k := by
  unfold State.unlinked
  split
  next => exact hk
  next slot hslot =>
    split
    next hget =>
      split
      next => exact hk
      next l linked htake =>
        -- the link that is taken out is that of `h`
        obtain rfl : l = h := Option.some.inj ((Arena.take?_eq_some htake).1.symm.trans hget)
        obtain ⟨slot', hslot', hget'⟩ := hk
        refine ⟨slot', hslot', ?_⟩
        rw [State.registry_modifyRegistry, if_pos ⟨rfl, hfirst⟩]
        exact Arena.get?_take?_of_ne htake hget' hne
    next => exact hk

end Unlinking

/-! ### Every stride -/

namespace Departing

variable {m n : Moment} {u : List Activity} {s : State} {h : Handle}

theorem start (p : Session) : Departing ⟨[], p.start⟩ := by
  unfold Session.start
  constructor <;> dsimp only <;> split <;>
    simp [Moment.dying, Moment.Buried, State.record, State.asset, Asset.absent]

theorem kept (hm : Departing m) (hmn : m.KeepsLinks n) (hdying : n.dying = m.dying) :
    Departing n := by
  constructor
  · intro k hk
    rw [hdying] at hk
    unfold State.IsLinked
    rw [hmn.slot, hmn.linked]
    exact hm.linked k hk
  · rw [hdying]
    exact hm.once
  · intro k hk
    unfold Moment.Buried at hk
    rw [hmn.destroyed, hdying] at hk
    rw [hmn.slot]
    exact hm.buried k hk

/-- An asset is linked when its destructor starts. -/
theorem expired (hm : Departing ⟨u, s⟩) (hgone : DyingAreGone ⟨u, s⟩) (hlinked : s.IsLinked h)
    (hwhole : (s.asset h).destroyed = false) (c : Contents) :
    Departing ⟨.destroying h :: u, s.expired h c⟩ := by
  have hasset (k : Handle) : (s.expired h c).asset k =
      if h = k ∧ k < s.assets.size then { s.asset k with destroyed := true, contents := none }
      else s.asset k :=
    State.asset_modifyAsset s h k _
  have hslot (k : Handle) : ((s.expired h c).asset k).slot = (s.asset k).slot := by
    rw [hasset]
    split <;> rfl
  -- whole until now, so it was not among the dying ones
  have hnew : h ∉ (⟨u, s⟩ : Moment).dying := by
    intro hmem
    have hdestroyed := (hgone h (Moment.mem_dying.1 hmem)).2
    change (s.asset h).destroyed = true at hdestroyed
    rw [hwhole] at hdestroyed
    cases hdestroyed
  constructor
  · intro k hk
    have hbefore : s.IsLinked k := by
      rcases List.mem_cons.1 hk with rfl | hk
      · exact hlinked
      · exact hm.linked k hk
    unfold State.IsLinked
    rw [hslot]
    exact hbefore
  · exact List.nodup_cons.2 ⟨hnew, hm.once⟩
  · rintro k ⟨hdestroyed, hnot⟩
    have hne : k ≠ h := fun heq => hnot (heq ▸ List.mem_cons_self)
    have hold : k ∉ (⟨u, s⟩ : Moment).dying := fun hmem => hnot (List.mem_cons_of_mem _ hmem)
    change ((s.expired h c).asset k).destroyed = true at hdestroyed
    rw [hasset, if_neg fun heq => hne heq.1.symm] at hdestroyed
    show ((s.expired h c).asset k).slot = none
    rw [hslot]
    exact hm.buried k ⟨hdestroyed, hold⟩

/-- Only the asset whose destruction ends loses its link and its slot. -/
theorem gone (hm : Departing ⟨.destroying h :: u, s⟩) (hfirst : 0 < s.registries.size)
    (hmade : h < s.assets.size) : Departing ⟨u, s.buried 0 h⟩ := by
  have hasset (k : Handle) : (s.buried 0 h).asset k =
      if k = h then { s.asset h with slot := none, state := .none } else s.asset k := by
    rw [State.buried, State.asset_modifyAsset, State.assets_unlinked, State.asset_unlinked]
    by_cases hk : k = h
    · rw [if_pos hk, if_pos ⟨hk.symm, hk ▸ hmade⟩, hk]
    · rw [if_neg hk, if_neg fun heq => hk heq.1.symm]
  have hnodup := List.nodup_cons.1 hm.once
  -- the asset leaves the dying ones and its slot at once; the others keep both
  constructor
  · intro k hk
    have hne : k ≠ h := fun heq => hnodup.1 (heq ▸ hk)
    have hbefore : s.IsLinked k := hm.linked k (List.mem_cons_of_mem _ hk)
    have hstill := hbefore.unlinked hfirst hne
    unfold State.IsLinked at hstill ⊢
    rw [hasset, if_neg hne]
    rw [State.asset_unlinked] at hstill
    exact hstill
  · exact hnodup.2
  · rintro k ⟨hdestroyed, hnot⟩
    show ((s.buried 0 h).asset k).slot = none
    change ((s.buried 0 h).asset k).destroyed = true at hdestroyed
    rw [hasset] at hdestroyed ⊢
    by_cases hk : k = h
    · rw [if_pos hk]
    · rw [if_neg hk] at hdestroyed ⊢
      refine hm.buried k ⟨hdestroyed, fun hmem => ?_⟩
      rcases List.mem_cons.1 hmem with heq | hmem
      · exact hk heq
      · exact hnot hmem

/-- A new asset leaves the links of those that are on their way out alone. -/
theorem inserted (hm : Departing ⟨u, s⟩) (hgone : DyingAreGone ⟨u, s⟩) (hlinkage : Linkage ⟨u, s⟩)
    (hsole : s.Sole) {kind : Kind} {key : Key} {slot : Slot} {linked : Arena Handle}
    (hpush : (s.registry 0).linked.push s.assets.size = .ok (slot, linked)) :
    Departing ⟨u, s.inserted 0 kind key slot linked⟩ := by
  have hregistry : ((s.inserted 0 kind key slot linked).registry 0).linked = linked := by
    show ((State.modifyRegistry _ 0 fun reg => { reg with linked }).registry 0).linked = linked
    rw [State.registry_modifyRegistry, if_pos ⟨rfl, hlinkage.first⟩]
  -- nothing that is dying is new, so a push leaves its link and its slot alone
  constructor
  · intro k hk
    have hmade : k < s.assets.size := (hgone k (Moment.mem_dying.1 hk)).1
    obtain ⟨slot', hslot', hget'⟩ := hm.linked k hk
    refine ⟨slot', ?_, ?_⟩
    · rw [State.asset_inserted, if_neg (Nat.ne_of_lt hmade)]
      exact hslot'
    · rw [hregistry]
      exact (hlinkage.sound hsole).get?_push_of_get? hpush hget'
  · exact hm.once
  · rintro k ⟨hdestroyed, hnot⟩
    show ((s.inserted 0 kind key slot linked).asset k).slot = none
    change ((s.inserted 0 kind key slot linked).asset k).destroyed = true at hdestroyed
    rw [State.asset_inserted] at hdestroyed ⊢
    by_cases hk : k = s.assets.size
    · rw [if_pos hk] at hdestroyed
      cases hdestroyed
    · rw [if_neg hk] at hdestroyed ⊢
      exact hm.buried k ⟨hdestroyed, hnot⟩

theorem linkStride (hm : Departing m) (hgone : DyingAreGone m) (hlinkage : Linkage m)
    (hsole : m.state.Sole) (h : LinkStride m n) : Departing n := by
  cases h with
  | kept hkept hdying => exact hm.kept hkept hdying
  | @expired m u s h c hwhole hkept hdying =>
    -- whatever is destroyed now was linked before
    have hgone' : DyingAreGone ⟨u, s⟩ := by
      intro k hk
      rw [← Moment.mem_dying, hdying, Moment.mem_dying] at hk
      obtain ⟨hmade, hdestroyed⟩ := hgone k hk
      exact ⟨hkept.size ▸ hmade, (hkept.destroyed k).trans hdestroyed⟩
    have hmade : h < m.state.assets.size := hkept.size ▸ State.lt_size_of_whole (.inl hwhole)
    have hlinked : s.IsLinked h := by
      have hbefore := hlinkage.linked hsole h hmade ((hkept.destroyed h).symm.trans hwhole)
      unfold State.IsLinked at hbefore ⊢
      rw [← hkept.slot, ← hkept.linked] at hbefore
      exact hbefore
    exact (hm.kept hkept hdying).expired hgone' hlinked hwhole c
  | buried h => exact hm.gone hlinkage.first (hgone h List.mem_cons_self).1
  | inserted kind key slot linked hpush => exact hm.inserted hgone hlinkage hsole hpush

end Departing

theorem Occurs.departing {c : Scene} (hc : Occurs c) (hsole : c.state.Sole) :
    Departing c.toMoment := by
  refine hc.invariant (P := fun c => c.state.Sole → Departing c.toMoment)
    (fun p _ => Departing.start p) (fun c d hc h hm hstill => ?_) hsole
  have hbefore := h.moves.sole ⟨hc.reckoned, hc.expiring.1⟩ hstill
  exact (hm hbefore).linkStride hc.reckoned.dying hc.expiring.1 hbefore
    (h.links hc.expiring.1 hc.expiring.2 hbefore hstill)

/-! ### Lookups -/

section Lookups

variable {s : State} {r : RegistryId} {id : AssetId} {category : Category}

/-- What a lookup for a reference comes to: the asset that a plain lookup finds has one
reference more, and nothing else happens. -/
theorem findAddref_run : findAddref r id category s =
    .ok (s.find? r id category) ((s.find? r id category).elim s (s.took .client)) := by
  unfold findAddref
  rw [Exec.get_bind]
  cases s.find? r id category <;> rfl

/-- What was found is not made again. -/
theorem findOrCreate_of_find? {kind : Kind} {key : Key} {h : Handle}
    (hfind : s.find? r key.id kind.category = some h) :
    findOrCreate r kind key s = .ok (.found, h) (s.took .client h) := by
  unfold findOrCreate
  show EStateM.bind _ _ s = _
  rw [EStateM.bind, findAddref_run, hfind]
  rfl

/-- What making an asset comes to. -/
theorem insertAsset_run (kind : Kind) (key : Key) : insertAsset r kind key s =
    match (s.registry r).linked.push s.assets.size with
    | .error e => .error (.panic (.slot e)) s
    | .ok (slot, linked) => .ok s.assets.size (s.inserted r kind key slot linked) := by
  unfold insertAsset
  rw [Exec.get_bind]
  cases (s.registry r).linked.push s.assets.size <;> rfl

/-- Where nothing is found a new asset is made, unless the registry has no room for it. -/
theorem findOrCreate_of_find?_eq_none {kind : Kind} {key : Key}
    (hfind : s.find? r key.id kind.category = none) :
    (∃ e, (s.registry r).linked.push s.assets.size = .error e ∧
      findOrCreate r kind key s = .error (.panic (.slot e)) s) ∨
    ∃ slot linked fields, (s.registry r).linked.push s.assets.size = .ok (slot, linked) ∧
      findOrCreate r kind key s = .ok (.created, s.assets.size)
        ((s.inserted r kind key slot linked).record (.logged .trace "Created asset" fields)) := by
  have hrun : findOrCreate r kind key s = (do
      let h ← insertAsset r kind key
      log .trace "Created asset"
        [("asset", .text (← getAsset h).displayName), ("ty", .text kind.category.name)]
      pure (Lookup.created, h)) s := by
    unfold findOrCreate
    show EStateM.bind _ _ s = _
    rw [EStateM.bind, findAddref_run, hfind]
    rfl
  rw [hrun]
  -- all that can go wrong now is that the arena has no place left
  cases hpush : (s.registry r).linked.push s.assets.size with
  | error e =>
    refine .inl ⟨e, rfl, ?_⟩
    show EStateM.bind _ _ s = _
    rw [EStateM.bind, insertAsset_run, hpush]
  | ok placed =>
    obtain ⟨slot, linked⟩ := placed
    refine .inr ⟨slot, linked, [("asset", .text
      ((s.inserted r kind key slot linked).asset s.assets.size).displayName),
      ("ty", .text kind.category.name)], rfl, ?_⟩
    show EStateM.bind _ _ s = _
    rw [EStateM.bind, insertAsset_run, hpush]
    rfl

end Lookups

/-! ### The law -/

/-- What can be said of the only registry and its lookups. -/
structure Registered (c : Scene) : Prop where
  /-- The linked assets are those whose destruction has not ended, -/
  linked : ∀ h, h ∈ c.state.linked 0 ↔ h < c.state.assets.size ∧ ¬ c.Buried h
  /-- each is linked once, -/
  nodup : (c.state.linked 0).Nodup
  /-- and its slot leads to it. -/
  known : ∀ h ∈ c.state.linked 0, c.state.IsLinked h
  /-- The others have no slot. -/
  unknown : ∀ h, c.Buried h → (c.state.asset h).slot = none
  /-- So the number of links is that of the assets that were made, less those whose
  destruction has ended. -/
  counted : (c.state.registry 0).linked.size +
    ((List.range c.state.assets.size).filter fun h => decide (c.Buried h)).length =
      c.state.assets.size
  /-- The end of a destruction takes out the link of its asset and leaves the others. -/
  unlinks : ∀ h u, c.underWay = .destroying h :: u → ∃ t, unlink 0 h c.state = .ok () t ∧
    t.assets = c.state.assets ∧ t.linked 0 = (c.state.linked 0).erase h ∧
      ∀ k, k ≠ h → c.state.IsLinked k → t.IsLinked k
  /-- A lookup finds a live asset with the id and the category, -/
  found : ∀ id category h, c.state.find? 0 id category = some h →
    h ∈ c.state.linked 0 ∧ (c.state.asset h).id = id ∧ (c.state.asset h).category = category ∧
      0 < (c.state.asset h).refs
  /-- if there is one. -/
  complete : ∀ id category, (c.state.find? 0 id category).isSome ↔
    ∃ h, (c.state.asset h).id = id ∧ (c.state.asset h).category = category ∧
      0 < (c.state.asset h).refs
  /-- A lookup for a reference finds the same and adds one to its count. -/
  referenced : ∀ id category, ∃ t,
    findAddref 0 id category c.state = .ok (c.state.find? 0 id category) t ∧
      ∀ k, t.asset k = if c.state.find? 0 id category = some k then
        { c.state.asset k with refs := (c.state.asset k).refs + 1 } else c.state.asset k
  /-- An asset is made exactly if nothing is found, -/
  created : ∀ kind key lookup h t, findOrCreate 0 kind key c.state = .ok (lookup, h) t →
    (lookup = .created ↔ c.state.find? 0 key.id kind.category = none)
  /-- and this can fail for want of room only. -/
  roomy : ∀ kind key e t, findOrCreate 0 kind key c.state = .error e t →
    ∃ error, e = .panic (.slot error) ∧
      (c.state.registry 0).linked.push c.state.assets.size = .error error

/-- **Links and lookups.** Wherever client code may run, also in a destructor, and
whatever it has done before, as long as the scheduler's registry is the only one. -/
theorem registry_links_until_buried {c : Scene} (hc : Occurs c) (hsole : c.state.Sole) :
    Registered c := by
  have hroster := hc.roster hsole
  have hdeparting := hc.departing hsole
  have hlinkage := hc.expiring.1
  have hreckoned := hc.reckoned
  have hmem (h : Handle) : h ∈ c.state.linked 0 ↔ h < c.state.assets.size ∧ ¬ c.Buried h := by
    constructor
    · intro hh
      refine ⟨hroster.made h hh, fun hburied => ?_⟩
      obtain ⟨slot, hslot, -⟩ := hroster.known h hh
      have hnone := hdeparting.buried h hburied
      rw [hslot] at hnone
      cases hnone
    · rintro ⟨hmade, hnot⟩
      have hlinked : c.state.IsLinked h := by
        by_cases hdying : h ∈ c.dying
        · exact hdeparting.linked h hdying
        · refine hlinkage.linked hsole h hmade ?_
          rw [← Bool.not_eq_true]
          exact fun hdestroyed => hnot ⟨hdestroyed, hdying⟩
      obtain ⟨slot, -, hget⟩ := hlinked
      exact Arena.mem_toList_of_get? hget
  -- a live asset is not destroyed, so it is linked
  have hlive (h : Handle) (hrefs : 0 < (c.state.asset h).refs) : h ∈ c.state.linked 0 := by
    have hmade := State.lt_size_of_whole (.inr hrefs)
    refine (hmem h).2 ⟨hmade, fun hburied => ?_⟩
    have hnone := hreckoned.balanced.destroyed h hmade hburied.1
    omega
  have hfound (id : AssetId) (category : Category) (h : Handle)
      (hfind : c.state.find? 0 id category = some h) :
      h ∈ c.state.linked 0 ∧ (c.state.asset h).id = id ∧ (c.state.asset h).category = category ∧
        0 < (c.state.asset h).refs :=
    ⟨List.mem_of_find?_eq_some hfind, State.answersTo_iff.1 (List.find?_some hfind)⟩
  constructor
  · exact hmem
  · exact hroster.nodup
  · exact hroster.known
  · exact hdeparting.buried
  · -- both sides of the count are about the assets that were made
    have hperm : (c.state.linked 0).Perm
        ((List.range c.state.assets.size).filter fun h => !decide (c.Buried h)) := by
      refine (List.perm_ext_iff_of_nodup hroster.nodup (List.nodup_range.filter _)).2 fun h => ?_
      rw [hmem, List.mem_filter, List.mem_range]
      simp
    have hsplit := List.length_eq_length_filter_add (l := List.range c.state.assets.size)
      fun h => decide (c.Buried h)
    rw [List.length_range] at hsplit
    rw [hroster.counted, hperm.length_eq]
    exact (Nat.add_comm _ _).trans hsplit.symm
  · intro h u hu
    have hdying : h ∈ c.dying := by
      rw [Moment.mem_dying, hu]
      exact List.mem_cons_self
    have hlinked := hdeparting.linked h hdying
    refine ⟨c.state.unlinked 0 h, unlink_run 0 h c.state, c.state.assets_unlinked 0 h, ?_, ?_⟩
    · exact State.linked_unlinked hlinkage.first hroster.nodup hlinked
    · exact fun k hne hk => hk.unlinked hlinkage.first hne
  · exact hfound
  · intro id category
    constructor
    · intro hsome
      obtain ⟨h, hfind⟩ := Option.isSome_iff_exists.1 hsome
      exact ⟨h, (hfound id category h hfind).2⟩
    · rintro ⟨h, hid, hcategory, hrefs⟩
      rw [State.find?, List.find?_isSome]
      exact ⟨h, hlive h hrefs, State.answersTo_iff.2 ⟨hid, hcategory, hrefs⟩⟩
  · intro id category
    refine ⟨_, findAddref_run, fun k => ?_⟩
    cases hfind : c.state.find? 0 id category with
    | none => simp
    | some h =>
      have hmade := State.lt_size_of_whole (.inr (hfound id category h hfind).2.2.2)
      rw [Option.elim_some, State.asset_took]
      by_cases hk : h = k
      · rw [if_pos ⟨hk, hk ▸ hmade⟩, if_pos (congrArg some hk)]
      · rw [if_neg fun heq => hk heq.1, if_neg fun heq => hk (Option.some.inj heq)]
  · intro kind key lookup h t hrun
    cases hfind : c.state.find? 0 key.id kind.category with
    | some k =>
      rw [findOrCreate_of_find? hfind] at hrun
      cases hrun
      simp
    | none =>
      rcases findOrCreate_of_find?_eq_none hfind with ⟨e, -, hfail⟩ | ⟨_, _, _, -, hmade⟩
      · rw [hfail] at hrun
        cases hrun
      · rw [hmade] at hrun
        cases hrun
        simp
  · intro kind key e t hrun
    cases hfind : c.state.find? 0 key.id kind.category with
    | some k =>
      rw [findOrCreate_of_find? hfind] at hrun
      cases hrun
    | none =>
      rcases findOrCreate_of_find?_eq_none hfind with ⟨error, hpush, hfail⟩ | ⟨_, _, _, -, hmade⟩
      · rw [hfail] at hrun
        cases hrun
        exact ⟨error, rfl, hpush⟩
      · rw [hmade] at hrun
        cases hrun

/-- Of three assets the first was destroyed, the second waits for that, and the third
was made under the id of the first, in the place that it had. -/
def placeReused : State :=
  (Session.bare .manual).start.after 4
    [(.main, .findOrCreate "first" (.standard .mesh) (.ofId ⟨1⟩)),
      (.main, .findOrCreate "second" (.standard .mesh) (.ofId ⟨2⟩)),
      (.main, .release (.labelled "first")), (.main, .releaseDeferred (.labelled "second")),
      (.main, .findOrCreate "third" (.standard .mesh) (.ofId ⟨1⟩))]

/-- The destructor of the third starts. -/
def placeLeft : Scene :=
  ⟨⟨[.destroying 2], (placeReused.dropped .client 2).expired 2
    { kind := .standard .mesh, tag := "third" }⟩, []⟩

theorem placeLeft_registered :
    (Occurs ⟨⟨[], placeReused⟩, []⟩ ∧ placeReused.Sole ∧ Registered ⟨⟨[], placeReused⟩, []⟩ ∧
      placeReused.linked 0 = [2, 1] ∧ placeReused.find? 0 ⟨1⟩ .mesh = some 2 ∧
      placeReused.find? 0 ⟨2⟩ .mesh = none) ∧
    (Occurs placeLeft ∧ placeLeft.state.Sole ∧ Registered placeLeft ∧
      placeLeft.state.linked 0 = [2, 1] ∧ placeLeft.state.find? 0 ⟨1⟩ .mesh = none) := by
  have hreused : Occurs ⟨⟨[], placeReused⟩, []⟩ := ((Reached.start _).after 4 _).occurs
  have hone : (placeReused.asset 2).refs = 1 := by decide +kernel
  have hstride : Stride ⟨⟨[], placeReused⟩, []⟩ placeLeft :=
    .asset (.expire 2 _ (.last .client hone) rfl rfl)
  have hleft : Occurs placeLeft := hreused.strides (.single hstride)
  have hsole : placeReused.Sole := by unfold State.Sole; decide +kernel
  have hsole' : placeLeft.state.Sole := by unfold State.Sole; decide +kernel
  exact ⟨⟨hreused, hsole, registry_links_until_buried hreused hsole, by decide +kernel,
    by decide +kernel, by decide +kernel⟩,
    ⟨hleft, hsole', registry_links_until_buried hleft hsole', by decide +kernel,
      by decide +kernel⟩⟩

end AssetLoading
