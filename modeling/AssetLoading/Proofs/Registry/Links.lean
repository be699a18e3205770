import AssetLoading.Proofs.References.Lifetime
import AssetLoading.Proofs.Registry.Linkage

/-! # Links that last

  Some laws hold for all registries, also for those that are made for a piece of code:
  their links are sound, and a link lasts as long as its asset is not destroyed, under
  the slot that the asset knows. Nothing is said of which registry links an asset.
-/

namespace AssetLoading

/-- A new registry is as empty as one that was never made. -/
theorem State.registry_newRegistry (s : State) (q : RegistryId) :
    ({ s with registries := s.registries.push {} } : State).registry q = s.registry q := by
  unfold State.registry
  rw [Array.getElem?_push]
  split
  next hq => rw [hq, Array.getElem?_eq_none (Nat.le_refl _)]; rfl
  next => rfl

/-- The registry that a new asset was linked in. -/
theorem State.registry_inserted {s : State} {r : RegistryId} (hr : r < s.registries.size)
    (kind : Kind) (key : Key) (slot : Slot) (linked : Arena Handle) :
    (s.inserted r kind key slot linked).registry r = { s.registry r with linked := linked } := by
  show (State.modifyRegistry _ r fun reg => { reg with linked }).registry r = _
  rw [State.registry_modifyRegistry, if_pos ⟨rfl, hr⟩]
  rfl

/-! ### Sound links -/

/-- The links of every registry are sound. -/
def State.SoundLinks (s : State) : Prop :=
  ∀ r, (s.registry r).linked.Sound

theorem State.arenas_modifyRegistry {P : Arena Handle → Prop} {s : State} {r : RegistryId}
    {f : Registry → Registry} (hs : ∀ q, P (s.registry q).linked)
    (hf : P (f (s.registry r)).linked) (q : RegistryId) :
    P ((s.modifyRegistry r f).registry q).linked := by
  rw [State.registry_modifyRegistry]
  split
  next hq =>
    rw [← hq.1]
    exact hf
  next => exact hs q

theorem State.SoundLinks.modifyRegistry {s : State} (hs : s.SoundLinks) {r : RegistryId}
    {f : Registry → Registry} (hf : (f (s.registry r)).linked.Sound) :
    (s.modifyRegistry r f).SoundLinks :=
  State.arenas_modifyRegistry hs hf

section Arenas

variable {P : Arena Handle → Prop} (hP : Arena.IsKept P) {m n : Moment}

include hP

/-- What storing an element and taking one out preserve is preserved for every registry. -/
theorem AssetMove.keeps_arenas (h : AssetMove m n) (hm : ∀ r, P (m.state.registry r).linked)
    (q : RegistryId) : P (n.state.registry q).linked := by
  cases h with
  | doom r h => exact State.arenas_modifyRegistry hm (hm r) q
  | flush r => exact State.arenas_modifyRegistry hm (hm r) q
  | countNames r n => exact State.arenas_modifyRegistry hm (hm r) q
  | unlink r h k slot linked hslot hget htake =>
    exact State.arenas_modifyRegistry hm (hP.take? (hm r) htake) q
  | @insert u s r kind key slot linked hr hfree hpush =>
    have hs (q : RegistryId) : P (State.registry { s with
        assets := s.assets.push { Asset.fresh kind key with slot := some slot } } q).linked := hm q
    exact State.arenas_modifyRegistry hs (hP.push (hm r) hpush) q
  | @newRegistry u s =>
    rw [s.registry_newRegistry]
    exact hm q
  | _ => exact hm q

theorem Move.keeps_arenas (h : Move m n) (hm : ∀ r, P (m.state.registry r).linked)
    (q : RegistryId) : P (n.state.registry q).linked := by
  rcases h.asset_or_same with hasset | ⟨hsame, -⟩
  · exact hasset.keeps_arenas hP hm q
  · rw [hsame.registry]
    exact hm q

theorem Occurs.arenas {c : Scene} (hc : Occurs c) (q : RegistryId) :
    P (c.state.registry q).linked := by
  revert q
  refine hc.moves_invariant (P := fun m => ∀ q, P (m.state.registry q).linked) (fun p r => ?_)
    fun m n hmove => hmove.keeps_arenas hP
  -- a session starts with one registry, which is empty
  have hempty : (p.start.registry r).linked = {} := by
    have hone : p.start.registries = #[{}] := by
      unfold Session.start
      dsimp only
      split <;> rfl
    unfold State.registry
    rw [hone]
    cases r <;> rfl
  rw [hempty]
  exact hP.empty

end Arenas

theorem Move.soundLinks {m n : Moment} (h : Move m n) (hm : m.state.SoundLinks) :
    n.state.SoundLinks :=
  h.keeps_arenas Arena.isKept_sound hm

theorem Occurs.soundLinks {c : Scene} (hc : Occurs c) : c.state.SoundLinks :=
  hc.arenas Arena.isKept_sound

/-- The registries that code can work with exist. -/
theorem Occurs.lt_of_serves {c : Scene} (hc : Occurs c) {r : RegistryId}
    (hr : Serves c.underWay r) : r < c.state.registries.size := by
  have hlinkage := hc.expiring.1
  rcases hr with rfl | hwithin
  · exact hlinkage.first
  · exact hlinkage.serving r hwithin

/-! ### Links last -/

/-- A slot of a registry leads to an asset. -/
def State.LinksAt (s : State) (q : RegistryId) (slot : Slot) (h : Handle) : Prop :=
  (s.registry q).linked.get? slot = some h

theorem State.LinksAt.modifyRegistry {s : State} {q r : RegistryId} {slot : Slot} {h : Handle}
    (hs : s.LinksAt q slot h) {f : Registry → Registry}
    (hf : r = q → (f (s.registry q)).linked.get? slot = some h) :
    (s.modifyRegistry r f).LinksAt q slot h := by
  unfold State.LinksAt
  rw [State.registry_modifyRegistry]
  split
  next hr => exact hf hr.1
  next => exact hs

/-- A link stays where it is, unless the asset is destroyed. -/
theorem AssetMove.linksAt {m n : Moment} (h : AssetMove m n) (hsound : m.state.SoundLinks)
    (hdying : DyingAreGone m) {q : RegistryId} {slot : Slot} {k : Handle}
    (hk : m.state.LinksAt q slot k) : n.state.Gone k ∨ n.state.LinksAt q slot k := by
  cases h with
  | doom r h => exact .inr (hk.modifyRegistry fun _ => hk)
  | flush r => exact .inr (hk.modifyRegistry fun _ => hk)
  | countNames r i => exact .inr (hk.modifyRegistry fun _ => hk)
  | unlink r h l slot' linked hslot hget htake =>
    -- the link that is taken out is that of an asset whose destruction is under way
    obtain rfl : h = l := Option.some.inj (hget.symm.trans (Arena.take?_eq_some htake).1)
    by_cases hkh : k = h
    · rw [hkh]
      exact .inl (hdying h List.mem_cons_self)
    · refine .inr (hk.modifyRegistry ?_)
      rintro rfl
      exact Arena.get?_take?_of_ne htake hk hkh
  | @insert u s r kind key slot' linked hr hfree hpush =>
    have hs : State.LinksAt { s with
        assets := s.assets.push { Asset.fresh kind key with slot := some slot' } } q slot k := hk
    refine .inr (hs.modifyRegistry ?_)
    rintro rfl
    exact (hsound r).get?_push_of_get? hpush hk
  | @newRegistry u s =>
    refine .inr ?_
    unfold State.LinksAt
    rw [s.registry_newRegistry]
    exact hk
  | _ => exact .inr hk

/-- An asset keeps its slot, unless it is destroyed. -/
theorem AssetMove.slot_eq {m n : Moment} (h : AssetMove m n) (hdying : DyingAreGone m) {k : Handle}
    (hk : k < m.state.assets.size) :
    n.state.Gone k ∨ (n.state.asset k).slot = (m.state.asset k).slot := by
  have hkept {s : State} {h : Handle} {f : Asset → Asset}
      (hf : (f (s.asset h)).slot = (s.asset h).slot) :
      ((s.modifyAsset h f).asset k).slot = (s.asset k).slot := by
    rw [State.asset_modifyAsset]
    split
    next heq => rw [← heq.1, hf]
    next => rfl
  cases h with
  | take holder h => exact .inr (hkept (f := fun a => { a with refs := a.refs + 1 }) rfl)
  | revive holder h => exact .inr (hkept (f := fun a => { a with refs := a.refs + 1 }) rfl)
  | drop holder h => exact .inr (hkept (f := fun a => { a with refs := a.refs - 1 }) rfl)
  | beginDestroy h c => exact .inr (hkept rfl)
  | redestroy h => exact .inr (hkept rfl)
  | @endDestroy u s h =>
    -- only the end of a destruction takes a slot away, from an asset that is gone
    by_cases hkh : k = h
    · have hgone := hdying h List.mem_cons_self
      rw [hkh]
      refine .inl ⟨?_, ?_⟩
      · rw [State.size_modifyAsset]
        exact hgone.1
      · rw [State.asset_modifyAsset, if_pos ⟨rfl, hgone.1⟩]
        exact hgone.2
    · refine .inr ?_
      rw [State.asset_modifyAsset, if_neg fun heq => hkh heq.1.symm]
  | insert r kind key slot linked =>
    refine .inr ?_
    rw [State.asset_inserted, if_neg (Nat.ne_of_lt hk)]
  | rekey r h key => exact .inr (hkept rfl)
  | edit h f hf => exact .inr (hkept (by rw [hf.1]))
  | _ => exact .inr rfl

/-- As long as an asset is not destroyed it keeps its slot and its links. -/
theorem Moves.keeps_links {m n : Moment} (hmn : Moves m n) (hsound : m.state.SoundLinks)
    (hdying : DyingAreGone m) {k : Handle} (hk : k < m.state.assets.size)
    (hwhole : (n.state.asset k).destroyed = false) :
    (n.state.asset k).slot = (m.state.asset k).slot ∧
      ∀ q slot, m.state.LinksAt q slot k → n.state.LinksAt q slot k := by
  have hkept : (n.state.SoundLinks ∧ DyingAreGone n ∧ k < n.state.assets.size) ∧
      (n.state.Gone k ∨ (n.state.asset k).slot = (m.state.asset k).slot ∧
        ∀ q slot, m.state.LinksAt q slot k → n.state.LinksAt q slot k) := by
    -- by induction on the moves: the asset is gone for good, or still linked as it was
    refine hmn.preserve (P := fun l => (l.state.SoundLinks ∧ DyingAreGone l ∧ k < l.state.assets.size) ∧
      (l.state.Gone k ∨ (l.state.asset k).slot = (m.state.asset k).slot ∧
        ∀ q slot, m.state.LinksAt q slot k → l.state.LinksAt q slot k)) ?_
      ⟨⟨hsound, hdying, hk⟩, .inr ⟨rfl, fun _ _ => id⟩⟩
    rintro l l' hmove ⟨⟨hsound, hdying, hk⟩, hl⟩
    refine ⟨⟨hmove.soundLinks hsound, hdying.move hmove, ?_⟩, ?_⟩
    · exact Nat.lt_of_lt_of_le hk hmove.size_le
    · rcases hl with hgone | ⟨hslot, hlinks⟩
      · exact .inl (Moves.gone (.single hmove) hgone)
      · rcases hmove.asset_or_same with hasset | ⟨hsame, -⟩
        · rcases hasset.slot_eq hdying hk with hgone | hsameSlot
          · exact .inl hgone
          · by_cases hgone : l'.state.Gone k
            · exact .inl hgone
            · refine .inr ⟨hsameSlot.trans hslot, fun q slot hq => ?_⟩
              exact (hasset.linksAt hsound hdying (hlinks q slot hq)).resolve_left hgone
        · refine .inr ⟨?_, fun q slot hq => ?_⟩
          · rw [hsame.asset, hslot]
          · unfold State.LinksAt
            rw [hsame.registry]
            exact hlinks q slot hq
  refine hkept.2.resolve_left fun hgone => ?_
  rw [hgone.2] at hwhole
  cases hwhole

end AssetLoading
