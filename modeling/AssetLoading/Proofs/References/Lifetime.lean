import AssetLoading.Proofs.References.Conservation
import AssetLoading.Proofs.References.Expiry

/-! # The life of an asset

  An asset is made with one reference. From then on its count is that one and what
  was taken and not dropped since, and it is never negative. Its destructor starts
  once, at zero; from then on it has no reference, none can be taken or dropped
  any more, and no lookup finds it. As long as it is not destroyed but has no
  reference, it waits for its destruction (`life_of_asset`).

  All of this holds wherever client code may run, so also inside destructors, of
  whatever depth.
-/

namespace AssetLoading

/-! ### Taken and dropped -/

/-- `true` if a reference on an asset is taken. -/
def Event.takes (h : Handle) : Event → Bool
  | .took _ k => k == h
  | _ => false

/-- `true` if a reference on an asset is dropped. -/
def Event.drops (h : Handle) : Event → Bool
  | .dropped _ k => k == h
  | _ => false

theorem netOfAll_cons (h : Handle) (e : Event) (history : List Event) :
    netOfAll h (e :: history) =
      netOfAll h history + (if e.takes h then 1 else 0) - if e.drops h then 1 else 0 := by
  have hother (htakes : e.takes h = false) (hdrops : e.drops h = false)
      (hnone : ∀ holder, e.gain holder h = 0) : netOfAll h (e :: history) =
      netOfAll h history + (if e.takes h then 1 else 0) - if e.drops h then 1 else 0 := by
    simp [netOfAll, net_cons, hnone, htakes, hdrops]
  cases e with
  | took holder k =>
    rw [netOfAll_took]
    simp [Event.takes, Event.drops]
  | dropped holder k =>
    rw [netOfAll_dropped]
    simp [Event.takes, Event.drops]
  | _ => exact hother rfl rfl fun _ => rfl

/-- What all holders took and did not drop. -/
theorem netOfAll_eq_counts (h : Handle) (history : List Event) :
    netOfAll h history = history.countP (Event.takes h) - history.countP (Event.drops h) := by
  induction history with
  | nil => rfl
  | cons e history ih =>
    rw [netOfAll_cons, ih, List.countP_cons, List.countP_cons]
    split <;> split <;> omega

/-! ### Since an asset was made -/

/-- A reference of an asset is taken or dropped. -/
def Event.Concerns (h : Handle) (e : Event) : Prop :=
  e.takes h = true ∨ e.drops h = true

theorem Event.Concerns.subject_eq {h : Handle} {e : Event} (he : e.Concerns h) :
    e.subject = .asset := by
  cases e <;> first | rfl | (rcases he with he | he <;> cases he)

/-- The first that happened to the references of an asset is that it was made. -/
structure BornOnce (m : Moment) : Prop where
  /-- It was made. -/
  made : ∀ h, h < m.state.assets.size → ∃ later earlier,
    m.state.history = later ++ .took .client h :: earlier ∧ ∀ e ∈ earlier, ¬ e.Concerns h
  /-- Nothing happened to one that was not made. -/
  unmade : ∀ h, m.state.assets.size ≤ h → ∀ e ∈ m.state.history, ¬ e.Concerns h

namespace BornOnce

variable {m n : Moment}

theorem start (p : Session) : BornOnce ⟨[], p.start⟩ := by
  unfold Session.start
  constructor <;> dsimp only <;> split <;>
    simp [State.record, Event.Concerns, Event.takes, Event.drops]

/-- More happens, but nothing to assets that were not made. -/
theorem extend (hm : BornOnce m) {l : List Event}
    (hsize : n.state.assets.size = m.state.assets.size)
    (hhistory : n.state.history = l ++ m.state.history)
    (hnew : ∀ h, m.state.assets.size ≤ h → ∀ e ∈ l, ¬ e.Concerns h) : BornOnce n := by
  constructor
  · intro h hh
    rw [hsize] at hh
    obtain ⟨later, earlier, hsplit, hearlier⟩ := hm.made h hh
    refine ⟨l ++ later, earlier, ?_, hearlier⟩
    rw [hhistory, hsplit, List.append_assoc]
  · intro h hh e he
    rw [hsize] at hh
    rw [hhistory] at he
    rcases List.mem_append.1 he with he | he
    · exact hnew h hh e he
    · exact hm.unmade h hh e he

/-- Nothing happens. -/
theorem keep (hm : BornOnce m) (hsize : n.state.assets.size = m.state.assets.size)
    (hhistory : n.state.history = m.state.history) : BornOnce n :=
  hm.extend (l := []) hsize hhistory fun _ _ _ he => absurd he List.not_mem_nil

theorem records (hm : BornOnce m) {subject : Subject} (hrecords : Records subject m n)
    (hsubject : subject ≠ .asset) (hsize : n.state.assets.size = m.state.assets.size) :
    BornOnce n := by
  obtain ⟨new, hnew, hhistory⟩ := hrecords
  exact hm.extend hsize hhistory fun h _ e he hconcerns =>
    hsubject ((hnew e he).symm.trans hconcerns.subject_eq)

/-- A reference of an asset that was made is taken or dropped. -/
theorem counted (hm : BornOnce m) {l : List Event} {k : Handle} (hk : k < m.state.assets.size)
    (hsize : n.state.assets.size = m.state.assets.size)
    (hhistory : n.state.history = l ++ m.state.history)
    (hnew : ∀ h, ∀ e ∈ l, e.Concerns h → h = k) : BornOnce n :=
  hm.extend hsize hhistory fun h hh e he hconcerns =>
    absurd hk (Nat.not_lt.2 (hnew h e he hconcerns ▸ hh))

theorem assetMove (hm : BornOnce m) (h : AssetMove m n) : BornOnce n := by
  have htook (holder : Holder) (k h : Handle) (hconcerns : (Event.took holder k).Concerns h) :
      h = k := by
    rcases hconcerns with htakes | hdrops
    · exact (beq_iff_eq.1 htakes).symm
    · cases hdrops
  -- references are only taken and dropped on assets that exist already
  cases h with
  | @take u s holder k hwhole =>
    refine hm.counted (l := [.took holder k]) (State.lt_size_of_whole hwhole) (State.size_took ..)
      rfl fun h e he => ?_
    rw [List.mem_singleton.1 he]
    exact htook holder k h
  | @revive u s holder k hwhole =>
    refine hm.counted (l := [.took holder k, .revived k (s.rival? k)])
      (State.lt_size_of_whole (.inl hwhole)) (State.size_took ..) rfl fun h e he hconcerns => ?_
    rcases List.mem_cons.1 he with rfl | he
    · exact htook holder k h hconcerns
    · rw [List.mem_singleton.1 he] at hconcerns
      rcases hconcerns with hfalse | hfalse <;> cases hfalse
  | @drop u s holder k hsome =>
    refine hm.counted (l := [.dropped holder k]) (State.lt_size_of_whole (.inr hsome))
      (State.size_dropped ..) rfl fun h e he hconcerns => ?_
    rw [List.mem_singleton.1 he] at hconcerns
    rcases hconcerns with htakes | hdrops
    · cases htakes
    · exact (beq_iff_eq.1 hdrops).symm
  | @insert u s r kind key slot linked =>
    have hsize := s.size_inserted r kind key slot linked
    -- the new asset comes with its first reference, and nothing was told of it before
    constructor
    · intro h hh
      change h < (s.inserted r kind key slot linked).assets.size at hh
      rw [hsize] at hh
      by_cases hold : h < s.assets.size
      · obtain ⟨later, earlier, hsplit, hearlier⟩ := hm.made h hold
        refine ⟨.took .client s.assets.size :: later, earlier, ?_, hearlier⟩
        exact congrArg (List.cons _) hsplit
      · obtain rfl : h = s.assets.size := Nat.le_antisymm (Nat.le_of_lt_succ hh) (Nat.not_lt.1 hold)
        exact ⟨[], s.history, rfl, hm.unmade _ (Nat.le_refl _)⟩
    · intro h hh e he
      change (s.inserted r kind key slot linked).assets.size ≤ h at hh
      rw [hsize] at hh
      rcases List.mem_cons.1 he with rfl | he
      · intro hconcerns
        exact absurd (htook _ _ h hconcerns) (Nat.ne_of_gt hh)
      · exact hm.unmade h (Nat.le_of_succ_le hh) e he
  | destructor k tag category value =>
    refine hm.extend (l := [.destroyed k _ tag category value]) rfl rfl fun h _ e he => ?_
    rw [List.mem_singleton.1 he]
    rintro (hfalse | hfalse) <;> cases hfalse
  | beginDestroy k => exact hm.keep (State.size_modifyAsset ..) rfl
  | redestroy k => exact hm.keep (State.size_modifyAsset ..) rfl
  | endDestroy k => exact hm.keep (State.size_modifyAsset ..) rfl
  | rekey r k => exact hm.keep (State.size_modifyAsset ..) rfl
  | edit k => exact hm.keep (State.size_modifyAsset ..) rfl
  | _ => exact hm.keep rfl rfl

theorem move (m n : Moment) (h : Move m n) (hm : BornOnce m) : BornOnce n := by
  cases h with
  | asset h => exact hm.assetMove h
  | body h => exact hm.records h.records nofun (by rw [h.sameAssets.assets])
  | job h => exact hm.records h.records nofun (by rw [h.sameAssets.assets])
  | task h => exact hm.records h.records nofun (by rw [h.sameAssets.assets])
  | notice h =>
    have hrecords : Records .other m n := .none h.history_eq
    exact hm.records hrecords nofun (by rw [h.sameAssets.assets])
  | plain h => exact hm.records h.records nofun (by rw [h.sameAssets.assets])

end BornOnce

/-- No asset is forgotten. -/
theorem Move.size_le {m n : Moment} (h : Move m n) :
    m.state.assets.size ≤ n.state.assets.size := by
  rcases h.asset_or_same with hasset | ⟨hsame, -⟩
  · have hsize (s : State) (h : Handle) (f : Asset → Asset) :
        s.assets.size ≤ (s.modifyAsset h f).assets.size := Nat.le_of_eq (s.size_modifyAsset h f).symm
    cases hasset with
    | insert r kind key slot linked =>
      rw [State.size_inserted]
      exact Nat.le_succ _
    | take | revive | drop | beginDestroy | redestroy | endDestroy | rekey | edit => exact hsize ..
    | _ => exact Nat.le_refl _
  · rw [hsame.assets]

theorem Moves.size_le {m n : Moment} (h : Moves m n) :
    m.state.assets.size ≤ n.state.assets.size := by
  refine Moves.preserve (P := fun k => m.state.assets.size ≤ k.state.assets.size) ?_ h (Nat.le_refl _)
  exact fun k l hmove hk => Nat.le_trans hk hmove.size_le

/-! ### After the end -/

/-- What is destroyed stays destroyed. -/
theorem Moves.gone {m n : Moment} (hmn : Moves m n) {h : Handle} (hm : m.state.Gone h) :
    n.state.Gone h := by
  refine Moves.preserve (P := fun k => k.state.Gone h) (fun k l hmove hk => ?_) hmn hm
  rcases hmove.asset_or_same with hasset | ⟨hsame, -⟩
  · exact hasset.gone hk
  · exact hk.of_assets_eq hsame.assets

/-- No reference can be dropped where there is none. -/
theorem dropRef_of_refs_eq_zero {h : Handle} {s : State} (hh : h < s.assets.size)
    (hnone : (s.asset h).refs = 0) (holder : Holder) :
    dropRef holder h s = .error (.fatal (.releasedTooMany holder h (s.asset h).category
      (s.asset h).displayName (-1) (s.asset h).state)) (s.dropped holder h) := by
  have hasset : (s.dropped holder h).asset h = { s.asset h with refs := -1 } := by
    rw [State.asset_dropped, if_pos ⟨rfl, hh⟩, hnone]
    rfl
  rw [dropRef_run]
  dsimp only
  rw [hasset]
  exact if_pos (by show (-1 : Int) < 0; decide)

/-- The end of an asset is final: it has no reference, now and later, none can be
taken or dropped, and no lookup finds it. -/
structure Scene.EndIsFinal (c : Scene) (h : Handle) : Prop where
  refs : ∀ d, Strides c d → (d.state.asset h).destroyed = true ∧ (d.state.asset h).refs = 0
  addref : ∀ holder, AssetLoading.addref holder h c.state =
    .error (.fatal (.addedToDestroyed holder h (c.state.asset h).category
      (c.state.asset h).displayName)) c.state
  release : ∀ call scope holder, AssetLoading.release call scope holder h c.state =
    .error (.fatal (.releasedTooMany holder h (c.state.asset h).category
      (c.state.asset h).displayName (-1) (c.state.asset h).state)) (c.state.dropped holder h)
  releaseDeferred : ∀ r holder, AssetLoading.releaseDeferred r holder h c.state =
    .error (.fatal (.releasedTooMany holder h (c.state.asset h).category
      (c.state.asset h).displayName (-1) (c.state.asset h).state)) (c.state.dropped holder h)
  lookup : ∀ r id category, c.state.find? r id category ≠ some h

theorem Scene.endIsFinal {c : Scene} {h : Handle} (hgone : c.state.Gone h)
    (hbalanced : ∀ d, Strides c d → Balanced d.toMoment) : c.EndIsFinal h := by
  have hrefs (d : Scene) (hcd : Strides c d) :
      (d.state.asset h).destroyed = true ∧ (d.state.asset h).refs = 0 := by
    have hd : d.state.Gone h := hcd.moves.gone hgone
    exact ⟨hd.2, (hbalanced d hcd).destroyed h hd.1 hd.2⟩
  have hnone := (hrefs c .refl).2
  refine ⟨hrefs, fun holder => ?_, fun call scope holder => ?_, fun r holder => ?_,
    fun r id category hfind => ?_⟩
  · rw [addref_run, if_pos hgone.2]
  · show EStateM.bind (dropRef holder h) _ c.state = _
    rw [EStateM.bind, dropRef_of_refs_eq_zero hgone.1 hnone]
  · show EStateM.bind (dropRef holder h) _ c.state = _
    rw [EStateM.bind, dropRef_of_refs_eq_zero hgone.1 hnone]
  · have hanswers : c.state.answersTo id category h = true := List.find?_some hfind
    simp only [State.answersTo, hnone] at hanswers
    simp at hanswers

/-! ### The law -/

/-- The life of an asset that was made. -/
structure LifeOf (c : Scene) (h : Handle) : Prop where
  /-- Its count is the reference it was made with, and those taken and not dropped
  since. -/
  counted : ∃ later earlier, c.state.history = later ++ .took .client h :: earlier ∧
    (∀ e ∈ earlier, ¬ e.Concerns h) ∧
    (c.state.asset h).refs = 1 + later.countP (Event.takes h) - later.countP (Event.drops h)
  /-- It is never negative. -/
  nonneg : 0 ≤ (c.state.asset h).refs
  /-- Its destructor has started once if it is destroyed, and else not at all. -/
  once : c.state.history.countP (Event.isEndOf h) = if (c.state.asset h).destroyed then 1 else 0
  /-- That was at a moment when it had no reference. -/
  atZero : ∀ refs tag category value, .destroyed h refs tag category value ∈ c.state.history →
    refs = 0
  /-- Its end is final. -/
  final : (c.state.asset h).destroyed = true → c.EndIsFinal h
  /-- While it has no reference and is not destroyed, it waits for that. -/
  awaited : (c.state.asset h).destroyed = false → (c.state.asset h).refs = 0 →
    c.toMoment.Awaits h

theorem Occurs.reckoned {c : Scene} (hc : Occurs c) : Reckoned c.toMoment :=
  hc.moves_invariant Reckoned.start Reckoned.move

/-- No asset is destroyed too early, twice or never. -/
theorem Occurs.expiring {c : Scene} (hc : Occurs c) :
    Linkage c.toMoment ∧ Expiring none c.toMoment := by
  have hlinkage {c : Scene} (hc : Occurs c) : Reckoned c.toMoment ∧ Linkage c.toMoment :=
    hc.moves_invariant (P := fun m => Reckoned m ∧ Linkage m) (fun p => ⟨.start p, .start p⟩)
      fun m n h ⟨hm, hlinkage⟩ => ⟨hm.move m n h, hlinkage.move hm.dying h⟩
  refine ⟨(hlinkage hc).2, ?_⟩
  refine hc.invariant (P := fun c => Expiring none c.toMoment) Expiring.start fun c d hc h hm => ?_
  exact hm.stride hc.reckoned.balanced.nonneg (hlinkage hc).2 h

/-- **The life of an asset.** Wherever client code may run, also in a destructor, and
whatever it has done before. -/
theorem life_of_asset {c : Scene} (hc : Occurs c) {h : Handle} (hh : h < c.state.assets.size) :
    LifeOf c h := by
  have hbalanced {d : Scene} (hd : Occurs d) : Balanced d.toMoment := hd.reckoned.balanced
  have hexpiring := hc.expiring.2
  have hborn : BornOnce c.toMoment := hc.moves_invariant BornOnce.start BornOnce.move
  constructor
  · -- before it was made nothing counted, so the balance begins with its first reference
    obtain ⟨later, earlier, hsplit, hearlier⟩ := hborn.made h hh
    refine ⟨later, earlier, hsplit, hearlier, ?_⟩
    have htakes : earlier.countP (Event.takes h) = 0 :=
      List.countP_eq_zero.2 fun e he htakes => hearlier e he (.inl htakes)
    have hdrops : earlier.countP (Event.drops h) = 0 :=
      List.countP_eq_zero.2 fun e he hdrops => hearlier e he (.inr hdrops)
    have hfirst : Event.takes h (.took .client h) = true := beq_self_eq_true h
    have hfirst' : Event.drops h (.took .client h) = false := rfl
    rw [(hbalanced hc).counted h hh, netOfAll_eq_counts, hsplit, List.countP_append,
      List.countP_append, List.countP_cons, List.countP_cons, htakes, hdrops, hfirst, hfirst']
    simp only [if_true, Bool.false_eq_true, if_false]
    omega
  · exact (hbalanced hc).nonneg h hh
  · show c.state.endsOf h = _
    split
    next hgone => exact hexpiring.once h ⟨hh, hgone⟩
    next hwhole => exact hexpiring.never h fun hgone => hwhole hgone.2
  · intro refs tag category value hmem
    exact hexpiring.zero h refs tag category value (List.mem_filter.2 ⟨hmem, rfl⟩)
  · exact fun hgone => Scene.endIsFinal ⟨hh, hgone⟩ fun d hcd => hbalanced (hc.strides hcd)
  · exact fun hwhole hnone => hexpiring.awaited h nofun hh hwhole hnone

/-- Three assets were made. The destructor of the first left the second to the main
thread; the third still has its reference. -/
def firstEnded : State :=
  (Session.bare .manual).start.after 8
    [(.main, .findOrCreate "first" (.standard .mesh) (.ofId ⟨1⟩)),
      (.main, .findOrCreate "second" (.standard .mesh) (.ofId ⟨2⟩)),
      (.main, .findOrCreate "third" (.standard .mesh) (.ofId ⟨3⟩)),
      (.main, .setOnDestroy (.labelled "first") (.standard .mesh)
        [Op.anyway (.addref (.labelled "second")), Op.anyway (.release (.labelled "second")),
          Op.anyway (.releaseDeferred (.labelled "second"))]),
      (.main, .release (.labelled "first"))]

theorem firstEnded_lives :
    Occurs ⟨⟨[], firstEnded⟩, []⟩ ∧
      ((0 < firstEnded.assets.size ∧ (firstEnded.asset 0).destroyed = true) ∧
        LifeOf ⟨⟨[], firstEnded⟩, []⟩ 0) ∧
      ((1 < firstEnded.assets.size ∧ (firstEnded.asset 1).destroyed = false ∧
        (firstEnded.asset 1).refs = 0) ∧ LifeOf ⟨⟨[], firstEnded⟩, []⟩ 1) ∧
      ((2 < firstEnded.assets.size ∧ (firstEnded.asset 2).refs = 1) ∧
        LifeOf ⟨⟨[], firstEnded⟩, []⟩ 2) := by
  have hoccurs : Occurs ⟨⟨[], firstEnded⟩, []⟩ := ((Reached.start _).after 8 _).occurs
  have hfirst : 0 < firstEnded.assets.size ∧ (firstEnded.asset 0).destroyed = true :=
    ⟨by decide +kernel, by decide +kernel⟩
  have hsecond : 1 < firstEnded.assets.size ∧ (firstEnded.asset 1).destroyed = false ∧
      (firstEnded.asset 1).refs = 0 :=
    ⟨by decide +kernel, by decide +kernel, by decide +kernel⟩
  have hthird : 2 < firstEnded.assets.size ∧ (firstEnded.asset 2).refs = 1 :=
    ⟨by decide +kernel, by decide +kernel⟩
  exact ⟨hoccurs, ⟨hfirst, life_of_asset hoccurs hfirst.1⟩,
    ⟨hsecond, life_of_asset hoccurs hsecond.1⟩, ⟨hthird, life_of_asset hoccurs hthird.1⟩⟩

end AssetLoading
