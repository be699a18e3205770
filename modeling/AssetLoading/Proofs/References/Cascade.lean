import AssetLoading.Interpreter.Execution
import AssetLoading.Proofs.References.Slots

/-! # Cascades

  The last reference that is dropped on an asset destroys it, and with it go the
  references that its contents hold, which may destroy further assets. Each of them is
  destroyed once, so a cascade is no deeper than there are assets, and when it is over
  every reference has an owner again.

  `Fell` says what a cascade may do to the state. Code is taken to end in some state, or
  to lack the fuel for a cascade as deep as there are assets that are not destroyed
  (`Settles`).
-/

namespace AssetLoading

/-! ### What falls -/

/-- The assets that are not destroyed. -/
def State.whole (s : State) : Finset Handle :=
  (Finset.range s.assets.size).filter fun h => (s.asset h).destroyed = false

theorem State.mem_whole {s : State} {h : Handle} :
    h ∈ s.whole ↔ (s.asset h).destroyed = false := by
  unfold State.whole
  rw [Finset.mem_filter, Finset.mem_range]
  exact ⟨And.right, fun hwhole => ⟨State.lt_size_of_whole (.inl hwhole), hwhole⟩⟩

theorem State.card_whole_le (s : State) : s.whole.card ≤ s.assets.size := by
  have hle := Finset.card_filter_le (Finset.range s.assets.size)
    fun h => (s.asset h).destroyed = false
  rw [Finset.card_range] at hle
  exact hle

/-- Assets may have been destroyed, each by one run of its destructor and without a
reference. -/
structure Toppled (s t : State) : Prop where
  size : t.assets.size = s.assets.size
  registries : t.registries.size = s.registries.size
  lasting : ∀ h, (s.asset h).destroyed = true → (t.asset h).destroyed = true
  ends : ∀ h, t.endsOf h = s.endsOf h +
    if (s.asset h).destroyed = false ∧ (t.asset h).destroyed = true then 1 else 0
  ended : ∃ new, t.history = new ++ s.history ∧
    ∀ h refs tag category value, .destroyed h refs tag category value ∈ new → refs = 0

/-- Assets may have been destroyed. The others keep their contents and gain no reference. -/
structure Fell (s t : State) : Prop extends Toppled s t where
  doomed : (t.registry 0).doomed = (s.registry 0).doomed
  contents : ∀ h, (t.asset h).destroyed = false → (t.asset h).contents = (s.asset h).contents
  refs : ∀ h, (t.asset h).refs ≤ (s.asset h).refs

/-- An asset that has no reference is not destroyed on the way. -/
def Spares (s t : State) : Prop :=
  ∀ h, (s.asset h).destroyed = false → (s.asset h).refs ≤ 0 → (t.asset h).destroyed = false

/-- Client code holds what it held. -/
def SameClient (s t : State) : Prop :=
  ∀ h, net .client h t.history = net .client h s.history

namespace Toppled

variable {s t r : State} {h : Handle}

/-- What is not destroyed afterwards was not destroyed before. -/
theorem before (hst : Toppled s t) (hwhole : (t.asset h).destroyed = false) :
    (s.asset h).destroyed = false := by
  rw [← Bool.not_eq_true] at hwhole ⊢
  exact fun hgone => hwhole (hst.lasting h hgone)

theorem trans (hsr : Toppled s r) (hrt : Toppled r t) : Toppled s t where
  size := hrt.size.trans hsr.size
  registries := hrt.registries.trans hsr.registries
  lasting h hgone := hrt.lasting h (hsr.lasting h hgone)
  ends h := by
    rw [hrt.ends, hsr.ends, Nat.add_assoc]
    congr 1
    -- destroyed on the way, and if so in one of the two halves
    cases hs : (s.asset h).destroyed with
    | true => simp [hsr.lasting h hs]
    | false =>
      cases hr : (r.asset h).destroyed with
      | true => simp [hrt.lasting h hr]
      | false => simp
  ended := by
    obtain ⟨new, hnew, hzero⟩ := hsr.ended
    obtain ⟨newer, hnewer, hzero'⟩ := hrt.ended
    refine ⟨newer ++ new, by rw [hnewer, hnew, List.append_assoc], ?_⟩
    intro h refs tag category value hmem
    rcases List.mem_append.1 hmem with hmem | hmem
    · exact hzero' h refs tag category value hmem
    · exact hzero h refs tag category value hmem

theorem card_whole_le (hst : Toppled s t) : t.whole.card ≤ s.whole.card := by
  apply Finset.card_le_card
  intro h hh
  rw [State.mem_whole] at hh ⊢
  exact hst.before hh

/-- Code that destroys nothing. -/
theorem of_same (hsize : t.assets.size = s.assets.size)
    (hregistries : t.registries.size = s.registries.size)
    (hdestroyed : ∀ h, (t.asset h).destroyed = (s.asset h).destroyed)
    (hhistory : ∃ new, t.history = new ++ s.history ∧ ∀ e ∈ new, e.isEnd = false) :
    Toppled s t where
  size := hsize
  registries := hregistries
  lasting h hgone := (hdestroyed h).trans hgone
  ends h := by
    obtain ⟨new, hnew, hnone⟩ := hhistory
    have hsame : t.endsOf h = s.endsOf h := by
      unfold State.endsOf
      rw [hnew, List.countP_append, List.countP_eq_zero.2, Nat.zero_add]
      intro e he hend
      have hisEnd := Event.isEnd_of_isEndOf hend
      rw [hnone e he] at hisEnd
      cases hisEnd
    -- nothing was destroyed, so no asset has one end more
    rw [hsame, hdestroyed, if_neg]
    · exact (Nat.add_zero _).symm
    · rintro ⟨hwhole, hgone⟩
      rw [hwhole] at hgone
      cases hgone
  ended := by
    obtain ⟨new, hnew, hnone⟩ := hhistory
    refine ⟨new, hnew, fun h refs tag category value hmem => ?_⟩
    have hisEnd := hnone _ hmem
    cases hisEnd

end Toppled

namespace Fell

variable {s t r : State} {h : Handle}

theorem refl (s : State) : Fell s s where
  toToppled := .of_same rfl rfl (fun _ => rfl) ⟨[], rfl, fun _ he => absurd he List.not_mem_nil⟩
  doomed := rfl
  contents _ _ := rfl
  refs _ := Int.le_refl _

theorem trans (hsr : Fell s r) (hrt : Fell r t) : Fell s t where
  toToppled := hsr.toToppled.trans hrt.toToppled
  doomed := hrt.doomed.trans hsr.doomed
  contents h hwhole := (hrt.contents h hwhole).trans (hsr.contents h (hrt.before hwhole))
  refs h := Int.le_trans (hrt.refs h) (hsr.refs h)

theorem record (s : State) {e : Event} (he : e.isEnd = false) : Fell s (s.record e) := by
  refine ⟨.of_same rfl rfl (fun _ => rfl) ⟨[e], rfl, fun d hd => ?_⟩, rfl, fun _ _ => rfl,
    fun _ => Int.le_refl _⟩
  rw [List.mem_singleton.1 hd, he]

theorem dropped (s : State) (holder : Holder) (h : Handle) : Fell s (s.dropped holder h) := by
  have hasset := State.asset_dropped s holder h
  constructor
  · apply Toppled.of_same (State.size_dropped s holder h) rfl
    · intro k
      rw [hasset]
      split <;> rfl
    · exact ⟨[.dropped holder h], rfl, fun d hd => by rw [List.mem_singleton.1 hd]; rfl⟩
  · rfl
  · intro k _
    rw [hasset]
    split <;> rfl
  · intro k
    rw [hasset]
    split
    next => exact Int.sub_le_self _ (by decide)
    next => exact Int.le_refl _

/-- The destructor of an asset without references starts. -/
theorem expired {c : Contents} (hwhole : (s.asset h).destroyed = false)
    (hnone : (s.asset h).refs = 0) : Fell s (s.expired h c) := by
  have hmade : h < s.assets.size := State.lt_size_of_whole (.inl hwhole)
  have hasset (k : Handle) : (s.expired h c).asset k =
      if h = k ∧ k < s.assets.size then { s.asset k with destroyed := true, contents := none }
      else s.asset k :=
    State.asset_modifyAsset s h k _
  have hself : (s.modifyAsset h fun a => { a with destroyed := true, contents := none }).asset h =
      { s.asset h with destroyed := true, contents := none } := by
    rw [State.asset_modifyAsset, if_pos ⟨rfl, hmade⟩]
  -- the asset itself is destroyed and gets its end; every other one stays as it was
  constructor
  · constructor
    · exact State.size_modifyAsset s h _
    · rfl
    · intro k hgone
      rw [hasset]
      split
      next => rfl
      next => exact hgone
    · intro k
      have hends : (s.expired h c).endsOf k = s.endsOf k + if h = k then 1 else 0 := by
        unfold State.endsOf State.expired State.record State.modifyAsset
        by_cases hk : h = k <;> simp [Event.isEndOf, hk]
      rw [hends]
      -- exactly the asset that was whole and is not any more has a new end
      by_cases hk : h = k
      · subst hk
        have hgone : ((s.expired h c).asset h).destroyed = true := by
          rw [hasset, if_pos ⟨rfl, hmade⟩]
        rw [if_pos rfl, if_pos ⟨hwhole, hgone⟩]
      · have hsame : (s.expired h c).asset k = s.asset k := by
          rw [hasset, if_neg fun heq => hk heq.1]
        rw [if_neg hk, hsame, if_neg]
        rintro ⟨hstill, hgone⟩
        rw [hstill] at hgone
        cases hgone
    · refine ⟨[_, _], rfl, ?_⟩
      intro k refs tag category value hmem
      rcases List.mem_cons.1 hmem with heq | hmem
      · injection heq with _ hrefs
        rw [hrefs]
        show ((s.modifyAsset h _).asset h).refs = 0
        rw [hself]
        exact hnone
      · cases List.mem_singleton.1 hmem
  · rfl
  · intro k hk
    rw [hasset] at hk ⊢
    split at hk
    next => cases hk
    next heq => rw [if_neg heq]
  · intro k
    rw [hasset]
    split <;> exact Int.le_refl _

end Fell

/-! ### Code that ends -/

/-- Code ends in a state with a property, or there is too little fuel for it. -/
def Settles {α : Type} (short : Prop) (s : State) (x : Exec α) (Q : State → Prop) : Prop :=
  match x s with
  | .ok _ t => Q t
  | .error e _ => e = .outOfFuel ∧ short

namespace Settles

variable {α β : Type} {short short' : Prop} {s t : State} {x : Exec α} {f : α → Exec β}
  {Q R : State → Prop}

theorem of_ok {a : α} (hrun : x s = .ok a t) (hq : Q t) : Settles short s x Q := by
  unfold Settles
  rw [hrun]
  exact hq

theorem weaken (h : Settles short s x Q) (hshort : short → short') (hqr : ∀ t, Q t → R t) :
    Settles short' s x R := by
  unfold Settles at h ⊢
  split at h
  · exact hqr _ h
  · exact ⟨h.1, hshort h.2⟩

theorem bind (hx : Settles short s x Q) (hf : ∀ a t, Q t → Settles short t (f a) R) :
    Settles short s (x >>= f) R := by
  unfold Settles at hx ⊢
  show match EStateM.bind x f s with
    | .ok _ t => R t
    | .error e _ => e = .outOfFuel ∧ short
  rw [EStateM.bind]
  split at hx
  next a t hrun =>
    rw [hrun]
    exact hf a t hx
  next e t hrun =>
    rw [hrun]
    exact hx

/-- Code that begins with something that is known to end. -/
theorem first {a : α} (hrun : x s = .ok a t) (hf : Settles short t (f a) R) :
    Settles short s (x >>= f) R := by
  have hx : Settles short s x (· = t) := of_ok hrun rfl
  unfold Settles
  show match EStateM.bind x f s with
    | .ok _ t => R t
    | .error e _ => e = .outOfFuel ∧ short
  rw [EStateM.bind, hrun]
  exact hf

theorem lookAsset {h : Handle} {g : Asset → Exec β} (hg : Settles short s (g (s.asset h)) R) :
    Settles short s (getAsset h >>= g) R :=
  hg

theorem record {e : Event} {g : Unit → Exec β} (hg : Settles short (s.record e) (g ()) R) :
    Settles short s (AssetLoading.record e >>= g) R :=
  hg

theorem modifyAsset {h : Handle} {u : Asset → Asset} {g : Unit → Exec β}
    (hg : Settles short (s.modifyAsset h u) (g ()) R) :
    Settles short s (AssetLoading.modifyAsset h u >>= g) R :=
  hg

/-- With enough fuel code ends. -/
theorem exists_ok (h : Settles short s x Q) (hshort : ¬ short) : ∃ a t, x s = .ok a t ∧ Q t := by
  unfold Settles at h
  split at h
  next a t hrun => exact ⟨a, t, hrun, h⟩
  next => exact absurd h.2 hshort

end Settles

/-! ### The cascade -/

/-- A runner of client code empties the contents of a destroyed asset, if their
destructor does nothing else. It lacks fuel only for a cascade that is deeper than the
budget. -/
def Runner.Empties (call : Runner) (budget : Nat) : Prop :=
  ∀ scope h contents s hand idle, scope.registry = 0 → contents.onDestroy = [] →
    Attributed s (targets contents.dependencies ++ hand) idle →
    Settles (budget ≤ s.whole.card) s (call (.destructor scope h contents)) fun t =>
      let r := s.record (.destroyed h (s.asset h).refs contents.tag contents.kind.category
        contents.value)
      Fell r t ∧ Spares r t ∧ SameClient r t ∧ Attributed t hand idle

section Releasing

variable {call : Runner} {budget : Nat} {scope : Scope} {s : State} {hand idle : List Handle}
  {h : Handle}

/-- The end of a destruction changes nothing that anyone owns. -/
theorem State.buried_quiet (s : State) (h : Handle) :
    s.SameOwners (s.buried 0 h) ∧ Fell s (s.buried 0 h) := by
  obtain ⟨f, hf⟩ := s.unlinked_eq 0 h
  -- only the slot and the state of the asset change, and links, which nobody counts
  have hsize : (s.buried 0 h).assets.size = s.assets.size := by
    rw [State.buried, hf]
    exact State.size_modifyAsset s h _
  have hasset (k : Handle) : (s.buried 0 h).asset k =
      if h = k ∧ k < s.assets.size then { s.asset k with slot := none, state := .none }
      else s.asset k := by
    rw [State.buried, hf]
    exact State.asset_modifyAsset s h k _
  have hregistry : ((s.buried 0 h).registry 0).doomed = (s.registry 0).doomed := by
    rw [State.buried, hf]
    show ((s.modifyRegistry 0 _).registry 0).doomed = _
    rw [State.registry_modifyRegistry]
    split <;> rfl
  have hregistries : (s.buried 0 h).registries.size = s.registries.size := by
    rw [State.buried, hf]
    exact Array.size_modify
  have hhistory : (s.buried 0 h).history = s.history := by
    rw [State.buried, hf]
    rfl
  have hrefs (k : Handle) : ((s.buried 0 h).asset k).refs = (s.asset k).refs := by
    rw [hasset]
    split <;> rfl
  have hdestroyed (k : Handle) : ((s.buried 0 h).asset k).destroyed = (s.asset k).destroyed := by
    rw [hasset]
    split <;> rfl
  have hcontents (k : Handle) : ((s.buried 0 h).asset k).contents = (s.asset k).contents := by
    rw [hasset]
    split <;> rfl
  constructor
  · exact ⟨hsize, hrefs, hdestroyed, hcontents, fun k => by rw [hhistory]⟩
  · refine ⟨.of_same hsize hregistries hdestroyed ⟨[], hhistory, fun _ he => ?_⟩, hregistry,
      fun k _ => hcontents k, fun k => ?_⟩
    · exact absurd he List.not_mem_nil
    · rw [hrefs]

/-- An asset without references is destroyed, and with it falls what only its contents
held. -/
theorem settles_destroy (hcall : call.Empties budget) (hscope : scope.registry = 0)
    (hwhole : (s.asset h).destroyed = false) (hnone : (s.asset h).refs = 0)
    (hs : Attributed s hand (h :: idle)) :
    Settles (budget < s.whole.card) s (destroy call scope h) fun t =>
      Fell s t ∧ (∀ k, k ≠ h → (s.asset k).destroyed = false → (s.asset k).refs ≤ 0 →
        (t.asset k).destroyed = false) ∧ SameClient s t ∧ Attributed t hand idle := by
  have hmade : h < s.assets.size := State.lt_size_of_whole (.inl hwhole)
  obtain ⟨c, hc, hscript⟩ := hs.simple h hwhole
  -- the state in which the destructor is called
  let r := (s.modifyAsset h fun a => { a with destroyed := true, contents := none }).record
    (.logged .trace "Destroying asset"
      [("asset", .text (s.asset h).displayName), ("ty", .text (s.asset h).category.name)])
  have howned : Attributed r (targets c.dependencies ++ hand) idle := by
    apply (hs.expired hnone hwhole hc).same
    exact ⟨rfl, fun _ => rfl, fun _ => rfl, fun _ => rfl, fun k => (net_cons _ k _ _).trans
      (Int.zero_add _)⟩
  have hexpired : Fell s (s.expired h c) := Fell.expired hwhole hnone
  have hclient : SameClient s (s.expired h c) := by
    intro k
    show net .client k (_ :: _ :: s.history) = _
    rw [net_cons, net_cons]
    exact (Int.zero_add _).trans (Int.zero_add _)
  have hothers (k : Handle) (hk : k ≠ h) : (s.expired h c).asset k = s.asset k := by
    have hasset := State.asset_modifyAsset s h k
      fun a => { a with destroyed := true, contents := none }
    rw [if_neg fun heq => hk heq.1.symm] at hasset
    exact hasset
  -- one asset fewer is not destroyed
  have hcard : r.whole.card < s.whole.card := by
    apply Finset.card_lt_card
    rw [Finset.ssubset_iff_of_subset]
    · refine ⟨h, State.mem_whole.2 hwhole, fun hmem => ?_⟩
      have hgone := State.mem_whole.1 hmem
      change ((s.modifyAsset h _).asset h).destroyed = false at hgone
      rw [State.asset_modifyAsset, if_pos ⟨rfl, hmade⟩] at hgone
      cases hgone
    · intro k hk
      exact State.mem_whole.2 (hexpired.before (State.mem_whole.1 hk))
  have hdestructor := hcall { thread := scope.thread, registry := scope.registry } h c r hand idle
    hscope hscript howned
  unfold destroy
  apply Settles.lookAsset
  rw [hwhole, hc]
  apply Settles.modifyAsset
  apply Settles.record
  apply (hdestructor.weaken (fun hshort => Nat.lt_of_le_of_lt hshort hcard) fun _ => id).bind
  rintro _ t ⟨hfell, hspares, hsame, hafter⟩
  obtain ⟨hquiet, hburied⟩ := t.buried_quiet h
  rw [hscope]
  apply Settles.first (unlink_run 0 h t)
  apply Settles.modifyAsset
  show Settles _ (t.buried 0 h) (pure true) _
  apply Settles.of_ok rfl
  refine ⟨(hexpired.trans hfell).trans hburied, ?_, ?_, hafter.same hquiet⟩
  · intro k hk hwholeK hnoneK
    rw [hquiet.destroyed]
    rw [← hothers k hk] at hwholeK hnoneK
    exact hspares k hwholeK hnoneK
  · intro k
    exact (hquiet.client k).trans ((hsame k).trans (hclient k))

/-- A reference that somebody has is dropped, and if it was the last one, the asset falls. -/
theorem settles_release (hcall : call.Empties budget) (hscope : scope.registry = 0)
    {holder : Holder} (hwhole : (s.asset h).destroyed = false) (hsome : 0 < (s.asset h).refs)
    (hs : Attributed (s.dropped holder h) hand (h :: idle)) :
    Settles (budget < s.whole.card) s (release call scope holder h) fun t =>
      Fell s t ∧ Spares s t ∧ SameClient (s.dropped holder h) t ∧ Attributed t hand idle ∧
        (1 < (s.asset h).refs → t = s.dropped holder h) := by
  have hmade : h < s.assets.size := State.lt_size_of_whole (.inl hwhole)
  have hrefs := refs_dropped s holder h hsome
  have hasset := State.asset_dropped s holder h
  have hdestroyed (k : Handle) : ((s.dropped holder h).asset k).destroyed =
      (s.asset k).destroyed := by
    rw [hasset]
    split <;> rfl
  have hrun : dropRef holder h s = .ok ((s.asset h).refs - 1) (s.dropped holder h) := by
    rw [dropRef_run]
    dsimp only
    rw [hrefs, if_neg (by omega)]
  have hdropped := Fell.dropped s holder h
  unfold release
  apply Settles.first hrun
  by_cases hone : (s.asset h).refs = 1
  · rw [hone]
    have hnone : ((s.dropped holder h).asset h).refs = 0 := by
      rw [hrefs, hone]
      rfl
    have hdestroy := settles_destroy hcall hscope ((hdestroyed h).trans hwhole) hnone hs
    apply (hdestroy.weaken (fun hshort => Nat.lt_of_lt_of_le hshort hdropped.card_whole_le)
      fun _ => id).bind
    rintro _ t ⟨hfell, hspares, hsame, hafter⟩
    apply Settles.of_ok rfl
    refine ⟨hdropped.trans hfell, fun k hk hnoneK => ?_, hsame, hafter, fun hmore => by omega⟩
    -- what has no reference is another asset
    have hne : k ≠ h := by
      rintro rfl
      omega
    apply hspares k hne ((hdestroyed k).trans hk)
    rw [hasset, if_neg fun heq => hne heq.1.symm]
    exact hnoneK
  · rw [if_neg (by omega)]
    apply Settles.of_ok rfl
    refine ⟨hdropped, fun k hk _ => (hdestroyed k).trans hk, fun _ => rfl, ?_, fun _ => rfl⟩
    apply hs.of_idle
    intro k hk _ hnoneK
    rcases List.mem_cons.1 hk with rfl | hk
    · omega
    · exact hk

/-- The slots of contents that have left their asset are emptied one after the other. -/
theorem settles_releaseDependencies (hcall : call.Empties budget) (hscope : scope.registry = 0)
    (slots : List (Option Handle)) (hs : Attributed s (targets slots ++ hand) idle) :
    Settles (budget < s.whole.card) s (releaseDependencies call scope slots) fun t =>
      Fell s t ∧ Spares s t ∧ SameClient s t ∧ Attributed t hand idle := by
  -- on the dependencies: each one is an asset in hand that is let go of
  induction slots generalizing s with
  | nil => exact Settles.of_ok rfl ⟨Fell.refl s, fun _ hwhole _ => hwhole, fun _ => rfl, hs⟩
  | cons slot slots ih =>
    unfold releaseDependencies
    cases slot with
    | none => exact Settles.first rfl (ih hs)
    | some h =>
      have hs : Attributed s (h :: (targets slots ++ hand)) idle := hs
      obtain ⟨hmade, hwhole, hsome⟩ := hs.alive (.inr (.inr List.mem_cons_self))
      have hrelease := settles_release hcall hscope hwhole hsome hs.dropped_dependency
      apply Settles.bind (Q := fun t => Fell s t ∧ Spares s t ∧ SameClient s t ∧
        Attributed t (targets slots ++ hand) idle)
      · show Settles _ s (release call scope .dependency h) _
        refine hrelease.weaken id ?_
        rintro t ⟨hfell, hspares, hsame, hafter, -⟩
        exact ⟨hfell, hspares, fun k => (hsame k).trans (Attributed.client_dropped_dependency k), hafter⟩
      · rintro _ t ⟨hfell, hspares, hsame, hafter⟩
        -- what is whole never gets more, so the budget still suffices
        refine (ih hafter).weaken (fun hshort => Nat.lt_of_lt_of_le hshort hfell.card_whole_le) ?_
        rintro r ⟨hfell', hspares', hsame', hafter'⟩
        refine ⟨hfell.trans hfell', fun k hk hnone => ?_, fun k => (hsame' k).trans (hsame k),
          hafter'⟩
        apply hspares' k (hspares k hk hnone)
        exact Int.le_trans (hfell.refs k) hnone

end Releasing

/-- Client code is run with one unit of fuel for each asset that can still fall. -/
theorem empties_run (fuel : Nat) : (run fuel).Empties fuel := by
  induction fuel with
  | zero =>
    intro scope h contents s hand idle _ _ _
    exact ⟨rfl, Nat.zero_le _⟩
  | succ fuel ih =>
    intro scope h contents s hand idle hscope hscript hs
    show Settles _ s (runCallback fuel (run fuel) (.destructor scope h contents)) _
    unfold runCallback
    apply Settles.lookAsset
    let r := s.record (.destroyed h (s.asset h).refs contents.tag contents.kind.category
      contents.value)
    have hclient : SameClient s r := fun k => (net_cons _ k _ _).trans (Int.zero_add _)
    have hstart : Attributed r (targets contents.dependencies ++ hand) idle :=
      hs.same ⟨rfl, fun _ => rfl, fun _ => rfl, fun _ => rfl, hclient⟩
    apply Settles.record
    rw [hscript]
    have hscriptless : runScript fuel (run fuel) scope [] r = .ok true r := rfl
    apply Settles.first hscriptless
    apply (settles_releaseDependencies ih hscope contents.dependencies hstart).bind
    intro _ t ht
    exact Settles.of_ok rfl ht

end AssetLoading
