import AssetLoading.Proofs.References.Cascade
import AssetLoading.Proofs.Registry.Lookups

/-! # Ownership graphs

  Assets hold each other in slots, in any shape: shared, in chains, in cycles, or
  several times over. Client code fills and empties the slots of assets that it holds,
  takes and drops references, and flushes.

  If it names no asset that is destroyed and drops only what it holds, nothing goes
  wrong: between two operations the count of an asset is what client code holds and how
  many slots hold it, and what loses its last reference falls within the operation that
  drops it, once, unless it is left to the next flush (`ownership_kept`).
-/

namespace AssetLoading

/-! ### Operations -/

/-- Contents with another target in one slot, which is made if there are fewer. -/
def Contents.pointed (c : Contents) (position : Nat) (target : Option Handle) : Contents :=
  let grown := c.dependencies ++ List.replicate (position + 1 - c.dependencies.length) none
  { c with dependencies := grown.set position target }

/-- What client code does with references. -/
inductive Upkeep where
  /-- Point a slot of an asset at another one. -/
  | swap (h : Handle) (kind : Kind) (position : Nat) (target : Option Handle)
  | addref (h : Handle)
  | release (h : Handle)
  | releaseDeferred (h : Handle)
  | flush

namespace Upkeep

/-- Run an operation on some thread, with some fuel for the destructors. -/
def run (fuel : Nat) (thread : Thread) : Upkeep → Exec Unit
  | .swap h kind position target => do
    let _ ← swapDependency (AssetLoading.run fuel) { thread } h kind position target
  | .addref h => AssetLoading.addref .client h
  | .release h => AssetLoading.release (AssetLoading.run fuel) { thread } .client h
  | .releaseDeferred h => AssetLoading.releaseDeferred 0 .client h
  | .flush => do
    let _ ← AssetLoading.flush (AssetLoading.run fuel) { thread }

/-- Client code swaps in slots of assets that it holds, names no asset that is
destroyed, and drops only references that it holds. -/
def Fits (s : State) : Upkeep → Prop
  | .swap h _ _ target =>
    0 < net .client h s.history ∧ ∀ k, target = some k → (s.asset k).destroyed = false
  | .addref h => (s.asset h).destroyed = false
  | .release h | .releaseDeferred h => 0 < net .client h s.history
  | .flush => True

/-- What client code gains on an asset. -/
def gain : Upkeep → Handle → Int
  | .addref h, k => if h = k then 1 else 0
  | .release h, k | .releaseDeferred h, k => if h = k then -1 else 0
  | _, _ => 0

/-- What an asset contains afterwards, unless it falls. -/
def contents (s : State) : Upkeep → Handle → Option Contents
  | .swap h kind position target, k =>
    if h = k then (s.asset h).contents.map fun c =>
      if c.kind = kind then c.pointed position target else c
    else (s.asset k).contents
  | _, k => (s.asset k).contents

/-- The assets that wait for a flush afterwards. -/
def doomed (s : State) : Upkeep → List Handle
  | .releaseDeferred h =>
    if (s.asset h).refs = 1 then (s.registry 0).doomed ++ [h] else (s.registry 0).doomed
  | .flush => []
  | _ => (s.registry 0).doomed

/-- Which assets fall: those whose count is brought to zero, but a flush makes fall what
was at zero before, and leaving an asset to it makes nothing fall. -/
def Fells (s t : State) : Upkeep → Handle → Prop
  | .releaseDeferred _, _ => False
  | .flush, k => (t.asset k).refs = 0
  | _, k => 0 < (s.asset k).refs ∧ (t.asset k).refs = 0

/-- What an operation does. -/
structure Effect (op : Upkeep) (s t : State) : Prop extends Toppled s t where
  falls : ∀ k, (s.asset k).destroyed = false →
    ((t.asset k).destroyed = true ↔ op.Fells s t k)
  client : ∀ k, net .client k t.history = net .client k s.history + op.gain k
  contents : ∀ k, (t.asset k).destroyed = false → (t.asset k).contents = op.contents s k
  doomed : (t.registry 0).doomed = op.doomed s
  /-- Pointing a slot at the asset that it holds changes no asset. -/
  still : ∀ h kind position k, op = .swap h kind position (some k) →
    (∃ c, (s.asset h).contents = some c ∧ c.dependencies[position]? = some (some k)) →
      ∀ j, t.asset j = s.asset j

end Upkeep

/-- Between two operations nothing is in hand, and only what waits for a flush has no
reference. -/
structure State.Tidy (s : State) : Prop where
  owned : Attributed s [] (s.registry 0).doomed
  first : 0 < s.registries.size

/-! ### Assets without references -/

/-- The assets that are not destroyed and have no reference. -/
def State.idle (s : State) : List Handle :=
  (List.range s.assets.size).filter fun h => (s.asset h).destroyed = false ∧ (s.asset h).refs = 0

theorem State.mem_idle {s : State} {h : Handle} :
    h ∈ s.idle ↔ (s.asset h).destroyed = false ∧ (s.asset h).refs = 0 := by
  rw [State.idle, List.mem_filter, List.mem_range, decide_eq_true_iff]
  exact ⟨And.right, fun hidle => ⟨State.lt_size_of_whole (.inl hidle.1), hidle⟩⟩

section Idle

variable {s t : State} {hand hand' idle : List Handle} {h : Handle}

theorem Attributed.tight (hs : Attributed s hand idle) : Attributed s hand s.idle :=
  { hs with idle := fun _ hwhole hnone => State.mem_idle.2 ⟨hwhole, hnone⟩ }

theorem Attributed.of_hand (hs : Attributed s hand idle) (hhand : ∀ k, hand'.count k = hand.count k) :
    Attributed s hand' idle where
  counted k hk := by rw [hhand]; exact hs.counted k hk
  unknown k hk := by rw [hhand]; exact hs.unknown k hk
  client := hs.client
  gone := hs.gone
  simple := hs.simple
  idle := hs.idle

/-- If those that had no reference are the only ones that may have none, then the others
fall exactly if they lose theirs. -/
theorem Attributed.falls_iff (ht : Attributed t [] s.idle) (hspares : Spares s t)
    (hwhole : (s.asset h).destroyed = false) (hsize : t.assets.size = s.assets.size) :
    (t.asset h).destroyed = true ↔ 0 < (s.asset h).refs ∧ (t.asset h).refs = 0 := by
  have hmade : h < t.assets.size := hsize ▸ State.lt_size_of_whole (.inl hwhole)
  constructor
  · intro hgone
    refine ⟨Int.not_le.1 fun hnone => ?_, ht.gone h hmade hgone⟩
    rw [hspares h hwhole hnone] at hgone
    cases hgone
  · rintro ⟨hsome, hnone⟩
    rw [← Bool.not_eq_false]
    intro hstill
    have hidle := State.mem_idle.1 (ht.idle h hstill hnone)
    omega

/-- What had no reference before waits for a flush. -/
theorem Attributed.tidy (ht : Attributed t [] s.idle) (hs : s.Tidy)
    (hregistries : t.registries.size = s.registries.size)
    (hdoomed : (t.registry 0).doomed = (s.registry 0).doomed) : t.Tidy := by
  refine ⟨ht.of_idle fun k hk _ _ => ?_, hregistries ▸ hs.first⟩
  rw [hdoomed]
  obtain ⟨hwhole, hnone⟩ := State.mem_idle.1 hk
  exact hs.owned.idle k hwhole hnone

end Idle

/-! ### Taking and dropping -/

section Operations

variable {s t : State} {h : Handle} {fuel : Nat} {thread : Thread}

/-- Taking a reference changes one count. -/
theorem State.referenced_same (s : State) (holder : Holder) (h : Handle) :
    (s.took holder h).SameOwners (s.referenced holder h) ∧
      (s.referenced holder h).assets = (s.took holder h).assets ∧
      ∃ new, (s.referenced holder h).history = new ++ s.history ∧ ∀ e ∈ new, e.isEnd = false := by
  unfold State.referenced
  split
  next =>
    refine ⟨⟨rfl, fun _ => rfl, fun _ => rfl, fun _ => rfl, fun k => ?_⟩, rfl, [_, _, _], rfl, ?_⟩
    · show net .client k (_ :: .took holder h :: _ :: s.history) =
        net .client k (.took holder h :: s.history)
      rw [net_cons, net_cons, net_cons, net_cons]
      exact (Int.zero_add _).trans (congrArg (_ + ·) (Int.zero_add _))
    · intro e he
      simp only [List.mem_cons, List.not_mem_nil, or_false] at he
      rcases he with rfl | rfl | rfl <;> rfl
  next =>
    refine ⟨⟨rfl, fun _ => rfl, fun _ => rfl, fun _ => rfl, fun _ => rfl⟩, rfl, [_], rfl, ?_⟩
    intro e he
    rw [List.mem_singleton.1 he]
    rfl

/-- One more reference on an asset that is not destroyed. -/
theorem toppled_referenced (s : State) (holder : Holder) (h : Handle) :
    Toppled s (s.referenced holder h) ∧
      (∀ k, ((s.referenced holder h).asset k).destroyed = (s.asset k).destroyed) ∧
      (∀ k, ((s.referenced holder h).asset k).contents = (s.asset k).contents) ∧
      ∀ k, ((s.referenced holder h).asset k).refs =
        (s.asset k).refs + if h = k ∧ k < s.assets.size then 1 else 0 := by
  obtain ⟨-, hassets, hhistory⟩ := s.referenced_same holder h
  have hasset (k : Handle) : (s.referenced holder h).asset k =
      if h = k ∧ k < s.assets.size then { s.asset k with refs := (s.asset k).refs + 1 }
      else s.asset k :=
    asset_of_assets_eq (s := s) (h := h) (f := fun a => { a with refs := a.refs + 1 }) hassets k
  have hdestroyed (k : Handle) : ((s.referenced holder h).asset k).destroyed =
      (s.asset k).destroyed := by
    rw [hasset]
    split <;> rfl
  refine ⟨.of_same ?_ ?_ hdestroyed hhistory, hdestroyed, fun k => ?_, fun k => ?_⟩
  · rw [hassets, State.size_took]
  · rw [State.registries_referenced]
  · rw [hasset]
    split <;> rfl
  · rw [hasset]
    split
    next => rfl
    next => exact (Int.add_zero _).symm

theorem settles_addref (hs : s.Tidy) (hfits : (Upkeep.addref h).Fits s) :
    Settles (fuel < s.whole.card) s ((Upkeep.addref h).run fuel thread) fun t =>
      t.Tidy ∧ (Upkeep.addref h).Effect s t := by
  have hwhole : (s.asset h).destroyed = false := hfits
  have hmade : h < s.assets.size := State.lt_size_of_whole (.inl hwhole)
  obtain ⟨hsame, -, -⟩ := s.referenced_same .client h
  obtain ⟨htoppled, hdestroyed, hcontents, hrefs⟩ := toppled_referenced s .client h
  have hrun : addref .client h s = .ok () (s.referenced .client h) := by
    rw [addref_run, hwhole]
    rfl
  have hdoomed : ((s.referenced .client h).registry 0).doomed = (s.registry 0).doomed := by
    unfold State.registry
    rw [State.registries_referenced]
  have howned : Attributed (s.referenced .client h) [] s.idle := by
    -- an asset that just got a reference is not idle
    apply ((hs.owned.tight.took_client hwhole).same hsame).of_idle
    intro k hk _ hnone
    rcases List.mem_cons.1 hk with rfl | hk
    · have hsome := hs.owned.nonneg hmade
      rw [hrefs, if_pos ⟨rfl, hmade⟩] at hnone
      omega
    · exact hk
  apply Settles.of_ok hrun
  refine ⟨howned.tidy hs htoppled.registries hdoomed, htoppled, ?_, ?_, ?_, hdoomed, ?_⟩
  · intro k hk
    exact howned.falls_iff (fun l hl _ => (hdestroyed l).trans hl) hk htoppled.size
  · intro k
    rw [hsame.client, Attributed.client_took_client]
    rfl
  · exact fun k _ => hcontents k
  · exact fun _ _ _ _ heq => by cases heq

theorem settles_release_client (hs : s.Tidy) (hfits : (Upkeep.release h).Fits s) :
    Settles (fuel < s.whole.card) s ((Upkeep.release h).run fuel thread) fun t =>
      t.Tidy ∧ (Upkeep.release h).Effect s t := by
  have hheld : 0 < net .client h s.history := hfits
  obtain ⟨hmade, hwhole, hsome⟩ := hs.owned.alive (.inl hheld)
  have hscope : ({ thread } : Scope).registry = 0 := rfl
  have hrelease := settles_release (empties_run fuel) hscope hwhole hsome
    (hs.owned.tight.dropped_client hheld)
  refine hrelease.weaken id ?_
  rintro t ⟨hfell, hspares, hclient, howned, -⟩
  refine ⟨howned.tidy hs hfell.registries hfell.doomed, hfell.toToppled, ?_, ?_, hfell.contents,
    hfell.doomed, ?_⟩
  · exact fun k hk => howned.falls_iff hspares hk hfell.size
  · intro k
    rw [hclient, Attributed.client_dropped_client]
    rfl
  · exact fun _ _ _ _ heq => by cases heq

theorem settles_releaseDeferred (hs : s.Tidy) (hfits : (Upkeep.releaseDeferred h).Fits s) :
    Settles (fuel < s.whole.card) s ((Upkeep.releaseDeferred h).run fuel thread) fun t =>
      t.Tidy ∧ (Upkeep.releaseDeferred h).Effect s t := by
  have hheld : 0 < net .client h s.history := hfits
  obtain ⟨hmade, hwhole, hsome⟩ := hs.owned.alive (.inl hheld)
  have hrun : releaseDeferred 0 .client h s = .ok () (s.letGo 0 .client h) := by
    rw [releaseDeferred_run, if_pos hsome]
  have hassets : (s.letGo 0 .client h).assets = (s.dropped .client h).assets := by
    unfold State.letGo
    split <;> rfl
  have hasset (k : Handle) : (s.letGo 0 .client h).asset k = (s.dropped .client h).asset k := by
    unfold State.asset
    rw [hassets]
  have hhistory : (s.letGo 0 .client h).history = (s.dropped .client h).history := by
    unfold State.letGo
    split <;> rfl
  have hregistries : (s.letGo 0 .client h).registries.size = s.registries.size := by
    unfold State.letGo
    split
    next => exact Array.size_modify
    next => rfl
  have hdoomed : ((s.letGo 0 .client h).registry 0).doomed =
      if (s.asset h).refs = 1 then (s.registry 0).doomed ++ [h] else (s.registry 0).doomed := by
    unfold State.letGo
    split
    next =>
      show ((State.modifyRegistry _ 0 _).registry 0).doomed = _
      rw [State.registry_modifyRegistry, if_pos ⟨rfl, hs.first⟩]
      rfl
    next => rfl
  have hfell := Fell.dropped s .client h
  have hdropped := State.asset_dropped s .client h
  have hdestroyed (k : Handle) : ((s.letGo 0 .client h).asset k).destroyed =
      (s.asset k).destroyed := by
    rw [hasset, hdropped]
    split <;> rfl
  -- what loses its last reference waits
  have howned : Attributed (s.letGo 0 .client h) [] ((s.letGo 0 .client h).registry 0).doomed := by
    have hsame : (s.dropped .client h).SameOwners (s.letGo 0 .client h) :=
      ⟨by rw [hassets], fun k => by rw [hasset], fun k => by rw [hasset], fun k => by rw [hasset],
        fun k => by rw [hhistory]⟩
    apply ((hs.owned.dropped_client hheld).same hsame).of_idle
    intro k hk _ hnone
    rw [hdoomed]
    rcases List.mem_cons.1 hk with rfl | hk
    · rw [hasset, hdropped, if_pos ⟨rfl, hmade⟩] at hnone
      have hone : (s.asset k).refs = 1 := by
        have hnone : (s.asset k).refs - 1 = 0 := hnone
        omega
      rw [if_pos hone]
      exact List.mem_append_right _ List.mem_cons_self
    · split
      next => exact List.mem_append_left _ hk
      next => exact hk
  apply Settles.of_ok hrun
  refine ⟨⟨howned, hregistries ▸ hs.first⟩, ?_, ?_, ?_, ?_, hdoomed, ?_⟩
  · apply Toppled.of_same
    · rw [hassets, State.size_dropped]
    · exact hregistries
    · exact hdestroyed
    · refine ⟨[.dropped .client h], hhistory, fun e he => ?_⟩
      rw [List.mem_singleton.1 he]
      rfl
  · intro k hk
    rw [hdestroyed, hk]
    exact ⟨Bool.false_ne_true, False.elim⟩
  · intro k
    rw [hhistory, Attributed.client_dropped_client]
    rfl
  · intro k _
    rw [hasset, hdropped]
    split <;> rfl
  · exact fun _ _ _ _ heq => by cases heq

/-! ### Flushing -/

theorem settles_destroyUnreferenced {scope : Scope} {call : Runner} {budget : Nat}
    {waiting : List Handle} (hcall : call.Empties budget) (hscope : scope.registry = 0)
    (hs : Attributed s [] waiting) :
    Settles (budget < s.whole.card) s (destroyUnreferenced call scope waiting) fun t =>
      Fell s t ∧ SameClient s t ∧ Attributed t [] [] := by
  induction waiting generalizing s with
  | nil => exact Settles.of_ok rfl ⟨Fell.refl s, fun _ => rfl, hs⟩
  | cons h waiting ih =>
    unfold destroyUnreferenced
    apply Settles.lookAsset
    -- what follows a look at one asset
    have hrest {α : Type} {x : Exec α} {f : α → Exec Nat}
        (hx : Settles (budget < s.whole.card) s x fun t =>
          Fell s t ∧ SameClient s t ∧ Attributed t [] waiting)
        (hf : ∀ a t, Attributed t [] waiting → Settles (budget < t.whole.card) t (f a) fun r =>
          Fell t r ∧ SameClient t r ∧ Attributed r [] []) :
        Settles (budget < s.whole.card) s (x >>= f) fun t =>
          Fell s t ∧ SameClient s t ∧ Attributed t [] [] := by
      apply hx.bind
      rintro a t ⟨hfell, hclient, howned⟩
      refine (hf a t howned).weaken
        (fun hshort => Nat.lt_of_lt_of_le hshort hfell.card_whole_le) ?_
      rintro r ⟨hfell', hclient', howned'⟩
      exact ⟨hfell.trans hfell', fun k => (hclient' k).trans (hclient k), howned'⟩
    split
    next hnone =>
      have hcontinue (a : Bool) (t : State) (ht : Attributed t [] waiting) :
          Settles (budget < t.whole.card) t (do
            let rest ← destroyUnreferenced call scope waiting
            pure (rest + if a then 1 else 0)) fun r =>
              Fell t r ∧ SameClient t r ∧ Attributed r [] [] := by
        apply (ih ht).bind
        exact fun _ r hr => Settles.of_ok rfl hr
      refine hrest ?_ hcontinue
      cases hwhole : (s.asset h).destroyed with
      | false =>
        apply (settles_destroy hcall hscope hwhole hnone hs).weaken id
        rintro t ⟨hfell, -, hclient, howned⟩
        exact ⟨hfell, hclient, howned⟩
      | true =>
        -- it was named twice
        have hmark : destroy call scope h s =
            .ok false (s.modifyAsset h fun a => { a with destroyed := true }) := by
          unfold destroy
          rw [Exec.getAsset_bind, hwhole]
          rfl
        have hasset (k : Handle) : (s.modifyAsset h fun a => { a with destroyed := true }).asset k =
            s.asset k := by
          rw [State.asset_modifyAsset]
          split
          next heq =>
            rw [← heq.1, ← hwhole]
          next => rfl
        apply Settles.of_ok hmark
        have hsize := State.size_modifyAsset s h fun a => { a with destroyed := true }
        refine ⟨⟨.of_same hsize rfl (fun k => by rw [hasset]) ⟨[], rfl, ?_⟩, rfl,
          fun k _ => by rw [hasset], fun k => by rw [hasset]⟩, fun _ => rfl, ?_⟩
        · exact fun _ he => absurd he List.not_mem_nil
        · have hsame : s.SameOwners (s.modifyAsset h fun a => { a with destroyed := true }) :=
            ⟨hsize, fun k => by rw [hasset], fun k => by rw [hasset], fun k => by rw [hasset],
              fun _ => rfl⟩
          apply (hs.same hsame).of_idle
          intro k hk hwholeK _
          rcases List.mem_cons.1 hk with rfl | hk
          · rw [hasset, hwhole] at hwholeK
            cases hwholeK
          · exact hk
    next hsome =>
      refine hrest (x := log .trace "Skipping rescued asset" _) ?_ fun _ t ht => ih ht
      have hlog (fields : List (String × Field)) :
          log .trace "Skipping rescued asset" fields s =
            .ok () (s.record (.logged .trace "Skipping rescued asset" fields)) := rfl
      apply Settles.of_ok (hlog _)
      refine ⟨Fell.record s rfl, fun k => (net_cons _ k _ _).trans (Int.zero_add _), ?_⟩
      have hkept : Attributed s [] waiting := by
        apply hs.of_idle
        intro k hk _ hnone
        rcases List.mem_cons.1 hk with rfl | hk
        · exact absurd hnone hsome
        · exact hk
      exact hkept.same ⟨rfl, fun _ => rfl, fun _ => rfl, fun _ => rfl,
        fun k => (net_cons _ k _ _).trans (Int.zero_add _)⟩

theorem settles_flush (hs : s.Tidy) :
    Settles (fuel < s.whole.card) s (Upkeep.flush.run fuel thread) fun t =>
      t.Tidy ∧ Upkeep.flush.Effect s t := by
  -- the flush takes the whole queue first, and works on what it took
  let r := s.modifyRegistry 0 fun reg => { reg with doomed := [] }
  have hr : Attributed r [] (s.registry 0).doomed :=
    hs.owned.same ⟨rfl, fun _ => rfl, fun _ => rfl, fun _ => rfl, fun _ => rfl⟩
  have hregistries : r.registries.size = s.registries.size := Array.size_modify
  have hdoomed : (r.registry 0).doomed = [] := by
    rw [State.registry_modifyRegistry, if_pos ⟨rfl, hs.first⟩]
  have hscope : ({ thread } : Scope).registry = 0 := rfl
  have hdestroy := settles_destroyUnreferenced (empties_run fuel) hscope hr
  have htoppled : Toppled s r :=
    .of_same rfl hregistries (fun _ => rfl) ⟨[], rfl, fun _ he => absurd he List.not_mem_nil⟩
  unfold Upkeep.run
  apply Settles.bind (Q := fun t => t.Tidy ∧ Upkeep.flush.Effect s t)
  · show Settles _ r (destroyUnreferenced (run fuel) { thread } (s.registry 0).doomed) _
    refine hdestroy.weaken id ?_
    rintro t ⟨hfell, hclient, howned⟩
    have hnoneDoomed : (t.registry 0).doomed = [] := hfell.doomed.trans hdoomed
    have hsize := hfell.size
    refine ⟨⟨?_, ?_⟩, htoppled.trans hfell.toToppled, ?_, ?_, hfell.contents, hnoneDoomed, ?_⟩
    · rw [hnoneDoomed]
      exact howned
    · rw [hfell.registries, hregistries]
      exact hs.first
    · intro k hk
      have hmade : k < t.assets.size := by
        rw [hsize]
        exact State.lt_size_of_whole (s := s) (.inl hk)
      constructor
      · exact howned.gone k hmade
      · intro hnone
        rw [← Bool.not_eq_false]
        exact fun hstill => absurd (howned.idle k hstill hnone) List.not_mem_nil
    · exact fun k => (hclient k).trans (Int.add_zero _).symm
    · exact fun _ _ _ _ heq => by cases heq
  · exact fun _ t ht => Settles.of_ok rfl ht

/-! ### Swapping -/

/-- Setting a slot trades what it held for what it holds. -/
theorem count_set_slot (slots : List (Option Handle)) {i : Nat} (hi : i < slots.length)
    (new : Option Handle) (k : Handle) :
    (slots.set i new).count (some k) + slots[i].toList.count k =
      slots.count (some k) + new.toList.count k := by
  have hone (slot : Option Handle) : slot.toList.count k = if slot = some k then 1 else 0 := by
    cases slot <;> simp [List.count_singleton]
  have hmem : slots[i] = some k → 0 < slots.count (some k) := by
    intro heq
    exact List.count_pos_iff.2 (heq ▸ List.getElem_mem hi)
  rw [List.count_set hi, hone, hone]
  simp only [beq_iff_eq]
  by_cases hold : slots[i] = some k
  · have hpos := hmem hold
    rw [if_pos hold]
    omega
  · rw [if_neg hold]
    omega

/-- A reference that is in hand is dropped, if there is one. -/
theorem settles_dropOld {scope : Scope} {call : Runner} {budget : Nat} {hand idle : List Handle}
    (hcall : call.Empties budget) (hscope : scope.registry = 0) {old : Option Handle}
    (hs : Attributed s (old.toList ++ hand) idle) :
    Settles (budget < s.whole.card) s
      (match old with
        | some h => release call scope .dependency h
        | none => pure ()) fun t =>
      Fell s t ∧ Spares s t ∧ SameClient s t ∧ Attributed t hand idle ∧
        ∀ h, old = some h → 1 < (s.asset h).refs → t = s.dropped .dependency h := by
  cases old with
  | none =>
    exact Settles.of_ok rfl ⟨Fell.refl s, fun _ hwhole _ => hwhole, fun _ => rfl, hs, nofun⟩
  | some h =>
    have hs : Attributed s (h :: hand) idle := hs
    obtain ⟨-, hwhole, hsome⟩ := hs.alive (.inr (.inr List.mem_cons_self))
    have hrelease := settles_release hcall hscope hwhole hsome hs.dropped_dependency
    refine hrelease.weaken id ?_
    rintro t ⟨hfell, hspares, hclient, howned, hmore⟩
    refine ⟨hfell, hspares, fun k => ?_, howned, ?_⟩
    · rw [hclient, Attributed.client_dropped_dependency]
    · rintro _ ⟨⟩
      exact hmore

/-- A reference moves from one asset to another. The new one is taken first, so nothing
happens to an asset that is both. -/
theorem settles_swapReference {scope : Scope} {call : Runner} {budget : Nat} {idle : List Handle}
    (hcall : call.Empties budget) (hscope : scope.registry = 0) {old new : Option Handle}
    (hnew : ∀ k, new = some k → (s.asset k).destroyed = false)
    (hs : Attributed s old.toList idle) :
    Settles (budget < s.whole.card) s (swapReference call scope .dependency old new) fun t =>
      Toppled s t ∧ Spares s t ∧ SameClient s t ∧ Attributed t new.toList idle ∧
        (t.registry 0).doomed = (s.registry 0).doomed ∧
        (∀ k, (t.asset k).destroyed = false → (t.asset k).contents = (s.asset k).contents) ∧
        (old = new → old.isSome → ∀ k, t.asset k = s.asset k) := by
  cases new with
  | none =>
    have hs : Attributed s (old.toList ++ []) idle := hs.of_hand fun k => by rw [List.append_nil]
    refine (settles_dropOld hcall hscope hs).weaken id ?_
    rintro t ⟨hfell, hspares, hclient, howned, -⟩
    refine ⟨hfell.toToppled, hspares, hclient, howned, hfell.doomed, hfell.contents, ?_⟩
    rintro rfl ⟨⟩
  | some k =>
    have hwhole : (s.asset k).destroyed = false := hnew k rfl
    have hmade : k < s.assets.size := State.lt_size_of_whole (.inl hwhole)
    let r := s.referenced .dependency k
    obtain ⟨hsame, hassets, -⟩ := s.referenced_same .dependency k
    obtain ⟨htoppled, hdestroyed, hcontents, hrefs⟩ := toppled_referenced s .dependency k
    have hrun : addref .dependency k s = .ok () r := by
      rw [addref_run, hwhole]
      rfl
    have hclientR : SameClient s r := by
      intro l
      rw [hsame.client, Attributed.client_took_dependency]
    have hr : Attributed r (old.toList ++ [k]) idle := by
      have htook : Attributed r (k :: old.toList) (k :: idle) :=
        (hs.took_dependency hwhole).same hsame
      apply (htook.of_hand fun l => (List.perm_append_singleton k old.toList).count_eq l).of_idle
      intro l hl _ hnone
      rcases List.mem_cons.1 hl with rfl | hl
      · have hnonneg := hs.nonneg hmade
        rw [hrefs, if_pos ⟨rfl, hmade⟩] at hnone
        omega
      · exact hl
    unfold swapReference
    apply Settles.first hrun
    refine (settles_dropOld hcall hscope hr).weaken
      (fun hshort => Nat.lt_of_lt_of_le hshort htoppled.card_whole_le) ?_
    rintro t ⟨hfell, hspares, hclient, howned, hmore⟩
    refine ⟨htoppled.trans hfell.toToppled, fun l hl hnone => ?_,
      fun l => (hclient l).trans (hclientR l), howned, ?_, fun l hl => ?_, ?_⟩
    · -- the new target is held, and no other asset has gained a reference
      by_cases hkl : k = l
      · subst hkl
        exact (howned.alive (.inr (.inr List.mem_cons_self))).2.1
      · apply hspares l ((hdestroyed l).trans hl)
        rw [hrefs, if_neg fun heq => hkl heq.1]
        omega
    · rw [hfell.doomed]
      unfold State.registry
      rw [State.registries_referenced]
    · rw [hfell.contents l hl, hcontents]
    · rintro rfl - l
      have hsome := (hs.alive (.inr (.inr List.mem_cons_self))).2.2
      have hdropped := hmore k rfl (by rw [hrefs, if_pos ⟨rfl, hmade⟩]; omega)
      have hasset : r.asset l =
          if k = l ∧ l < s.assets.size then { s.asset l with refs := (s.asset l).refs + 1 }
          else s.asset l :=
        asset_of_assets_eq (s := s) (h := k) (f := fun a => { a with refs := a.refs + 1 }) hassets l
      have hsize : r.assets.size = s.assets.size := htoppled.size
      rw [hdropped, State.asset_dropped, hasset, hsize]
      split
      next =>
        have hback : (s.asset l).refs + 1 - 1 = (s.asset l).refs := Int.add_sub_cancel _ _
        simp only [hback]
      next => rfl

/-- Writing contents destroys nothing and changes no count. -/
theorem toppled_written (s : State) (h : Handle) (c : Contents) :
    let t := s.modifyAsset h fun a => { a with contents := some c }
    Toppled s t ∧ (∀ k, (t.asset k).destroyed = (s.asset k).destroyed) ∧
      ∀ k, (t.asset k).refs = (s.asset k).refs := by
  intro t
  have hasset (k : Handle) : t.asset k =
      if h = k ∧ k < s.assets.size then { s.asset k with contents := some c } else s.asset k :=
    State.asset_modifyAsset s h k _
  have hdestroyed (k : Handle) : (t.asset k).destroyed = (s.asset k).destroyed := by
    rw [hasset]
    split <;> rfl
  have hrefs (k : Handle) : (t.asset k).refs = (s.asset k).refs := by
    rw [hasset]
    split <;> rfl
  refine ⟨.of_same (State.size_modifyAsset s h _) rfl hdestroyed ⟨[], rfl, fun _ he => ?_⟩,
    hdestroyed, hrefs⟩
  exact absurd he List.not_mem_nil

/-- Contents with a new slot hold what they held, but for that slot. -/
theorem count_pointed (c : Contents) (position : Nat) (target : Option Handle) (k : Handle) :
    (c.pointed position target).dependencies.count (some k) +
      (c.dependencies[position]?).join.toList.count k =
        c.dependencies.count (some k) + target.toList.count k := by
  let slots := c.dependencies ++ List.replicate (position + 1 - c.dependencies.length) none
  have hlength : position < slots.length := by
    simp only [slots, List.length_append, List.length_replicate]
    omega
  have hslot : slots[position] = (c.dependencies[position]?).join := by
    by_cases hlt : position < c.dependencies.length
    · simp [slots, hlt]
    · rw [List.getElem_append_right (Nat.le_of_not_lt hlt), List.getElem_replicate,
        List.getElem?_eq_none (Nat.le_of_not_lt hlt)]
      rfl
  have hcount : slots.count (some k) = c.dependencies.count (some k) := by
    simp [slots, List.count_append, List.count_replicate]
  have htrade := count_set_slot slots hlength target k
  rw [hslot, hcount] at htrade
  exact htrade

/-- A slot that is pointed twice is pointed where it was last. -/
theorem pointed_pointed (c : Contents) (position : Nat) (first last : Option Handle) :
    { c.pointed position first with
      dependencies := (c.pointed position first).dependencies.set position last } =
        c.pointed position last := by
  unfold Contents.pointed
  simp only [List.set_set]

/-- Pointing a slot where it points changes nothing. -/
theorem pointed_self {c : Contents} {position : Nat} {slot : Option Handle}
    (hslot : c.dependencies[position]? = some slot) : c.pointed position slot = c := by
  obtain ⟨hlt, heq⟩ := List.getElem?_eq_some_iff.1 hslot
  have hnone : position + 1 - c.dependencies.length = 0 := by omega
  unfold Contents.pointed
  rw [hnone, List.replicate_zero, List.append_nil, ← heq]
  simp

theorem settles_swap {kind : Kind} {position : Nat} {target : Option Handle} (hs : s.Tidy)
    (hfits : (Upkeep.swap h kind position target).Fits s) :
    Settles (fuel < s.whole.card) s ((Upkeep.swap h kind position target).run fuel thread) fun t =>
      t.Tidy ∧ (Upkeep.swap h kind position target).Effect s t := by
  obtain ⟨hheld, htarget⟩ := hfits
  obtain ⟨hmade, hwhole, hsome⟩ := hs.owned.alive (.inl hheld)
  unfold Upkeep.run
  apply Settles.bind (Q := fun t => t.Tidy ∧ (Upkeep.swap h kind position target).Effect s t) _
    fun _ t ht => Settles.of_ok rfl ht
  unfold swapDependency
  cases hkind : (s.asset h).contentsOf kind with
  | none =>
    -- contents of another kind are left alone
    have hwrite (f : Contents → Contents) : writeContents h kind f s = .ok none s := by
      rw [writeContents_run, hkind]
    apply Settles.first (hwrite _)
    apply Settles.of_ok rfl
    refine ⟨hs, (Fell.refl s).toToppled, fun k hk => ?_, fun k => (Int.add_zero _).symm,
      fun k _ => ?_, rfl, fun _ _ _ _ _ _ _ => rfl⟩
    · exact hs.owned.tight.falls_iff (fun _ hl _ => hl) hk rfl
    · show _ = if h = k then _ else _
      by_cases hk : h = k
      · subst hk
        rw [if_pos rfl]
        obtain ⟨c, hc, -⟩ := hs.owned.simple h hwhole
        have hother : c.kind ≠ kind := by
          intro heq
          simp [Asset.contentsOf, hc, heq] at hkind
        rw [hc, Option.map_some, if_neg hother]
      · rw [if_neg hk]
  | some c =>
    obtain ⟨hc, hsort⟩ : (s.asset h).contents = some c ∧ c.kind = kind := by
      simpa [Asset.contentsOf, Option.filter_eq_some_iff] using hkind
    -- the slot is emptied, and what it held is in hand
    let empty := c.pointed position none
    let r := s.modifyAsset h fun a => { a with contents := some empty }
    obtain ⟨htoppledR, hdestroyedR, hrefsR⟩ := toppled_written s h empty
    have hcontentsR : (r.asset h).contents = some empty := by
      rw [State.asset_modifyAsset, if_pos ⟨rfl, hmade⟩]
    have hr : Attributed r (c.dependencies[position]?).join.toList s.idle := by
      have hscript : empty.onDestroy = c.onDestroy := rfl
      apply hs.owned.tight.written hwhole hc hscript
      exact count_pointed c position none
    have hwrite (f : Contents → Contents) (hf : f c = empty) :
        writeContents h kind f s = .ok (some c) r := by
      rw [writeContents_run, hkind]
      dsimp only
      rw [hf]
    apply Settles.first (hwrite _ rfl)
    have hscope : ({ thread } : Scope).registry = 0 := rfl
    have hswap := settles_swapReference (empties_run fuel) hscope
      (fun k hk => (hdestroyedR k).trans (htarget k hk)) hr
    apply (hswap.weaken (fun hshort => Nat.lt_of_lt_of_le hshort htoppledR.card_whole_le)
      fun _ => id).bind
    rintro _ t ⟨htoppled, hspares, hclient, howned, hdoomed, hcontents, hstill⟩
    -- the asset whose slot it is is still held by client code
    have hheldT : 0 < net .client h t.history := by
      rw [hclient]
      exact hheld
    obtain ⟨hmadeT, hwholeT, -⟩ := howned.alive (.inl hheldT)
    have hcontentsT : (t.asset h).contents = some empty := (hcontents h hwholeT).trans hcontentsR
    have hkindT : (t.asset h).contentsOf kind = some empty := by
      rw [Asset.contentsOf, hcontentsT]
      exact Option.filter_some_pos (decide_eq_true hsort)
    let u := t.modifyAsset h fun a => { a with contents := some (c.pointed position target) }
    obtain ⟨htoppledU, hdestroyedU, hrefsU⟩ := toppled_written t h (c.pointed position target)
    have hassetU (k : Handle) : u.asset k = if h = k ∧ k < t.assets.size then
        { t.asset k with contents := some (c.pointed position target) } else t.asset k :=
      State.asset_modifyAsset t h k _
    have hu : Attributed u [] s.idle := by
      have hscript : (c.pointed position target).onDestroy = empty.onDestroy := rfl
      apply howned.written hwholeT hcontentsT hscript
      intro k
      have hbefore := count_pointed c position none k
      have hafter := count_pointed c position target k
      rw [Option.toList_none, List.count_nil] at hbefore
      rw [List.count_nil]
      show _ = (c.pointed position none).dependencies.count (some k) + _
      omega
    have hrewrite : writeContents h kind
        (fun d => { d with dependencies := d.dependencies.set position target }) t =
          .ok (some empty) u := by
      rw [writeContents_run, hkindT]
      dsimp only
      rw [pointed_pointed]
    apply Settles.first hrewrite
    apply Settles.of_ok rfl
    have htoppledAll : Toppled s u := (htoppledR.trans htoppled).trans htoppledU
    refine ⟨hu.tidy hs htoppledAll.registries hdoomed, htoppledAll, fun k hk => ?_,
      fun k => (hclient k).trans (Int.add_zero _).symm, fun k hk => ?_, hdoomed, ?_⟩
    · apply hu.falls_iff _ hk htoppledAll.size
      intro l hl hnone
      rw [hdestroyedU]
      exact hspares l ((hdestroyedR l).trans hl) ((hrefsR l).trans_le hnone)
    · show _ = if h = k then _ else _
      rw [hassetU]
      by_cases hhk : h = k
      · subst hhk
        rw [if_pos ⟨rfl, hmadeT⟩, if_pos rfl, hc, Option.map_some, if_pos hsort]
      · rw [if_neg fun heq => hhk heq.1, if_neg hhk]
        rw [hdestroyedU] at hk
        rw [hcontents k hk, State.asset_modifyAsset, if_neg fun heq => hhk heq.1]
    · -- the slot points where it did
      rintro h kind position k ⟨⟩ ⟨d, hd, hslot⟩ j
      obtain rfl : c = d := Option.some.inj (hc.symm.trans hd)
      have hsame := hstill (by rw [hslot]; rfl) (by rw [hslot]; rfl) j
      have hassetR : r.asset j = if h = j ∧ j < s.assets.size then
          { s.asset j with contents := some empty } else s.asset j :=
        State.asset_modifyAsset s h j _
      rw [hassetU, hsame, hassetR, pointed_self hslot, htoppled.size, htoppledR.size]
      by_cases hj : h = j
      · subst hj
        rw [if_pos ⟨rfl, hmade⟩, if_pos ⟨rfl, hmade⟩, ← hc]
      · rw [if_neg fun heq => hj heq.1, if_neg fun heq => hj heq.1]

end Operations

/-! ### Ownership graphs -/

theorem settles_upkeep {s : State} (hs : s.Tidy) {op : Upkeep} (hfits : op.Fits s) (fuel : Nat)
    (thread : Thread) : Settles (fuel < s.whole.card) s (op.run fuel thread) fun t =>
      t.Tidy ∧ op.Effect s t := by
  cases op with
  | swap h kind position target => exact settles_swap hs hfits
  | addref h => exact settles_addref hs hfits
  | release h => exact settles_release_client hs hfits
  | releaseDeferred h => exact settles_releaseDeferred hs hfits
  | flush => exact settles_flush hs

/-- States that client code comes to by making assets and by operations on references
that fit. -/
inductive Composed : State → Prop where
  | start (p : Session) : Composed p.start
  | made {s t : State} (hs : Composed s) {kind : Kind} {key : Key} {lookup : Lookup} {h : Handle}
      (hrun : findOrCreate 0 kind key s = .ok (lookup, h) t) : Composed t
  | step {s t : State} (hs : Composed s) {op : Upkeep} (hfits : op.Fits s) {fuel : Nat}
      {thread : Thread} (hrun : op.run fuel thread s = .ok () t) : Composed t

theorem State.Tidy.made {s t : State} (hs : s.Tidy) {kind : Kind} {key : Key} {lookup : Lookup}
    {h : Handle} (hrun : findOrCreate 0 kind key s = .ok (lookup, h) t) : t.Tidy := by
  cases hfind : s.find? 0 key.id kind.category with
  | some k =>
    rw [findOrCreate_of_find? hfind] at hrun
    cases hrun
    have hlive : 0 < (s.asset h).refs := (State.answersTo_iff.1 (List.find?_some hfind)).2.2
    have hmade : h < s.assets.size := State.lt_size_of_whole (.inr hlive)
    have hwhole : (s.asset h).destroyed = false := by
      rw [← Bool.not_eq_true]
      intro hgone
      have hnone := hs.owned.gone h hmade hgone
      omega
    -- found: the asset has one reference more, so it cannot have become idle
    refine ⟨(hs.owned.took_client hwhole).of_idle fun l hl _ hnone => ?_, hs.first⟩
    rcases List.mem_cons.1 hl with rfl | hl
    · rw [State.asset_took, if_pos ⟨rfl, hmade⟩] at hnone
      have hnone : (s.asset l).refs + 1 = 0 := hnone
      omega
    · exact hl
  | none =>
    -- made: a new asset, unless its number or its place could not be had
    rcases findOrCreate_of_find?_eq_none hfind with ⟨e, -, hfail⟩ | ⟨slot, linked, fields, -, hmade⟩
    · rw [hfail] at hrun
      cases hrun
    · rw [hmade] at hrun
      cases hrun
      have hregistries : (s.inserted 0 kind key slot linked).registries.size = s.registries.size :=
        Array.size_modify
      have hdoomed : ((s.inserted 0 kind key slot linked).registry 0).doomed =
          (s.registry 0).doomed := by
        show ((State.modifyRegistry _ 0 fun reg => { reg with linked }).registry 0).doomed = _
        rw [State.registry_modifyRegistry]
        split <;> rfl
      have howned := (hs.owned.inserted 0 kind key slot linked).same
        (t := (s.inserted 0 kind key slot linked).record (.logged .trace "Created asset" fields))
        ⟨rfl, fun _ => rfl, fun _ => rfl, fun _ => rfl, fun k => (net_cons _ k _ _).trans
          (Int.zero_add _)⟩
      exact ⟨hdoomed.symm ▸ howned, hregistries.symm ▸ hs.first⟩

theorem Composed.tidy {s : State} (hs : Composed s) : s.Tidy := by
  induction hs with
  | start p =>
    have hempty : (p.start.registry 0).doomed = [] ∧ 0 < p.start.registries.size := by
      unfold Session.start
      dsimp only
      split <;> exact ⟨rfl, Nat.zero_lt_one⟩
    exact ⟨hempty.1.symm ▸ Attributed.start p, hempty.2⟩
  | made _ hrun ih => exact ih.made hrun
  | @step s t _ op hfits fuel thread hrun ih =>
    have hsettles := settles_upkeep ih hfits fuel thread
    unfold Settles at hsettles
    rw [hrun] at hsettles
    exact hsettles.1

/-- **Ownership graphs.** In every state that client code can come to, counts are made up
of what it holds and of slots, what is destroyed has no reference, and what has none
waits for a flush. And every further operation that fits comes to an end without an
error, with fuel for as many destructors as there are assets, and has its effect. -/
theorem ownership_kept {s : State} (hs : Composed s) :
    (∀ h, h < s.assets.size → (s.asset h).refs = net .client h s.history + s.slotsOn h) ∧
    (∀ h, h < s.assets.size → (s.asset h).destroyed = true → (s.asset h).refs = 0) ∧
    (∀ h, (s.asset h).destroyed = false → 0 < (s.asset h).refs ∨
      (s.asset h).refs = 0 ∧ h ∈ (s.registry 0).doomed) ∧
    ∀ op : Upkeep, op.Fits s → ∀ thread fuel, s.assets.size ≤ fuel →
      ∃ t, op.run fuel thread s = .ok () t ∧ Composed t ∧ op.Effect s t := by
  have htidy := hs.tidy
  refine ⟨fun h hh => ?_, htidy.owned.gone, fun h hwhole => ?_, fun op hfits thread fuel hfuel => ?_⟩
  · rw [htidy.owned.counted h hh]
    exact Int.add_zero _
  · have hmade : h < s.assets.size := State.lt_size_of_whole (.inl hwhole)
    have hnonneg := htidy.owned.nonneg hmade
    by_cases hnone : (s.asset h).refs = 0
    · exact .inr ⟨hnone, htidy.owned.idle h hwhole hnone⟩
    · left
      omega
  · have hsettles := settles_upkeep htidy hfits fuel thread
    have henough : ¬ fuel < s.whole.card := by
      have hle := s.card_whole_le
      omega
    obtain ⟨_, t, hrun, -, heffect⟩ := hsettles.exists_ok henough
    exact ⟨t, hrun, hs.step hfits hrun, heffect⟩

/-- Two assets held by client code. -/
def heldPair : State :=
  ((Session.bare .manual).start.afterRun (findOrCreate 0 (.standard .mesh) (.ofId ⟨1⟩))).afterRun
    (findOrCreate 0 (.standard .mesh) (.ofId ⟨2⟩))

/-- The first holds the second in two slots, and client code has let the second go. -/
def heldTwice : State :=
  ((heldPair.afterRun ((Upkeep.swap 0 (.standard .mesh) 0 (some 1)).run 2 .main)).afterRun
    ((Upkeep.swap 0 (.standard .mesh) 1 (some 1)).run 2 .main)).afterRun
      ((Upkeep.release 1).run 2 .main)

theorem composed_heldTwice : Composed heldTwice := by
  have hmade {s : State} {kind : Kind} {key : Key} (hs : Composed s)
      (hrun : ∃ r, findOrCreate 0 kind key s = .ok r (s.afterRun (findOrCreate 0 kind key))) :
      Composed (s.afterRun (findOrCreate 0 kind key)) := by
    obtain ⟨⟨lookup, h⟩, hrun⟩ := hrun
    exact hs.made hrun
  have hstep {s : State} {op : Upkeep} (hs : Composed s) (hfits : op.Fits s)
      (hrun : ∃ r, op.run 2 .main s = .ok r (s.afterRun (op.run 2 .main))) :
      Composed (s.afterRun (op.run 2 .main)) := by
    obtain ⟨_, hrun⟩ := hrun
    exact hs.step hfits hrun
  have hpair : Composed heldPair :=
    hmade (hmade (.start _) (State.run_of_isOk (by decide +kernel)))
      (State.run_of_isOk (by decide +kernel))
  refine hstep (hstep (hstep hpair ?_ ?_) ?_ ?_) ?_ ?_
  · refine ⟨by decide +kernel, ?_⟩
    rintro k ⟨⟩
    decide +kernel
  · exact State.run_of_isOk (by decide +kernel)
  · refine ⟨by decide +kernel, ?_⟩
    rintro k ⟨⟩
    decide +kernel
  · exact State.run_of_isOk (by decide +kernel)
  · show 0 < net .client 1 _
    decide +kernel
  · exact State.run_of_isOk (by decide +kernel)

/-- Letting the first go makes both fall. -/
theorem heldTwice_kept : Composed heldTwice ∧
    (heldTwice.asset 1).refs = net .client 1 heldTwice.history + heldTwice.slotsOn 1 ∧
    (heldTwice.asset 1).refs = 2 ∧ (Upkeep.release 0).Fits heldTwice ∧
    ∃ t, (Upkeep.release 0).run 2 .main heldTwice = .ok () t ∧
      (Upkeep.release 0).Effect heldTwice t ∧ (t.asset 0).destroyed = true ∧
        (t.asset 1).destroyed = true := by
  have hkept := ownership_kept composed_heldTwice
  have hsize : heldTwice.assets.size = 2 := by decide +kernel
  have hfits : (Upkeep.release 0).Fits heldTwice := by
    show 0 < net .client 0 heldTwice.history
    decide +kernel
  obtain ⟨t, hrun, -, heffect⟩ := hkept.2.2.2 (.release 0) hfits .main 2 (Nat.le_of_eq hsize)
  have hleft : t = heldTwice.afterRun ((Upkeep.release 0).run 2 .main) := by
    unfold State.afterRun
    rw [hrun]
  refine ⟨composed_heldTwice, hkept.1 1 ?_, by decide +kernel, hfits, t, hrun, heffect, ?_, ?_⟩
  · rw [hsize]
    decide
  · rw [hleft]
    decide +kernel
  · rw [hleft]
    decide +kernel

end AssetLoading
