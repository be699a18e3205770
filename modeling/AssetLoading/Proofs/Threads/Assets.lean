import AssetLoading.Proofs.Parts.Assets
import AssetLoading.Proofs.Threads.Guarded

/-! # Code on assets keeps the discipline

  Finding, making and naming assets, taking and dropping references, and changes of
  contents and of load states.
-/

namespace AssetLoading

variable {p : Prop} {call : Runner}

/-! ### Counting references -/

/-- Keeping the discipline passes to code that is put together. -/
theorem Keeps.composes (p : Prop) : Composes fun x => Keeps p x where
  pure := .pure
  bind hx hf := .bind hx hf
  look := .look

/-- Code that counts references stores no code. -/
theorem Keeps.countingParts (p : Prop) : CountingParts (fun x => Keeps p x) True where
  toComposes := Keeps.composes p
  stop _ := .throw _
  log := keeps_log
  took _ _ _ := keeps_record trivial
  dropped _ _ _ := keeps_record trivial
  revived _ _ := keeps_record trivial
  modifyAsset a _ hf := keeps_modifyAsset a fun asset => .of_eq (hf asset)
  modifyRegistry := keeps_modifyRegistry

/-! ### Making and destroying assets -/

theorem keeps_insertAsset (r : RegistryId) (kind : Kind) (key : Key) :
    Keeps p (insertAsset r kind key) := by
  intro s hs
  refine .look ?_
  dsimp only
  split
  · exact .throw hs
  next slot linked hpush =>
    have hquiet : s.Quiet
        { s with assets := s.assets.push { Asset.fresh kind key with slot := some slot } } := by
      refine .pushAsset fun c hc => ?_
      cases hc
      rfl
    refine Guarded.bind (Q := fun _ _ => True)
      (.of_ok rfl hquiet.before (fun hp => (hs hp).quiet hquiet) fun _ => trivial) fun _ t _ ht _ => ?_
    exact Keeps.guarded (.bind (keeps_modifyRegistry r _) fun _ =>
      .bind (keeps_record (e := .took .client _) trivial) fun _ => .pure _) ht

/-- The contents of an asset are there until it is destroyed. -/
theorem keeps_destroy (hcall : call.IsGuarded p) (scope : Scope) (h : Handle) :
    Keeps p (destroy call scope h) := by
  have hempty (a : Asset) : a.ScriptFrom { a with destroyed := true, contents := none } :=
    fun _ hc => nomatch hc
  intro s hs
  refine .lookAsset ?_
  split
  next contents _ hcontents =>
    refine (keeps_modifyAsset h hempty).first hs fun _ t _ ht =>
      (keeps_log _ _ _).first ht fun _ t _ ht => ?_
    refine Keeps.guarded (.bind (hcall.keeps _ fun hp => ?_) fun _ =>
      .bind ((Keeps.countingParts p).unlink _ h) fun _ =>
      .bind (keeps_modifyAsset h fun _ => .of_eq rfl) fun _ => .pure _) ht
    exact (hs hp).contents h contents hcontents
  · exact Keeps.guarded (.bind (keeps_modifyAsset h fun _ => .of_eq rfl) fun _ => .pure _) hs

/-- The code of the registry keeps the discipline. -/
theorem Keeps.registryParts (hcall : call.IsGuarded p) :
    RegistryParts (fun x => Keeps p x) call True where
  toCountingParts := Keeps.countingParts p
  stuck := .throw _
  insertAsset := keeps_insertAsset
  destroy := keeps_destroy hcall

/-! ### Contents and load states -/

/-- Contents are changed, and their script only for one that may be stored. -/
theorem keeps_writeContents (h : Handle) (kind : Kind) {f : Contents → Contents}
    (hf : p → ∀ c, Script.Public c.onDestroy → Script.Public (f c).onDestroy) :
    Keeps p (writeContents h kind f) := by
  intro s hs
  refine .lookAsset ?_
  split
  next contents hcontents =>
    have hstored := (Option.filter_eq_some_iff.1 hcontents).1
    have hext : s.Extends (s.modifyAsset h fun a => { a with contents := some (f contents) }) :=
      .of_same List.suffix_rfl rfl rfl
    refine .of_ok (a := some contents) rfl (.of_jobs hext fun _ hj => ⟨hj, rfl⟩) (fun hp => ?_)
      fun _ => trivial
    refine (hs hp).modifyAsset fun c hc => ?_
    obtain rfl : f contents = c := Option.some.inj hc
    exact hf hp contents ((hs hp).contents h contents hstored)
  · exact .pure hs fun _ => trivial

theorem keeps_setState (scope : Scope) (h : Handle) (state : LoadState) :
    Keeps p (setState scope h state) :=
  .bind (keeps_modifyAsset h fun _ => .of_eq rfl) fun _ => keeps_record trivial

end AssetLoading
