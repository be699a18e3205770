import AssetLoading.Proofs.Parts.Assets
import AssetLoading.Proofs.Relations.Logic

/-! # Code on assets keeps to permitted relations

  The parts of the registry's code and of load events, and changes of contents, of load
  states and of files.
-/

namespace AssetLoading

variable {R : State → State → Prop} (hR : Permits R) {early : Prop} {call : Runner}

include hR

/-! ### Counting references -/

/-- Keeping to a relation passes to code that is put together. -/
theorem Stays.composes (early : Prop) : Composes fun x => Stays R early x where
  pure := .pure hR
  bind hx hf := .bind hR hx hf
  look := .look

theorem Stays.countingParts (early : Prop) : CountingParts (fun x => Stays R early x) True where
  toComposes := Stays.composes hR early
  stop _ := .throw hR _
  log := stays_log hR
  took _ _ _ := stays_record hR (.inl rfl)
  dropped _ _ _ := stays_record hR (.inl rfl)
  revived _ _ := stays_record hR (.inl rfl)
  modifyAsset a f _ := stays_modifyAsset hR a f
  modifyRegistry := stays_modifyRegistry hR

theorem stays_addref (holder : Holder) (h : Handle) : Stays R early (addref holder h) :=
  (Stays.countingParts hR early).addref holder (fun _ => trivial) h

theorem stays_releaseDeferred (r : RegistryId) (holder : Holder) (h : Handle) :
    Stays R early (releaseDeferred r holder h) :=
  (Stays.countingParts hR early).releaseDeferred r holder (fun _ => trivial) h

theorem stays_stage (h : Handle) : Stays R early (stage h) :=
  .bind hR (stays_addref hR .notice h) fun _ => stays_modifyNotices hR _

/-! ### Making and destroying assets -/

theorem stays_insertAsset (r : RegistryId) (kind : Kind) (key : Key) :
    Stays R early (insertAsset r kind key) := by
  intro s
  refine .look ?_
  dsimp only
  split
  · exact .throw hR
  next slot linked hpush =>
    have hset : StaysFrom R early s
        (set { s with assets := s.assets.push { Asset.fresh kind key with slot := some slot } } :
          Exec Unit) := hR.assets s _
    refine .bind hR hset fun _ t _ => ?_
    exact Stays.bind hR (stays_modifyRegistry hR r _)
      (fun _ => .bind hR (stays_record hR (e := .took .client _) (.inl rfl)) fun _ => .pure hR _) t

section Calling

variable (hcall : call.Stays R early)

include hcall

theorem stays_destroy (scope : Scope) (h : Handle) : Stays R early (destroy call scope h) := by
  refine .bind hR (stays_getAsset hR h) fun a => ?_
  split
  · exact .bind hR (stays_modifyAsset hR h _) fun _ => .bind hR (stays_log hR _ _ _) fun _ =>
      .bind hR (hcall.stays _) fun _ => .bind hR ((Stays.countingParts hR early).unlink _ h) fun _ =>
      .bind hR (stays_modifyAsset hR h _) fun _ => .pure hR _
  · exact .bind hR (stays_modifyAsset hR h _) fun _ => .pure hR _

theorem Stays.registryParts : RegistryParts (fun x => Stays R early x) call True where
  toCountingParts := Stays.countingParts hR early
  stuck := .throw hR _
  insertAsset := stays_insertAsset hR
  destroy := stays_destroy hR hcall

/-! ### Load events -/

theorem stays_notify (thread : Thread) (sub : Subscription) :
    Stays R early (notify call thread sub) :=
  .look fun _ => .bind hR (stays_record hR (.inr (.inr rfl))) fun _ =>
    .bind hR (hcall.stays _) fun _ => .pure hR _

theorem Stays.noticeParts : NoticeParts (fun x => Stays R early x) call True where
  toRegistryParts := Stays.registryParts hR hcall
  modifyNotices := stays_modifyNotices hR
  notify := stays_notify hR hcall

end Calling

/-! ### Contents, load states and files -/

theorem stays_writeContents (h : Handle) (kind : Kind) (f : Contents → Contents) :
    Stays R early (writeContents h kind f) := by
  refine .bind hR (stays_getAsset hR h) fun a => ?_
  split
  · exact .bind hR (stays_modifyAsset hR h _) fun _ => .pure hR _
  · exact .pure hR _

theorem stays_setState (scope : Scope) (h : Handle) (state : LoadState) :
    Stays R early (setState scope h state) :=
  .bind hR (stays_modifyAsset hR h _) fun _ => stays_record hR (.inr (.inr rfl))

theorem stays_changeFiles (change : FileTree → Bool × FileTree) :
    Stays R early (changeFiles change) :=
  fun s => hR.files s _

end AssetLoading
