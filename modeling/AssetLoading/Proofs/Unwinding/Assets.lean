import AssetLoading.Proofs.Parts.Assets
import AssetLoading.Proofs.Unwinding.Tally
import AssetLoading.Interpreter.Answers
import AssetLoading.Registry.References
import AssetLoading.Scheduler.Delivery

/-! # Code on assets leaves tasks alone

  Finding, making and naming assets, taking and dropping references, and load
  events. Where no client code runs nothing unwinds, but for an asset that finds no
  slot. Client code that unwinds in a destructor or in a load callback ends the code
  around it, which has no claim of its own.
-/

namespace AssetLoading

/-- A runner of client code leaves the claims as they are, unless it unwinds. -/
def Runner.IsSteady (call : Runner) : Prop :=
  ∀ callback, Steady true (call callback)

variable {u : Bool} {call : Runner}

/-! ### Counting references -/

/-- Being steady passes to code that is put together. -/
theorem Steady.composes (u : Bool) : Composes fun x => Steady u x where
  pure := .pure
  bind hx hf := .bind hx hf
  look := .look

/-- The references of tasks are counted by what is outstanding; all others leave it alone. -/
theorem Steady.countingParts (u : Bool) : CountingParts (fun x => Steady u x) False where
  toComposes := Steady.composes u
  stop _ := .throw nofun
  log := steady_log
  took _ a hholder := steady_record (Event.isApart_took hholder a)
  dropped _ a hholder := steady_record (Event.isApart_dropped hholder a)
  revived _ _ := steady_record rfl
  modifyAsset a f _ := steady_modifyAsset a f
  modifyRegistry := steady_modifyRegistry

theorem steady_stage (h : Handle) : Steady u (stage h) :=
  .bind ((Steady.countingParts u).addref .notice nofun h) fun _ => steady_modifyNotices _

/-! ### Making and destroying assets -/

theorem steady_insertAsset (r : RegistryId) (kind : Kind) (key : Key) :
    Steady true (insertAsset r kind key) := by
  intro s k hs
  show Tallied s k (some k) (insertAsset r kind key)
  refine .look ?_
  dsimp only
  split
  · exact (Steady.panic _).unwinding hs
  next slot linked hpush =>
    let made : State :=
      { s with assets := s.assets.push { Asset.fresh kind key with slot := some slot } }
    have hset : s.Apart made := .of_eq rfl id rfl rfl rfl
    have hmade : Tallied s k (some k) (set made : Exec PUnit) :=
      .of_ok rfl hset.precedes (hset.passes hs)
    refine hmade.bind fun _ t _ ht => ?_
    exact Steady.unwinding (.bind (steady_modifyRegistry r _) fun _ =>
      .bind (steady_record rfl) fun _ => .pure _) ht

theorem steady_destroy (hcall : call.IsSteady) (scope : Scope) (h : Handle) :
    Steady true (destroy call scope h) := by
  refine .bind (steady_getAsset h) fun a => ?_
  split
  · exact .bind (steady_modifyAsset h _) fun _ => .bind (steady_log _ _ _) fun _ =>
      .bind (hcall _) fun _ => .bind ((Steady.countingParts true).unlink _ h) fun _ =>
      .bind (steady_modifyAsset h _) fun _ => .pure _
  · exact .bind (steady_modifyAsset h _) fun _ => .pure _

theorem Steady.registryParts (hcall : call.IsSteady) :
    RegistryParts (fun x => Steady true x) call False where
  toCountingParts := Steady.countingParts true
  stuck := .throw nofun
  insertAsset := steady_insertAsset
  destroy := steady_destroy hcall

/-! ### Contents and load states -/

theorem steady_writeContents (h : Handle) (kind : Kind) (f : Contents → Contents) :
    Steady u (writeContents h kind f) := by
  refine .bind (steady_getAsset h) fun a => ?_
  split
  · exact .bind (steady_modifyAsset h _) fun _ => .pure _
  · exact .pure _

theorem steady_setState (scope : Scope) (h : Handle) (state : LoadState) :
    Steady u (setState scope h state) :=
  .bind (steady_modifyAsset h _) fun _ => steady_record rfl

/-! ### Load events -/

theorem steady_notify (hcall : call.IsSteady) (thread : Thread) (sub : Subscription) :
    Steady true (notify call thread sub) :=
  .look fun _ => .bind (steady_record rfl) fun _ => .bind (hcall _) fun _ => .pure _

theorem Steady.noticeParts (hcall : call.IsSteady) :
    NoticeParts (fun x => Steady true x) call False where
  toRegistryParts := Steady.registryParts hcall
  modifyNotices := steady_modifyNotices
  notify := steady_notify hcall

end AssetLoading
