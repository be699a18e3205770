import AssetLoading.Scheduler.Delivery

/-! # What code on assets is made of

  Many laws are proved of all client code in one way: a property of code passes to
  code that is put together, and the parts have it that all code is made of. Which
  parts these are is said here once, for the code of the registry and for load events.
  `Composes Holds` says that a property passes on. A property that holds for the parts
  holds for all that is made of them.

  Some laws speak of tasks and so mind the references that tasks hold. They ask for
  parts of which this is not said: `tasks` is `False` for them, and `True` for a law
  that does not mind.
-/

namespace AssetLoading

/-! ### Code that is put together -/

/-- A property of code that passes to what is put together from such code. -/
structure Composes (Holds : {α : Type} → Exec α → Prop) : Prop where
  pure : ∀ {α : Type} (a : α), Holds (Pure.pure a : Exec α)
  bind : ∀ {α β : Type} {x : Exec α} {f : α → Exec β}, Holds x → (∀ a, Holds (f a)) →
    Holds (x >>= f)
  /-- Code that begins by looking at the state. -/
  look : ∀ {α : Type} {f : State → Exec α}, (∀ s, Holds (f s)) → Holds (get >>= f)

variable {Holds : {α : Type} → Exec α → Prop} {call : Runner} {tasks : Prop}

theorem Composes.getAsset (h : Composes Holds) (a : Handle) : Holds (getAsset a) :=
  h.look fun _ => h.pure _

/-! ### Counting references -/

/-- The parts of code that counts references have a property. -/
structure CountingParts (Holds : {α : Type} → Exec α → Prop) (tasks : Prop) : Prop
    extends Composes Holds where
  /-- A usage error stops everything. -/
  stop : ∀ {α : Type} (error : UsageError), Holds (MonadExcept.throw (.fatal error) : Exec α)
  log : ∀ level message fields, Holds (log level message fields)
  took : ∀ holder a, (holder = .task → tasks) → Holds (record (.took holder a))
  dropped : ∀ holder a, (holder = .task → tasks) → Holds (record (.dropped holder a))
  revived : ∀ a rival, Holds (record (.revived a rival))
  /-- An asset changes, but for its contents. -/
  modifyAsset : ∀ a (f : Asset → Asset), (∀ asset, (f asset).contents = asset.contents) →
    Holds (modifyAsset a f)
  modifyRegistry : ∀ r f, Holds (modifyRegistry r f)

namespace CountingParts

variable (h : CountingParts Holds tasks)

include h

theorem take (holder : Holder) (hholder : holder = .task → tasks) (a : Handle) :
    Holds (take holder a) :=
  h.bind (h.modifyAsset a _ fun _ => rfl) fun _ => h.took holder a hholder

theorem findAddref (r : RegistryId) (id : AssetId) (category : Category) :
    Holds (findAddref r id category) := by
  refine h.look fun s => ?_
  split
  · exact h.pure _
  · exact h.bind (h.take .client nofun _) fun _ => h.pure _

theorem rekey (r : RegistryId) (a : Handle) (key : Key) : Holds (rekey r a key) := by
  refine h.look fun s => ?_
  dsimp only
  split
  · exact h.stop _
  · exact h.modifyAsset a _ fun _ => rfl

theorem addref (holder : Holder) (hholder : holder = .task → tasks) (a : Handle) :
    Holds (addref holder a) := by
  refine h.look fun s => ?_
  dsimp only
  split
  · exact h.stop _
  split
  · exact h.bind (h.revived a _) fun _ => h.bind (h.take holder hholder a) fun _ => h.log _ _ _
  · exact h.take holder hholder a

theorem dropRef (holder : Holder) (hholder : holder = .task → tasks) (a : Handle) :
    Holds (dropRef holder a) := by
  refine h.bind (h.modifyAsset a _ fun _ => rfl) fun _ => h.bind (h.dropped holder a hholder) fun _ =>
    h.bind (h.getAsset a) fun asset => ?_
  split
  · exact h.stop _
  · exact h.pure _

theorem unlink (r : RegistryId) (a : Handle) : Holds (unlink r a) := by
  refine h.look fun s => ?_
  split
  · exact h.pure _
  split
  · split
    · exact h.pure _
    · exact h.modifyRegistry r _
  · exact h.pure _

theorem releaseDeferred (r : RegistryId) (holder : Holder) (hholder : holder = .task → tasks)
    (a : Handle) : Holds (releaseDeferred r holder a) := by
  refine h.bind (h.dropRef holder hholder a) fun refs => ?_
  split
  · exact h.modifyRegistry r _
  · exact h.pure _

theorem logLeaks (as : List Handle) : Holds (logLeaks as) := by
  induction as with
  | nil => exact h.pure _
  | cons a as ih => exact h.bind (h.getAsset a) fun _ => h.bind (h.log _ _ _) fun _ => ih

theorem reportLeaks (r : RegistryId) : Holds (reportLeaks r) := by
  refine h.look fun s => ?_
  dsimp only
  split
  · exact h.pure _
  · exact h.bind (h.logLeaks _) fun _ => h.bind (h.log _ _ _) fun _ => h.pure _

end CountingParts

/-! ### Making and destroying assets -/

/-- The parts of the registry's code have a property. -/
structure RegistryParts (Holds : {α : Type} → Exec α → Prop) (call : Runner) (tasks : Prop) : Prop
    extends CountingParts Holds tasks where
  /-- No name is found that is free. -/
  stuck : ∀ {α : Type}, Holds (MonadExcept.throw .stuck : Exec α)
  insertAsset : ∀ r kind key, Holds (insertAsset r kind key)
  destroy : ∀ scope a, Holds (destroy call scope a)

namespace RegistryParts

variable (h : RegistryParts Holds call tasks)

include h

theorem findOrCreate (r : RegistryId) (kind : Kind) (key : Key) : Holds (findOrCreate r kind key) := by
  refine h.bind (h.findAddref r _ _) fun found => ?_
  split
  · exact h.pure _
  · exact h.bind (h.insertAsset r kind key) fun a => h.bind (h.getAsset a) fun _ =>
      h.bind (h.log _ _ _) fun _ => h.pure _

theorem createAsset (r : RegistryId) (kind : Kind) : Holds (createAsset r kind) := by
  refine h.look fun s => ?_
  split
  · exact h.stuck
  · exact h.bind (h.modifyRegistry r _) fun _ => h.insertAsset r kind _

theorem release (scope : Scope) (holder : Holder) (hholder : holder = .task → tasks) (a : Handle) :
    Holds (release call scope holder a) := by
  refine h.bind (h.dropRef holder hholder a) fun refs => ?_
  split
  · exact h.bind (h.destroy scope a) fun _ => h.pure _
  · exact h.pure _

theorem releaseAll (scope : Scope) (holder : Holder) (hholder : holder = .task → tasks)
    (as : List Handle) : Holds (releaseAll call scope holder as) := by
  induction as with
  | nil => exact h.pure _
  | cons a as ih => exact h.bind (h.release scope holder hholder a) fun _ => ih

theorem swapReference (scope : Scope) (holder : Holder) (hholder : holder = .task → tasks)
    (old new : Option Handle) : Holds (swapReference call scope holder old new) := by
  have hold : Holds (AssetLoading.swapReference call scope holder old none) := by
    cases old with
    | none => exact h.pure _
    | some a => exact h.release scope holder hholder a
  cases new with
  | none => exact hold
  | some a => exact h.bind (h.addref holder hholder a) fun _ => hold

theorem releaseDependencies (scope : Scope) (ds : List (Option Handle)) :
    Holds (releaseDependencies call scope ds) := by
  induction ds with
  | nil => exact h.pure _
  | cons d ds ih => exact h.bind (h.swapReference scope .dependency nofun d none) fun _ => ih

theorem destroyUnreferenced (scope : Scope) (as : List Handle) :
    Holds (destroyUnreferenced call scope as) := by
  induction as with
  | nil => exact h.pure _
  | cons a as ih =>
    refine h.bind (h.getAsset a) fun asset => ?_
    split
    · exact h.bind (h.destroy scope a) fun _ => h.bind ih fun _ => h.pure _
    · exact h.bind (h.log _ _ _) fun _ => ih

theorem flush (scope : Scope) : Holds (flush call scope) :=
  h.look fun _ => h.bind (h.modifyRegistry _ _) fun _ => h.destroyUnreferenced scope _

end RegistryParts

/-! ### Load events -/

/-- The parts of the code for load events have a property, whatever subscribers do. -/
structure NoticeParts (Holds : {α : Type} → Exec α → Prop) (call : Runner) (tasks : Prop) : Prop
    extends RegistryParts Holds call tasks where
  modifyNotices : ∀ f, Holds (modifyNotices f)
  notify : ∀ thread sub, Holds (notify call thread sub)

namespace NoticeParts

variable (h : NoticeParts Holds call tasks)

include h

theorem notifyAll (thread : Thread) (subs : List Subscription) :
    Holds (notifyAll call thread subs) := by
  induction subs with
  | nil => exact h.pure _
  | cons sub subs ih => exact h.bind (h.notify thread sub) fun _ => ih

theorem subscribe (thread : Thread) (a : Handle) (label : String) (code : Script) :
    Holds (subscribe call thread a label code) := by
  refine h.look fun s => h.bind (h.modifyNotices _) fun _ => h.look fun t => ?_
  dsimp only
  split
  · exact h.bind (h.notify thread _) fun _ => h.pure _
  · exact h.pure _

theorem unsubscribe (a : Handle) (id : Option Nat) : Holds (unsubscribe a id) :=
  h.look fun _ => h.bind (h.modifyNotices _) fun _ => h.pure _

theorem deliver (thread : Thread) : Holds (deliver call thread) :=
  h.look fun _ => h.bind (h.modifyNotices _) fun _ => h.bind (h.notifyAll thread _) fun _ =>
    h.bind (h.releaseAll _ .notice nofun _) fun _ => h.pure _

theorem clearNotices (thread : Thread) : Holds (clearNotices call thread) :=
  h.look fun _ => h.bind (h.modifyNotices _) fun _ => h.releaseAll _ .notice nofun _

end NoticeParts

end AssetLoading
