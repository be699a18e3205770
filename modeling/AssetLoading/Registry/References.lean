import AssetLoading.Registry.Lookup

/-! # Taking and dropping references

  References are counted explicitly. The last reference dropped destroys the
  asset: its contents are taken away, their destructor runs, and only then is
  the asset unlinked. A deferred release leaves this to the main thread, and
  until then the asset may be rescued by a new reference.

  Destructors are client code and may come back to everything here, so the
  functions take the runner of client code as a parameter.
-/

namespace AssetLoading

/-- Another live asset with the id and the category of an asset. -/
def State.rival? (s : State) (h : Handle) : Option Handle :=
  (List.range s.assets.size).find? fun k =>
    k ≠ h && s.answersTo (s.asset h).id (s.asset h).category k

/-- Take a reference on an asset that is not destroyed. -/
def addref (holder : Holder) (h : Handle) : Exec Unit := do
  let s ← get
  let a := s.asset h
  if a.destroyed then
    throw (.fatal (.addedToDestroyed holder h a.category a.displayName))
  -- it waits for a flush, which is going to pass over it now
  if a.refs = 0 then
    record (.revived h (s.rival? h))
    take holder h
    log .debug "Asset rescued from pending destruction" [("asset", .text a.displayName)]
  else take holder h

/-- Drop a reference and tell how many are left; dropping more than were taken
is a usage error. -/
def dropRef (holder : Holder) (h : Handle) : Exec Int := do
  modifyAsset h fun a => { a with refs := a.refs - 1 }
  record (.dropped holder h)
  let a ← getAsset h
  if a.refs < 0 then
    throw (.fatal (.releasedTooMany holder h a.category a.displayName a.refs a.state))
  pure a.refs

/-- Remove an asset from a registry, if it is linked there. -/
def unlink (r : RegistryId) (h : Handle) : Exec Unit := do
  let s ← get
  match (s.asset h).slot with
  | none => pure ()
  | some slot =>
    -- the place may be one of another registry, or hold a later asset by now
    if (s.registry r).linked.get? slot = some h then
      match (s.registry r).linked.take? slot with
      | none => pure ()
      | some (_, linked) => modifyRegistry r fun reg => { reg with linked }
    else pure ()

section Destroying

variable (call : Runner)

/-- Run the destructor of an asset, once, and unlink it; `false` if it had been
destroyed before. -/
def destroy (scope : Scope) (h : Handle) : Exec Bool := do
  let a ← getAsset h
  match a.destroyed, a.contents with
  | false, some contents =>
    modifyAsset h fun a => { a with destroyed := true, contents := none }
    log .trace "Destroying asset"
      [("asset", .text a.displayName), ("ty", .text a.category.name)]
    -- marked before, because the destructor may come back to this asset
    let _ ← call (.destructor { thread := scope.thread, registry := scope.registry } h contents)
    -- linked until here, so that its place is not given to what the destructor makes
    unlink scope.registry h
    modifyAsset h fun a => { a with slot := none, state := .none }
    pure true
  | _, _ =>
    modifyAsset h fun a => { a with destroyed := true }
    pure false

/-- Drop a reference, destroying the asset with the last one. -/
def release (scope : Scope) (holder : Holder) (h : Handle) : Exec Unit := do
  let refs ← dropRef holder h
  if refs = 0 then
    let _ ← destroy call scope h

/-- Drop a reference on each of several assets. -/
def releaseAll (scope : Scope) (holder : Holder) : List Handle → Exec Unit
  | [] => pure ()
  | h :: hs => do
    release call scope holder h
    releaseAll scope holder hs

/-- Drop a reference; at zero the asset waits for the main thread. -/
def releaseDeferred (r : RegistryId) (holder : Holder) (h : Handle) : Exec Unit := do
  let refs ← dropRef holder h
  if refs = 0 then
    modifyRegistry r fun reg => { reg with doomed := reg.doomed ++ [h] }

/-- Move a reference from the old target of a place to a new one. The new
reference is taken first, so both may be one asset. -/
def swapReference (scope : Scope) (holder : Holder) (old new : Option Handle) : Exec Unit := do
  match new with
  | some h => addref holder h
  | none => pure ()
  match old with
  | some h => release call scope holder h
  | none => pure ()

/-- Empty the places that hold references, one after the other. -/
def releaseDependencies (scope : Scope) : List (Option Handle) → Exec Unit
  | [] => pure ()
  | d :: ds => do
    swapReference call scope .dependency d none
    releaseDependencies scope ds

/-- Destroy those of several assets that still hold no reference; how many
were destroyed by this. -/
def destroyUnreferenced (scope : Scope) : List Handle → Exec Nat
  | [] => pure 0
  | h :: hs => do
    let a ← getAsset h
    -- the destructor of one before it may have rescued it
    if a.refs = 0 then
      let done ← destroy call scope h
      let rest ← destroyUnreferenced scope hs
      pure (rest + if done then 1 else 0)
    else
      log .trace "Skipping rescued asset"
        [("asset", .text a.displayName), ("refs", .number a.refs)]
      destroyUnreferenced scope hs

/-- Destroy what was released with `releaseDeferred` and not rescued since. -/
def flush (scope : Scope) : Exec Nat := do
  let doomed := ((← get).registry scope.registry).doomed
  -- what destructors leave to the main thread waits for the next flush
  modifyRegistry scope.registry fun reg => { reg with doomed := [] }
  destroyUnreferenced call scope doomed

end Destroying

/-! ### Leaks -/

/-- The linked assets that hold references. -/
def State.leaks (s : State) (r : RegistryId) : List Handle :=
  (s.linked r).filter fun h => decide (0 < (s.asset h).refs)

/-- Write a log line for each of several assets. -/
def logLeaks : List Handle → Exec Unit
  | [] => pure ()
  | h :: hs => do
    let a ← getAsset h
    log .warn "Unreleased asset"
      [("ty", .text a.category.name), ("asset", .text a.displayName), ("refs", .number a.refs)]
    logLeaks hs

/-- Log every linked asset that still holds references; how many there are. -/
def reportLeaks (r : RegistryId) : Exec Nat := do
  let leaks := (← get).leaks r
  if leaks.isEmpty then pure 0
  else
    logLeaks leaks
    log .error s!"{leaks.length} unreleased assets still found in the asset registry!" []
    pure leaks.length

end AssetLoading
