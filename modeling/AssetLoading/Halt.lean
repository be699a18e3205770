import AssetLoading.History
import AssetLoading.Slot

/-! # Early ends

  Why code may not return: it unwinds, a usage error stops the whole program,
  or it waits for something that never happens. Only an unwinding leaves
  something to go on with.
-/

namespace AssetLoading

/-- Why code unwinds. -/
inductive PanicCause where
  /-- Client code chose to. -/
  | client (message : String)
  /-- A slot could not be made. -/
  | slot (error : SlotError)
  /-- A number became too large. -/
  | overflow
deriving DecidableEq, Repr, Inhabited

/-- The text of a panic. -/
def PanicCause.message : PanicCause → String
  | client message => message
  | slot error => error.message
  | overflow => "attempt to add with overflow"

/-- A misuse that stops the program. -/
inductive UsageError where
  /-- A reference was taken on a destroyed asset. -/
  | addedToDestroyed (holder : Holder) (asset : Handle) (category : Category) (name : String)
  /-- More references were dropped than had been taken. -/
  | releasedTooMany (holder : Holder) (asset : Handle) (category : Category) (name : String)
      (refs : Int) (state : LoadState)
  /-- A key belongs to another live asset of the category. -/
  | keyInUse (name : Option String) (category : Category)
  /-- An update off the GPU thread. -/
  | updateOffGpuThread
  /-- A blocking call, given by name, on a worker thread. -/
  | blockedOnWorker (callName : String)
  /-- A first shutdown off the GPU thread, on a worker or elsewhere. -/
  | shutdownOffGpuThread (onWorker : Bool)
deriving DecidableEq, Repr, Inhabited

/-- The text of a usage error. -/
def UsageError.message : UsageError → String
  | addedToDestroyed _ _ category name =>
    s!"Added a reference to destroyed {category.name} asset '{name}'"
  | releasedTooMany _ _ category name refs state =>
    s!"Released too many references to {category.name} asset '{name}'"
      ++ s!" (refs = {refs}, state = {state.debug})"
  | keyInUse name category =>
    s!"Asset id '" ++ name.getD "<unnamed>"
      ++ s!"' is already in use by another {category.name} asset"
  | updateOffGpuThread => "AssetScheduler::step must be called from the GPU thread"
  | blockedOnWorker callName =>
    s!"AssetScheduler::{callName} called from an asset worker thread"
  | shutdownOffGpuThread onWorker =>
    "AssetScheduler must be shut down on the GPU thread (called from "
      ++ (if onWorker then "an asset worker" else "another thread") ++ ")"

/-- Why code did not return. -/
inductive Halt where
  /-- It unwound. -/
  | panic (cause : PanicCause)
  /-- A usage error stopped everything. -/
  | fatal (error : UsageError)
  /-- It waits for something that never happens. -/
  | stuck
  /-- The evaluation was given up. -/
  | outOfFuel
deriving DecidableEq, Repr, Inhabited

end AssetLoading
