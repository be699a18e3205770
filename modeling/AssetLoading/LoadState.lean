/-! # Load states

  Where an asset is in its loading life. States are ordered by an integer
  code; every error state is negative, so "at least loaded" is one comparison
  that a failed asset never meets.
-/

namespace AssetLoading

/-- The load state of an asset. -/
inductive LoadState where
  /-- The source was read but cannot be used. -/
  | errorUnsupported
  /-- The source was not found. -/
  | errorNotFound
  /-- Loading failed for another reason. -/
  | error
  /-- Nothing was requested. -/
  | none
  /-- Queued or in progress. -/
  | loading
  /-- Only the description of the data is available. -/
  | loadedMeta
  /-- Ready for use. -/
  | loaded
deriving DecidableEq, Repr, Inhabited

namespace LoadState

/-- The code that orders the states. -/
def code : LoadState → Int
  | errorUnsupported => -3
  | errorNotFound => -2
  | error => -1
  | none => 0
  | loading => 1
  | loadedMeta => 2
  | loaded => 3

/-- The state of a code. An unknown negative code is a plain error, an unknown
positive one is loaded. -/
def ofCode (c : Int) : LoadState :=
  if c = -3 then errorUnsupported
  else if c = -2 then errorNotFound
  else if c < 0 then error
  else if c = 0 then none
  else if c = 1 then loading
  else if c = 2 then loadedMeta
  else loaded

theorem ofCode_code (s : LoadState) : ofCode s.code = s := by
  cases s <;> rfl

/-- `true` for the error states. -/
def isError (s : LoadState) : Bool :=
  decide (s.code < 0)

/-- `true` once fully loaded. -/
def isLoaded (s : LoadState) : Bool :=
  decide (loaded.code ≤ s.code)

/-- States compare as their codes. -/
def order (a b : LoadState) : Ordering :=
  compare a.code b.code

/-- The diagnostic form. -/
def debug : LoadState → String
  | errorUnsupported => "ErrorUnsupported"
  | errorNotFound => "ErrorNotFound"
  | error => "Error"
  | none => "None"
  | loading => "Loading"
  | loadedMeta => "LoadedMeta"
  | loaded => "Loaded"

end LoadState

end AssetLoading
