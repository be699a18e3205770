import AssetLoading.LoadState

/-! # Failures of asset operations

  Load actions report failure as a truth value and leave the reason on the
  asset; these failures cover the edges around them: file access and thread
  setup. Each one names the state its asset should be left in.
-/

namespace AssetLoading

/-- What the system below reports about a file or a thread. -/
inductive SystemFault where
  /-- A directory stands where a file is wanted. -/
  | isDirectory
  /-- A file stands where a directory is wanted. -/
  | notDirectory
  /-- Something stands where nothing should. -/
  | alreadyExists
  /-- A name or a whole path is too long. -/
  | nameTooLong
  /-- A path holds the zero character. -/
  | zeroInName
  /-- A fault with a text of its own. -/
  | other (text : String)
deriving DecidableEq, Repr

/-- The text of a system fault. -/
def SystemFault.message : SystemFault → String
  | isDirectory => "Is a directory (os error 21)"
  | notDirectory => "Not a directory (os error 20)"
  | alreadyExists => "File exists (os error 17)"
  | nameTooLong => "File name too long (os error 36)"
  | zeroInName => "file name contained an unexpected NUL byte"
  | other text => text

/-- Why an asset operation failed. -/
inductive Failure where
  /-- The data was not found. -/
  | notFound (path : String)
  /-- The data could not be read. -/
  | unreadable (path : String) (cause : SystemFault)
  /-- The data was read but makes no sense. -/
  | unsupported (path message : String)
  /-- A worker thread could not be started. -/
  | threadSpawn (cause : SystemFault)
  /-- Any other failure. -/
  | other (message : String)
deriving DecidableEq, Repr

namespace Failure

/-- The state an asset should be left in. -/
def state : Failure → LoadState
  | notFound _ => .errorNotFound
  | unsupported _ _ => .errorUnsupported
  | _ => .error

/-- The diagnostic text. -/
def message : Failure → String
  | notFound path => s!"Asset not found: {path}"
  | unreadable path cause => s!"IO error loading '{path}': {cause.message}"
  | unsupported path text => s!"Unsupported asset data in '{path}': {text}"
  | threadSpawn cause => s!"Failed to spawn asset worker thread: {cause.message}"
  | other text => s!"Asset error: {text}"

/-- The underlying cause, if there is one. -/
def cause? : Failure → Option SystemFault
  | unreadable _ cause => some cause
  | threadSpawn cause => some cause
  | _ => none

end Failure

end AssetLoading
