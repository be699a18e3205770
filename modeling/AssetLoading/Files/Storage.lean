import AssetLoading.Files.Tree
import AssetLoading.Text.Utf8

/-! # Asset files

  Reading files below an asset root, as bytes or as text.
-/

namespace AssetLoading

/-- Files below an asset root. -/
structure Storage where
  /-- The asset root. -/
  root : String
  /-- The tree that paths are looked up in. -/
  tree : FileTree := {}
deriving Inhabited

namespace Storage

/-- The path that a path relative to the root stands for. -/
def resolve (f : Storage) (path : String) : String :=
  joinPath f.root path

/-- Read a whole file. -/
def read (f : Storage) (path : String) : Except Failure (List UInt8) :=
  let full := f.resolve path
  match f.tree.find full with
  | .ok (.file bytes) => .ok bytes
  | .ok (.directory _) => .error (.unreadable full .isDirectory)
  | .error .missing => .error (.notFound full)
  | .error (.refused fault) => .error (.unreadable full fault)

/-- Read a whole file as text. -/
def readText (f : Storage) (path : String) : Except Failure String :=
  match f.read path with
  | .error e => .error e
  | .ok bytes =>
    match Text.decodeUtf8 bytes with
    | .ok text => .ok text
    | .error fault => .error (.unsupported (f.resolve path) fault.message)

/-- `true` if something stands at a path. -/
def fileExists (f : Storage) (path : String) : Bool :=
  match f.tree.find (f.resolve path) with
  | .ok _ => true
  | .error _ => false

end Storage

end AssetLoading
