import AssetLoading.Failure
import AssetLoading.Files.Path
import AssetLoading.Table

/-! # The file tree

  Directories and files. A path is walked name by name, so `..` leads out of a
  directory only if that directory exists. A directory or file is made at the
  end of a path, in a directory that stands there already. Making the
  directories on the way comes first, and those that were made stay even if the
  rest fails.
-/

namespace AssetLoading

/-- Why walking a path fails. -/
inductive WalkFault where
  /-- A name on the way does not exist. -/
  | missing
  /-- The system refuses the path. -/
  | refused (fault : SystemFault)
deriving DecidableEq, Repr

/-- A directory, by number. -/
abbrev DirectoryId := Nat

/-- What a name can stand for. -/
inductive FileNode where
  | directory (id : DirectoryId)
  | file (bytes : List UInt8)
deriving DecidableEq, Repr

/-- A directory. -/
structure Directory where
  /-- The directory it lies in; the top lies in itself. -/
  parent : DirectoryId
  /-- What it holds. -/
  entries : Table String FileNode := []
deriving Repr, Inhabited

/-- All directories, by number. The top is the first of them. -/
structure FileTree where
  /-- The directories. -/
  directories : Array Directory :=
    #[{ parent := 0, entries := [("scratch", .directory 1)] },
      { parent := 0, entries := [("session", .directory 2)] },
      { parent := 1 }]
  /-- Where relative paths start. -/
  current : DirectoryId := 2
deriving Inhabited

namespace FileTree

/-! ### Looking -/

/-- The directory with a number. -/
def directory (t : FileTree) (d : DirectoryId) : Directory :=
  t.directories.getD d default

/-- Walk names from something found. An empty name, as after a final slash,
asks for a directory. -/
def walk (t : FileTree) : FileNode → List String → Except WalkFault FileNode
  | node, [] => .ok node
  | .file _, _ :: _ => .error (.refused .notDirectory)
  | .directory d, name :: names =>
    if isIdleName name then t.walk (.directory d) names
    else if name = ".." then t.walk (.directory (t.directory d).parent) names
    else if byteLength name > 255 then .error (.refused .nameTooLong)
    else
      match (t.directory d).entries.lookup name with
      | none => .error .missing
      | some node => t.walk node names

/-- The directory that a path starts in, unless the path as a whole is no good. -/
def startOf (t : FileTree) (path : String) : Except WalkFault FileNode :=
  if path.toList.contains '\x00' then .error (.refused .zeroInName)
  else if path.isEmpty then .error .missing
  else if byteLength path ≥ 4096 then .error (.refused .nameTooLong)
  else .ok (.directory (if isAbsolute path then 0 else t.current))

/-- What stands at the end of a path. -/
def find (t : FileTree) (path : String) : Except WalkFault FileNode := do
  t.walk (← t.startOf path) (pathNames path)

/-- `true` if a directory stands at the end of a path. -/
def hasDirectory (t : FileTree) (path : String) : Bool :=
  t.find path matches .ok (.directory _)

/-! ### Making -/

/-- The directory that the end of a path lies in, which must exist, and the name
at the end, whether or not it stands for something. There is no such name at
the end of a path that stops at the top or takes a step to nowhere or up. -/
def endOf (t : FileTree) (path : String) : Except WalkFault (Option (DirectoryId × String)) := do
  let names := (pathNames path).filter fun name => name ≠ ""
  match ← t.walk (← t.startOf path) names.dropLast, names.getLast? with
  | .file _, _ => .error (.refused .notDirectory)
  | .directory _, none => .ok none
  | .directory d, some name =>
    if name = "." || name = ".." then .ok none
    else if byteLength name > 255 then .error (.refused .nameTooLong)
    else .ok (some (d, name))

/-- Let a name in a directory stand for something. -/
def put (t : FileTree) (d : DirectoryId) (name : String) (node : FileNode) : FileTree :=
  { t with directories :=
      t.directories.modify d fun f => { f with entries := f.entries.put name node } }

/-- Make a directory at the end of a path where nothing stands. -/
def makeDirectory (t : FileTree) (path : String) : Except WalkFault FileTree := do
  match ← t.endOf path with
  | none => .error (.refused .alreadyExists)
  | some (d, name) =>
    if ((t.directory d).entries.lookup name).isSome then .error (.refused .alreadyExists)
    else
      let new := t.directories.size
      .ok ({ t with directories := t.directories.push { parent := d } }.put d name (.directory new))

/-- Write a whole file at the end of a path, in place of the file that stands
there. A final slash would ask for a directory. -/
def writeFile (t : FileTree) (path : String) (bytes : List UInt8) :
    Except WalkFault FileTree := do
  match ← t.endOf path with
  | none => .error (.refused .isDirectory)
  | some (d, name) =>
    match (t.directory d).entries.lookup name with
    | some (.directory _) => .error (.refused .isDirectory)
    | _ =>
      if endsWithSlash path then .error (.refused .isDirectory)
      else .ok (t.put d name (.file bytes))

/-- Make a directory at the first of some paths, each of which leads on from the
next one. As long as there is no way to a path, the paths after it are made
first. Where a directory stands, nothing is left to do. The answer is `true` if
a directory stands there at last; what was made on the way stays. -/
def makeDirectories (t : FileTree) : List String → Bool × FileTree
  | [] => (true, t)
  | path :: above =>
    match t.makeDirectory path with
    | .ok t => (true, t)
    | .error (.refused _) => (t.hasDirectory path, t)
    | .error .missing =>
      match t.makeDirectories above with
      | (false, t) => (false, t)
      | (true, t) =>
        match t.makeDirectory path with
        | .ok t => (true, t)
        | .error _ => (t.hasDirectory path, t)

/-- Make a directory and those on the way to it. The empty path asks for
nothing. -/
def makePath (t : FileTree) (path : String) : Bool × FileTree :=
  if path.isEmpty then (true, t) else t.makeDirectories (path :: ancestors path)

/-- Write a whole file, making the directories on the way to it if that can be
done. -/
def storeFile (t : FileTree) (path : String) (bytes : List UInt8) : Bool × FileTree :=
  let (_, t) := t.makeDirectories (ancestors path)
  match t.writeFile path bytes with
  | .ok t => (true, t)
  | .error _ => (false, t)

end FileTree

end AssetLoading
