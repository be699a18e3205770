import AssetLoading.Identity

/-! # Paths

  Paths are texts: names with slashes between them. A relative path is appended
  to a root without tidying it up. Only the paths above a path, those of the
  directories on the way to it, are tidy at their ends.
-/

namespace AssetLoading

/-- `true` if a path starts at the top. -/
def isAbsolute (path : String) : Bool :=
  path.toList.head? = some '/'

/-- `true` if a path ends with a slash, which asks for a directory. -/
def endsWithSlash (path : String) : Bool :=
  path.toList.getLast? = some '/'

/-- Append a relative path to a root; an absolute path stands for itself. -/
def joinPath (root path : String) : String :=
  if isAbsolute path then path
  else if root.isEmpty || endsWithSlash root then root ++ path
  else root ++ "/" ++ path

/-- Number of bytes of a name or path. -/
def byteLength (text : String) : Nat :=
  (utf8Bytes text).length

/-- The stretches between slashes. -/
def splitSlashes : List Char → List (List Char)
  | [] => [[]]
  | c :: cs =>
    if c = '/' then [] :: splitSlashes cs
    else
      match splitSlashes cs with
      | [] => [[c]]
      | name :: names => (c :: name) :: names

/-- The texts between the slashes of a path. The first one is empty if the path
is absolute, the last one if it ends with a slash. -/
def pathNames (path : String) : List String :=
  (splitSlashes path.toList).map String.ofList

/-- `true` for the names that lead nowhere: an empty one and a dot. -/
def isIdleName (name : String) : Bool :=
  name = "" || name = "."

/-- The path with a given first name and given later names, last one first. The
top alone has the one slash for its path. -/
def pathOf (first : String) (later : List String) : String :=
  if first = "" ∧ later = [] then "/" else "/".intercalate (first :: later.reverse)

/-- The paths above the path with a given first name and given later names, last
one first. Each proper name gives one, nearest first. A relative path ends the
climb with its first name, an absolute one with the top. -/
def pathsAbove (first : String) : List String → List String
  | [] => []
  | name :: names =>
    if isIdleName name then pathsAbove first names
    else pathOf first (names.dropWhile isIdleName) :: pathsAbove first names

/-- The paths of the directories on the way to the end of a path, from there up
to the path's start, which is not among them if the path is relative. -/
def ancestors (path : String) : List String :=
  match pathNames path with
  | [] => []
  | first :: later => pathsAbove first later.reverse

end AssetLoading
