import AssetLoading.Category
import AssetLoading.Identity
import AssetLoading.LoadState
import AssetLoading.Script
import AssetLoading.Slot
import AssetLoading.Text.Quoted

/-! # Assets

  The shared header every asset carries, and its contents. Assets are never
  forgotten: a handle is a position in the list of all assets ever made, so
  two handles are equal exactly when they mean one asset, and a handle to a
  destroyed asset still tells what became of it.
-/

namespace AssetLoading

/-- Identity of an asset. -/
abbrev Handle := Nat

/-- The contents of an asset, until it is destroyed. -/
structure Contents where
  /-- The kind of the contents. -/
  kind : Kind
  /-- A name for the history. -/
  tag : String := ""
  /-- The payload. -/
  value : Int := 0
  /-- Assets these contents hold a reference to. -/
  dependencies : List (Option Handle) := []
  /-- Runs when the asset is destroyed, before its dependencies are released. -/
  onDestroy : Script := []
deriving Inhabited

/-- An asset. -/
structure Asset where
  /-- The type tag. -/
  category : Category
  /-- The id it is addressed by. -/
  id : AssetId
  /-- The name the id stands for, if known. -/
  name : Option String
  /-- Reference count. Counts are taken to stay below 2^31, where a 32-bit counter
  would wrap. -/
  refs : Int
  /-- Load state. -/
  state : LoadState := .none
  /-- Where the registry links it; `none` once unlinked. -/
  slot : Option Slot := none
  /-- Set when destruction begins. -/
  destroyed : Bool := false
  /-- The contents, until destruction begins. -/
  contents : Option Contents
deriving Inhabited

namespace Asset

/-- What a handle that was never given out stands for. Its count is below zero, so
that a reference dropped on it is always one too many. -/
def absent : Asset :=
  { category := .none, id := ⟨0⟩, name := none, refs := -1, destroyed := true, contents := none }

/-- A new asset with one reference. -/
def fresh (kind : Kind) (key : Key) : Asset :=
  { category := kind.category, id := key.id, name := key.name, refs := 1,
    contents := some { kind } }

/-- The name, or the id when there is none. -/
def displayName (a : Asset) : String :=
  match a.name with
  | some name => name
  | none => "#" ++ a.id.display

/-- `true` while the asset holds references and is not destroyed. -/
def isAlive (a : Asset) : Bool :=
  decide (0 < a.refs) && !a.destroyed

/-- The contents, if they are of a given kind. -/
def contentsOf (a : Asset) (kind : Kind) : Option Contents :=
  a.contents.filter (·.kind = kind)

/-- The diagnostic form. -/
def debug (a : Asset) : String :=
  "AssetRecord \x7b type: " ++ a.category.debug ++ ", id: " ++ a.id.debug ++ ", name: "
    ++ Text.quotedOption a.name ++ ", refs: " ++ toString a.refs ++ ", state: " ++ a.state.debug
    ++ " \x7d"

end Asset

end AssetLoading
