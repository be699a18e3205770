import AssetLoading.State

/-! # Finding, creating and naming assets

  Lookups go through the linked assets in slot order and see only assets that
  hold references. An id and a category together address at most one of them:
  creation and renaming check for that.
-/

namespace AssetLoading

/-! ### Finding -/

namespace State

/-- The linked assets of a registry in slot order. -/
def linked (s : State) (r : RegistryId) : List Handle :=
  (s.registry r).linked.toList

/-- `true` if an asset holds references and is addressed by an id and a category. -/
def answersTo (s : State) (id : AssetId) (category : Category) (h : Handle) : Bool :=
  (s.asset h).id == id && (s.asset h).category == category && decide (0 < (s.asset h).refs)

/-- The live asset that an id and a category address. -/
def find? (s : State) (r : RegistryId) (id : AssetId) (category : Category) : Option Handle :=
  (s.linked r).find? (s.answersTo id category)

/-- `true` if a name is in use by a live asset of a category. -/
def nameTaken (s : State) (r : RegistryId) (category : Category) (name : String) : Bool :=
  (s.find? r (AssetId.ofName name) category).isSome

end State

/-- Take a reference. -/
def take (holder : Holder) (h : Handle) : Exec Unit := do
  modifyAsset h fun a => { a with refs := a.refs + 1 }
  record (.took holder h)

/-- Find a live asset and take a reference on it for the client. -/
def findAddref (r : RegistryId) (id : AssetId) (category : Category) : Exec (Option Handle) := do
  match (← get).find? r id category with
  | none => pure none
  | some h =>
    take .client h
    pure (some h)

/-! ### Creating -/

/-- Make an asset with one reference, held by the client, and link it. -/
def insertAsset (r : RegistryId) (kind : Kind) (key : Key) : Exec Handle := do
  let s ← get
  let h := s.assets.size
  match (s.registry r).linked.push h with
  | .error e => throw (.panic (.slot e))
  | .ok (slot, linked) =>
    set { s with assets := s.assets.push { Asset.fresh kind key with slot := some slot } }
    modifyRegistry r fun reg => { reg with linked }
    record (.took .client h)
    pure h

/-- Find a live asset and take a reference on it, or make a new one. -/
def findOrCreate (r : RegistryId) (kind : Kind) (key : Key) : Exec (Lookup × Handle) := do
  match ← findAddref r key.id kind.category with
  | some h => pure (.found, h)
  | none =>
    let h ← insertAsset r kind key
    log .trace "Created asset"
      [("asset", .text (← getAsset h).displayName), ("ty", .text kind.category.name)]
    pure (.created, h)

/-- The automatic name with a number. -/
def autoName (n : UInt64) : String :=
  "auto/asset_" ++ toString n.toNat

/-- The first number from `n` on whose automatic name is free. -/
def freeAutoNumber (taken : String → Bool) : Nat → UInt64 → Option UInt64
  | 0, _ => none
  | fuel + 1, n => if taken (autoName n) then freeAutoNumber taken fuel (n + 1) else some n

/-- Make an asset under the next free automatic name. If every number is taken
the search goes round for ever. -/
def createAsset (r : RegistryId) (kind : Kind) : Exec Handle := do
  let s ← get
  -- with one try for each number, none is left out
  match freeAutoNumber (s.nameTaken r kind.category) UInt64.size (s.registry r).nextAuto with
  | none => throw .stuck
  | some n =>
    modifyRegistry r fun reg => { reg with nextAuto := n + 1 }
    insertAsset r kind (Key.ofName (autoName n))

/-! ### Naming -/

/-- The first name made from `stem` and a number from `n` on that is free. -/
def freeNumberedName (taken : String → Bool) (stem : String) : Nat → Nat → Option String
  | 0, _ => none
  | fuel + 1, n =>
    let name := stem ++ toString n
    if taken name then freeNumberedName taken stem fuel (n + 1) else some name

/-- A free name made from `stem`: `stem` itself, or followed by the first
number that makes it free. The number is a positive 32-bit integer and is
raised once more than it is tried, so the largest one overflows. -/
def uniqueName (taken : String → Bool) (stem : String) : Option String :=
  if taken stem then freeNumberedName taken stem 2147483646 1 else some stem

/-- Address an asset by another key, which no other live asset of its category
may use. -/
def rekey (r : RegistryId) (h : Handle) (key : Key) : Exec Unit := do
  let s ← get
  let category := (s.asset h).category
  if (s.find? r key.id category).any (· ≠ h) then
    throw (.fatal (.keyInUse key.name category))
  modifyAsset h fun a => { a with id := key.id, name := key.name }

end AssetLoading
