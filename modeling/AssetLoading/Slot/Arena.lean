import AssetLoading.Slot

/-! # A generational arena

  Storage addressed by slots. Removing an element raises the generation of its
  place, so a slot that outlived its element is recognised instead of reading
  the element that moved in later. Freed places are reused last in, first out.
-/

namespace AssetLoading

/-- One place of an arena. -/
structure Arena.Place (α : Type) where
  /-- Generation of the element that lives here, or of the next one. -/
  generation : UInt32
  /-- The element, if the place is taken. -/
  content : Option α

/-- Elements of type `α` addressed by generational slots. -/
structure Arena (α : Type) where
  /-- Every place ever used, by index. -/
  places : Array (Arena.Place α) := #[]
  /-- Indices of the free places, the next one to reuse first. -/
  free : List UInt32 := []
  /-- Number of elements. -/
  size : Nat := 0

namespace Arena

variable {α : Type}

instance : Inhabited (Arena α) := ⟨{}⟩

/-- Store an element and hand out its slot. A full arena is left unchanged. -/
def push (s : Arena α) (a : α) : Except SlotError (Slot × Arena α) :=
  match s.free with
  | index :: free =>
    let generation := (s.places[index.toNat]?).elim 0 Place.generation
    match Slot.pack generation index with
    | .error e => .error e
    | .ok slot =>
      .ok (slot,
        { places := s.places.modify index.toNat fun p => { p with content := some a }
          free
          size := s.size + 1 })
  | [] =>
    match Slot.pack 0 s.places.size.toUInt32 with
    | .error e => .error e
    | .ok slot =>
      .ok (slot, { s with places := s.places.push ⟨0, some a⟩, size := s.size + 1 })

/-- The element a slot addresses, if it still lives. -/
def get? (s : Arena α) (slot : Slot) : Option α :=
  match slot.index with
  | .error _ => none
  | .ok index =>
    match s.places[index.toNat]? with
    | none => none
    | some place => if place.generation = slot.generation then place.content else none

/-- Take out the element a slot addresses, if it still lives. -/
def take? (s : Arena α) (slot : Slot) : Option (α × Arena α) :=
  match slot.index, s.get? slot with
  | .ok index, some a =>
    some (a,
      { places := s.places.modify index.toNat fun p => ⟨p.generation + 1, none⟩
        free := index :: s.free
        size := s.size - 1 })
  | _, _ => none

/-- Take out the element a slot addresses; a slot without an element is an
error and leaves the arena unchanged. -/
def take (s : Arena α) (slot : Slot) : Except SlotError (α × Arena α) :=
  match s.take? slot with
  | some r => .ok r
  | none => .error .stale

/-- The elements in index order. -/
def toList (s : Arena α) : List α :=
  s.places.toList.filterMap Place.content

/-- `true` if there is no element. -/
def isEmpty (s : Arena α) : Bool :=
  s.size == 0

end Arena

end AssetLoading
