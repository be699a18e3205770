import AssetLoading.Slot.Arena

/-! # Exercising an arena

  A small language of arena operations and its evaluator. Slots are named by
  the push that returned them or by their generation and index.
-/

namespace AssetLoading.Arena

/-- How an operation names a slot. -/
inductive SlotName where
  /-- The slot that the `n`-th push returned. -/
  | pushed (n : Nat)
  /-- The slot packed from a generation and an index. -/
  | packed (generation index : UInt32)

/-- One operation on an arena of integers. -/
inductive Request where
  | push (value : Int)
  | get (slot : SlotName)
  | tryTake (slot : SlotName)
  | take (slot : SlotName)
  | size
  | elements

/-- What an operation answers. -/
inductive Answer where
  /-- The slot of a pushed element. -/
  | slot (slot : Slot)
  /-- The element found or taken, if any. -/
  | element (value : Option Int)
  /-- The number of elements and whether there are none. -/
  | size (count : Nat) (empty : Bool)
  /-- All elements in index order. -/
  | elements (values : List Int)
  /-- The operation failed. -/
  | failed (error : SlotError)

/-- An arena of integers and the slots its pushes returned, in order. -/
structure Bench where
  arena : Arena Int := {}
  pushed : Array Slot := #[]

/-- The slot an operation means. A push that never happened has no slot. -/
def Bench.resolve (b : Bench) : SlotName → Except SlotError Slot
  | .pushed n =>
    match b.pushed[n]? with
    | some slot => .ok slot
    | none => .error .stale
  | .packed generation index => Slot.pack generation index

/-- Perform one operation. -/
def Bench.perform (b : Bench) : Request → Answer × Bench
  | .push value =>
    match b.arena.push value with
    | .ok (slot, arena) => (.slot slot, { arena, pushed := b.pushed.push slot })
    | .error e => (.failed e, b)
  | .get name =>
    match b.resolve name with
    | .ok slot => (.element (b.arena.get? slot), b)
    | .error e => (.failed e, b)
  | .tryTake name =>
    match b.resolve name with
    | .error e => (.failed e, b)
    | .ok slot =>
      match b.arena.take? slot with
      | some (value, arena) => (.element (some value), { b with arena })
      | none => (.element none, b)
  | .take name =>
    match b.resolve name with
    | .error e => (.failed e, b)
    | .ok slot =>
      match b.arena.take slot with
      | .ok (value, arena) => (.element (some value), { b with arena })
      | .error e => (.failed e, b)
  | .size => (.size b.arena.size b.arena.isEmpty, b)
  | .elements => (.elements b.arena.toList, b)

/-- The answers to a list of operations on an empty arena. -/
def answers (requests : List Request) : List Answer :=
  go {} requests
where
  /-- The answers to the operations that are left. -/
  go (b : Bench) : List Request → List Answer
    | [] => []
    | r :: rs =>
      let (answer, b) := b.perform r
      answer :: go b rs

end AssetLoading.Arena
