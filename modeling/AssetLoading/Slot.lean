/-! # Packed generational slots

  A slot addresses one place of an arena together with the generation of the
  element that lives there. Both are packed into one 64-bit word: the
  generation in the high half and the index plus one in the low half. The
  offset keeps every packed slot different from zero, so zero is free to mean
  "no slot".

  Slots are ordered by their word, which is the lexicographic order on
  generation and index.
-/

namespace AssetLoading

/-- Why a slot cannot be made or used. -/
inductive SlotError where
  /-- The index does not fit: its successor would overflow the low half. -/
  | indexOutOfRange (index : UInt32)
  /-- The low half is zero, so no index is packed in the word. -/
  | noIndex
  /-- No element of that generation lives at the index. -/
  | stale
deriving DecidableEq, Repr

/-- The diagnostic text of a slot error. -/
def SlotError.message : SlotError → String
  | .indexOutOfRange index => s!"IndexSlot index out of range: {index.toNat}"
  | .noIndex => "attempt to subtract with overflow"
  | .stale => "invalid generation, use after free!"

/-- A packed generation and index; never the zero word. -/
structure Slot where
  /-- The packed word. -/
  bits : UInt64
  /-- Zero means "no slot". -/
  bits_ne_zero : bits ≠ 0
deriving DecidableEq

namespace Slot

/-- The word of a generation and an index. -/
def word (generation index : UInt32) : UInt64 :=
  (generation.toUInt64 <<< 32) ||| (index.toUInt64 + 1)

theorem word_ne_zero (generation index : UInt32) : word generation index ≠ 0 := by
  intro h
  have hbits := congrArg UInt64.toNat h
  have hlow : (index.toUInt64 + 1).toNat = index.toNat + 1 := by
    have := index.toNat_lt
    rw [UInt64.toNat_add, UInt32.toNat_toUInt64]
    simp
    omega
  rw [word, UInt64.toNat_or, hlow] at hbits
  simp at hbits

/-- Pack a generation and an index; the largest index is refused. -/
def pack (generation index : UInt32) : Except SlotError Slot :=
  if index = 4294967295 then .error (.indexOutOfRange index)
  else .ok ⟨word generation index, word_ne_zero generation index⟩

/-- The slot with a given word, if the word is not zero. -/
def ofBits? (bits : UInt64) : Option Slot :=
  if h : bits = 0 then none else some ⟨bits, h⟩

/-- The generation, from the high half. -/
def generation (s : Slot) : UInt32 :=
  (s.bits >>> 32).toUInt32

/-- The index, from the low half, unless that half is zero. -/
def index (s : Slot) : Except SlotError UInt32 :=
  let low := s.bits.toUInt32
  if low = 0 then .error .noIndex else .ok (low - 1)

/-- The diagnostic form. -/
def debug (s : Slot) : String :=
  s!"IndexSlot({s.bits.toNat})"

/-- Slots compare as their words. -/
def order (a b : Slot) : Ordering :=
  compare a.bits b.bits

end Slot

end AssetLoading
