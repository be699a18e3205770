import AssetLoading.Slot
import Mathlib.Algebra.Group.Nat.Defs

/-! # Packing slots

  A slot gives back the generation and the index it was packed from. The two
  halves of its word do not overlap, because the index is small enough for its
  successor to fit.

  So a slot with an index is nothing but a generation and an index, its word is
  nothing but the slot, and slots stand in the order of their generations and,
  within a generation, of their indices (`slots_stand_for_places`).
-/

namespace AssetLoading

namespace Slot

/-- The successor of an index that can be packed fits the low half. -/
theorem toNat_succ_lt {index : UInt32} (hindex : index ≠ 4294967295) :
    index.toNat + 1 < 2 ^ 32 := by
  have hlt := index.toNat_lt
  have hne : index.toNat ≠ 4294967295 := fun h => hindex (UInt32.toNat_inj.1 h)
  omega

/-- The word has the generation in its high half and the index plus one in its
low half. -/
theorem toNat_word (generation : UInt32) {index : UInt32} (hindex : index ≠ 4294967295) :
    (word generation index).toNat = generation.toNat * 2 ^ 32 + (index.toNat + 1) := by
  have hbound := toNat_succ_lt hindex
  have hhigh : (generation.toUInt64 <<< 32).toNat = generation.toNat <<< 32 := by
    have hlt := generation.toNat_lt
    rw [UInt64.toNat_shiftLeft]
    simp only [UInt32.toNat_toUInt64, Nat.shiftLeft_eq]
    exact Nat.mod_eq_of_lt (by show generation.toNat * 2 ^ 32 < 2 ^ 64; omega)
  have hlow : (index.toUInt64 + 1).toNat = index.toNat + 1 := by
    rw [UInt64.toNat_add, UInt32.toNat_toUInt64]
    exact Nat.mod_eq_of_lt (by show index.toNat + 1 < 2 ^ 64; omega)
  rw [word, UInt64.toNat_or, hhigh, hlow, ← Nat.shiftLeft_add_eq_or_of_lt hbound,
    Nat.shiftLeft_eq]

theorem index_ne_of_pack {generation index : UInt32} {slot : Slot}
    (h : pack generation index = .ok slot) : index ≠ 4294967295 := by
  intro hmax
  rw [pack, if_pos hmax] at h
  cases h

theorem bits_of_pack {generation index : UInt32} {slot : Slot}
    (h : pack generation index = .ok slot) : slot.bits = word generation index := by
  rw [pack, if_neg (index_ne_of_pack h)] at h
  cases h
  rfl

theorem generation_of_pack {generation index : UInt32} {slot : Slot}
    (h : pack generation index = .ok slot) : slot.generation = generation := by
  have hword := toNat_word generation (index_ne_of_pack h)
  have hbound := toNat_succ_lt (index_ne_of_pack h)
  have hgeneration := generation.toNat_lt
  apply UInt32.toNat_inj.1
  rw [Slot.generation, bits_of_pack h, UInt64.toNat_toUInt32, UInt64.toNat_shiftRight, hword]
  simp only [Nat.shiftRight_eq_div_pow]
  show (generation.toNat * 2 ^ 32 + (index.toNat + 1)) / 2 ^ 32 % 2 ^ 32 = generation.toNat
  omega

theorem index_of_pack {generation index : UInt32} {slot : Slot}
    (h : pack generation index = .ok slot) : slot.index = .ok index := by
  have hword := toNat_word generation (index_ne_of_pack h)
  have hbound := toNat_succ_lt (index_ne_of_pack h)
  have hlow : slot.bits.toUInt32 = index + 1 := by
    apply UInt32.toNat_inj.1
    rw [bits_of_pack h, UInt64.toNat_toUInt32, hword, UInt32.toNat_add]
    show (generation.toNat * 2 ^ 32 + (index.toNat + 1)) % 2 ^ 32 = (index.toNat + 1) % 2 ^ 32
    omega
  have hzero : ¬ index + 1 = 0 := by
    intro heq
    have hsum := congrArg UInt32.toNat heq
    rw [UInt32.toNat_add] at hsum
    have hsum : (index.toNat + 1) % 2 ^ 32 = 0 := hsum
    omega
  rw [Slot.index, hlow]
  simp [hzero]

/-- A slot with an index is the one that its generation and its index make. -/
theorem pack_of_index {slot : Slot} {index : UInt32} (h : slot.index = .ok index) :
    pack slot.generation index = .ok slot := by
  unfold Slot.index at h
  dsimp only at h
  split at h
  next => cases h
  next hlow =>
    cases h
    have hpositive : 0 < slot.bits.toUInt32.toNat := by
      apply Nat.pos_of_ne_zero
      intro hzero
      exact hlow (UInt32.toNat_inj.1 hzero)
    have hbound := slot.bits.toUInt32.toNat_lt
    -- the lower half is positive, so taking one away does not wrap around
    have hindex : (slot.bits.toUInt32 - 1).toNat = slot.bits.toUInt32.toNat - 1 := by
      rw [UInt32.toNat_sub]
      show (2 ^ 32 - 1 + slot.bits.toUInt32.toNat) % 2 ^ 32 = _
      omega
    have hne : slot.bits.toUInt32 - 1 ≠ 4294967295 := by
      intro hmax
      rw [hmax] at hindex
      have hmax : 4294967295 = slot.bits.toUInt32.toNat - 1 := hindex
      omega
    -- the halves put together are the bits they came from
    have hword : word slot.generation (slot.bits.toUInt32 - 1) = slot.bits := by
      apply UInt64.toNat_inj.1
      rw [toNat_word _ hne, hindex, Slot.generation, UInt64.toNat_toUInt32,
        UInt64.toNat_shiftRight]
      rw [UInt64.toNat_toUInt32] at hpositive ⊢
      show (slot.bits.toNat >>> 32) % 2 ^ 32 * 2 ^ 32 + _ = _
      have hbits := slot.bits.toNat_lt
      rw [Nat.shiftRight_eq_div_pow]
      omega
    rw [pack, if_neg hne]
    simp only [hword]

theorem exists_pack (generation : UInt32) {index : UInt32} (hindex : index ≠ 4294967295) :
    ∃ slot, pack generation index = .ok slot := by
  rw [pack, if_neg hindex]
  exact ⟨_, rfl⟩

/-! ### Words -/

theorem ofBits?_bits (slot : Slot) : ofBits? slot.bits = some slot := by
  rw [ofBits?, dif_neg slot.bits_ne_zero]

/-- A slot has an index if there is something in the low half of its word. -/
theorem exists_index {slot : Slot} (hlow : slot.bits.toUInt32 ≠ 0) :
    ∃ index, slot.index = .ok index := by
  simp [index, hlow]

/-- The word of a slot is made of its generation and its index. -/
theorem toNat_bits {slot : Slot} {index : UInt32} (h : slot.index = .ok index) :
    slot.bits.toNat = slot.generation.toNat * 2 ^ 32 + (index.toNat + 1) := by
  have hpack := pack_of_index h
  rw [bits_of_pack hpack, toNat_word _ (index_ne_of_pack hpack)]

/-! ### The order -/

/-- The order of the words is that of the generations and, if these are the same, of the
indices. -/
theorem order_eq_then {a b : Slot} {i j : UInt32} (hi : a.index = .ok i) (hj : b.index = .ok j) :
    order a b = (compare a.generation b.generation).then (compare i j) := by
  have hwords : order a b = compare a.bits.toNat b.bits.toNat := by
    show compareOfLessAndEq a.bits b.bits = compareOfLessAndEq a.bits.toNat b.bits.toNat
    simp only [compareOfLessAndEq, UInt64.lt_iff_toNat_lt, ← UInt64.toNat_inj]
  have hhalves (x y : UInt32) : compare x y = compare x.toNat y.toNat := by
    show compareOfLessAndEq x y = compareOfLessAndEq x.toNat y.toNat
    simp only [compareOfLessAndEq, UInt32.lt_iff_toNat_lt, ← UInt32.toNat_inj]
  -- an index and its successor fit the low half, so the high half decides first
  have ha := toNat_succ_lt (index_ne_of_pack (pack_of_index hi))
  have hb := toNat_succ_lt (index_ne_of_pack (pack_of_index hj))
  rw [hwords, hhalves, hhalves, toNat_bits hi, toNat_bits hj]
  rcases Nat.lt_trichotomy a.generation.toNat b.generation.toNat with hlt | heq | hgt
  · rw [Nat.compare_eq_lt.2 hlt, Nat.compare_eq_lt.2 (by omega)]
    rfl
  · rw [heq, Nat.compare_eq_eq.2 rfl, Ordering.then]
    rcases Nat.lt_trichotomy i.toNat j.toNat with hlt | hsame | hgt
    · rw [Nat.compare_eq_lt.2 hlt, Nat.compare_eq_lt.2 (by omega)]
    · rw [hsame, Nat.compare_eq_eq.2 rfl, Nat.compare_eq_eq.2 rfl]
    · rw [Nat.compare_eq_gt.2 hgt, Nat.compare_eq_gt.2 (by omega)]
  · rw [Nat.compare_eq_gt.2 hgt, Nat.compare_eq_gt.2 (by omega)]
    rfl

/-! ### The law -/

/-- How slots stand for places of an arena, and words for slots. -/
structure Correspondence : Prop where
  /-- A generation and any index but the largest make a slot. Its word is the generation and
  then the successor of the index, so it is not zero. Both can be read off it, and the word
  leads back to the slot. -/
  packed : ∀ generation index, index ≠ 4294967295 → ∃ slot, pack generation index = .ok slot ∧
    slot.bits.toNat = generation.toNat * 2 ^ 32 + (index.toNat + 1) ∧ slot.bits ≠ 0 ∧
      slot.generation = generation ∧ slot.index = .ok index ∧ ofBits? slot.bits = some slot
  /-- Every word with something in its low half is the word of a slot, and what is read off
  that makes the same word again. -/
  unpacked : ∀ bits : UInt64, bits.toUInt32 ≠ 0 → ∃ slot index, ofBits? bits = some slot ∧
    slot.index = .ok index ∧ ∃ again, pack slot.generation index = .ok again ∧ again.bits = bits
  /-- Slots with the same word are made of the same generation and the same index. -/
  distinct : ∀ generation index generation' index' slot slot',
    pack generation index = .ok slot → pack generation' index' = .ok slot' →
      slot.bits = slot'.bits → generation = generation' ∧ index = index'
  /-- A word is enough to keep a slot or none, and every word keeps one or the other. -/
  kept : (∀ slot : Option Slot, ofBits? (slot.elim 0 bits) = slot) ∧
    ∀ word, (ofBits? word).elim 0 bits = word
  /-- Slots are ordered by generation first and by index then. -/
  ordered : ∀ a b i j, a.index = .ok i → b.index = .ok j →
    order a b = (compare a.generation b.generation).then (compare i j)

/-- **Slots and places.** For all generations, indices and words. -/
theorem slots_stand_for_places : Correspondence := by
  constructor
  · intro generation index hindex
    obtain ⟨slot, hpack⟩ := exists_pack generation hindex
    have hword := toNat_word generation hindex
    rw [← bits_of_pack hpack] at hword
    exact ⟨slot, hpack, hword, slot.bits_ne_zero, generation_of_pack hpack, index_of_pack hpack,
      ofBits?_bits slot⟩
  · intro bits hlow
    have hzero : bits ≠ 0 := by
      rintro rfl
      exact hlow rfl
    obtain ⟨index, hindex⟩ := @exists_index ⟨bits, hzero⟩ hlow
    exact ⟨⟨bits, hzero⟩, index, ofBits?_bits ⟨bits, hzero⟩, hindex, _, pack_of_index hindex, rfl⟩
  · intro generation index generation' index' slot slot' hpack hpack' hbits
    -- equal bits are one slot, and its halves are read off it
    obtain rfl : slot = slot' := by
      have hsame := ofBits?_bits slot
      rw [hbits, ofBits?_bits] at hsame
      exact (Option.some.inj hsame).symm
    refine ⟨?_, ?_⟩
    · rw [← generation_of_pack hpack, generation_of_pack hpack']
    · have hindex := index_of_pack hpack
      rw [index_of_pack hpack'] at hindex
      exact (Except.ok.inj hindex).symm
  · refine ⟨fun slot => ?_, fun word => ?_⟩
    · cases slot with
      | none => rfl
      | some slot => exact ofBits?_bits slot
    · by_cases hzero : word = 0
      · rw [ofBits?, dif_pos hzero, hzero]
        rfl
      · rw [ofBits?, dif_neg hzero]
        rfl
  · exact fun a b i j => order_eq_then

/-- The last slot of a generation comes right before the first one of the next, without
running into it. -/
example : word 6 4294967294 = 0x6ffffffff ∧ word 7 0 = 0x700000001 := by decide

end Slot

end AssetLoading
