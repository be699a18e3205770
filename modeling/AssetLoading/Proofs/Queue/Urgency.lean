import AssetLoading.Queue.Task

/-! # Keys of tasks as numbers

  The priority of a task fills the high half of its key and the cost estimate the low
  half, where an estimate below zero counts as zero. The low half is never negative, so
  the two do not get in each other's way, not even if the priority is negative.

  Comparing two keys therefore compares the priorities and, if these are the same, the
  estimates (`sortKey_lexicographic`).
-/

namespace AssetLoading

/-! ### The key as a number -/

/-- The high and the low half of a number do not get in each other's way. -/
theorem signExtend_or_signExtend (x y : BitVec 32) (hy : y.msb = false) :
    (x.signExtend 64 <<< 32) ||| y.signExtend 64 = x ++ y := by
  rw [BitVec.signExtend_eq_setWidth_of_msb_false hy]
  apply BitVec.eq_of_getLsbD_eq
  intro i hi
  rw [BitVec.getLsbD_or, BitVec.getLsbD_shiftLeft, BitVec.getLsbD_append, BitVec.getLsbD_setWidth,
    BitVec.getLsbD_signExtend]
  by_cases hlow : i < 32
  · simp [hlow, hi]
  · have hbit : i - 32 < 32 := by omega
    have hwide : i - 32 < 64 := by omega
    have hnone : y.getLsbD i = false := BitVec.getLsbD_of_ge _ _ (Nat.le_of_not_lt hlow)
    simp [hlow, hi, hbit, hwide, hnone]

/-- The priority fills the high half, and the cost estimate the low half. -/
theorem toInt_sortKey (priority complexity : Int32) :
    (sortKey priority complexity).toInt = priority.toInt * 4294967296 + max complexity.toInt 0 := by
  -- for a cost that is not negative the key is the two words side by side
  have hhalves (c : Int32) (hc : 0 ≤ c.toInt) :
      (priority.toInt64 <<< 32 ||| c.toInt64).toInt = priority.toInt * 4294967296 + c.toInt := by
    -- its sign bit is clear, so widening it does not touch the upper half
    have hmsb : c.toBitVec.msb = false := by
      rw [BitVec.msb_eq_toInt]
      exact decide_eq_false (Int.not_lt.2 hc)
    have hbits : (priority.toInt64 <<< 32 ||| c.toInt64).toBitVec = priority.toBitVec ++ c.toBitVec :=
      signExtend_or_signExtend _ _ hmsb
    have hlow : c.toInt = c.toBitVec.toNat := BitVec.toInt_eq_toNat_of_msb hmsb
    have hhigh : priority.toInt = priority.toBitVec.toInt := rfl
    rw [← Int64.toInt_toBitVec, hbits, BitVec.toInt_append, if_neg (by decide), hlow, hhigh]
    omega
  unfold sortKey
  split
  next hneg =>
    rw [hhalves 0 (Int.le_refl 0)]
    rw [Int32.lt_iff_toInt_lt] at hneg
    have hzero : (0 : Int32).toInt = 0 := rfl
    omega
  next hpos =>
    rw [Int32.lt_iff_toInt_lt] at hpos
    have hzero : (0 : Int32).toInt = 0 := rfl
    rw [hhalves complexity (by omega)]
    omega

/-! ### The law -/

/-- The larger of a number and zero. -/
theorem toInt_max_zero (complexity : Int32) : (max complexity 0).toInt = max complexity.toInt 0 := by
  have hzero : (0 : Int32).toInt = 0 := rfl
  show (if complexity ≤ 0 then 0 else complexity).toInt = _
  split
  next hle =>
    rw [Int32.le_iff_toInt_le] at hle
    omega
  next hlt =>
    rw [Int32.le_iff_toInt_le] at hlt
    omega

/-- **Keys are lexicographic.** For all priorities and cost estimates, negative ones
included: the lower priority comes first, and between equal priorities the lower estimate,
so that equal keys have equal priorities and equal estimates. -/
theorem sortKey_lexicographic (p c p' c' : Int32) :
    (sortKey p c ≤ sortKey p' c' ↔ p < p' ∨ p = p' ∧ max c 0 ≤ max c' 0) ∧
      (sortKey p c = sortKey p' c' ↔ p = p' ∧ max c 0 = max c' 0) := by
  have hkey := toInt_sortKey p c
  have hkey' := toInt_sortKey p' c'
  -- an estimate is smaller than one step of the priority
  have hlow := c.toInt_lt
  have hlow' := c'.toInt_lt
  constructor
  · rw [Int64.le_iff_toInt_le, Int32.lt_iff_toInt_lt, Int32.le_iff_toInt_le, ← Int32.toInt_inj,
      toInt_max_zero, toInt_max_zero, hkey, hkey']
    omega
  · rw [← Int64.toInt_inj, ← Int32.toInt_inj, ← Int32.toInt_inj, toInt_max_zero, toInt_max_zero,
      hkey, hkey']
    omega

/-- A negative estimate does not reach into the priority, at either end of its range. -/
example : sortKey (-1) (-2147483648) = -4294967296 ∧ sortKey (-1) 2147483647 < sortKey 0 (-1) ∧
    sortKey (-2147483648) 0 = -9223372036854775808 := by decide

end AssetLoading
