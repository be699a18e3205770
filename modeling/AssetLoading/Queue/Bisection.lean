/-! # Bisection

  The place where a sorted sequence stops satisfying a condition, found by
  halving. The answer depends on the probed places alone (`probed`), and on any
  sequence at all it fits them: the condition holds at a probed place exactly if
  the place is in front of the answer (`holds_iff_lt_partitionPoint`), and the
  places on both sides of the answer were probed
  (`pred_partitionPoint_mem_probed`, `partitionPoint_mem_probed`).
-/

namespace AssetLoading

/-- Narrow down `size` places from `base` on to one, keeping the half whose
start satisfies the condition. -/
def bisect (holds : Nat → Bool) : Nat → Nat → Nat → Nat
  | 0, base, _ => base
  | fuel + 1, base, size =>
    if size ≤ 1 then base
    else
      let half := size / 2
      bisect holds fuel (if holds (base + half) then base + half else base) (size - half)

/-- The place among `size` where the condition stops to hold. -/
def partitionPoint (holds : Nat → Bool) (size : Nat) : Nat :=
  if size = 0 then 0
  else
    let base := bisect holds size 0 size
    if holds base then base + 1 else base

/-! ### The places that are looked at -/

/-- The starts of the second halves while `size` places from `base` on are
narrowed down to one, and this last one. -/
def probes (holds : Nat → Bool) : Nat → Nat → Nat → List Nat
  | 0, base, _ => [base]
  | fuel + 1, base, size =>
    if size ≤ 1 then [base]
    else
      let middle := base + size / 2
      middle :: probes holds fuel (if holds middle then middle else base) (size - size / 2)

/-- The places among `size` where bisection looks whether the condition holds. -/
def probed (holds : Nat → Bool) (size : Nat) : List Nat :=
  if size = 0 then [] else probes holds size 0 size

theorem bisect_lt (holds : Nat → Bool) :
    ∀ fuel base size, 0 < size → bisect holds fuel base size < base + size := by
  intro fuel
  induction fuel with
  | zero =>
    intro base size h
    simp only [bisect]
    omega
  | succ fuel ih =>
    intro base size h
    simp only [bisect]
    split
    · omega
    · split
      · have := ih (base + size / 2) (size - size / 2) (by omega)
        omega
      · have := ih base (size - size / 2) (by omega)
        omega

theorem le_bisect (holds : Nat → Bool) :
    ∀ fuel base size, base ≤ bisect holds fuel base size := by
  intro fuel
  induction fuel with
  | zero =>
    intro base size
    exact Nat.le_refl base
  | succ fuel ih =>
    intro base size
    simp only [bisect]
    split
    · exact Nat.le_refl base
    · split
      · exact Nat.le_trans (Nat.le_add_right _ _) (ih _ _)
      · exact ih _ _

/-- Halving leaves its base only for a place where the condition holds. -/
theorem bisect_eq_or_holds (holds : Nat → Bool) :
    ∀ fuel base size, bisect holds fuel base size = base ∨
      holds (bisect holds fuel base size) = true := by
  intro fuel
  induction fuel with
  | zero =>
    intro base size
    exact .inl rfl
  | succ fuel ih =>
    intro base size
    simp only [bisect]
    split
    · exact .inl rfl
    · split
      next h =>
        rcases ih (base + size / 2) (size - size / 2) with heq | hholds
        · rw [heq]
          exact .inr h
        · exact .inr hholds
      next => exact ih base (size - size / 2)

theorem bisect_mem_probes (holds : Nat → Bool) :
    ∀ fuel base size, bisect holds fuel base size ∈ probes holds fuel base size := by
  intro fuel
  induction fuel with
  | zero =>
    intro base size
    exact List.mem_singleton_self base
  | succ fuel ih =>
    intro base size
    simp only [bisect, probes]
    split
    · exact List.mem_singleton_self base
    · exact List.mem_cons_of_mem _ (ih _ _)

/-- Halving does not end in front of a probed place where the condition holds, nor
behind one where it does not. -/
theorem bisect_of_mem_probes (holds : Nat → Bool) :
    ∀ fuel base size, 0 < size → ∀ i ∈ probes holds fuel base size,
      if holds i then i ≤ bisect holds fuel base size else bisect holds fuel base size ≤ i := by
  intro fuel
  induction fuel with
  | zero =>
    intro base size _ i hi
    obtain rfl := List.mem_singleton.1 hi
    simp [bisect]
  | succ fuel ih =>
    intro base size hpos i hi
    simp only [bisect, probes] at hi ⊢
    split at hi
    next h =>
      obtain rfl := List.mem_singleton.1 hi
      simp [h]
    next h =>
      rw [if_neg h]
      rcases List.mem_cons.1 hi with rfl | hi
      · have hle := le_bisect holds fuel (base + size / 2) (size - size / 2)
        -- what is left of the first half ends right behind the probe at the latest
        have hlt := bisect_lt holds fuel base (size - size / 2) (by omega)
        split
        · exact hle
        · omega
      · exact ih _ _ (by omega) i hi

/-- The place behind the one that halving ends at is the end, or the condition was
seen not to hold there. -/
theorem bisect_add_one (holds : Nat → Bool) :
    ∀ fuel base size, 0 < size → size ≤ fuel + 1 →
      bisect holds fuel base size + 1 = base + size ∨
        bisect holds fuel base size + 1 ∈ probes holds fuel base size := by
  intro fuel
  induction fuel with
  | zero =>
    intro base size hpos hfuel
    simp only [bisect]
    omega
  | succ fuel ih =>
    intro base size hpos hfuel
    simp only [bisect, probes]
    split
    · omega
    · have hrest := ih (if holds (base + size / 2) then base + size / 2 else base)
        (size - size / 2) (by omega) (by omega)
      rcases hrest with hend | hmem
      · split at hend
        next h =>
          rw [if_pos h]
          omega
        next h =>
          -- one place behind the probe may be left over, but halving never ends at the probe
          have hbase := bisect_eq_or_holds holds fuel base (size - size / 2)
          have hother : bisect holds fuel base (size - size / 2) ≠ base + size / 2 := by
            intro heq
            rw [heq] at hbase
            rcases hbase with hzero | hholds
            · omega
            · exact h hholds
          rw [if_neg h]
          have hprobe : bisect holds fuel base (size - size / 2) + 1 = base + size / 2 := by omega
          rw [hprobe]
          exact .inr List.mem_cons_self
      · exact .inr (List.mem_cons_of_mem _ hmem)

/-! ### The answer -/

variable {holds : Nat → Bool}

/-- The condition holds at a probed place exactly if the place is in front of the
answer. -/
theorem holds_iff_lt_partitionPoint {size i : Nat} (hi : i ∈ probed holds size) :
    holds i = true ↔ i < partitionPoint holds size := by
  unfold probed at hi
  unfold partitionPoint
  split at hi
  next => cases hi
  next h =>
    have hside := bisect_of_mem_probes holds size 0 size (by omega) i hi
    have hne (hdiffer : holds i ≠ holds (bisect holds size 0 size)) :
        i ≠ bisect holds size 0 size := fun heq => hdiffer (congrArg holds heq)
    simp only [h, if_false]
    cases hholds : holds i with
    | true =>
      simp only [hholds, if_true, true_iff] at hside hne ⊢
      split
      · omega
      next hlast =>
        have := hne fun heq => hlast heq.symm
        omega
    | false =>
      simp only [hholds, Bool.false_eq_true, if_false, false_iff] at hside hne ⊢
      split
      next hlast =>
        have := hne fun heq => Bool.noConfusion (heq.trans hlast)
        omega
      · omega

/-- The place in front of the answer was probed. -/
theorem pred_partitionPoint_mem_probed {size : Nat} (hpos : 0 < partitionPoint holds size) :
    partitionPoint holds size - 1 ∈ probed holds size := by
  unfold partitionPoint probed at *
  split at hpos
  next => cases hpos
  next h =>
    simp only [h, if_false] at hpos ⊢
    split at hpos
    next hholds =>
      rw [if_pos hholds, Nat.add_sub_cancel]
      exact bisect_mem_probes holds size 0 size
    next hnot =>
      -- halving has ended at the first place
      rcases bisect_eq_or_holds holds size 0 size with hzero | hholds
      · omega
      · exact absurd hholds hnot

/-- The place of the answer was probed, unless it is the end. -/
theorem partitionPoint_mem_probed {size : Nat} (hlt : partitionPoint holds size < size) :
    partitionPoint holds size ∈ probed holds size := by
  unfold partitionPoint probed at *
  split at hlt
  next => omega
  next h =>
    simp only [h, if_false] at hlt ⊢
    split at hlt
    next hholds =>
      rw [if_pos hholds]
      rcases bisect_add_one holds size 0 size (by omega) (by omega) with hend | hmem
      · omega
      · exact hmem
    next hnot =>
      rw [if_neg hnot]
      exact bisect_mem_probes holds size 0 size

theorem partitionPoint_le (holds : Nat → Bool) (size : Nat) :
    partitionPoint holds size ≤ size := by
  rw [partitionPoint]
  split
  · omega
  · have := bisect_lt holds size 0 size (by omega)
    simp only
    split <;> omega

end AssetLoading
