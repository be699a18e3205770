/-! # Tables

  Values under keys, at most one value for each key, the latest put first.
  `lookup_put` and `lookup_remove` say what can be read back.
-/

namespace AssetLoading

/-- Values under keys. -/
abbrev Table (κ α : Type) := List (κ × α)

namespace Table

variable {κ α : Type} [DecidableEq κ]

/-- Forget the value under a key. -/
def remove (t : Table κ α) (key : κ) : Table κ α :=
  t.filter fun p => p.1 ≠ key

/-- Put a value under a key, in place of the value that was there. -/
def put (t : Table κ α) (key : κ) (value : α) : Table κ α :=
  (key, value) :: t.remove key

theorem lookup_remove (t : Table κ α) (key other : κ) :
    (t.remove key).lookup other = if other = key then none else t.lookup other := by
  induction t with
  | nil => simp [remove]
  | cons p t ih =>
    obtain ⟨first, value⟩ := p
    rw [remove] at ih ⊢
    by_cases hf : first = key
    · rw [List.filter_cons_of_neg (by simp [hf]), ih]
      by_cases ho : other = key <;> simp [List.lookup_cons, hf, beq_eq_false_iff_ne.2, ho]
    · rw [List.filter_cons_of_pos (by simp [hf]), List.lookup_cons, List.lookup_cons, ih]
      by_cases ho : other = first
      · simp [ho, hf]
      · simp [beq_eq_false_iff_ne.2 ho]

theorem lookup_put (t : Table κ α) (key other : κ) (value : α) :
    (t.put key value).lookup other = if other = key then some value else t.lookup other := by
  rw [put, List.lookup_cons, lookup_remove]
  by_cases ho : other = key
  · simp [ho]
  · simp [beq_eq_false_iff_ne.2 ho, ho]

end Table

end AssetLoading
