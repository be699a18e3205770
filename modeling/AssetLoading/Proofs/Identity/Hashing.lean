import AssetLoading.Identity
import Mathlib.Algebra.BigOperators.Fin
import Mathlib.Algebra.Order.Ring.Abs
import Mathlib.Data.List.Forall2
import Mathlib.Data.Nat.ModEq
import Mathlib.Tactic.Linarith
import Mathlib.Tactic.Ring

/-! # Hashes of names

  The hash reads the bytes of a name as the digits of a number to base 33, behind the
  number that it starts from, and keeps what fits a word. Bytes are larger than the base,
  so different names may be read as the same number. But digits that are less than 33
  apart from each other cannot make up for one another, and as long as there are few of
  them nothing is cut off that they differ in.

  So names with a common front differ in their hashes if what follows is short, of the same
  length, and nowhere far apart (`hash_weighs_bytes`).
-/

namespace AssetLoading

/-! ### Bytes as digits -/

/-- The number that bytes are the digits of, to base 33, the first one counting most. -/
def weigh : List UInt8 → Nat
  | [] => 0
  | b :: bytes => b.toNat * 33 ^ bytes.length + weigh bytes

theorem weigh_eq_sum (bytes : List UInt8) :
    weigh bytes = ∑ i : Fin bytes.length, bytes[i].toNat * 33 ^ (bytes.length - 1 - i) := by
  induction bytes with
  | nil => rfl
  | cons b bytes ih =>
    rw [weigh, ih]
    refine Eq.trans (congrArg _ (Finset.sum_congr rfl fun i _ => ?_))
      (Fin.sum_univ_succ fun i : Fin (bytes.length + 1) =>
        (b :: bytes)[i].toNat * 33 ^ (bytes.length + 1 - 1 - i)).symm
    have hexponent : bytes.length + 1 - 1 - (i.succ : Nat) = bytes.length - 1 - i := by
      rw [Fin.val_succ]
      omega
    rw [hexponent]
    rfl

/-- One byte more multiplies the hash and is added to it. -/
theorem toNat_hash_step (h : UInt64) (b : UInt8) :
    ((h <<< 5) + h + b.toUInt64).toNat = (h.toNat * 33 + b.toNat) % 2 ^ 64 := by
  have hshift : (h <<< 5).toNat = h.toNat * 32 % 2 ^ 64 := by
    rw [UInt64.toNat_shiftLeft]
    exact congrArg (· % 2 ^ 64) (Nat.shiftLeft_eq _ 5)
  rw [UInt64.toNat_add, UInt64.toNat_add, hshift, UInt8.toNat_toUInt64]
  omega

theorem toNat_hashFrom (seed : UInt64) (bytes : List UInt8) :
    (hashFrom seed bytes).toNat = (seed.toNat * 33 ^ bytes.length + weigh bytes) % 2 ^ 64 := by
  induction bytes generalizing seed with
  | nil =>
    show seed.toNat = (seed.toNat * 1 + 0) % 2 ^ 64
    rw [Nat.mul_one, Nat.add_zero, Nat.mod_eq_of_lt seed.toNat_lt]
  | cons b bytes ih =>
    have hstep : (seed.toNat * 33 + b.toNat) % 2 ^ 64 * 33 ^ bytes.length + weigh bytes ≡
        (seed.toNat * 33 + b.toNat) * 33 ^ bytes.length + weigh bytes [MOD 2 ^ 64] :=
      ((Nat.mod_modEq _ _).mul_right _).add_right _
    calc (hashFrom seed (b :: bytes)).toNat
        = ((seed.toNat * 33 + b.toNat) % 2 ^ 64 * 33 ^ bytes.length + weigh bytes) % 2 ^ 64 := by
          rw [← toNat_hash_step, ← ih]
          rfl
      _ = ((seed.toNat * 33 + b.toNat) * 33 ^ bytes.length + weigh bytes) % 2 ^ 64 := hstep
      _ = (seed.toNat * 33 ^ (b :: bytes).length + weigh (b :: bytes)) % 2 ^ 64 := by
          rw [weigh, List.length_cons]
          ring_nf

/-- The hash of a longer byte string goes on from that of its front. -/
theorem hashBytes_append (front bytes : List UInt8) :
    hashBytes (front ++ bytes) = hashFrom (hashBytes front) bytes :=
  List.foldl_append

/-! ### Digits that are close to each other -/

/-- Two bytes are less than the base apart. -/
def Near (a b : UInt8) : Prop :=
  |(a.toNat : ℤ) - b.toNat| ≤ 32

section Near

variable {s t : List UInt8}

/-- Close digits do not make up for a position that counts more. -/
theorem abs_weigh_sub_lt (h : List.Forall₂ Near s t) :
    |(weigh s : ℤ) - weigh t| < 33 ^ s.length := by
  induction h with
  | nil => decide
  | @cons a b s t hab hst ih =>
    have hlength : s.length = t.length := hst.length_eq
    have hab : |(a.toNat : ℤ) - b.toNat| ≤ 32 := hab
    have hpos : (0 : ℤ) < 33 ^ s.length := by positivity
    have hsplit : (weigh (a :: s) : ℤ) - weigh (b :: t) =
        ((a.toNat : ℤ) - b.toNat) * 33 ^ s.length + ((weigh s : ℤ) - weigh t) := by
      rw [weigh, weigh, ← hlength]
      push_cast
      ring
    rw [hsplit, List.length_cons, pow_succ]
    rw [abs_le] at hab
    rw [abs_lt] at ih ⊢
    constructor <;> nlinarith

/-- Close digits that are read as the same number are the same. -/
theorem eq_of_weigh_eq (h : List.Forall₂ Near s t) (heq : weigh s = weigh t) : s = t := by
  induction h with
  | nil => rfl
  | @cons a b s t hab hst ih =>
    have hlength : s.length = t.length := hst.length_eq
    have hrest := abs_weigh_sub_lt hst
    have hpos : (0 : ℤ) < 33 ^ s.length := by positivity
    have hsplit : ((a.toNat : ℤ) - b.toNat) * 33 ^ s.length = weigh t - weigh s := by
      have hcast : (weigh (a :: s) : ℤ) = weigh (b :: t) := congrArg _ heq
      rw [weigh, weigh, ← hlength] at hcast
      push_cast at hcast
      linarith
    -- what follows is less than one at this position
    have hsame : a = b := by
      rw [← UInt8.toNat_inj, ← Int.natCast_inj, ← sub_eq_zero]
      rw [abs_sub_comm, ← hsplit, abs_mul, abs_of_pos hpos] at hrest
      exact Int.abs_lt_one_iff.1 (lt_of_mul_lt_mul_right (hrest.trans_eq (one_mul _).symm) hpos.le)
    subst hsame
    rw [sub_self, zero_mul] at hsplit
    rw [ih (by omega)]

/-- Few digits that are close to each other do not get lost in the hash. -/
theorem eq_of_hashFrom_eq (h : List.Forall₂ Near s t) (hshort : s.length ≤ 12) {seed : UInt64}
    (heq : hashFrom seed s = hashFrom seed t) : s = t := by
  refine eq_of_weigh_eq h ?_
  have hmod : seed.toNat * 33 ^ s.length + weigh s ≡ seed.toNat * 33 ^ s.length + weigh t
      [MOD 2 ^ 64] := by
    have hnat := congrArg UInt64.toNat heq
    rw [toNat_hashFrom, toNat_hashFrom, ← h.length_eq] at hnat
    exact hnat
  have hdvd := (Nat.ModEq.add_left_cancel' _ hmod).symm.dvd
  have hlt : |(weigh s : ℤ) - weigh t| < 2 ^ 64 := by
    calc |(weigh s : ℤ) - weigh t| < 33 ^ s.length := abs_weigh_sub_lt h
      _ ≤ 33 ^ 12 := pow_le_pow_right₀ (by decide) hshort
      _ < 2 ^ 64 := by decide
  have hzero := Int.eq_zero_of_abs_lt_dvd hdvd hlt
  omega

end Near

/-! ### Texts -/

theorem utf8Bytes_append (front text : String) :
    utf8Bytes (front ++ text) = utf8Bytes front ++ utf8Bytes text := by
  show (front ++ text).toByteArray.data.toList = _
  rw [String.toByteArray_append, ByteArray.data_append, Array.toList_append]
  rfl

theorem utf8Bytes_inj {s t : String} (h : utf8Bytes s = utf8Bytes t) : s = t :=
  String.toByteArray_inj.1 (ByteArray.ext (Array.toList_inj.1 h))

theorem hashText_append (front text : String) :
    hashText (front ++ text) = hashFrom (hashText front) (utf8Bytes text) := by
  unfold hashText
  rw [utf8Bytes_append, hashBytes_append]

/-! ### The law -/

/-- What is known of the hash. -/
structure HashLaw : Prop where
  /-- The hash reads the bytes as digits to base 33 behind the number it starts from, and
  keeps what fits a word. -/
  closed : ∀ bytes : List UInt8, (hashBytes bytes).toNat =
    (5381 * 33 ^ bytes.length +
      ∑ i : Fin bytes.length, bytes[i].toNat * 33 ^ (bytes.length - 1 - i)) % 2 ^ 64
  /-- What is put behind a byte string or a text is hashed on from there. -/
  continued : (∀ front bytes, hashBytes (front ++ bytes) = hashFrom (hashBytes front) bytes) ∧
    ∀ front text, hashText (front ++ text) = hashFrom (hashText front) (utf8Bytes text)
  /-- Different byte strings of the same length, of up to twelve bytes, no two of which are
  more than 32 apart at the same position, make different hashes behind the same front. -/
  apart : ∀ front s t : List UInt8, s.length = t.length → s.length ≤ 12 →
    (∀ i hs ht, |((s.get ⟨i, hs⟩).toNat : ℤ) - (t.get ⟨i, ht⟩).toNat| ≤ 32) → s ≠ t →
      hashBytes (front ++ s) ≠ hashBytes (front ++ t)
  /-- So do texts, and these are different ids. -/
  named : ∀ front s t : String, (utf8Bytes s).length = (utf8Bytes t).length →
    (utf8Bytes s).length ≤ 12 →
    (∀ i hs ht, |(((utf8Bytes s).get ⟨i, hs⟩).toNat : ℤ) - ((utf8Bytes t).get ⟨i, ht⟩).toNat| ≤ 32) →
    s ≠ t → AssetId.ofName (front ++ s) ≠ AssetId.ofName (front ++ t)

/-- **Hashes of names.** For all bytes and texts. -/
theorem hash_weighs_bytes : HashLaw := by
  constructor
  · intro bytes
    rw [← weigh_eq_sum]
    exact toNat_hashFrom 5381 bytes
  · exact ⟨hashBytes_append, hashText_append⟩
  · intro front s t hlength hshort hnear hne heq
    rw [hashBytes_append, hashBytes_append] at heq
    exact hne (eq_of_hashFrom_eq (List.forall₂_iff_get.2 ⟨hlength, hnear⟩) hshort heq)
  · intro front s t hlength hshort hnear hne heq
    have heq : hashText (front ++ s) = hashText (front ++ t) := congrArg AssetId.value heq
    rw [hashText_append, hashText_append] at heq
    refine hne (utf8Bytes_inj ?_)
    exact eq_of_hashFrom_eq (List.forall₂_iff_get.2 ⟨hlength, hnear⟩) hshort heq

/-- Bytes that are 33 apart make up for the position in front of them. -/
example : hashBytes [1, 0] = hashBytes [0, 33] := by decide

end AssetLoading
