import AssetLoading.Proofs.Identity.Hashing
import Mathlib.Data.Set.Function

/-! # Names that end in a number

  The digits of a number are close to each other, so names that end in different numbers
  of the same length and are the same in front have different ids, if the numbers have at
  most twelve digits (`ofName_numeral_injOn`). Nothing is said of numbers of different
  lengths, where further digits may well make up for what comes before them.
-/

namespace AssetLoading

theorem utf8EncodeChar_of_isDigit {c : Char} (hc : c.isDigit = true) :
    String.utf8EncodeChar c = [UInt8.ofNat c.val.toNat] := by
  have hle : c.val.toNat ≤ 57 := (Char.isDigit_iff_toNat.1 hc).2
  unfold String.utf8EncodeChar
  dsimp only
  rw [if_pos (by omega)]

/-- The bytes of a number are those of its digits. -/
theorem utf8Bytes_toString (n : Nat) :
    utf8Bytes (toString n) = (Nat.toDigits 10 n).map fun c => UInt8.ofNat c.val.toNat := by
  have hbytes : utf8Bytes (toString n) = (Nat.toDigits 10 n).flatMap String.utf8EncodeChar := by
    rw [Nat.toString_eq_ofList_toDigits]
    show (String.ofList _).toByteArray.data.toList = _
    rw [String.toByteArray_ofList]
    simp [List.utf8Encode]
  rw [hbytes, List.map_eq_flatMap]
  refine List.flatMap_congr fun c hc => ?_
  exact utf8EncodeChar_of_isDigit (Nat.isDigit_of_mem_toDigits (by decide) (by decide) hc)

/-- The bytes of two digits are near each other. -/
theorem near_of_isDigit {c d : Char} (hc : c.isDigit = true) (hd : d.isDigit = true) :
    Near (UInt8.ofNat c.val.toNat) (UInt8.ofNat d.val.toNat) := by
  have hvalue (c : Char) (hc : c.isDigit = true) :
      48 ≤ (UInt8.ofNat c.val.toNat).toNat ∧ (UInt8.ofNat c.val.toNat).toNat ≤ 57 := by
    have hbounds : 48 ≤ c.val.toNat ∧ c.val.toNat ≤ 57 := Char.isDigit_iff_toNat.1 hc
    rw [UInt8.toNat_ofNat']
    omega
  have hc := hvalue c hc
  have hd := hvalue d hd
  unfold Near
  rw [abs_le]
  omega

theorem toString_inj {m n : Nat} (h : toString m = toString n) : m = n := by
  rw [Nat.toString_eq_ofList_toDigits, Nat.toString_eq_ofList_toDigits, String.ofList_inj] at h
  rw [← Nat.ofDigitChars_ten_toDigits (n := m), h, Nat.ofDigitChars_ten_toDigits]

theorem length_toDigits {d n : Nat} (hlow : 10 ^ d ≤ n) (hhigh : n < 10 ^ (d + 1)) :
    (Nat.toDigits 10 n).length = d + 1 := by
  have hle := (Nat.length_toDigits_le_iff (by decide) (Nat.succ_pos d)).2 hhigh
  cases d with
  | zero =>
    have hpos := @Nat.length_toDigits_pos 10 n
    omega
  | succ d =>
    have hlt : ¬ (Nat.toDigits 10 n).length ≤ d + 1 := by
      rw [Nat.length_toDigits_le_iff (by decide) (Nat.succ_pos d)]
      exact Nat.not_lt.2 hlow
    omega

/-- Numbers of the same length behind the same front make different ids, unless they are
too long. -/
theorem ofName_numeral_injOn (stem : String) {d : Nat} (hshort : d < 12) :
    Set.InjOn (fun n : Nat => AssetId.ofName (stem ++ toString n))
      (Set.Ico (10 ^ d) (10 ^ (d + 1))) := by
  rintro m ⟨hm, hm'⟩ n ⟨hn, hn'⟩ h
  have hlength := (length_toDigits hm hm').trans (length_toDigits hn hn').symm
  have hnear : List.Forall₂ Near (utf8Bytes (toString m)) (utf8Bytes (toString n)) := by
    rw [utf8Bytes_toString, utf8Bytes_toString, List.forall₂_map_left_iff,
      List.forall₂_map_right_iff, List.forall₂_iff_get]
    refine ⟨hlength, fun i hi hi' => near_of_isDigit ?_ ?_⟩
    · exact Nat.isDigit_of_mem_toDigits (by decide) (by decide) (List.get_mem _ _)
    · exact Nat.isDigit_of_mem_toDigits (by decide) (by decide) (List.get_mem _ _)
  have hhash : hashText (stem ++ toString m) = hashText (stem ++ toString n) :=
    congrArg AssetId.value h
  rw [hashText_append, hashText_append] at hhash
  have hlen : (utf8Bytes (toString m)).length ≤ 12 := by
    rw [utf8Bytes_toString, List.length_map, length_toDigits hm hm']
    omega
  exact toString_inj (utf8Bytes_inj (eq_of_hashFrom_eq hnear hlen hhash))

end AssetLoading
