import HornQuery.Number.Layout
import HornQuery.Number.Numeral
import Mathlib

namespace HornQuery.Number

theorem ofDigits_eq_ofDigitChars (digits : List Char) :
    ofDigits digits = Nat.ofDigitChars 10 digits 0 := by
  unfold ofDigits Nat.ofDigitChars digitValue
  congr 1
  funext value c
  rw [Nat.mul_comm]

theorem ofDigits_toDigits (n : Nat) : ofDigits (Nat.toDigits 10 n) = n := by
  rw [ofDigits_eq_ofDigitChars, Nat.ofDigitChars_ten_toDigits]

theorem ofDigits_append_zeros (digits : List Char) (count : Nat) :
    ofDigits (digits ++ List.replicate count '0') = ofDigits digits * 10 ^ count := by
  simp only [ofDigits_eq_ofDigitChars]
  rw [Nat.ofDigitChars_append, Nat.ofDigitChars_replicate_zero, Nat.mul_comm]

theorem ofDigits_zeros_append (count : Nat) (digits : List Char) :
    ofDigits (List.replicate count '0' ++ digits) = ofDigits digits := by
  simp only [ofDigits_eq_ofDigitChars]
  rw [Nat.ofDigitChars_append, Nat.ofDigitChars_replicate_zero, Nat.mul_zero]

theorem ofDigits_zero_cons (digits : List Char) : ofDigits ('0' :: digits) = ofDigits digits :=
  ofDigits_zeros_append 1 digits

theorem isDigit_of_mem_toDigits {n : Nat} {c : Char} (member : c ∈ Nat.toDigits 10 n) :
    isDigit c = true :=
  Nat.isDigit_of_mem_toDigits (by decide) (by decide) member

/-! How many digits a number has. -/

theorem digitCount_pos (n : Nat) : 0 < digitCount n :=
  Nat.length_toDigits_pos

theorem digitCount_le_iff {n count : Nat} (positive : 0 < count) :
    digitCount n ≤ count ↔ n < 10 ^ count :=
  Nat.length_toDigits_le_iff (by decide) positive

theorem digitCount_mul_pow {n : Nat} (positive : 0 < n) (places : Nat) :
    digitCount (n * 10 ^ places) = digitCount n + places := by
  have count := digitCount_pos n
  have scaledCount := digitCount_pos (n * 10 ^ places)
  have power : 0 < 10 ^ places := Nat.pow_pos (by decide)
  apply Nat.le_antisymm
  · rw [digitCount_le_iff (by omega), Nat.pow_add]
    exact Nat.mul_lt_mul_of_pos_right ((digitCount_le_iff count).mp (Nat.le_refl _)) power
  · have large : places < digitCount (n * 10 ^ places) := by
      by_contra small
      have below := (digitCount_le_iff (Nat.lt_of_lt_of_le scaledCount (Nat.not_lt.mp small))).mp
        (Nat.not_lt.mp small)
      exact Nat.not_lt.mpr (Nat.le_mul_of_pos_left (10 ^ places) positive) below
    have bound := (digitCount_le_iff scaledCount).mp (Nat.le_refl _)
    have split : 10 ^ digitCount (n * 10 ^ places) =
        10 ^ (digitCount (n * 10 ^ places) - places) * 10 ^ places := by
      rw [← Nat.pow_add, Nat.sub_add_cancel (Nat.le_of_lt large)]
    rw [split] at bound
    have fewer := (digitCount_le_iff (Nat.sub_pos_of_lt large)).mpr
      (Nat.lt_of_mul_lt_mul_right bound)
    omega

/-! The digits that count: what is left out at the end are zeros. -/

theorem significantDigits_append_zeros (n : Nat) :
    ∃ zeros, Nat.toDigits 10 n = significantDigits n ++ List.replicate zeros '0' := by
  refine ⟨((Nat.toDigits 10 n).reverse.takeWhile (· = '0')).length, ?_⟩
  have parts := List.takeWhile_append_dropWhile (p := (· = '0')) (l := (Nat.toDigits 10 n).reverse)
  have zeros : (Nat.toDigits 10 n).reverse.takeWhile (· = '0') =
      List.replicate ((Nat.toDigits 10 n).reverse.takeWhile (· = '0')).length '0' := by
    apply List.eq_replicate_of_mem
    intro c member
    simpa using List.mem_takeWhile_imp member
  rw [significantDigits, ← List.reverse_inj, List.reverse_append, List.reverse_reverse,
    List.reverse_replicate, ← zeros]
  exact parts.symm

end HornQuery.Number
