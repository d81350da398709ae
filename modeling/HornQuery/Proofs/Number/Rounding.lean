import HornQuery.Number.Shortest
import HornQuery.Proofs.Number.Digits

namespace HornQuery.Number

theorem roundHalfEven_mul_right (numerator denominator : Nat) {factor : Nat}
    (positive : 0 < factor) :
    roundHalfEven (numerator * factor) (denominator * factor) =
      roundHalfEven numerator denominator := by
  have below : 2 * (numerator % denominator * factor) < denominator * factor ↔
      2 * (numerator % denominator) < denominator := by
    rw [← Nat.mul_assoc, Nat.mul_lt_mul_right positive]
  have above : denominator * factor < 2 * (numerator % denominator * factor) ↔
      denominator < 2 * (numerator % denominator) := by
    rw [← Nat.mul_assoc, Nat.mul_lt_mul_right positive]
  simp only [roundHalfEven, Nat.mul_div_mul_right _ _ positive, Nat.mul_mod_mul_right, below, above]

theorem roundHalfEven_mul_self (quotient : Nat) {denominator : Nat} (positive : 0 < denominator) :
    roundHalfEven (quotient * denominator) denominator = quotient := by
  simp only [roundHalfEven, Nat.mul_mod_left, Nat.mul_zero, positive, if_true]
  exact Nat.mul_div_cancel quotient positive

namespace Format

variable (format : Format)

theorem nearest_mul_right (numerator denominator : Nat) {factor : Nat} (positive : 0 < factor) :
    format.nearest (numerator * factor) (denominator * factor) =
      format.nearest numerator denominator := by
  simp only [nearest, Nat.mul_div_mul_right _ _ positive, Nat.mul_right_comm denominator factor]
  rw [roundHalfEven_mul_right _ _ positive]

theorem nearest_congr {numerator denominator numerator' denominator' : Nat}
    (positive : 0 < denominator) (positive' : 0 < denominator')
    (same : numerator * denominator' = numerator' * denominator) :
    format.nearest numerator denominator = format.nearest numerator' denominator' := by
  rw [← nearest_mul_right format numerator denominator positive', same,
    Nat.mul_comm denominator, nearest_mul_right format numerator' denominator' positive]

theorem ofDecimal_eq {digits : Nat} {exponent : Int} (positive : 0 < digits) :
    format.ofDecimal ⟨digits, exponent⟩ =
      if 400 < (digitCount digits : Int) + exponent then format.infinityBits
      else if (digitCount digits : Int) + exponent < -400 then 0
      else
        format.nearest (digits * 10 ^ exponent.toNat * 2 ^ format.unitPlaces)
          (10 ^ (-exponent).toNat) := by
  simp only [ofDecimal, Nat.ne_of_gt positive, if_false, Nat.pow_eq]
  by_cases whole : 0 ≤ exponent
  · have none : (-exponent).toNat = 0 := by omega
    simp only [whole, if_true, none, Nat.pow_zero]
  · have none : exponent.toNat = 0 := by omega
    simp only [whole, if_false, none, Nat.pow_zero, Nat.mul_one]

/-- Moving zeros between the digits and the exponent does not change what a number is
rounded to. -/
theorem ofDecimal_mul_pow (digits places : Nat) (exponent : Int) :
    format.ofDecimal ⟨digits * 10 ^ places, exponent⟩ =
      format.ofDecimal ⟨digits, exponent + places⟩ := by
  rcases Nat.eq_zero_or_pos digits with zero | positive
  · subst zero
    simp [ofDecimal]
  · have scaled : 0 < digits * 10 ^ places := Nat.mul_pos positive (Nat.pow_pos (by decide))
    rw [ofDecimal_eq format scaled, ofDecimal_eq format positive,
      digitCount_mul_pow positive]
    have top : ((digitCount digits + places : Nat) : Int) + exponent =
        digitCount digits + (exponent + places) := by omega
    rw [top]
    congr 2
    apply nearest_congr format (Nat.pow_pos (by decide)) (Nat.pow_pos (by decide))
    have balance : places + exponent.toNat + (-(exponent + places)).toNat =
        (exponent + places).toNat + (-exponent).toNat := by omega
    calc digits * 10 ^ places * 10 ^ exponent.toNat * 2 ^ format.unitPlaces *
          10 ^ (-(exponent + places)).toNat
        = digits * 2 ^ format.unitPlaces *
          10 ^ (places + exponent.toNat + (-(exponent + places)).toNat) := by
          simp only [Nat.pow_add]
          ac_rfl
      _ = digits * 2 ^ format.unitPlaces *
          10 ^ ((exponent + places).toNat + (-exponent).toNat) := by rw [balance]
      _ = digits * 10 ^ (exponent + places).toNat * 2 ^ format.unitPlaces *
          10 ^ (-exponent).toNat := by
          simp only [Nat.pow_add]
          ac_rfl

end Format

/-! The magnitudes of double precision. -/

theorem units_of_subnormal {bits : Nat} (subnormal : bits < 2 ^ 52) :
    binary64.units bits = bits := by
  have none : bits / 2 ^ 52 - 1 = 0 := by omega
  simp only [Format.units, Format.significand, Format.shift, binary64, Nat.pow_eq, subnormal,
    if_true, none, Nat.pow_zero, Nat.mul_one]

theorem units_of_normal {bits : Nat} (normal : 2 ^ 52 ≤ bits) :
    binary64.units bits = (2 ^ 52 + bits % 2 ^ 52) * 2 ^ (bits / 2 ^ 52 - 1) := by
  have notSubnormal : ¬ bits < 2 ^ 52 := Nat.not_lt.mpr normal
  simp only [Format.units, Format.significand, Format.shift, binary64, Nat.pow_eq, notSubnormal,
    if_false]

theorem log2_mul_pow {significand shift : Nat} (low : 2 ^ 52 ≤ significand)
    (high : significand < 2 ^ 53) : (significand * 2 ^ shift).log2 = 52 + shift := by
  have power : 0 < 2 ^ shift := Nat.pow_pos (by decide)
  have positive : significand * 2 ^ shift ≠ 0 :=
    Nat.ne_of_gt (Nat.mul_pos (Nat.lt_of_lt_of_le (by decide) low) power)
  rw [Nat.log2_eq_iff positive, Nat.pow_add, Nat.add_right_comm 52 shift 1, Nat.pow_add]
  exact ⟨Nat.mul_le_mul_right _ low, Nat.mul_lt_mul_of_pos_right high power⟩

/-- A count of units is rounded to the bit pattern that it belongs to. -/
theorem nearest_units {bits : Nat} (positive : 0 < bits) (bound : bits ≤ binary64.infinityBits) :
    binary64.nearest (binary64.units bits) 1 = bits := by
  simp only [Format.nearest, Nat.div_one, Nat.one_mul, Nat.pow_eq]
  change min (((binary64.units bits).log2 - 52) * 2 ^ 52 +
    roundHalfEven (binary64.units bits) (2 ^ ((binary64.units bits).log2 - 52))) _ = bits
  rcases Nat.lt_or_ge bits (2 ^ 52) with subnormal | normal
  · have shift : bits.log2 - 52 = 0 := by
      have small := (Nat.log2_lt (k := 52) (Nat.ne_of_gt positive)).mpr subnormal
      omega
    have exact := @roundHalfEven_mul_self bits 1 (by decide)
    rw [units_of_subnormal subnormal, shift, Nat.pow_zero, ← Nat.mul_one bits, exact]
    omega
  · have high : 2 ^ 52 + bits % 2 ^ 52 < 2 ^ 53 := by omega
    rw [units_of_normal normal, log2_mul_pow (by omega) high, Nat.add_sub_cancel_left,
      roundHalfEven_mul_self _ (Nat.pow_pos (by decide))]
    omega

theorem units_pos {bits : Nat} (positive : 0 < bits) : 0 < binary64.units bits := by
  rcases Nat.lt_or_ge bits (2 ^ 52) with subnormal | normal
  · rw [units_of_subnormal subnormal]
    exact positive
  · rw [units_of_normal normal]
    exact Nat.mul_pos (by omega) (Nat.pow_pos (by decide))

theorem units_lt (bits : Nat) : binary64.units bits < 2 ^ 53 * 2 ^ (bits / 2 ^ 52) := by
  rcases Nat.lt_or_ge bits (2 ^ 52) with subnormal | normal
  · rw [units_of_subnormal subnormal, Nat.div_eq_of_lt subnormal]
    omega
  · rw [units_of_normal normal]
    exact Nat.mul_lt_mul_of_lt_of_le (by omega) (Nat.pow_le_pow_right (by decide) (by omega))
      (Nat.pow_pos (by decide))

theorem expansion_eq (bits : Nat) : expansion bits =
    ⟨binary64.units bits * 5 ^ binary64.unitPlaces, -(binary64.unitPlaces : Int)⟩ := by
  simp only [expansion, Nat.pow_eq]

theorem digitCount_expansion {bits : Nat} (positive : 0 < bits)
    (bound : bits ≤ binary64.infinityBits) :
    674 ≤ digitCount (expansion bits).digits ∧ digitCount (expansion bits).digits ≤ 1474 := by
  -- The powers stay symbolic: only the kernel is asked to compute them.
  obtain ⟨top, isTop⟩ : ∃ top, top = 2047 := ⟨_, rfl⟩
  obtain ⟨places, isPlaces⟩ : ∃ places, places = binary64.unitPlaces := ⟨_, rfl⟩
  have manyDigits : 10 ^ 673 ≤ 5 ^ places := by
    subst isPlaces
    decide +kernel
  have fewDigits : 2 ^ 53 * 2 ^ top * 5 ^ places < 10 ^ 1474 := by
    subst isTop isPlaces
    decide +kernel
  have least := units_pos positive
  have shift : bits / 2 ^ 52 ≤ top := by
    have large : bits ≤ 2047 * 2 ^ 52 := bound
    omega
  have most : binary64.units bits < 2 ^ 53 * 2 ^ top :=
    Nat.lt_of_lt_of_le (units_lt bits)
      (Nat.mul_le_mul_left _ (Nat.pow_le_pow_right (by decide) shift))
  rw [expansion_eq, ← isPlaces]
  constructor
  · by_contra few
    have below := (@digitCount_le_iff _ 673 (by decide)).mp
      (Nat.le_of_lt_succ (Nat.not_le.mp few))
    have above := Nat.le_mul_of_pos_left (5 ^ places) least
    exact absurd below (Nat.not_lt.mpr (Nat.le_trans manyDigits above))
  · rw [digitCount_le_iff (by decide)]
    exact Nat.lt_trans (Nat.mul_lt_mul_of_pos_right most (Nat.pow_pos (by decide))) fewDigits

/-- The bit pattern of a whole expansion is the one that it was made from. -/
theorem ofDecimal_expansion {bits : Nat} (positive : 0 < bits)
    (bound : bits ≤ binary64.infinityBits) :
    binary64.ofDecimal (expansion bits) = bits := by
  have count := digitCount_expansion positive bound
  obtain ⟨places, isPlaces⟩ : ∃ places, places = binary64.unitPlaces := ⟨_, rfl⟩
  have value : places = 1074 := isPlaces
  rw [expansion_eq, ← isPlaces] at count ⊢
  have some : 0 < binary64.units bits * 5 ^ places :=
    Nat.mul_pos (units_pos positive) (Nat.pow_pos (by decide))
  rw [Format.ofDecimal_eq _ some, ← isPlaces]
  generalize digitCount (binary64.units bits * 5 ^ places) = digits at count ⊢
  have notAbove : ¬ 400 < (digits : Int) + -(places : Int) := by omega
  have notBelow : ¬ (digits : Int) + -(places : Int) < -400 := by omega
  simp only [notAbove, notBelow, if_false]
  have none : (-(places : Int)).toNat = 0 := by omega
  have all : (- -(places : Int)).toNat = places := by omega
  rw [none, all, Nat.pow_zero, Nat.mul_one]
  refine (Format.nearest_congr _ (Nat.pow_pos (by decide)) (by decide) ?_).trans
    (nearest_units positive bound)
  calc binary64.units bits * 5 ^ places * 2 ^ places * 1
      = binary64.units bits * (5 ^ places * 2 ^ places) := by rw [Nat.mul_one, Nat.mul_assoc]
    _ = binary64.units bits * 10 ^ places := by rw [← Nat.mul_pow]

theorem readsBack_of_neighbour? {tie : Tie} {bits : Nat} {exponent : Int} {number : Decimal}
    (found : neighbour? tie bits exponent = some number) : readsBack bits number = true := by
  unfold neighbour? at found
  generalize onGrid bits exponent = quotient at found
  simp only at found
  split at found
  next lowReads highReads =>
    repeat' split at found
    all_goals
      cases found
      assumption
  next lowReads _ =>
    cases found
    exact lowReads
  next _ highReads =>
    cases found
    exact highReads
  next => contradiction

theorem ofDecimal_shortest (tie : Tie) {bits : Nat} (positive : 0 < bits)
    (bound : bits ≤ binary64.infinityBits) :
    binary64.ofDecimal (shortest tie bits) = bits := by
  have last := ofDecimal_expansion positive bound
  simp only [shortest]
  generalize expansion bits = fallback at last ⊢
  cases search : List.findSome? _ (List.range 17) with
  | none => exact last
  | some number =>
      obtain ⟨n, _, found⟩ := List.exists_of_findSome?_eq_some search
      exact eq_of_beq (readsBack_of_neighbour? found)

end HornQuery.Number
