import HornQuery.Number.Parts
import Mathlib

namespace HornQuery.Number

open Float.Model.UnpackedFloat

/-- The layout of words in the logical model of numbers. -/
abbrev double : Float.Model.Format := .binary64

theorem toNat_unpackMantissa (word : BitVec double.numBits) :
    (unpackMantissa word).toNat = word.toNat % 2 ^ 52 := by
  simp [unpackMantissa]

theorem toNat_unpackExponent (word : BitVec double.numBits) :
    (unpackExponent word).toNat = word.toNat / 2 ^ 52 % 2 ^ 11 := by
  simp [unpackExponent, Nat.shiftRight_eq_div_pow]

theorem toBitVec_ofBitVec (bit : BitVec 1) : (Sign.ofBitVec bit).toBitVec = bit := by
  revert bit; decide

/-- A word is its sign, its exponent and its mantissa put together. -/
theorem packComponents_word (word : BitVec double.numBits) :
    packComponents double (Sign.ofBitVec (unpackSign word)) (unpackExponent word)
      (unpackMantissa word) = word := by
  rw [packComponents, toBitVec_ofBitVec]
  apply BitVec.eq_of_getLsbD_eq
  intro i bound
  have total : i < 64 := bound
  simp only [BitVec.getLsbD_append, unpackSign, unpackExponent, unpackMantissa,
    BitVec.getLsbD_cast, BitVec.getLsbD_extractLsb]
  by_cases low : i < 52
  · simp [low]
  · by_cases middle : i - 52 < 11
    · have place : 52 + (i - 52) = i := by omega
      simp [low, middle, place]
    · have place : i = 63 := by omega
      subst place
      rfl

theorem pack_finite_subnormal (sign : Sign) (mantissa : BitVec 52) (positive : 0 < mantissa.toNat) :
    pack double (.finite sign mantissa.toNat (-1074) positive) =
      packComponents double sign 0#11 mantissa := by
  have bound : mantissa.toNat.log2 < 52 := (Nat.log2_lt (Nat.ne_of_gt positive)).mpr mantissa.isLt
  have notFull : mantissa.toNat.log2 + 1 ≠ double.mantissaBits :=
    Nat.ne_of_lt (Nat.succ_lt_succ bound)
  have small : ¬ 2 ^ double.exponentBits ≤
      ((-1074 : Int) + double.exponentBias + double.mantissaBitsWithoutImplicit).toNat + 1 := by
    decide
  simp only [pack, small, notFull, if_false]
  rw [BitVec.ofNat_toNat, BitVec.setWidth_eq]

theorem pack_finite_normal (sign : Sign) (exponent : BitVec 11) (mantissa : BitVec 52)
    (notTop : exponent.toNat < 2 ^ 11 - 1) (positive : 0 < (1#1 ++ mantissa).toNat) :
    pack double (.finite sign (1#1 ++ mantissa).toNat ((exponent.toNat : Int) - 1075) positive) =
      packComponents double sign exponent mantissa := by
  have value : (1#1 ++ mantissa).toNat = 2 ^ 52 + mantissa.toNat := by
    rw [BitVec.toNat_append, ← Nat.shiftLeft_add_eq_or_of_lt mantissa.isLt]
    rfl
  have bound := mantissa.isLt
  have full : (1#1 ++ mantissa).toNat.log2 + 1 = double.mantissaBits := by
    rw [value, (Nat.log2_eq_iff (k := 52) (by omega)).mpr ⟨by omega, by omega⟩]
    rfl
  have biased : ((exponent.toNat : Int) - 1075 + double.exponentBias +
      double.mantissaBitsWithoutImplicit).toNat = exponent.toNat := by
    change ((exponent.toNat : Int) - 1075 + 1023 + 52).toNat = exponent.toNat
    omega
  have small : ¬ 2 ^ double.exponentBits ≤ exponent.toNat + 1 := by
    change ¬ 2 ^ 11 ≤ exponent.toNat + 1
    omega
  simp only [pack, biased, small, full, if_true, if_false]
  congr 1
  · exact BitVec.eq_of_toNat_eq (by simp)
  · exact BitVec.eq_of_toNat_eq (by simpa [value] using bound)

theorem pack_unpack (word : BitVec double.numBits) (valid : double.Valid word) :
    pack double (unpack double word) = word := by
  have whole := packComponents_word word
  have exponentBound : (unpackExponent word).toNat < 2 ^ 11 := (unpackExponent word).isLt
  by_cases top : unpackExponent word = -BitVec.ofNat double.exponentBits 1
  · by_cases none : unpackMantissa word = BitVec.ofNat double.mantissaBitsWithoutImplicit 0
    · rw [top, none] at whole
      simp only [unpack, top, none, if_true]
      exact whole
    · simp only [unpack, top, none, if_true, if_false]
      exact (valid.eq_packedNaN top none).symm
  · by_cases bottom : unpackExponent word = BitVec.ofNat double.exponentBits 0
    · rw [bottom] at whole
      by_cases none : unpackMantissa word = BitVec.ofNat double.mantissaBitsWithoutImplicit 0
      · rw [none] at whole
        simp only [unpack, bottom, none]
        exact whole
      · simp only [unpack, bottom, none, if_true, if_false, dif_neg, not_false_eq_true]
        exact (pack_finite_subnormal _ _ _).trans whole
    · have notTop : (unpackExponent word).toNat < 2 ^ 11 - 1 := by
        have differs : (unpackExponent word).toNat ≠ 2 ^ 11 - 1 := fun same =>
          top (BitVec.eq_of_toNat_eq same)
        omega
      simp only [unpack, top, bottom, if_false]
      exact (pack_finite_normal _ _ _ notTop _).trans whole

theorem ofBits_toBits (x : Float) : Float.ofBits x.toBits = x := by
  obtain ⟨⟨bits, valid⟩⟩ := x
  apply congrArg Float.ofModel
  simp only [Float.Model.ofBits, Float.Model.pack, Float.toBits, Float.Model.mk.injEq]
  rw [pack_unpack bits.toBitVec valid]

/-- A word whose magnitude is at most that of infinity is not one of the many spellings of
the value that is not a number. -/
theorem valid_of_magnitude_le {bits : UInt64}
    (bound : bits.toNat % signBit ≤ binary64.infinityBits) :
    double.Valid bits.toBitVec := by
  refine ⟨fun top notNone => ?_⟩
  exfalso
  apply notNone
  have exponent := congrArg BitVec.toNat top
  rw [toNat_unpackExponent] at exponent
  apply BitVec.eq_of_toNat_eq
  rw [toNat_unpackMantissa]
  change bits.toNat / 2 ^ 52 % 2 ^ 11 = 2047 at exponent
  change bits.toNat % 2 ^ 52 = 0
  simp only [signBit, binary64] at bound
  omega

theorem toBits_ofBits {bits : UInt64}
    (bound : bits.toNat % signBit ≤ binary64.infinityBits) :
    (Float.ofBits bits).toBits = bits := by
  have same := pack_unpack bits.toBitVec (valid_of_magnitude_le bound)
  simp only [Float.toBits, Float.ofBits, Float.Model.ofBits, Float.Model.pack]
  rw [same]

theorem magnitudeBits_le_of_isNaN_eq_false {x : Float} (isNumber : x.isNaN = false) :
    magnitudeBits x ≤ binary64.infinityBits := by
  by_contra above
  have word := x.toBits.toNat_lt
  have exponent :
      @unpackExponent double x.toBits.toBitVec = -BitVec.ofNat double.exponentBits 1 := by
    apply BitVec.eq_of_toNat_eq
    rw [toNat_unpackExponent]
    change x.toBits.toNat / 2 ^ 52 % 2 ^ 11 = 2047
    simp only [magnitudeBits, signBit, binary64] at above
    omega
  have mantissa : @unpackMantissa double x.toBits.toBitVec ≠
      BitVec.ofNat double.mantissaBitsWithoutImplicit 0 := by
    intro none
    have value := congrArg BitVec.toNat none
    rw [toNat_unpackMantissa] at value
    change x.toBits.toNat % 2 ^ 52 = 0 at value
    simp only [magnitudeBits, signBit, binary64] at above
    omega
  have isNaN : x.isNaN = true := by
    change (unpack double x.toBits.toBitVec).isNaN = true
    simp only [unpack, exponent, mantissa, if_true, if_false]
    rfl
  rw [isNaN] at isNumber
  contradiction

/-! Numbers as a sign and a magnitude. -/

theorem ofMagnitude_magnitudeBits (x : Float) :
    ofMagnitude (isNegative x) (magnitudeBits x) = x := by
  have word := x.toBits.toNat_lt
  have whole : (if isNegative x then signBit + magnitudeBits x else magnitudeBits x) =
      x.toBits.toNat := by
    by_cases negative : signBit ≤ x.toBits.toNat
    · simp only [isNegative, magnitudeBits, negative, decide_true, if_true]
      simp only [signBit] at negative ⊢
      omega
    · simp only [isNegative, magnitudeBits, negative, decide_false, Bool.false_eq_true, if_false]
      exact Nat.mod_eq_of_lt (Nat.not_le.mp negative)
  rw [ofMagnitude, whole, UInt64.ofNat_toNat, ofBits_toBits]

section

variable {negative : Bool} {bits : Nat} (bound : bits ≤ binary64.infinityBits)
include bound

private theorem toNat_signed :
    (UInt64.ofNat (if negative then signBit + bits else bits)).toNat =
      if negative then signBit + bits else bits := by
  apply UInt64.toNat_ofNat_of_lt'
  simp only [signBit, binary64, UInt64.size] at bound ⊢
  split <;> omega

theorem toBits_ofMagnitude :
    (ofMagnitude negative bits).toBits.toNat = if negative then signBit + bits else bits := by
  have value := @toNat_signed negative bits bound
  rw [ofMagnitude, toBits_ofBits, value]
  rw [value]
  simp only [signBit, binary64] at bound ⊢
  split <;> omega

theorem isNegative_ofMagnitude : isNegative (ofMagnitude negative bits) = negative := by
  rw [isNegative, toBits_ofMagnitude bound]
  simp only [signBit, binary64] at bound ⊢
  cases negative
  · simp
    omega
  · simp

theorem magnitudeBits_ofMagnitude : magnitudeBits (ofMagnitude negative bits) = bits := by
  rw [magnitudeBits, toBits_ofMagnitude bound]
  simp only [signBit, binary64] at bound ⊢
  split <;> omega

theorem negate_ofMagnitude : negate (ofMagnitude negative bits) = ofMagnitude (!negative) bits := by
  rw [negate, isNegative_ofMagnitude bound, magnitudeBits_ofMagnitude bound]

end

end HornQuery.Number
