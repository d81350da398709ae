import HornQuery.Proofs.Number.Bits

namespace HornQuery.Number

open Float.Model

def negativeZero : Float := ofMagnitude true 0

theorem eq_of_unpack_eq {x y : Float} (same : x.toModel.unpack = y.toModel.unpack) : x = y := by
  obtain ⟨⟨bits, valid⟩⟩ := x
  obtain ⟨⟨others, validOthers⟩⟩ := y
  have words : bits.toBitVec = others.toBitVec := by
    rw [← pack_unpack bits.toBitVec valid, ← pack_unpack others.toBitVec validOthers]
    exact congrArg _ same
  obtain rfl : bits = others := UInt64.toBitVec_inj.mp words
  rfl

theorem eq_or_zeros_of_compare {a b : UnpackedFloat} (same : a.compare b = some .eq) :
    a = b ∨ ∃ first second, a = .zero first ∧ b = .zero second := by
  cases a with
  | notANumber => cases same
  | infinity sign =>
      cases b with
      | infinity other => cases sign <;> cases other <;> first | exact .inl rfl | cases same
      | _ => cases sign <;> cases same
  | zero sign =>
      cases b with
      | zero other => exact .inr ⟨sign, other, rfl, rfl⟩
      | infinity other => cases other <;> cases same
      | finite other mantissa exponent positive => cases other <;> cases same
      | notANumber => cases same
  | finite sign mantissa exponent positive =>
      cases b with
      | finite other otherMantissa otherExponent otherPositive =>
          have parts : sign = other ∧ exponent = otherExponent ∧ mantissa = otherMantissa := by
            cases sign <;> cases other <;>
              simp_all [UnpackedFloat.compare, Ordering.then_eq_eq]
          obtain ⟨rfl, rfl, rfl⟩ := parts
          exact .inl rfl
      | infinity other => cases sign <;> cases other <;> cases same
      | zero other => cases sign <;> cases same
      | notANumber => cases sign <;> cases same

theorem compare_self {a : UnpackedFloat} (isNumber : a.isNaN = false) :
    a.compare a = some .eq := by
  cases a with
  | notANumber => cases isNumber
  | infinity sign => cases sign <;> rfl
  | zero sign => rfl
  | finite sign mantissa exponent positive => cases sign <;> simp [UnpackedFloat.compare]

theorem beq_self {x : Float} (isNumber : x.isNaN = false) : (x == x) = true := by
  have compared : x.toModel.unpack.compare x.toModel.unpack = some .eq := compare_self isNumber
  change (x.toModel.unpack.compare x.toModel.unpack == some .eq) = true
  rw [compared]
  rfl

theorem beq_symm {x y : Float} (same : (x == y) = true) : (y == x) = true := by
  have compared : x.toModel.unpack.compare y.toModel.unpack = some .eq := eq_of_beq same
  rcases eq_or_zeros_of_compare compared with alike | ⟨first, second, isFirst, isSecond⟩
  · rwa [eq_of_unpack_eq alike] at same ⊢
  · change (y.toModel.unpack.compare x.toModel.unpack == some .eq) = true
    rw [isFirst, isSecond]
    rfl

theorem beq_comm (x y : Float) : (x == y) = (y == x) :=
  Bool.eq_iff_iff.mpr ⟨beq_symm, beq_symm⟩

/-- Numbers compare as equal exactly if they are the same, where neither is the negative zero and
one is a number at all. -/
theorem beq_iff_same {x y : Float} (isNumber : x.isNaN = false) (plain : x ≠ negativeZero)
    (otherPlain : y ≠ negativeZero) : (x == y) = true ↔ x = y := by
  constructor
  · intro same
    have compared : x.toModel.unpack.compare y.toModel.unpack = some .eq := eq_of_beq same
    rcases eq_or_zeros_of_compare compared with alike | ⟨first, second, isFirst, isSecond⟩
    · exact eq_of_unpack_eq alike
    · cases first with
      | negative => exact absurd (eq_of_unpack_eq isFirst) plain
      | positive =>
          cases second with
          | negative => exact absurd (eq_of_unpack_eq isSecond) otherPlain
          | positive => exact eq_of_unpack_eq (isFirst.trans isSecond.symm)
  · rintro rfl
    exact beq_self isNumber

end HornQuery.Number
