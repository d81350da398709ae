import HornQuery.Proofs.Number.Rounding

namespace HornQuery.Number

/-- An exponent with its mark, or nothing at all. -/
inductive ExponentText : List Char → Int → Prop
  | absent : ExponentText [] 0
  | positive (size : Nat) : ExponentText ('e' :: Nat.toDigits 10 size) size
  | negative (size : Nat) : ExponentText ('e' :: '-' :: Nat.toDigits 10 size) (-(size : Int))

/-- Digits before and after a point and an exponent. What they denote may differ from the
decimal number in how many zeros its digits end in. -/
structure NumeralParts (number : Decimal) (whole fraction mark : List Char) (size : Int) :
    Prop where
  whole_ne_nil : whole ≠ []
  fraction_ne_nil : fraction ≠ []
  whole_digits : ∀ c ∈ whole, isDigit c = true
  fraction_digits : ∀ c ∈ fraction, isDigit c = true
  exponentText : ExponentText mark size
  value : ∃ zeros : Nat, ofDigits (whole ++ fraction) = number.digits * 10 ^ zeros ∧
    size - fraction.length + zeros = number.exponent

inductive Numeral (number : Decimal) : List Char → Prop
  | mk {whole fraction mark : List Char} {size : Int}
      (parts : NumeralParts number whole fraction mark size) :
      Numeral number (whole ++ '.' :: (fraction ++ mark))

theorem NumeralParts.ofDecimal_eq {number : Decimal} {whole fraction mark : List Char}
    {size : Int} (parts : NumeralParts number whole fraction mark size) (format : Format) :
    format.ofDecimal ⟨ofDigits (whole ++ fraction), size - fraction.length⟩ =
      format.ofDecimal number := by
  obtain ⟨zeros, digits, exponent⟩ := parts.value
  rw [digits, Format.ofDecimal_mul_pow, exponent]

/-! Digits without the zeros that end them. -/

theorem significantDigits_value (n : Nat) : ∃ zeros,
    ofDigits (significantDigits n) * 10 ^ zeros = n ∧
      digitCount n = (significantDigits n).length + zeros := by
  obtain ⟨zeros, whole⟩ := significantDigits_append_zeros n
  refine ⟨zeros, ?_, ?_⟩
  · rw [← ofDigits_append_zeros, ← whole, ofDigits_toDigits]
  · rw [digitCount, whole, List.length_append, List.length_replicate]

theorem significantDigits_ne_nil {n : Nat} (positive : 0 < n) : significantDigits n ≠ [] := by
  intro none
  obtain ⟨zeros, value, _⟩ := significantDigits_value n
  rw [none] at value
  simp only [ofDigits, List.foldl_nil, Nat.zero_mul] at value
  omega

theorem isDigit_of_mem_significantDigits {n : Nat} {c : Char}
    (member : c ∈ significantDigits n) : isDigit c = true := by
  obtain ⟨zeros, whole⟩ := significantDigits_append_zeros n
  apply isDigit_of_mem_toDigits (n := n)
  rw [whole]
  exact List.mem_append_left _ member

namespace Format

variable (format : Format)

theorem ofDecimal_of_digits_eq_zero {number : Decimal} (zero : number.digits = 0) :
    format.ofDecimal number = 0 :=
  if_pos zero

theorem ofDecimal_significantDigits (number : Decimal) :
    format.ofDecimal ⟨ofDigits (significantDigits number.digits),
      ((digitCount number.digits : Int) + number.exponent - 1) + 1
        - (significantDigits number.digits).length⟩ = format.ofDecimal number := by
  obtain ⟨zeros, value, count⟩ := significantDigits_value number.digits
  have last : ((digitCount number.digits : Int) + number.exponent - 1) + 1
      - (significantDigits number.digits).length = number.exponent + zeros := by
    omega
  rw [last, ← ofDecimal_mul_pow, value]

end Format

/-! The two notations. -/

namespace Layout

variable {layout : Layout} {digits : List Char}

/-- In positional notation the first digit has the given exponent, so the last one has it less
the number of the others. -/
theorem numeral_writePositional (some : digits ≠ [])
    (allDigits : ∀ c ∈ digits, isDigit c = true) (points : layout.pointAfterWhole = true)
    (exponent : Int) :
    Numeral ⟨ofDigits digits, exponent + 1 - digits.length⟩
      (layout.writePositional digits exponent) := by
  have isZeroDigit : isDigit '0' = true := rfl
  have length := List.length_pos_iff.mpr some
  unfold writePositional
  split
  case isTrue small =>
    have parts : NumeralParts ⟨ofDigits digits, exponent + 1 - digits.length⟩ ['0']
        (List.replicate (-exponent - 1).toNat '0' ++ digits) [] 0 := by
      refine ⟨by simp, by simp [some], by simp [isZeroDigit], ?_, .absent, 0, ?_, ?_⟩
      · intro c member
        rcases List.mem_append.mp member with zero | digit
        · rw [List.eq_of_mem_replicate zero]
          exact isZeroDigit
        · exact allDigits c digit
      · rw [List.singleton_append, ofDigits_zero_cons, ofDigits_zeros_append, Nat.pow_zero,
          Nat.mul_one]
      · simp only [List.length_append, List.length_replicate]
        omega
    simpa using Numeral.mk parts
  case isFalse large =>
    simp only
    split
    case isTrue short =>
      have parts : NumeralParts ⟨ofDigits digits, exponent + 1 - digits.length⟩
          (digits ++ List.replicate (exponent.toNat + 1 - digits.length) '0') ['0'] [] 0 := by
        refine ⟨by simp [some], by simp, ?_, by simp [isZeroDigit], .absent,
          exponent.toNat + 1 - digits.length + 1, ?_, ?_⟩
        · intro c member
          rcases List.mem_append.mp member with digit | zero
          · exact allDigits c digit
          · rw [List.eq_of_mem_replicate zero]
            exact isZeroDigit
        · rw [List.append_assoc, ← List.replicate_succ', ofDigits_append_zeros]
        · simp only [List.length_singleton]
          omega
      simpa [points] using Numeral.mk parts
    case isFalse long =>
      have parts : NumeralParts ⟨ofDigits digits, exponent + 1 - digits.length⟩
          (digits.take (exponent.toNat + 1)) (digits.drop (exponent.toNat + 1)) [] 0 := by
        refine ⟨?_, ?_, fun c member => allDigits c (List.mem_of_mem_take member),
          fun c member => allDigits c (List.mem_of_mem_drop member), .absent, 0, ?_, ?_⟩
        · rw [ne_eq, List.take_eq_nil_iff]
          simp [some]
        · rw [ne_eq, List.drop_eq_nil_iff]
          exact long
        · rw [List.take_append_drop, Nat.pow_zero, Nat.mul_one]
        · simp only [List.length_drop]
          omega
      simpa using Numeral.mk parts

theorem exponentText_sign (noPlus : layout.plusSign = false) (exponent : Int) :
    ExponentText ('e' :: ((if exponent < 0 then ['-'] else if layout.plusSign then ['+'] else [])
      ++ Nat.toDigits 10 exponent.natAbs)) exponent := by
  rw [noPlus]
  split
  case isTrue below =>
    have negative := ExponentText.negative exponent.natAbs
    rw [Int.ofNat_natAbs_of_nonpos (by omega), Int.neg_neg] at negative
    exact negative
  case isFalse above =>
    have positive := ExponentText.positive exponent.natAbs
    rw [Int.natAbs_of_nonneg (by omega)] at positive
    exact positive

theorem numeral_writeExponent (some : digits ≠ [])
    (allDigits : ∀ c ∈ digits, isDigit c = true) (points : layout.pointAfterMantissa = true)
    (noPlus : layout.plusSign = false) (exponent : Int) :
    Numeral ⟨ofDigits digits, exponent + 1 - digits.length⟩
      (layout.writeExponent digits exponent) := by
  have mark := exponentText_sign noPlus exponent
  have isZeroDigit : isDigit '0' = true := rfl
  unfold writeExponent
  split
  case h_1 => contradiction
  case h_2 digit =>
    have parts : NumeralParts ⟨ofDigits [digit], exponent + 1 - 1⟩ [digit] ['0'] _ exponent :=
      ⟨by simp, by simp, allDigits, by simp [isZeroDigit], mark,
        1, ofDigits_append_zeros [digit] 1, by simp only [List.length_singleton]; omega⟩
    simpa [points] using Numeral.mk parts
  case h_3 digit others alone =>
    have parts : NumeralParts
        ⟨ofDigits (digit :: others), exponent + 1 - (digit :: others).length⟩ [digit] others _
        exponent :=
      ⟨by simp, alone, fun c member => allDigits c (by simp_all),
        fun c member => allDigits c (List.mem_cons_of_mem _ member), mark,
        0, by simp, by simp only [List.length_cons]; omega⟩
    simpa using Numeral.mk parts

/-- The text of a finite magnitude is a numeral that the magnitude is read from. -/
theorem exists_numeral_writeMagnitude (wholes : layout.pointAfterWhole = true)
    (mantissas : layout.pointAfterMantissa = true) (noPlus : layout.plusSign = false)
    {bits : Nat} (finite : bits < binary64.infinityBits) :
    ∃ number, Numeral number (layout.writeMagnitude bits) ∧ binary64.ofDecimal number = bits := by
  unfold writeMagnitude
  split
  case isTrue zero =>
    have parts : NumeralParts ⟨0, 0⟩ ['0'] ['0'] [] 0 :=
      ⟨by simp, by simp, by simp [isDigit], by simp [isDigit], .absent, 1, rfl, rfl⟩
    refine ⟨⟨0, 0⟩, ?_, (if_pos rfl).trans zero.symm⟩
    simpa [wholes] using Numeral.mk parts
  case isFalse positive =>
    have readsBack := ofDecimal_shortest layout.tie (Nat.pos_of_ne_zero positive)
      (Nat.le_of_lt finite)
    have some : 0 < (shortest layout.tie bits).digits := by
      apply Nat.pos_of_ne_zero
      intro zero
      rw [Format.ofDecimal_of_digits_eq_zero _ zero] at readsBack
      exact positive readsBack.symm
    have nonempty := significantDigits_ne_nil some
    have allDigits := fun c =>
      isDigit_of_mem_significantDigits (n := (shortest layout.tie bits).digits) (c := c)
    refine ⟨_, ?_, (Format.ofDecimal_significantDigits binary64 _).trans readsBack⟩
    simp only
    split
    case isTrue =>
      exact numeral_writePositional nonempty allDigits wholes _
    case isFalse =>
      exact numeral_writeExponent nonempty allDigits mantissas noPlus _

end Layout

end HornQuery.Number
