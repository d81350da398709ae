import HornQuery.Proofs.Number.Bits
import HornQuery.Proofs.Number.Numeral
import HornQuery.Proofs.Token.Names
import HornQuery.Term.Writer

namespace HornQuery.Token

open Text Number

theorem isDigit_of_mem_enders : ∀ c ∈ enders, isDigit c = false :=
  forall_mem_of_all (by decide)

theorem Ended.noDigit {text : List Char} (ended : Ended text) :
    ∀ c ∈ text.head?, isDigit c = false :=
  fun c found => isDigit_of_mem_enders c (ended c found)

/-- A second character that keeps a leading zero from naming a radix or a character. -/
def KeepsDecimal (text : List Char) : Prop :=
  ∀ c ∈ text.head?, c ≠ '\x27' ∧ (radix? c).isNone = true

theorem keepsDecimal_of_digit {c : Char} (digit : isDigit c = true) (text : List Char) :
    KeepsDecimal (c :: text) := by
  intro other found
  cases found
  constructor
  · intro same
    subst same
    exact absurd digit (by decide)
  · unfold radix?
    split <;> first | rfl | exact absurd digit (by decide)

theorem keepsDecimal_point (text : List Char) : KeepsDecimal ('.' :: text) := by
  intro c found
  cases found
  exact ⟨by decide, rfl⟩

theorem keepsDecimal_of_ended {text : List Char} (ended : Ended text) :
    KeepsDecimal text := by
  have all : ∀ c ∈ enders, c ≠ '\x27' ∧ (radix? c).isNone = true :=
    forall_mem_of_all (by decide)
  exact fun c found => all c (ended c found)

theorem number_eq_decimalNumber {c : Char} {text : List Char} (keeps : KeepsDecimal text)
    (position : Nat) : number position (c :: text) = decimalNumber position (c :: text) := by
  unfold number
  split
  case h_1 rest same =>
    cases same
    exact absurd rfl (keeps '\x27' rfl).1
  case h_2 =>
    have noRadix : radixNumber? position (c :: text) = none := by
      unfold radixNumber?
      split
      case h_1 letter rest same =>
        cases same
        have none := (keeps letter rfl).2
        rw [Option.isNone_iff_eq_none] at none
        rw [none]
        rfl
      case h_2 => rfl
    rw [noRadix, Option.getD_none]

theorem scans_number {c : Char} {word rest : List Char} {kind : TokenKind}
    (digit : isDigit c = true) (keeps : KeepsDecimal (word ++ rest))
    (found : ∀ position,
      decimalNumber position (c :: (word ++ rest)) = .ok (kind, word.length + 1)) :
    Scans (c :: word) rest (IsToken kind) := by
  apply Scans.one
  · intro position
    apply layoutLength_eq_zero position (isBlank_of_isDigit digit)
    · intro same
      subst same
      exact absurd digit (by decide)
    · intro opening
      rw [opening.1] at digit
      exact absurd digit (by decide)
  · intro position
    simp [scanOne, digit, number_eq_decimalNumber keeps, found, bind, Except.bind]

/-! Integers. -/

theorem fractionDigits_of_ended {rest : List Char} (ended : Ended rest) :
    fractionDigits rest = [] := by
  unfold fractionDigits
  split
  case h_1 more => exact absurd (ended '.' rfl) (by decide)
  case h_2 => rfl

theorem exponentPart?_of_ended {rest : List Char} (ended : Ended rest) :
    exponentPart? rest = none := by
  have all : ∀ c ∈ enders, ¬(c = 'e' ∨ c = 'E') :=
    forall_mem_of_all (by decide)
  unfold exponentPart?
  split
  case h_1 mark more =>
    have other := all mark (ended mark rfl)
    simp [other]
  case h_2 => rfl

theorem decimalNumber_digits {digits rest : List Char} (allDigits : ∀ c ∈ digits, isDigit c = true)
    (ended : Ended rest) (small : ofDigits digits < integerLimit) (position : Nat) :
    decimalNumber position (digits ++ rest) = .ok (.integer (ofDigits digits), digits.length) := by
  have run := takeWhile_append_of_stops allDigits ended.noDigit
  simp [decimalNumber, run, fractionDigits_of_ended ended,
    exponentPart?_of_ended ended, small]

theorem scans_toDigits {n : Nat} {rest : List Char} (small : n < integerLimit)
    (ended : Ended rest) : Scans (Nat.toDigits 10 n) rest (IsToken (.integer n)) := by
  have allDigits : ∀ c ∈ Nat.toDigits 10 n, isDigit c = true := fun c =>
    isDigit_of_mem_toDigits
  have value := ofDigits_toDigits n
  have some := digitCount_pos n
  rw [digitCount] at some
  generalize Nat.toDigits 10 n = digits at allDigits value some ⊢
  cases digits with
  | nil => exact absurd some (by decide)
  | cons first others =>
      have keeps : KeepsDecimal (others ++ rest) := by
        cases others with
        | nil => exact keepsDecimal_of_ended ended
        | cons second more => exact keepsDecimal_of_digit (allDigits second (by simp)) _
      apply scans_number (allDigits first List.mem_cons_self) keeps
      intro position
      have found := decimalNumber_digits allDigits ended (value ▸ small) position
      rw [value] at found
      exact found

/-! Numerals. -/

theorem toDigits_ne_nil (n : Nat) : Nat.toDigits 10 n ≠ [] :=
  List.ne_nil_of_length_pos (digitCount_pos n)

theorem takeWhile_sign_toDigits (n : Nat) (rest : List Char) :
    (Nat.toDigits 10 n ++ rest).takeWhile (fun c => c = '+' || c = '-') = [] := by
  have allDigits : ∀ c ∈ Nat.toDigits 10 n, isDigit c = true := fun c =>
    isDigit_of_mem_toDigits
  obtain ⟨first, others, digits⟩ := List.exists_cons_of_ne_nil (toDigits_ne_nil n)
  rw [digits] at allDigits ⊢
  have digit := allDigits first List.mem_cons_self
  rw [List.cons_append, List.takeWhile_cons_of_neg]
  intro sign
  simp only [Bool.or_eq_true, decide_eq_true_eq] at sign
  rcases sign with plus | minus
  · subst plus
    exact absurd digit (by decide)
  · subst minus
    exact absurd digit (by decide)

theorem exponentPart?_exponentText {mark rest : List Char} {size : Int}
    (text : ExponentText mark size) (ended : Ended rest) :
    (exponentPart? (mark ++ rest)).getD (0, 0) = (size, mark.length) := by
  have digits : ∀ n, (Nat.toDigits 10 n ++ rest).takeWhile isDigit = Nat.toDigits 10 n :=
    fun n => takeWhile_append_of_stops (fun c => isDigit_of_mem_toDigits) ended.noDigit
  cases text with
  | absent =>
      rw [List.nil_append, exponentPart?_of_ended ended]
      rfl
  | positive n =>
      have some := toDigits_ne_nil n
      simp [exponentPart?, takeWhile_sign_toDigits, digits, ofDigits_toDigits, some, Nat.add_comm]
  | negative n =>
      have some := toDigits_ne_nil n
      simp [exponentPart?, takeWhile_sign_toDigits, digits, ofDigits_toDigits, some]
      omega

theorem takeWhile_fraction {fraction mark rest : List Char} {size : Int}
    (digits : ∀ c ∈ fraction, isDigit c = true) (text : ExponentText mark size)
    (ended : Ended rest) : (fraction ++ (mark ++ rest)).takeWhile isDigit = fraction := by
  cases text with
  | absent => exact takeWhile_append_of_stops digits ended.noDigit
  | positive n =>
      rw [List.takeWhile_append_of_pos digits, List.cons_append,
        List.takeWhile_cons_of_neg (by decide), List.append_nil]
  | negative n =>
      rw [List.takeWhile_append_of_pos digits, List.cons_append,
        List.takeWhile_cons_of_neg (by decide), List.append_nil]

theorem isPrefixOf_of_ended {c : Char} {name rest : List Char} (other : c ∉ enders)
    (ended : Ended rest) : (c :: name).isPrefixOf rest = false := by
  cases rest with
  | nil => rfl
  | cons first more =>
      have different : c ≠ first := fun same => other (same ▸ ended first rfl)
      simp [List.isPrefixOf, different]

theorem decimalNumber_numeral {number : Decimal} {whole fraction mark rest : List Char}
    {size : Int} (parts : NumeralParts number whole fraction mark size)
    (ended : Ended rest) (position : Nat) :
    decimalNumber position (whole ++ '.' :: (fraction ++ (mark ++ rest))) =
      .ok (.float (ofDecimal false number),
        whole.length + (1 + fraction.length) + mark.length) := by
  have wholeRun : (whole ++ '.' :: (fraction ++ (mark ++ rest))).takeWhile isDigit = whole := by
    rw [List.takeWhile_append_of_pos parts.whole_digits, List.takeWhile_cons_of_neg (by decide),
      List.append_nil]
  have fractionRun := takeWhile_fraction parts.fraction_digits parts.exponentText ended
  have exponent := exponentPart?_exponentText parts.exponentText ended
  have value := parts.ofDecimal_eq binary64
  have some : fraction.isEmpty = false := by simpa using parts.fraction_ne_nil
  have afterWhole : (whole ++ '.' :: (fraction ++ (mark ++ rest))).drop whole.length =
      '.' :: (fraction ++ (mark ++ rest)) := List.drop_left
  have afterFraction : (whole ++ '.' :: (fraction ++ (mark ++ rest))).drop
      (whole.length + (1 + fraction.length)) = mark ++ rest := by
    rw [← List.drop_drop, afterWhole, Nat.add_comm, List.drop_succ_cons, List.drop_left]
  have afterMark : (whole ++ '.' :: (fraction ++ (mark ++ rest))).drop
      (whole.length + (1 + fraction.length) + mark.length) = rest := by
    rw [← List.drop_drop, afterFraction, List.drop_left]
  unfold decimalNumber
  simp only [wholeRun, afterWhole, fractionDigits, fractionRun, some, Bool.false_and,
    Bool.false_eq_true, if_false, afterFraction, exponent, afterMark]
  have noInfinity : "Inf".toList.isPrefixOf rest = false :=
    isPrefixOf_of_ended (by decide) ended
  have noNotANumber : "NaN".toList.isPrefixOf rest = false :=
    isPrefixOf_of_ended (by decide) ended
  rw [noInfinity, noNotANumber]
  simp only [Bool.false_eq_true, if_false, ofDecimal, value]

theorem scans_numeral {number : Decimal} {text rest : List Char} (numeral : Numeral number text)
    (ended : Ended rest) :
    Scans text rest (IsToken (.float (ofDecimal false number))) := by
  obtain ⟨parts⟩ := numeral
  rename_i whole fraction mark size
  obtain ⟨first, others, same⟩ := List.exists_cons_of_ne_nil parts.whole_ne_nil
  subst same
  have keeps : KeepsDecimal (others ++ '.' :: (fraction ++ mark) ++ rest) := by
    cases others with
    | nil => exact keepsDecimal_point _
    | cons second more => exact keepsDecimal_of_digit (parts.whole_digits second (by simp)) _
  apply scans_number (parts.whole_digits first List.mem_cons_self) keeps
  intro position
  have found := decimalNumber_numeral parts ended position
  simp only [List.append_assoc, List.cons_append] at found ⊢
  rw [found]
  simp only [List.length_cons, List.length_append]
  congr 2
  omega

theorem scans_infinity {rest : List Char} :
    Scans "1.0Inf".toList rest (IsToken (.float infinity)) := by
  have digit : isDigit '1' = true := by decide
  apply scans_number digit (keepsDecimal_point ("0Inf".toList ++ rest))
  intro position
  rfl

/-! A minus sign in front of a number is a name of its own. -/

theorem isSymbol_of_isDigit {c : Char} (digit : isDigit c = true) : isSymbol c = false := by
  have all : ∀ c ∈ symbolCharacters, isDigit c = false := forall_mem_of_all (by decide)
  rw [← Bool.not_eq_true]
  intro symbol
  rw [all c (List.contains_iff_mem.mp symbol)] at digit
  exact absurd digit (by decide)

def StartsWithDigit (text : List Char) : Prop :=
  ∃ first more, text = first :: more ∧ isDigit first = true

theorem startsWithDigit_toDigits (n : Nat) : StartsWithDigit (Nat.toDigits 10 n) := by
  obtain ⟨first, more, digits⟩ := List.exists_cons_of_ne_nil (toDigits_ne_nil n)
  refine ⟨first, more, digits, isDigit_of_mem_toDigits (n := n) ?_⟩
  rw [digits]
  exact List.mem_cons_self

theorem startsWithDigit_numeral {number : Decimal} {text : List Char}
    (numeral : Numeral number text) : StartsWithDigit text := by
  obtain ⟨parts⟩ := numeral
  rename_i whole fraction mark size
  obtain ⟨first, others, same⟩ := List.exists_cons_of_ne_nil parts.whole_ne_nil
  subst same
  exact ⟨first, others ++ '.' :: (fraction ++ mark), rfl,
    parts.whole_digits first List.mem_cons_self⟩

theorem scans_minus {text rest : List Char} {kind : TokenKind} (starts : StartsWithDigit text)
    (scans : Scans text rest (IsToken kind)) :
    Scans ('-' :: text) rest fun tokens => ∃ sign token : Token, sign.kind = .name "-" ∧
      token.kind = kind ∧ token.layoutBefore = false ∧ tokens = [sign, token] := by
  obtain ⟨first, more, same, digit⟩ := starts
  have stop : (text ++ rest).takeWhile isSymbol = [] := by
    rw [same, List.cons_append, List.takeWhile_cons_of_neg]
    rw [isSymbol_of_isDigit digit]
    decide
  have sign : Scans ['-'] (text ++ rest) (IsToken (.name "-")) := by
    apply Scans.one
    · intro position
      exact layoutLength_eq_zero position (by decide) (by decide)
        (fun opening => absurd opening.1 (by decide))
    · intro position
      rw [List.nil_append, scanOne_symbol position (by decide) (by simp), stop]
  apply sign.append scans
  rintro former latter ⟨minus, isMinus, _, rfl⟩ ⟨token, isKind, touches, rfl⟩
  exact ⟨minus, token, isMinus, isKind, touches, rfl⟩

/-! The text of a floating-point number without its sign. -/

theorem scans_magnitude {bits : Nat} {rest : List Char} (finite : bits < binary64.infinityBits)
    (ended : Ended rest) :
    StartsWithDigit (Term.floatLayout.writeMagnitude bits) ∧
      Scans (Term.floatLayout.writeMagnitude bits) rest
        (IsToken (.float (ofMagnitude false bits))) := by
  obtain ⟨number, numeral, value⟩ :=
    @Layout.exists_numeral_writeMagnitude Term.floatLayout rfl rfl rfl bits finite
  have scans := scans_numeral numeral ended
  rw [ofDecimal, value] at scans
  exact ⟨startsWithDigit_numeral numeral, scans⟩

theorem exists_magnitude {value : Float} (isNumber : value.isNaN = false) :
    ∃ text, StartsWithDigit text ∧
      Term.floatLayout.write value = (if isNegative value then '-' :: text else text) ∧
      ∀ {rest}, Ended rest →
        Scans text rest (IsToken (.float (ofMagnitude false (magnitudeBits value)))) := by
  have bound := magnitudeBits_le_of_isNaN_eq_false isNumber
  unfold Layout.write
  rw [if_neg (Nat.not_lt.mpr bound)]
  rcases Nat.lt_or_eq_of_le bound with finite | infinite
  · refine ⟨Term.floatLayout.writeMagnitude (magnitudeBits value),
      (scans_magnitude finite ended_nil).1, ?_, fun ended =>
        (scans_magnitude finite ended).2⟩
    rw [if_neg (Nat.ne_of_lt finite)]
  · refine ⟨"1.0Inf".toList, ⟨'1', ".0Inf".toList, rfl, by decide⟩, ?_, fun _ => ?_⟩
    · rw [if_pos infinite]
      rfl
    · rw [infinite]
      exact scans_infinity

end HornQuery.Token
