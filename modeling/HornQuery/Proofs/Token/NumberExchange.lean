import HornQuery.Proofs.Token.Exchange

namespace HornQuery.Token

open Text

/-! The code of a character. -/

theorem characterCode_exchanged {place width : Nat} {text : List Char} {kind : TokenKind}
    (found : characterCode place text = .ok (kind, width)) :
    FindsAgain characterCode text (.ok (kind, width)) 0 width := by
  cases text with
  | nil => cases found
  | cons c rest =>
      by_cases escaped : c = '\\'
      · simp only [characterCode, if_pos escaped] at found
        obtain ⟨⟨decoded?, count⟩, isEscape, continued⟩ := bind_eq_ok.mp found
        cases decoded? with
        | none => cases continued
        | some decoded =>
            cases continued
            cases rest with
            | nil => cases isEscape
            | cons letter rest =>
                obtain ⟨sequence, after, rfl, rfl, again⟩ := escape_exchanged isEscape
                refine ⟨c :: letter :: sequence, after, rfl, by simp; omega, ?_⟩
                intro elsewhere other exchanged
                simp only [List.cons_append, characterCode, if_pos escaped]
                exact bind_eq_ok.mpr ⟨_, again _ other exchanged, rfl⟩
      by_cases quoted : c = '\x27'
      · simp only [characterCode, if_neg escaped, if_pos quoted] at found
        cases found
        by_cases twice : rest.head? = some '\x27'
        · obtain ⟨after, rfl⟩ := List.head?_eq_some_iff.mp twice
          refine ⟨[c, '\x27'], after, rfl, rfl, ?_⟩
          intro elsewhere other _
          simp [characterCode, if_neg escaped, if_pos quoted]
        · refine ⟨[c], rest, rfl, by simp [twice], ?_⟩
          intro elsewhere other exchanged
          have once := exchanged.head?_ne (continues_quote (by decide)) twice
          simp [characterCode, if_neg escaped, once, twice]
      · simp only [characterCode, if_neg escaped, if_neg quoted] at found
        cases found
        refine ⟨[c], rest, rfl, rfl, ?_⟩
        intro elsewhere other _
        simp [characterCode, if_neg escaped, if_neg quoted]

/-! Numbers with a point and an exponent. -/

theorem continues_digit : Continues Number.isDigit :=
  fun c digit => continues_hexDigit c (isHexDigit_of_isDigit digit)

theorem takeWhile_eq_nil {p : Char → Bool} {text : List Char}
    (stops : ∀ c ∈ text.head?, p c = false) : text.takeWhile p = [] := by
  have run : ([] ++ text).takeWhile p = [] :=
    takeWhile_append_of_stops (List.forall_mem_nil _) stops
  exact run

theorem noDigit_of_endsClause {text : List Char} (ends : endsClause text = true) :
    ∀ c ∈ text.head?, Number.isDigit c = false := by
  intro c found
  obtain ⟨rest, rfl⟩ := List.head?_eq_some_iff.mp found
  simp only [endsClause, Bool.or_eq_true, decide_eq_true_eq] at ends
  rw [← Bool.not_eq_true]
  intro digit
  rcases ends with blank | comment
  · rw [isBlank_of_isDigit digit] at blank
    cases blank
  · subst comment
    exact absurd digit (by decide)

theorem fractionDigits_of_breaks {text : List Char} (breaks : Breaks text) :
    fractionDigits text = [] := by
  unfold fractionDigits
  split
  case h_1 rest =>
    exact takeWhile_eq_nil (noDigit_of_endsClause (breaks.noSymbol '.' rfl (by decide)).2)
  case h_2 => rfl

def pointedLength (fraction : List Char) : Nat :=
  if fraction.isEmpty then 0 else 1 + fraction.length

theorem fractionDigits_exchanged (text : List Char) :
    ∃ point rest, text = point ++ rest ∧ pointedLength (fractionDigits text) = point.length ∧
      ∀ other, Exchanged rest other → fractionDigits (point ++ other) = fractionDigits text := by
  by_cases none : fractionDigits text = []
  · refine ⟨[], text, rfl, by rw [none]; rfl, ?_⟩
    intro other exchanged
    rw [List.nil_append, none]
    cases exchanged with
    | nil => rfl
    | breaks breaks => exact fractionDigits_of_breaks breaks
    | @cons c rest other later =>
        by_cases point : c = '.'
        · subst point
          apply takeWhile_eq_nil
          apply later.stops continues_digit
          intro c found
          obtain ⟨more, rfl⟩ := List.head?_eq_some_iff.mp found
          rw [← Bool.not_eq_true]
          intro digit
          rw [fractionDigits, List.takeWhile_cons_of_pos digit] at none
          cases none
        · simp [fractionDigits, point]
  · obtain ⟨rest, rfl⟩ : ∃ rest, text = '.' :: rest := by
      unfold fractionDigits at none
      split at none
      case h_1 rest => exact ⟨rest, rfl⟩
      case h_2 => exact absurd rfl none
    obtain ⟨digits, after, rfl, _, keeps⟩ := exists_kept continues_digit rest
    have run : ∀ other, Exchanged after other →
        fractionDigits ('.' :: (digits ++ other)) = digits :=
      keeps
    rw [run after (.refl after)] at none ⊢
    refine ⟨'.' :: digits, after, rfl, ?_, run⟩
    simp [pointedLength, none, Nat.add_comm]

def isSign (c : Char) : Bool :=
  c = '+' || c = '-'

theorem continues_sign : Continues isSign := by
  intro c sign
  simp only [isSign, Bool.or_eq_true, decide_eq_true_eq] at sign
  rcases sign with plus | minus
  · subst plus
    exact .inr (.inr (by decide))
  · subst minus
    exact .inr (.inr (by decide))

theorem isSign_of_isDigit {c : Char} (digit : Number.isDigit c = true) : isSign c = false := by
  obtain ⟨low, _⟩ := toNat_of_isDigit digit
  rw [← Bool.not_eq_true]
  intro sign
  simp only [isSign, Bool.or_eq_true, decide_eq_true_eq] at sign
  rcases sign with plus | minus
  · subst plus
    exact absurd low (by decide)
  · subst minus
    exact absurd low (by decide)

def isExponentMark (c : Char) : Bool :=
  c = 'e' || c = 'E'

theorem continues_exponentMark : Continues isExponentMark := by
  intro c mark
  apply continues_hexDigit
  simp only [isExponentMark, Bool.or_eq_true, decide_eq_true_eq] at mark
  rcases mark with small | capital
  · subst small
    decide
  · subst capital
    decide

theorem exponentPart?_of_noMark {text : List Char}
    (stops : ∀ c ∈ text.head?, isExponentMark c = false) : exponentPart? text = none := by
  cases text with
  | nil => rfl
  | cons c rest =>
      have noMark : (decide (c = 'e') || decide (c = 'E')) = false := stops c rfl
      simp only [exponentPart?, noMark, Bool.false_eq_true, if_false]

def exponentOf? (sign digits : List Char) : Option (Int × Nat) :=
  if digits.isEmpty || 1 < sign.length then none
  else
    let size : Int := Number.ofDigits digits
    some (if sign = ['-'] then -size else size, 1 + sign.length + digits.length)

theorem exponentPart?_cons {mark : Char} {sign rest : List Char}
    (isMark : isExponentMark mark = true) (signs : ∀ c ∈ sign, isSign c = true)
    (stops : ∀ c ∈ rest.head?, isSign c = false) :
    exponentPart? (mark :: (sign ++ rest)) =
      exponentOf? sign (rest.takeWhile Number.isDigit) := by
  have isMark : (decide (mark = 'e') || decide (mark = 'E')) = true := isMark
  have run : (sign ++ rest).takeWhile (fun c => c = '+' || c = '-') = sign :=
    takeWhile_append_of_stops signs stops
  simp only [exponentPart?, isMark, if_true, run, List.drop_left]
  rfl

theorem exponentPart?_cons_exchanged {mark : Char} (isMark : isExponentMark mark = true)
    (text : List Char) :
    ∃ marked rest, mark :: text = marked ++ rest ∧
      ((exponentPart? (mark :: text)).getD (0, 0)).2 = marked.length ∧
      ∀ other, Exchanged rest other →
        exponentPart? (marked ++ other) = exponentPart? (mark :: text) := by
  obtain ⟨sign, tail, rfl, signs, noSign⟩ := exists_run isSign text
  obtain ⟨digits, rest, rfl, all, noDigit⟩ := exists_run Number.isDigit tail
  rw [exponentPart?_cons isMark signs noSign, takeWhile_append_of_stops all noDigit]
  by_cases missing : digits = [] ∨ 1 < sign.length
  · have none : exponentOf? sign digits = none := if_pos (by simpa using missing)
    refine ⟨[], mark :: (sign ++ (digits ++ rest)), rfl, by rw [none]; rfl, ?_⟩
    intro other exchanged
    rw [List.nil_append, none]
    cases exchanged with
    | breaks breaks => exact exponentPart?_of_noMark (breaks.stops continues_exponentMark)
    | cons _ later =>
        rcases later.split with ⟨last, rfl, kept⟩ | ⟨kept, lost, last, rfl, rfl, breaks⟩
        · rw [exponentPart?_cons isMark signs (kept.stops continues_sign noSign)]
          refine if_pos ?_
          rcases missing with rfl | long
          · simp [takeWhile_eq_nil (kept.stops continues_digit noDigit)]
          · simp [long]
        · have keptSigns : ∀ c ∈ kept, isSign c = true :=
            fun c member => signs c (List.mem_append_left lost member)
          rw [exponentPart?_cons isMark keptSigns (breaks.stops continues_sign),
            takeWhile_eq_nil (breaks.stops continues_digit)]
          rfl
  · simp only [not_or] at missing
    have some : exponentOf? sign digits = some _ := if_neg (by simpa using missing)
    refine ⟨mark :: (sign ++ digits), rest, by simp, ?_, ?_⟩
    · simp [some]
      omega
    · intro other exchanged
      have noSign : ∀ c ∈ (digits ++ other).head?, isSign c = false := by
        intro c found
        obtain ⟨first, others, same⟩ := List.exists_cons_of_ne_nil missing.1
        subst same
        cases found
        exact isSign_of_isDigit (all c List.mem_cons_self)
      rw [List.cons_append, List.append_assoc, exponentPart?_cons isMark signs noSign,
        takeWhile_append_of_stops all (exchanged.stops continues_digit noDigit)]

theorem exponentPart?_exchanged (text : List Char) :
    ∃ marked rest, text = marked ++ rest ∧
      ((exponentPart? text).getD (0, 0)).2 = marked.length ∧
      ∀ other, Exchanged rest other → exponentPart? (marked ++ other) = exponentPart? text := by
  by_cases noMark : ∀ c ∈ text.head?, isExponentMark c = false
  · rw [exponentPart?_of_noMark noMark]
    refine ⟨[], text, rfl, rfl, ?_⟩
    intro other exchanged
    exact exponentPart?_of_noMark (exchanged.stops continues_exponentMark noMark)
  · simp only [not_forall, Bool.not_eq_false] at noMark
    obtain ⟨mark, first, isMark⟩ := noMark
    obtain ⟨rest, rfl⟩ := List.head?_eq_some_iff.mp first
    exact exponentPart?_cons_exchanged isMark rest

theorem isPrefixOf_exchanged {name rest other : List Char}
    (named : ∀ c ∈ name, isNameCharacter c = true) (exchanged : Exchanged rest other)
    (absent : name.isPrefixOf rest = false) : name.isPrefixOf other = false := by
  induction name generalizing rest other with
  | nil => cases rest <;> cases absent
  | cons first name induction =>
      cases exchanged with
      | nil => rfl
      | breaks breaks =>
          cases other with
          | nil => rfl
          | cons c other =>
              have apart : first ≠ c := by
                rintro rfl
                exact absurd (breaks.noName first rfl)
                  (by rw [named first List.mem_cons_self]; exact Bool.noConfusion)
              simp [List.isPrefixOf, apart]
      | cons c later =>
          rw [List.isPrefixOf, Bool.and_eq_false_iff] at absent ⊢
          have others : ∀ c ∈ name, isNameCharacter c = true :=
            fun c member => named c (List.mem_cons_of_mem first member)
          exact absent.imp_right (induction others later)

def numberOf (stop : Nat) (whole fraction : List Char) (exponent? : Option (Int × Nat))
    (width : Nat) (rest : List Char) : Except ReadError (TokenKind × Nat) :=
  if fraction.isEmpty && exponent?.isNone then
    if Number.ofDigits whole < integerLimit then .ok (.integer (Number.ofDigits whole), width)
    else .error ((SyntaxFault.integerOutOfRange (String.ofList whole)).foundAt stop)
  else if "Inf".toList.isPrefixOf rest then .ok (.float Number.infinity, width + 3)
  else if "NaN".toList.isPrefixOf rest then .ok (.float Number.notANumber, width + 3)
  else
    let number : Number.Decimal :=
      ⟨Number.ofDigits (whole ++ fraction), (exponent?.getD (0, 0)).1 - fraction.length⟩
    .ok (.float (Number.ofDecimal false number), width)

theorem decimalNumber_parts {whole point marked rest : List Char} (place : Nat)
    (all : ∀ c ∈ whole, Number.isDigit c = true)
    (noDigit : ∀ c ∈ (point ++ (marked ++ rest)).head?, Number.isDigit c = false)
    (pointed : pointedLength (fractionDigits (point ++ (marked ++ rest))) = point.length)
    (isMarked : ((exponentPart? (marked ++ rest)).getD (0, 0)).2 = marked.length) :
    decimalNumber place (whole ++ (point ++ (marked ++ rest))) =
      numberOf (place + whole.length) whole (fractionDigits (point ++ (marked ++ rest)))
        (exponentPart? (marked ++ rest)) (whole ++ (point ++ marked)).length rest := by
  have run := takeWhile_append_of_stops all noDigit
  have afterPoint : (whole ++ (point ++ (marked ++ rest))).drop (whole.length + point.length) =
      marked ++ rest := by
    rw [← List.length_append, ← List.append_assoc, List.drop_left]
  have afterMark : (whole ++ (point ++ (marked ++ rest))).drop
      (whole.length + point.length + marked.length) = rest := by
    rw [← List.drop_drop, afterPoint, List.drop_left]
  unfold pointedLength at pointed
  simp only [decimalNumber, run, List.drop_left, pointed, afterPoint, isMarked, afterMark]
  unfold numberOf
  by_cases integer : ((fractionDigits (point ++ (marked ++ rest))).isEmpty &&
      (exponentPart? (marked ++ rest)).isNone) = true
  · obtain ⟨noFraction, noExponent⟩ := Bool.and_eq_true_iff.mp integer
    rw [if_pos noFraction] at pointed
    rw [Option.isNone_iff_eq_none.mp noExponent] at isMarked
    have noPoint := List.eq_nil_of_length_eq_zero pointed.symm
    have noMark := List.eq_nil_of_length_eq_zero isMarked.symm
    rw [if_pos integer, if_pos integer, noPoint, noMark, List.append_nil, List.append_nil]
  · rw [if_neg integer, if_neg integer]
    simp only [List.length_append, Nat.add_assoc]

theorem numberOf_exchanged {stop width taken : Nat} {whole fraction rest : List Char}
    {exponent? : Option (Int × Nat)} {kind : TokenKind}
    (found : numberOf stop whole fraction exponent? width rest = .ok (kind, taken)) :
    FindsAgain (fun elsewhere => numberOf elsewhere whole fraction exponent? width) rest
      (.ok (kind, taken)) width taken := by
  have infinite : ∀ c ∈ "Inf".toList, isNameCharacter c = true :=
    forall_mem_of_all (by decide +kernel)
  have undefined : ∀ c ∈ "NaN".toList, isNameCharacter c = true :=
    forall_mem_of_all (by decide +kernel)
  simp only [FindsAgain, numberOf] at found ⊢
  split at found
  case isTrue integer =>
    split at found
    case isTrue small =>
      cases found
      refine ⟨[], rest, rfl, rfl, ?_⟩
      intro elsewhere other _
      rw [if_pos integer, if_pos small]
    case isFalse => cases found
  case isFalse float =>
    split at found
    case isTrue isInfinity =>
      cases found
      obtain ⟨last, rfl⟩ := List.isPrefixOf_iff_prefix.mp isInfinity
      refine ⟨"Inf".toList, last, rfl, rfl, ?_⟩
      intro elsewhere other _
      rw [if_neg float, if_pos (List.isPrefixOf_iff_prefix.mpr (List.prefix_append _ _))]
    case isFalse noInfinity =>
      split at found
      case isTrue isNaN =>
        cases found
        obtain ⟨last, rfl⟩ := List.isPrefixOf_iff_prefix.mp isNaN
        refine ⟨"NaN".toList, last, rfl, rfl, ?_⟩
        intro elsewhere other _
        rw [if_neg float, if_neg (by simp [List.isPrefixOf]),
          if_pos (List.isPrefixOf_iff_prefix.mpr (List.prefix_append _ _))]
      case isFalse noNaN =>
        cases found
        refine ⟨[], rest, rfl, rfl, ?_⟩
        intro elsewhere other exchanged
        rw [Bool.not_eq_true] at noInfinity noNaN
        have stillFinite := isPrefixOf_exchanged infinite exchanged noInfinity
        have stillNumber := isPrefixOf_exchanged undefined exchanged noNaN
        rw [if_neg float, List.nil_append, stillFinite, stillNumber]
        rfl

theorem decimalNumber_exchanged {place width : Nat} {c : Char} {text : List Char}
    {kind : TokenKind} (digit : Number.isDigit c = true)
    (found : decimalNumber place (c :: text) = .ok (kind, width)) :
    FindsAgain (fun place text => decimalNumber place (c :: text)) text (.ok (kind, width)) 1
      width := by
  obtain ⟨digits, tail, rfl, others, noDigit⟩ := exists_run Number.isDigit text
  obtain ⟨point, rest, rfl, pointed, keepsFraction⟩ := fractionDigits_exchanged tail
  obtain ⟨marked, last, rfl, isMarked, keepsExponent⟩ := exponentPart?_exchanged rest
  have all : ∀ d ∈ c :: digits, Number.isDigit d = true := List.forall_mem_cons.mpr ⟨digit, others⟩
  rw [← List.cons_append, decimalNumber_parts place all noDigit pointed isMarked] at found
  -- The parts stay what they are as long as what follows the last of them is exchanged.
  have again : ∀ elsewhere other, Exchanged last other →
      decimalNumber elsewhere (c :: digits ++ (point ++ (marked ++ other))) =
        numberOf (elsewhere + (c :: digits).length) (c :: digits)
          (fractionDigits (point ++ (marked ++ last))) (exponentPart? (marked ++ last))
          (c :: digits ++ (point ++ marked)).length other := by
    intro elsewhere other exchanged
    have fraction := keepsFraction _ (exchanged.append marked)
    have exponent := keepsExponent _ exchanged
    have stops := ((exchanged.append marked).append point).stops continues_digit noDigit
    rw [decimalNumber_parts elsewhere all stops (by rw [fraction]; exact pointed)
      (by rw [exponent]; exact isMarked), fraction, exponent]
  obtain ⟨word, rest, rfl, rfl, keeps⟩ := numberOf_exchanged found
  refine ⟨digits ++ (point ++ (marked ++ word)), rest, by simp, by simp; omega, ?_⟩
  intro elsewhere other exchanged
  have same := (again elsewhere (word ++ other) (exchanged.append word)).trans
    (keeps _ other exchanged)
  simp only [List.append_assoc, List.cons_append] at same ⊢
  exact same

/-! Numbers in other radices. -/

theorem continues_radix {letter : Char} {radix : Nat} {isDigitOf : Char → Bool}
    (named : radix? letter = some (radix, isDigitOf)) :
    Continues isDigitOf ∧ isNameCharacter letter = true := by
  unfold radix? at named
  split at named
  case h_1 => cases named; exact ⟨continues_hexDigit, by decide +kernel⟩
  case h_2 => cases named; exact ⟨continues_octalDigit, by decide +kernel⟩
  case h_3 =>
    cases named
    refine ⟨?_, by decide +kernel⟩
    intro c digit
    apply continues_octalDigit
    simp only [isBinaryDigit, Bool.or_eq_true, decide_eq_true_eq] at digit
    rcases digit with zero | one
    · subst zero
      decide
    · subst one
      decide
  case h_4 => cases named

theorem radixNumber?_cons (place : Nat) (letter : Char) (rest : List Char) :
    radixNumber? place ('0' :: letter :: rest) =
      match radix? letter with
      | none => none
      | some (radix, isDigitOf) =>
          if (rest.takeWhile isDigitOf).isEmpty then none
          else if ofRadix radix (rest.takeWhile isDigitOf) < integerLimit then
            some (.ok (.integer (ofRadix radix (rest.takeWhile isDigitOf)),
              2 + (rest.takeWhile isDigitOf).length))
          else some (.error (SyntaxFault.radixIntegerOutOfRange.foundAt
            (place + 2 + (rest.takeWhile isDigitOf).length))) := by
  rw [radixNumber?]
  cases radix? letter with
  | none => rfl
  | some found =>
      obtain ⟨radix, isDigitOf⟩ := found
      simp only [bind, Option.bind]
      generalize rest.takeWhile isDigitOf = digits
      cases digits with
      | nil => rfl
      | cons first others => rfl

theorem radixNumber?_of_notZero {c : Char} (notZero : c ≠ '0') (place : Nat) (rest : List Char) :
    radixNumber? place (c :: rest) = none := by
  unfold radixNumber?
  split
  case h_1 same => exact absurd (List.cons.inj same).1 notZero
  case h_2 => rfl

theorem radixNumber?_exchanged_none {place elsewhere : Nat} {c : Char} {rest other : List Char}
    (exchanged : Exchanged rest other) (noRadix : radixNumber? place (c :: rest) = none) :
    radixNumber? elsewhere (c :: other) = none := by
  by_cases zero : c = '0'
  · subst zero
    cases exchanged with
    | nil => rfl
    | breaks breaks =>
        cases other with
        | nil => rfl
        | cons letter other =>
            rw [radixNumber?_cons]
            cases named : radix? letter with
            | none => rfl
            | some found =>
                have name := (continues_radix named).2
                rw [breaks.noName letter rfl] at name
                cases name
    | @cons letter rest other later =>
        rw [radixNumber?_cons] at noRadix ⊢
        cases named : radix? letter with
        | none => rfl
        | some found =>
            obtain ⟨digits, after, rfl, all, stops⟩ := exists_run found.2 rest
            simp only [named, takeWhile_append_of_stops all stops] at noRadix ⊢
            split at noRadix
            case isTrue empty =>
              obtain rfl := List.isEmpty_iff.mp empty
              simp [takeWhile_eq_nil (later.stops (continues_radix named).1 stops)]
            case isFalse => split at noRadix <;> cases noRadix
  · exact radixNumber?_of_notZero zero elsewhere other

theorem radixNumber?_exchanged {place width : Nat} {c : Char} {text : List Char} {kind : TokenKind}
    (found : radixNumber? place (c :: text) = some (.ok (kind, width))) :
    FindsAgain (fun place text => radixNumber? place (c :: text)) text (some (.ok (kind, width))) 1
      width := by
  by_cases zero : c = '0'
  · subst zero
    cases text with
    | nil => cases found
    | cons letter rest =>
        rw [radixNumber?_cons] at found
        cases named : radix? letter with
        | none =>
            rw [named] at found
            cases found
        | some radix =>
            obtain ⟨digits, after, rfl, _, keeps⟩ := exists_kept (continues_radix named).1 rest
            simp only [named, keeps after (.refl after)] at found
            split at found
            case isTrue => cases found
            case isFalse some =>
              split at found
              case isTrue small =>
                cases found
                refine ⟨letter :: digits, after, rfl, by simp; omega, ?_⟩
                intro elsewhere other exchanged
                simp only [List.cons_append, radixNumber?_cons, named, keeps other exchanged,
                  if_neg some, if_pos small]
              case isFalse => cases found
  · rw [radixNumber?_of_notZero zero] at found
    cases found

theorem number_eq {c : Char} {rest : List Char}
    (noCode : ¬(c = '0' ∧ rest.head? = some '\x27')) (place : Nat) :
    number place (c :: rest) =
      (radixNumber? place (c :: rest)).getD (decimalNumber place (c :: rest)) := by
  unfold number
  split
  case h_1 more same =>
    cases same
    exact absurd ⟨rfl, rfl⟩ noCode
  case h_2 => rfl

theorem number_exchanged {place width : Nat} {c : Char} {text : List Char} {kind : TokenKind}
    (digit : Number.isDigit c = true) (found : number place (c :: text) = .ok (kind, width)) :
    FindsAgain (fun place text => number place (c :: text)) text (.ok (kind, width)) 1 width := by
  by_cases code : c = '0' ∧ text.head? = some '\x27'
  · obtain ⟨rfl, quoted⟩ := code
    obtain ⟨more, rfl⟩ := List.head?_eq_some_iff.mp quoted
    obtain ⟨⟨other, count⟩, isCode, done⟩ := bind_eq_ok.mp found
    cases done
    obtain ⟨word, rest, rfl, rfl, again⟩ := characterCode_exchanged isCode
    refine ⟨'\x27' :: word, rest, rfl, by simp; omega, ?_⟩
    intro elsewhere other exchanged
    exact bind_eq_ok.mpr ⟨_, again _ other exchanged, rfl⟩
  · have keepsCode : ∀ {word rest other}, text = word ++ rest → Exchanged rest other →
        ¬(c = '0' ∧ (word ++ other).head? = some '\x27') := by
      rintro word rest other rfl exchanged ⟨zero, quoted⟩
      have absent : (word ++ rest).head? ≠ some '\x27' := fun same => code ⟨zero, same⟩
      exact (exchanged.append word).head?_ne (continues_quote (by decide)) absent quoted
    rw [number_eq code] at found
    cases radix : radixNumber? place (c :: text) with
    | some result =>
        rw [radix, Option.getD_some] at found
        subst found
        obtain ⟨word, rest, rfl, same, again⟩ := radixNumber?_exchanged radix
        refine ⟨word, rest, rfl, same, ?_⟩
        intro elsewhere other exchanged
        simp only [number_eq (keepsCode rfl exchanged)]
        have stays : radixNumber? elsewhere (c :: (word ++ other)) = _ :=
          again elsewhere other exchanged
        rw [stays, Option.getD_some]
    | none =>
        rw [radix, Option.getD_none] at found
        obtain ⟨word, rest, rfl, same, again⟩ := decimalNumber_exchanged digit found
        refine ⟨word, rest, rfl, same, ?_⟩
        intro elsewhere other exchanged
        simp only [number_eq (keepsCode rfl exchanged)]
        rw [radixNumber?_exchanged_none (exchanged.append word) radix, Option.getD_none]
        exact again elsewhere other exchanged

end HornQuery.Token
