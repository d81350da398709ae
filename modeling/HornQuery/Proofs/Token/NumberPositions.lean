import HornQuery.Proofs.Token.Positions

namespace HornQuery.Token

open Text

inductive Fraction : List Char → List Char → Prop
  | absent : Fraction [] []
  | written {digits : List Char} (nonempty : digits ≠ [])
      (all : ∀ c ∈ digits, Number.isDigit c = true) : Fraction digits ('.' :: digits)

inductive Exponent : Option (Int × Nat) → List Char → Prop
  | absent : Exponent none []
  | written {mark : Char} {sign digits : List Char} (isMark : isExponentMark mark = true)
      (signed : sign = [] ∨ sign = ['+'] ∨ sign = ['-']) (nonempty : digits ≠ [])
      (all : ∀ c ∈ digits, Number.isDigit c = true) :
      Exponent (exponentOf? sign digits) (mark :: (sign ++ digits))

section

variable {whole fraction point marked : List Char} {exponent? : Option (Int × Nat)}

theorem Fraction.pointedLength_eq (written : Fraction fraction point) :
    pointedLength fraction = point.length := by
  cases written with
  | absent => rfl
  | written nonempty all =>
      rw [pointedLength, if_neg (by simpa using nonempty), List.length_cons, Nat.add_comm]

theorem exponentOf?_eq {sign digits : List Char}
    (signed : sign = [] ∨ sign = ['+'] ∨ sign = ['-']) (nonempty : digits ≠ []) :
    exponentOf? sign digits =
      some (if sign = ['-'] then -(Number.ofDigits digits : Int) else Number.ofDigits digits,
        1 + sign.length + digits.length) := by
  refine if_neg ?_
  rcases signed with rfl | rfl | rfl <;> simp [nonempty]

theorem Exponent.length_eq (written : Exponent exponent? marked) :
    (exponent?.getD (0, 0)).2 = marked.length := by
  cases written with
  | absent => rfl
  | written isMark signed nonempty all =>
      rw [exponentOf?_eq signed nonempty, Option.getD_some, List.length_cons, List.length_append]
      omega

theorem noDigit_of_isExponentMark {c : Char} (mark : isExponentMark c = true) :
    Number.isDigit c = false := by
  apply isDigit_of_le_toNat
  simp only [isExponentMark, Bool.or_eq_true, decide_eq_true_eq] at mark
  rcases mark with rfl | rfl <;> decide

theorem ne_of_isDigit {c d : Char} (digit : Number.isDigit c = true)
    (noDigit : Number.isDigit d = false) : c ≠ d := by
  rintro rfl
  rw [digit] at noDigit
  cases noDigit

theorem exponent?_eq {sign digits : List Char} (signed : sign = [] ∨ sign = ['+'] ∨ sign = ['-'])
    (nonempty : digits ≠ []) (all : ∀ c ∈ digits, Number.isDigit c = true) :
    Number.exponent? (sign ++ digits) =
      some (if sign = ['-'] then -(Number.ofDigits digits : Int) else Number.ofDigits digits) := by
  have proper : (digits.isEmpty || !digits.all Number.isDigit) = false := by
    simpa [nonempty] using all
  rcases signed with rfl | rfl | rfl
  · obtain ⟨d, others, rfl⟩ := List.exists_cons_of_ne_nil nonempty
    have digit := all d List.mem_cons_self
    rw [List.nil_append, Number.exponent?]
    · rw [proper]
      rfl
    · rintro rest ⟨⟩
      cases digit
    · rintro rest ⟨⟩
      cases digit
  · simp [Number.exponent?, proper]
  · simp [Number.exponent?, proper]

/-- Digits with a scale, which the exponent after them changes. -/
def raised? (digits : Nat) (scale : Int) (text : List Char) : Option Number.Decimal :=
  match text with
  | [] => some ⟨digits, scale⟩
  | mark :: rest =>
      if isExponentMark mark then
        (Number.exponent? rest).map fun exponent => ⟨digits, scale + exponent⟩
      else none

theorem raised?_eq (digits : Nat) (scale : Int) (written : Exponent exponent? marked) :
    raised? digits scale marked = some ⟨digits, scale + (exponent?.getD (0, 0)).1⟩ := by
  cases written with
  | absent => rw [raised?, Option.getD_none, Int.add_zero]
  | written isMark signed nonempty all =>
      rw [raised?, if_pos isMark, exponent?_eq signed nonempty all, exponentOf?_eq signed nonempty]
      rfl

theorem decimal?_whole {after : List Char} (all : ∀ c ∈ whole, Number.isDigit c = true)
    (nonempty : whole ≠ []) (noDigit : ∀ c ∈ after.head?, Number.isDigit c = false)
    (noPoint : after.head? ≠ some '.') :
    Number.decimal? (whole ++ after) = raised? (Number.ofDigits whole) 0 after := by
  have some : whole.isEmpty = false := by simpa using nonempty
  simp only [Number.decimal?, takeWhile_append_of_stops all noDigit, List.drop_left, some]
  split
  case h_1 rest => exact absurd rfl noPoint
  case h_2 =>
    simp only [List.append_nil]
    rfl

theorem decimal?_point {after : List Char} (all : ∀ c ∈ whole, Number.isDigit c = true)
    (nonempty : whole ≠ []) (allFraction : ∀ c ∈ fraction, Number.isDigit c = true)
    (noDigit : ∀ c ∈ after.head?, Number.isDigit c = false) :
    Number.decimal? (whole ++ '.' :: (fraction ++ after)) =
      raised? (Number.ofDigits (whole ++ fraction)) (-fraction.length) after := by
  have some : whole.isEmpty = false := by simpa using nonempty
  have pointed : ∀ c ∈ ('.' :: (fraction ++ after)).head?, Number.isDigit c = false := by
    rintro c ⟨⟩
    rfl
  simp only [Number.decimal?, takeWhile_append_of_stops all pointed, List.drop_left, some,
    takeWhile_append_of_stops allFraction noDigit]
  rfl

theorem Exponent.noDigit (written : Exponent exponent? marked) :
    ∀ c ∈ marked.head?, Number.isDigit c = false := by
  cases written with
  | absent => exact nofun
  | written isMark signed nonempty all =>
      intro c found
      cases found
      exact noDigit_of_isExponentMark isMark

theorem Exponent.noPoint (written : Exponent exponent? marked) : marked.head? ≠ some '.' := by
  cases written with
  | absent => exact nofun
  | written isMark signed nonempty all =>
      rintro ⟨⟩
      cases isMark

theorem decimal?_eq (all : ∀ c ∈ whole, Number.isDigit c = true) (nonempty : whole ≠ [])
    (isFraction : Fraction fraction point) (isExponent : Exponent exponent? marked) :
    Number.decimal? (whole ++ (point ++ marked)) =
      some ⟨Number.ofDigits (whole ++ fraction), (exponent?.getD (0, 0)).1 - fraction.length⟩ := by
  cases isFraction with
  | absent =>
      rw [List.nil_append, decimal?_whole all nonempty isExponent.noDigit isExponent.noPoint,
        raised?_eq _ _ isExponent, List.append_nil, Int.zero_add, List.length_nil]
      simp
  | written _ allFraction =>
      rw [List.cons_append, decimal?_point all nonempty allFraction isExponent.noDigit,
        raised?_eq _ _ isExponent, Int.add_comm, Int.sub_eq_add_neg]

theorem parse?_eq (all : ∀ c ∈ whole, Number.isDigit c = true) (nonempty : whole ≠ [])
    (isFraction : Fraction fraction point) (isExponent : Exponent exponent? marked) :
    Number.parse? (whole ++ (point ++ marked)) =
      some (Number.ofDecimal false
        ⟨Number.ofDigits (whole ++ fraction), (exponent?.getD (0, 0)).1 - fraction.length⟩) := by
  have decimal := decimal?_eq all nonempty isFraction isExponent
  obtain ⟨d, others, rfl⟩ := List.exists_cons_of_ne_nil nonempty
  have digit := all d List.mem_cons_self
  obtain ⟨low, high⟩ := toNat_of_isDigit digit
  have same : d.toLower = d := dif_neg fun capital => by
    have : 0x41 ≤ d.toNat := capital.1
    omega
  have apart : ∀ first name, Number.isDigit first = false →
      (d :: others ++ (point ++ marked)).map Char.toLower ≠ first :: name := by
    rintro first name noDigit named
    rw [List.cons_append, List.map_cons, same] at named
    exact ne_of_isDigit digit noDigit (List.cons.inj named).1
  rw [Number.parse?, Number.signed?]
  · simp only [Number.unsigned?, decimal]
    rw [if_neg, if_neg]
    · rfl
    · exact apart 'n' _ (by decide)
    · rw [Bool.or_eq_true, decide_eq_true_eq, decide_eq_true_eq]
      exact not_or.mpr ⟨apart 'i' _ (by decide), apart 'i' _ (by decide)⟩
  · rintro rest ⟨⟩
    cases digit
  · rintro rest ⟨⟩
    cases digit

end

namespace Sliced

variable {text rest : List Char} {c : Char} {position : Nat}

theorem characterCode_eq (goesOn : GoesOn text position rest) :
    characterCode text position = settled position rest (Token.characterCode position rest) := by
  cases rest with
  | nil =>
      rw [characterCode, bump_nil goesOn, pure_bind]
      rfl
  | cons c rest =>
      rw [characterCode, bump_cons goesOn, pure_bind]
      simp only [Token.characterCode]
      split
      case isTrue =>
        rw [escape_eq goesOn.next]
        apply outcome_bind
        rintro ⟨decoded?, width⟩ _
        cases decoded? with
        | none => rfl
        | some decoded => simp only [outcome, ← add_byteLength_take_cons]
      case isFalse =>
        split
        case isTrue =>
          rw [peek_eq goesOn.next, pure_bind]
          split
          case isTrue twice =>
            obtain ⟨after, rfl⟩ := List.head?_eq_some_iff.mp twice
            rw [bump_cons goesOn.next, pure_bind, Nat.add_assoc]
            rfl
          case isFalse => rfl
        case isFalse => rfl

theorem any_eq_false {found : Option Char} {p : Char → Bool}
    (stops : ∀ c ∈ found, p c = false) : found.any p = false := by
  cases found with
  | none => rfl
  | some c => exact stops c rfl

theorem exists_fraction (goesOn : GoesOn text position rest) :
    ∃ point after, rest = point ++ after ∧ Fraction (fractionDigits rest) point ∧
      fraction text position =
        pure (!(fractionDigits rest).isEmpty, position + byteLength point) := by
  rw [fraction, peek_eq goesOn, pure_bind]
  by_cases point : rest.head? = some '.'
  · obtain ⟨tail, rfl⟩ := List.head?_eq_some_iff.mp point
    obtain ⟨digits, after, rfl, all, noDigit⟩ := exists_run Number.isDigit tail
    have run : fractionDigits ('.' :: (digits ++ after)) = digits :=
      takeWhile_append_of_stops all noDigit
    rw [if_pos point, peekAt_eq goesOn, pure_bind, run, List.getElem?_cons_succ,
      ← List.head?_eq_getElem?]
    cases digits with
    | nil =>
        rw [List.nil_append, any_eq_false noDigit]
        exact ⟨[], _, rfl, .absent, rfl⟩
    | cons d digits =>
        have first : (d :: digits ++ after).head?.any Number.isDigit = true :=
          all d List.mem_cons_self
        simp only [if_pos first, bump_cons goesOn, pure_bind, takeWhile_eq goesOn.next,
          takeWhile_append_of_stops all noDigit, Nat.add_assoc]
        exact ⟨'.' :: d :: digits, after, rfl, .written (List.cons_ne_nil d digits) all, rfl⟩
  · have absent : fractionDigits rest = [] := by
      unfold fractionDigits
      split
      case h_1 => exact absurd rfl point
      case h_2 => rfl
    rw [if_neg point, absent]
    exact ⟨[], rest, rfl, .absent, rfl⟩

theorem isSome_exponentOf? (sign digits : List Char) :
    (exponentOf? sign digits).isSome = (!digits.isEmpty && decide (sign.length ≤ 1)) := by
  unfold exponentOf?
  split
  case isTrue missing =>
    simp only [Bool.or_eq_true, decide_eq_true_eq] at missing
    rcases missing with empty | long
    · rw [empty]
      rfl
    · rw [decide_eq_false (Nat.not_le.mpr long), Bool.and_false]
      rfl
  case isFalse proper =>
    simp only [Bool.or_eq_true, decide_eq_true_eq, not_or, Nat.not_lt] at proper
    rw [eq_false_of_ne_true proper.1, decide_eq_true proper.2]
    rfl

/-- Digits follow the mark of an exponent, perhaps after one sign, exactly if it has a value. -/
theorem digitsFollow_eq {mark : Char} {sign digits after : List Char}
    (signs : ∀ c ∈ sign, isSign c = true) (noSign : ∀ c ∈ (digits ++ after).head?, isSign c = false)
    (all : ∀ c ∈ digits, Number.isDigit c = true)
    (noDigit : ∀ c ∈ after.head?, Number.isDigit c = false)
    (goesOn : GoesOn text position (mark :: (sign ++ (digits ++ after)))) :
    digitsFollow text position = pure (exponentOf? sign digits).isSome := by
  have first : (digits ++ after).head?.any Number.isDigit = !digits.isEmpty := by
    cases digits with
    | nil => exact any_eq_false noDigit
    | cons d digits => exact all d List.mem_cons_self
  have signOnly : ∀ s, isSign s = true → Number.isDigit s = false := by
    intro s sign
    rw [← Bool.not_eq_true]
    intro digit
    rw [isSign_of_isDigit digit] at sign
    cases sign
  rw [digitsFollow, peekAt_eq goesOn, pure_bind, isSome_exponentOf?, ← first]
  cases sign with
  | nil =>
      rw [List.nil_append, List.getElem?_cons_succ, ← List.head?_eq_getElem?]
      cases next : (digits ++ after).head? with
      | none => rfl
      | some d =>
          have noSign : (decide (d = '+') || decide (d = '-')) = false := noSign d next
          cases digit : Number.isDigit d <;> simp [noSign, digit]
  | cons s sign =>
      have isSign : (decide (s = '+') || decide (s = '-')) = true := signs s List.mem_cons_self
      have noDigit := signOnly s (signs s List.mem_cons_self)
      simp only [List.cons_append, List.getElem?_cons_succ, List.getElem?_cons_zero, noDigit,
        Bool.false_eq_true, if_false, isSign, if_true, peekAt_eq goesOn, pure_bind]
      cases sign with
      | nil => simp [List.head?_eq_getElem?]
      | cons other sign => simp [signOnly other (signs other (by simp))]

theorem signed_of_length_le {sign : List Char} (signs : ∀ c ∈ sign, isSign c = true)
    (single : sign.length ≤ 1) : sign = [] ∨ sign = ['+'] ∨ sign = ['-'] := by
  match sign with
  | [] => exact .inl rfl
  | [s] =>
      have isSign : s = '+' ∨ s = '-' := by simpa [isSign] using signs s List.mem_cons_self
      rcases isSign with rfl | rfl
      · exact .inr (.inl rfl)
      · exact .inr (.inr rfl)

theorem exponent_written {mark : Char} {sign digits after : List Char}
    (isMark : isExponentMark mark = true) (signed : sign = [] ∨ sign = ['+'] ∨ sign = ['-'])
    (noSign : ∀ c ∈ (digits ++ after).head?, isSign c = false)
    (run : (digits ++ after).takeWhile Number.isDigit = digits)
    (goesOn : GoesOn text position (mark :: (sign ++ (digits ++ after))))
    (follows : digitsFollow text position = pure true) :
    exponent text position = pure (true, position + byteLength (mark :: (sign ++ digits))) := by
  have isMarked : (mark :: (sign ++ (digits ++ after))).head?.any
      (fun c => c = 'e' || c = 'E') = true := isMark
  rw [exponent, peek_eq goesOn, pure_bind, if_pos isMarked, follows, pure_bind]
  simp only [if_true, bump_cons goesOn, pure_bind, peek_eq goesOn.next]
  rcases signed with rfl | signed
  · have plain : ([] ++ (digits ++ after)).head?.any (fun c => c = '+' || c = '-') = false :=
      any_eq_false noSign
    have digitsNext : GoesOn text (position + mark.utf8Size) (digits ++ after) := goesOn.next
    simp only [plain, Bool.false_eq_true, if_false, takeWhile_eq digitsNext, run, pure_bind,
      Nat.add_assoc]
    rfl
  · obtain ⟨s, rfl, isSigned⟩ : ∃ s, sign = [s] ∧ isSign s = true := by
      rcases signed with rfl | rfl
      · exact ⟨'+', rfl, rfl⟩
      · exact ⟨'-', rfl, rfl⟩
    have isSigned : ([s] ++ (digits ++ after)).head?.any (fun c => c = '+' || c = '-') = true :=
      isSigned
    have signNext : GoesOn text (position + mark.utf8Size) (s :: (digits ++ after)) := goesOn.next
    simp only [isSigned, if_true, bump_cons signNext, takeWhile_eq signNext.next, run, pure_bind]
    rw [Nat.add_assoc, Nat.add_assoc]
    rfl

theorem exists_exponent (goesOn : GoesOn text position rest) :
    ∃ marked after, rest = marked ++ after ∧ Exponent (exponentPart? rest) marked ∧
      exponent text position = pure ((exponentPart? rest).isSome, position + byteLength marked) := by
  by_cases noMark : ∀ c ∈ rest.head?, isExponentMark c = false
  · have absent : rest.head?.any (fun c => c = 'e' || c = 'E') = false := any_eq_false noMark
    rw [exponent, peek_eq goesOn, pure_bind, exponentPart?_of_noMark noMark, absent]
    exact ⟨[], rest, rfl, .absent, rfl⟩
  · simp only [not_forall, Bool.not_eq_false] at noMark
    obtain ⟨mark, first, isMark⟩ := noMark
    obtain ⟨tail, rfl⟩ := List.head?_eq_some_iff.mp first
    obtain ⟨sign, more, rfl, signs, noSign⟩ := exists_run isSign tail
    obtain ⟨digits, after, rfl, all, noDigit⟩ := exists_run Number.isDigit more
    have run := takeWhile_append_of_stops all noDigit
    have follows := digitsFollow_eq signs noSign all noDigit goesOn
    rw [exponentPart?_cons isMark signs noSign, run]
    by_cases missing : digits = [] ∨ 1 < sign.length
    · have none : exponentOf? sign digits = none := if_pos (by simpa using missing)
      have isMarked : (mark :: (sign ++ (digits ++ after))).head?.any
          (fun c => c = 'e' || c = 'E') = true := isMark
      rw [exponent, peek_eq goesOn, pure_bind, if_pos isMarked, follows, none]
      exact ⟨[], _, rfl, .absent, rfl⟩
    · obtain ⟨nonempty, single⟩ := not_or.mp missing
      have signed := signed_of_length_le signs (Nat.not_lt.mp single)
      have found : (exponentOf? sign digits).isSome = true := by
        rw [exponentOf?_eq signed nonempty]
        rfl
      rw [found] at follows ⊢
      exact ⟨mark :: (sign ++ digits), after, by simp, .written isMark signed nonempty all,
        exponent_written isMark signed noSign run goesOn follows⟩

theorem settled_named {first name : List Char} (position : Nat) (kind : TokenKind)
    (named : name.isPrefixOf rest = true) :
    pure (kind, position + byteLength first + byteLength name) =
      settled position (first ++ rest) (.ok (kind, first.length + name.length)) := by
  obtain ⟨last, rfl⟩ := List.isPrefixOf_iff_prefix.mp named
  simp only [settled, outcome, List.take_length_add_append, List.take_left, byteLength_append,
    Nat.add_assoc]

theorem settled_whole (position : Nat) (kind : TokenKind) (word rest : List Char) :
    settled position (word ++ rest) (.ok (kind, word.length)) =
      pure (kind, position + byteLength word) := by
  simp only [settled, outcome, List.take_left]

theorem settled_numberOf {whole places point marked : List Char} {exponent? : Option (Int × Nat)}
    (all : ∀ d ∈ whole, Number.isDigit d = true) (nonempty : whole ≠ [])
    (isFraction : Fraction places point) (isExponent : Exponent exponent? marked) (position : Nat)
    (rest : List Char) :
    (let spelled := whole ++ (point ++ marked)
      let stop := position + byteLength spelled
      if !places.isEmpty || exponent?.isSome then
        if "Inf".toList.isPrefixOf rest then pure (.float Number.infinity, stop + 3)
        else if "NaN".toList.isPrefixOf rest then pure (.float Number.notANumber, stop + 3)
        else
          match Number.parse? spelled with
          | some value => pure (.float value, stop)
          | none => fail (.syntaxFault s!"invalid float `{String.ofList spelled}`" stop)
      else if Number.ofDigits spelled < integerLimit then
        pure (.integer (Number.ofDigits spelled), stop)
      else fail ((SyntaxFault.integerOutOfRange (String.ofList spelled)).foundAt stop)) =
      settled position (whole ++ (point ++ marked) ++ rest)
        (numberOf (position + whole.length) whole places exponent?
          (whole ++ (point ++ marked)).length rest) := by
  simp only [numberOf]
  cases integer : (places.isEmpty && exponent?.isNone) with
  | true =>
      obtain ⟨noPlaces, noExponent⟩ := Bool.and_eq_true_iff.mp integer
      obtain rfl := List.isEmpty_iff.mp noPlaces
      obtain rfl := Option.isNone_iff_eq_none.mp noExponent
      obtain rfl := List.eq_nil_of_length_eq_zero isFraction.pointedLength_eq.symm
      obtain rfl := List.eq_nil_of_length_eq_zero isExponent.length_eq.symm
      have narrow := byteLength_eq_length fun d member =>
        utf8Size_of_isHexDigit (isHexDigit_of_isDigit (all d member))
      simp only [List.append_nil, List.isEmpty_nil, Bool.not_true, Option.isSome_none,
        Bool.or_false, Bool.false_eq_true, if_false, if_true, narrow]
      split
      case isTrue =>
        rw [settled_whole, narrow]
      case isFalse => rfl
  | false =>
      have float : (!places.isEmpty || exponent?.isSome) = true := by
        rw [← Bool.not_eq_true', Bool.not_and, Option.not_isNone] at integer
        exact integer
      rw [if_pos float, parse?_eq all nonempty isFraction isExponent]
      simp only [Bool.false_eq_true, if_false]
      split
      case isTrue named => exact settled_named position _ named
      split
      case isTrue named => exact settled_named position _ named
      case isFalse => exact (settled_whole position _ _ rest).symm

theorem decimalNumber_eq (goesOn : GoesOn text position (c :: rest))
    (digit : Number.isDigit c = true) :
    decimalNumber text position =
      settled position (c :: rest) (Token.decimalNumber position (c :: rest)) := by
  obtain ⟨digits, tail, rfl, others, noDigit⟩ := exists_run Number.isDigit rest
  have all : ∀ d ∈ c :: digits, Number.isDigit d = true := List.forall_mem_cons.mpr ⟨digit, others⟩
  have nonempty := List.cons_ne_nil c digits
  rw [← List.cons_append] at goesOn ⊢
  generalize c :: digits = whole at all goesOn nonempty
  obtain ⟨point, more, rfl, isFraction, fraction⟩ := exists_fraction goesOn.after
  obtain ⟨marked, rest, rfl, isExponent, exponent⟩ := exists_exponent goesOn.after.after
  have parted : GoesOn text position ((whole ++ (point ++ marked)) ++ rest) := by
    simpa using goesOn
  have stop : position + byteLength whole + byteLength point + byteLength marked =
      position + byteLength (whole ++ (point ++ marked)) := by
    simp only [byteLength_append, Nat.add_assoc]
  have together : whole ++ (point ++ (marked ++ rest)) = whole ++ (point ++ marked) ++ rest := by
    simp
  rw [decimalNumber_parts position all noDigit isFraction.pointedLength_eq isExponent.length_eq,
    together, decimalNumber, takeWhile_eq goesOn, takeWhile_append_of_stops all noDigit, pure_bind]
  simp only [fraction, pure_bind, exponent, stop, slice_part parted, slice_rest parted.after]
  exact settled_numberOf all nonempty isFraction isExponent position rest

theorem ascii_of_radix? {letter : Char} {radix : Nat} {isDigitOf : Char → Bool}
    (named : radix? letter = some (radix, isDigitOf)) :
    letter.utf8Size = 1 ∧ ∀ c, isDigitOf c = true → isHexDigit c = true := by
  unfold radix? at named
  split at named
  case h_1 => cases named; exact ⟨rfl, fun _ => id⟩
  case h_2 => cases named; exact ⟨rfl, fun _ => isHexDigit_of_isOctalDigit⟩
  case h_3 =>
    cases named
    refine ⟨rfl, fun c digit => ?_⟩
    simp only [isBinaryDigit, Bool.or_eq_true, decide_eq_true_eq] at digit
    rcases digit with rfl | rfl <;> decide
  case h_4 => cases named

theorem goesOn_radix {letter : Char} {radix : Nat} {isDigitOf : Char → Bool}
    (named : radix? letter = some (radix, isDigitOf))
    (goesOn : GoesOn text position ('0' :: letter :: rest)) : GoesOn text (position + 2) rest := by
  have after := goesOn.next.next
  rwa [(ascii_of_radix? named).1] at after

theorem radixNumber_eq {letter : Char} {radix : Nat} {isDigitOf : Char → Bool}
    (named : radix? letter = some (radix, isDigitOf))
    (goesOn : GoesOn text position ('0' :: letter :: rest)) :
    radixNumber text radix isDigitOf (position + 2) =
      settled position ('0' :: letter :: rest)
        (if ofRadix radix (rest.takeWhile isDigitOf) < integerLimit then
          .ok (.integer (ofRadix radix (rest.takeWhile isDigitOf)),
            2 + (rest.takeWhile isDigitOf).length)
        else .error (SyntaxFault.radixIntegerOutOfRange.foundAt
          (position + 2 + (rest.takeWhile isDigitOf).length))) := by
  obtain ⟨narrow, digits⟩ := ascii_of_radix? named
  rw [radixNumber, takeWhile_eq (goesOn_radix named goesOn), pure_bind, byteLength_takeWhile digits]
  simp only
  split
  case isTrue =>
    have opening : byteLength (('0' :: letter :: rest).take 2) = 2 := by
      rw [List.take_succ_cons, List.take_succ_cons, byteLength_cons, byteLength_cons, narrow]
      rfl
    simp only [settled, outcome, ← add_byteLength_take, opening, List.drop_succ_cons, List.drop_zero,
      take_length_takeWhile, byteLength_takeWhile digits]
  case isFalse => rfl

theorem any_head? (p : Char → Bool) (rest : List Char) :
    rest.head?.any p = !(rest.takeWhile p).isEmpty := by
  cases rest with
  | nil => rfl
  | cons c rest => cases holds : p c <;> simp [holds]

theorem number_eq (goesOn : GoesOn text position (c :: rest))
    (digit : Number.isDigit c = true) :
    number text position =
      settled position (c :: rest) (Token.number position (c :: rest)) := by
  rw [number, peek_eq goesOn, pure_bind]
  by_cases zero : c = '0'
  · subst zero
    rw [if_pos List.head?_cons, peekAt_eq goesOn, pure_bind, List.getElem?_cons_succ,
      ← List.head?_eq_getElem?]
    cases rest with
    | nil => exact decimalNumber_eq goesOn digit
    | cons letter rest =>
      simp only [List.head?_cons]
      split
      case isTrue quoted =>
        subst quoted
        have after : GoesOn text (position + 2) rest := goesOn.next.next
        rw [characterCode_eq after, Token.number]
        refine Eq.trans ?_ (outcome_map fun found : TokenKind × Nat => (found.1, 2 + found.2)).symm
        simp only [settled, ← add_byteLength_take]
        rfl
      case isFalse noCode =>
        rw [Token.number_eq (by simpa using noCode), radixNumber?_cons]
        cases named : radix? letter with
        | none => exact decimalNumber_eq goesOn digit
        | some found =>
            simp only [peekAt_eq goesOn, pure_bind, List.getElem?_cons_succ,
              ← List.head?_eq_getElem?, any_head?]
            cases (rest.takeWhile found.2).isEmpty with
            | true => exact decimalNumber_eq goesOn digit
            | false =>
                rw [if_pos (by rfl), radixNumber_eq named goesOn]
                simp only [Bool.false_eq_true, if_false]
                split <;> rfl
  · have noZero : (c :: rest).head? ≠ some '0' := by simpa using zero
    rw [if_neg noZero, Token.number_eq (fun code => zero code.1), radixNumber?_of_notZero zero]
    exact decimalNumber_eq goesOn digit

end Sliced

end HornQuery.Token
