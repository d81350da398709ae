import HornQuery.Proofs.Token.Lexemes
import Mathlib.Data.List.Induction

namespace HornQuery.Token

open Text

/-- A text that ends in neither white space nor a point. -/
def Firm (text : List Char) : Prop :=
  ∀ c ∈ text.getLast?, isBlank c = false ∧ c ≠ '.'

/-- White space and points. -/
def Loose (text : List Char) : Prop :=
  ∀ c ∈ text, isBlank c = true ∨ c = '.'

section

variable {c : Char} {text left right : List Char} {p : Char → Bool}

theorem firm_nil : Firm [] :=
  nofun

theorem Firm.append (before : Firm left) (after : Firm right) : Firm (left ++ right) := by
  intro c found
  rw [List.getLast?_append] at found
  cases last : right.getLast? with
  | none =>
      rw [last] at found
      exact before c found
  | some d =>
      rw [last] at found
      exact after c (last.trans found)

theorem firm_singleton (visible : isBlank c = false) (noPoint : c ≠ '.') : Firm [c] := by
  intro d found
  cases found
  exact ⟨visible, noPoint⟩

theorem firm_concat (firm : Firm [c]) (text : List Char) : Firm (text ++ [c]) := by
  intro d found
  rw [List.getLast?_concat] at found
  exact firm d found

theorem Firm.after (firm : Firm right) (some : right ≠ []) (left : List Char) :
    Firm (left ++ right) := by
  intro c found
  rw [List.getLast?_append_of_ne_nil left some] at found
  exact firm c found

theorem Firm.of_cons (firm : Firm (c :: text)) : Firm text := by
  intro d found
  apply firm d
  rw [List.getLast?_cons, found]
  rfl

theorem Firm.eq_nil (firm : Firm (left ++ right)) (loose : Loose right) : right = [] := by
  rcases List.eq_nil_or_concat right with none | ⟨former, last, rfl⟩
  · exact none
  · rw [List.concat_eq_append, ← List.append_assoc] at firm
    obtain ⟨visible, noPoint⟩ := firm last List.getLast?_concat
    rcases loose last (by simp) with blank | point
    · rw [visible] at blank
      cases blank
    · exact absurd point noPoint

theorem getLast?_eq_point (nonempty : text ≠ []) (loose : Loose text)
    (all : ∀ c ∈ text, isSymbol c = true) : text.getLast? = some '.' := by
  rcases List.eq_nil_or_concat text with none | ⟨former, last, rfl⟩
  · exact absurd none nonempty
  rw [List.concat_eq_append] at loose all ⊢
  rw [List.getLast?_concat]
  have member : last ∈ former ++ [last] := List.mem_append_right former List.mem_cons_self
  rcases loose last member with blank | point
  · rw [(visible_of_isSymbol (all last member)).1] at blank
    cases blank
  · rw [point]

theorem firm_of_continues (continues : Continues p) (holds : p c = true) : Firm [c] := by
  rcases continues c holds with name | quote | ⟨symbol, noPoint⟩
  · refine firm_singleton (isBlank_of_isNameCharacter name) ?_
    rintro rfl
    exact absurd name (by decide)
  · have firm : ∀ c ∈ quotes, isBlank c = false ∧ c ≠ '.' := forall_mem_of_all (by decide)
    exact firm_singleton (firm c quote).1 (firm c quote).2
  · exact firm_singleton (visible_of_isSymbol symbol).1 noPoint

theorem firm_run (continues : Continues p) (all : ∀ c ∈ text, p c = true) : Firm text := by
  rcases List.eq_nil_or_concat text with rfl | ⟨former, last, rfl⟩
  · exact firm_nil
  · rw [List.concat_eq_append] at all ⊢
    exact firm_concat (firm_of_continues continues (all last (by simp))) former

theorem take_length_takeWhile (p : Char → Bool) (text : List Char) :
    text.take (text.takeWhile p).length = text.takeWhile p :=
  (List.prefix_iff_eq_take.mp (List.takeWhile_prefix p)).symm

theorem firm_takeWhile (continues : Continues p) (text : List Char) : Firm (text.takeWhile p) :=
  firm_run continues fun _ => List.mem_takeWhile_imp

end

/-! Escape sequences and quoted text. -/

theorem firm_closing (text : List Char) : Firm (text.take (closing text)) := by
  unfold closing
  split
  case isTrue closed =>
    obtain ⟨rest, rfl⟩ := List.head?_eq_some_iff.mp closed
    exact firm_of_continues continues_backslash (by decide)
  case isFalse => exact firm_nil

theorem firm_letterEscape {c decoded : Char} (letter : letterEscape? c = some decoded) :
    Firm [c] := by
  unfold letterEscape? at letter
  split at letter
  case h_14 => cases letter
  all_goals exact firm_singleton (by decide) (by decide)

theorem firm_hexNumber {digits : List Char} {code : Nat} (number : hexNumber? digits = some code) :
    Firm digits := by
  have run : ∀ digits : List Char,
      (if digits.isEmpty || !digits.all isHexDigit then none else some (ofRadix 16 digits))
        = some code → Firm digits := by
    intro digits number
    split at number
    case isTrue => cases number
    case isFalse proper =>
      simp only [Bool.or_eq_true, Bool.not_eq_true', not_or, Bool.not_eq_false] at proper
      exact firm_run continues_hexDigit (List.all_eq_true.mp proper.2)
  unfold hexNumber? at number
  split at number
  case h_1 rest => exact (firm_singleton (by decide) (by decide)).append (run rest number)
  case h_2 => exact run digits number

section

variable {place width : Nat} {c decoded : Char} {text : List Char} {p : Char → Bool}

theorem firm_closed (firm : Firm [c]) (continues : Continues p) (text : List Char) :
    Firm ((c :: text).take (1 + (text.takeWhile p).length
      + closing (text.drop (text.takeWhile p).length))) := by
  rw [Nat.add_assoc, Nat.add_comm, List.take_succ_cons, List.take_add, take_length_takeWhile]
  exact firm.append ((firm_takeWhile continues text).append (firm_closing _))

theorem firm_escape (found : escape place text = .ok (some decoded, width)) :
    Firm (text.take width) := by
  cases text with
  | nil => cases found
  | cons c rest =>
      cases letter : letterEscape? c with
      | some char =>
          simp only [escape, letter] at found
          cases found
          exact firm_letterEscape letter
      | none =>
          by_cases lineEnd : c = '\n'
          · simp only [escape, letter, if_pos lineEnd] at found
            cases found
          by_cases isHex : c = 'x'
          · simp only [escape, letter, if_neg lineEnd, if_pos isHex] at found
            split at found
            case isTrue => cases found
            case isFalse =>
              obtain ⟨rfl, -⟩ := decoded_again found
              subst isHex
              exact firm_closed (firm_singleton (by decide) (by decide)) continues_hexDigit rest
          by_cases isUnicode : (decide (c = 'u') || decide (c = 'U')) = true
          · simp only [escape, letter, if_neg lineEnd, if_neg isHex, if_pos isUnicode] at found
            split at found
            case h_1 => cases found
            case h_2 digits window =>
              split at found
              case h_1 => cases found
              case h_2 code number =>
                obtain ⟨rfl, -⟩ := decoded_again found
                obtain ⟨after, rfl, -⟩ := window?_eq_some_iff.mp window
                rw [Nat.add_comm, List.take_succ_cons, List.take_left]
                have firm : Firm [c] := by
                  simp only [Bool.or_eq_true, decide_eq_true_eq] at isUnicode
                  rcases isUnicode with rfl | rfl
                  · exact firm_singleton (by decide) (by decide)
                  · exact firm_singleton (by decide) (by decide)
                exact firm.append (firm_hexNumber number)
          by_cases isOctal : isOctalDigit c = true
          · simp only [escape, letter, if_neg lineEnd, if_neg isHex, if_neg isUnicode,
              if_pos isOctal] at found
            obtain ⟨rfl, -⟩ := decoded_again found
            exact firm_closed (firm_of_continues continues_octalDigit isOctal)
              continues_octalDigit rest
          · simp only [escape, letter, if_neg lineEnd, if_neg isHex, if_neg isUnicode,
              if_neg isOctal] at found
            cases found

end

theorem exists_closingQuote {quote : Char} {opening position taken : Nat}
    {text content : List Char}
    (found : quotedText opening quote position text = .ok (content, taken)) :
    ∃ inside, text.take taken = inside ++ [quote] := by
  fun_induction quotedText opening quote position text generalizing content taken with
  | case1 => cases found
  | case2 position =>
      cases found
      exact ⟨[], rfl⟩
  | case3 position more induction =>
      obtain ⟨⟨inner, count⟩, isInside, done⟩ := bind_eq_ok.mp found
      cases done
      obtain ⟨inside, same⟩ := induction isInside
      refine ⟨quote :: quote :: inside, ?_⟩
      rw [List.take_succ_cons, List.take_succ_cons, same]
      rfl
  | case4 position next more apart =>
      cases found
      exact ⟨[], rfl⟩
  | case5 position text apart induction =>
      obtain ⟨⟨decoded?, width⟩, isEscape, continued⟩ := bind_eq_ok.mp found
      obtain ⟨⟨inner, count⟩, isInside, done⟩ := bind_eq_ok.mp continued
      cases done
      obtain ⟨inside, same⟩ := induction width isInside
      refine ⟨'\\' :: (text.take width ++ inside), ?_⟩
      rw [Nat.add_assoc, Nat.add_comm, List.take_succ_cons, List.take_add, same]
      simp
  | case6 position c text noQuote noEscape induction =>
      obtain ⟨⟨inner, count⟩, isInside, done⟩ := bind_eq_ok.mp found
      cases done
      obtain ⟨inside, same⟩ := induction isInside
      refine ⟨c :: inside, ?_⟩
      rw [List.take_succ_cons, same]
      rfl

theorem firm_quotedText {quote : Char} {opening position taken : Nat} {text content : List Char}
    (isQuote : quote ∈ quotes)
    (found : quotedText opening quote position text = .ok (content, taken)) :
    Firm (text.take taken) := by
  obtain ⟨inside, same⟩ := exists_closingQuote found
  rw [same]
  exact firm_concat (firm_of_continues (continues_quote isQuote) (by simp)) inside

/-! Numbers. -/

section

variable {place width : Nat} {c : Char} {text : List Char} {kind : TokenKind}

theorem firm_fraction (text : List Char) :
    Firm (text.take (pointedLength (fractionDigits text))) := by
  unfold fractionDigits
  split
  case h_1 rest =>
    rw [pointedLength]
    split
    case isTrue => exact firm_nil
    case isFalse some =>
      rw [Nat.add_comm, List.take_succ_cons, take_length_takeWhile]
      exact (firm_takeWhile continues_digit rest).after (by simpa using some) ['.']
  case h_2 => exact firm_nil

theorem firm_exponent (text : List Char) :
    Firm (text.take ((exponentPart? text).getD (0, 0)).2) := by
  by_cases noMark : ∀ c ∈ text.head?, isExponentMark c = false
  · rw [exponentPart?_of_noMark noMark]
    exact firm_nil
  · simp only [not_forall, Bool.not_eq_false] at noMark
    obtain ⟨mark, first, isMark⟩ := noMark
    obtain ⟨rest, rfl⟩ := List.head?_eq_some_iff.mp first
    obtain ⟨sign, tail, rfl, signs, noSign⟩ := exists_run isSign rest
    rw [exponentPart?_cons isMark signs noSign, exponentOf?]
    split
    case isTrue => exact firm_nil
    case isFalse proper =>
      simp only [Bool.or_eq_true, not_or, Bool.not_eq_true, List.isEmpty_eq_false_iff] at proper
      rw [Option.getD_some, Nat.add_assoc, Nat.add_comm, List.take_succ_cons,
        List.take_length_add_append, take_length_takeWhile]
      exact (firm_takeWhile continues_digit tail).after proper.1 (mark :: sign)

theorem firm_named {name rest : List Char} (named : ∀ c ∈ name, isNameCharacter c = true)
    (starts : name.isPrefixOf rest = true) : Firm (rest.take name.length) := by
  obtain ⟨after, rfl⟩ := List.isPrefixOf_iff_prefix.mp starts
  rw [List.take_left]
  exact firm_run continues_name named

theorem firm_decimalNumber (found : decimalNumber place text = .ok (kind, width)) :
    Firm (text.take width) := by
  have infinite : ∀ c ∈ "Inf".toList, isNameCharacter c = true :=
    forall_mem_of_all (by decide +kernel)
  have undefined : ∀ c ∈ "NaN".toList, isNameCharacter c = true :=
    forall_mem_of_all (by decide +kernel)
  unfold decimalNumber at found
  extract_lets whole fraction pointed exponent? at found
  have digits : Firm (text.take whole.length) := by
    rw [take_length_takeWhile]
    exact firm_takeWhile continues_digit text
  split at found
  case isTrue =>
    split at found <;> cases found
    exact digits
  case isFalse =>
    have point : Firm ((text.drop whole.length).take pointed) :=
      firm_fraction (text.drop whole.length)
    have mark : Firm ((text.drop (whole.length + pointed)).take (exponent?.getD (0, 0)).2) :=
      firm_exponent (text.drop (whole.length + pointed))
    have parts := (digits.append point).append mark
    rw [← List.take_add, ← List.take_add] at parts
    split at found
    case h_1 exponent marked value =>
      rw [value] at parts
      extract_lets counted rest at found
      split at found
      case isTrue isInfinity =>
        cases found
        rw [List.take_add]
        exact parts.append (firm_named infinite isInfinity)
      case isFalse =>
        split at found
        case isTrue isNaN =>
          cases found
          rw [List.take_add]
          exact parts.append (firm_named undefined isNaN)
        case isFalse =>
          rw [← (Prod.mk.inj (Except.ok.inj found)).2]
          exact parts

theorem firm_radixNumber (found : radixNumber? place text = some (.ok (kind, width))) :
    Firm (text.take width) := by
  simp only [radixNumber?] at found
  split at found
  case h_1 letter rest =>
    simp only [bind, Option.bind_eq_some_iff] at found
    obtain ⟨⟨radix, isDigitOf⟩, named, _, _, found⟩ := found
    split at found <;> cases found
    obtain ⟨continues, isName⟩ := continues_radix named
    rw [List.take_add]
    have letters : Firm ['0', letter] :=
      firm_concat (firm_of_continues continues_name isName) ['0']
    refine letters.append ?_
    have digits := firm_takeWhile continues rest
    rwa [← take_length_takeWhile] at digits
  case h_2 => cases found

/-- The code of a character is the one number that the character itself can end. -/
theorem firm_characterCode (found : characterCode place text = .ok (kind, width)) :
    Firm (text.take width) ∨ ∃ d, text.take width = [d] := by
  cases text with
  | nil => cases found
  | cons c rest =>
      by_cases escaped : c = '\\'
      · simp only [characterCode, if_pos escaped] at found
        obtain ⟨⟨decoded?, count⟩, isEscape, continued⟩ := bind_eq_ok.mp found
        cases decoded? with
        | none => cases continued
        | some decoded =>
            cases continued
            rw [Nat.add_comm, List.take_succ_cons]
            subst escaped
            exact .inl ((firm_singleton (by decide) (by decide)).append (firm_escape isEscape))
      by_cases quoted : c = '\x27'
      · simp only [characterCode, if_neg escaped, if_pos quoted] at found
        cases found
        subst quoted
        have quote : Firm ['\x27'] := firm_singleton (by decide) (by decide)
        left
        split
        case isTrue twice =>
          obtain ⟨after, rfl⟩ := List.head?_eq_some_iff.mp twice
          exact quote.append quote
        case isFalse => exact quote
      · simp only [characterCode, if_neg escaped, if_neg quoted] at found
        cases found
        exact .inr ⟨c, rfl⟩

theorem firm_number (found : number place (c :: text) = .ok (kind, width)) :
    Firm (text.take (width - 1)) ∨ ∃ d, c = '0' ∧ text.take (width - 1) = ['\x27', d] := by
  unfold number at found
  split at found
  case h_1 rest same =>
    obtain ⟨rfl, rfl⟩ := List.cons.inj same
    obtain ⟨⟨other, count⟩, isCode, done⟩ := bind_eq_ok.mp found
    cases done
    have counted : 2 + count - 1 = count + 1 := by omega
    rw [counted, List.take_succ_cons]
    rcases firm_characterCode isCode with firm | ⟨d, single⟩
    · exact .inl ((firm_singleton (by decide) (by decide)).append firm)
    · exact .inr ⟨d, rfl, by rw [single]⟩
  case h_2 =>
    have whole : Firm ((c :: text).take width) := by
      cases radix : radixNumber? place (c :: text) with
      | none =>
          rw [radix] at found
          exact firm_decimalNumber found
      | some result =>
          rw [radix, Option.getD_some] at found
          exact firm_radixNumber (found ▸ radix)
    cases width with
    | zero => exact .inl firm_nil
    | succ width => exact .inl whole.of_cons

end

/-! Tokens. -/

section

variable {c : Char} {word rest text : List Char} {kind : TokenKind} {place width : Nat}

/-- What starts with no symbol ends no clause, and it is firm but for the code of a character. -/
theorem firm_of_scanOne (noSymbol : isSymbol c = false)
    (found : scanOne place c text = .ok (kind, width)) : kind ≠ .clauseEnd ∧
      (Firm (text.take width) ∨ ∃ d, c = '0' ∧ text.take width = ['\x27', d]) := by
  have name : Firm (text.take (text.takeWhile isNameCharacter).length) := by
    rw [take_length_takeWhile]
    exact firm_takeWhile continues_name text
  simp only [scanOne] at found
  split at found
  case isTrue =>
    obtain ⟨⟨other, count⟩, isNumber, done⟩ := bind_eq_ok.mp found
    cases done
    refine ⟨?_, firm_number isNumber⟩
    rcases isNumber_number isNumber with ⟨_, rfl⟩ | ⟨_, rfl⟩ <;> simp
  case isFalse =>
    split at found
    case isTrue => cases found; exact ⟨by simp, .inl name⟩
    case isFalse =>
      split at found
      case isTrue => cases found; exact ⟨by simp, .inl name⟩
      case isFalse =>
        split at found
        case isTrue apostrophe =>
          obtain ⟨⟨content, count⟩, isQuoted, done⟩ := bind_eq_ok.mp found
          cases done
          exact ⟨by simp, .inl (firm_quotedText (by rw [apostrophe]; decide) isQuoted)⟩
        case isFalse =>
          split at found
          case isTrue string =>
            have isQuote : c ∈ quotes := by
              simp only [Bool.or_eq_true, decide_eq_true_eq] at string
              rcases string with rfl | rfl <;> decide
            obtain ⟨⟨content, count⟩, isQuoted, done⟩ := bind_eq_ok.mp found
            cases done
            exact ⟨by simp, .inl (firm_quotedText isQuote isQuoted)⟩
          case isFalse =>
            -- A mark is a single character, and a point is a symbol.
            have noPoint : (decide (c = '.') && endsClause text) = false := by
              rw [Bool.and_eq_false_iff, decide_eq_false_iff_not]
              refine .inl ?_
              rintro rfl
              exact absurd noSymbol (by decide)
            simp only [noPoint, noSymbol, Bool.false_eq_true, if_false] at found
            split at found
            case isTrue => cases found; exact ⟨by simp, .inl firm_nil⟩
            case isFalse =>
              split at found <;> cases found
              exact ⟨by simp, .inl firm_nil⟩

inductive Ending (c : Char) (word rest : List Char) : TokenKind → Prop
  | clauseEnd (point : c = '.') (none : word = []) (ends : endsClause rest = true) :
      Ending c word rest .clauseEnd
  | symbols (symbol : isSymbol c = true) (run : (word ++ rest).takeWhile isSymbol = word) :
      Ending c word rest (.name (String.ofList (c :: word)))
  | firm {kind : TokenKind} (noSymbol : isSymbol c = false) (noEnd : kind ≠ .clauseEnd)
      (firm : Firm word) : Ending c word rest kind
  | code {kind : TokenKind} (d : Char) (noEnd : kind ≠ .clauseEnd) (zero : c = '0')
      (coded : word = ['\x27', d]) : Ending c word rest kind

theorem Lexeme.ending (lexeme : Lexeme c word rest kind) : Ending c word rest kind := by
  have found := lexeme.found 0 rest (.refl rest) (.inl rfl)
  cases symbol : isSymbol c with
  | false =>
      obtain ⟨noEnd, firm | ⟨d, zero, coded⟩⟩ := firm_of_scanOne symbol found
      · rw [List.take_left] at firm
        exact .firm symbol noEnd firm
      · rw [List.take_left] at coded
        exact .code d noEnd zero coded
  | true =>
      cases ends : (c = '.' && endsClause (word ++ rest)) with
      | true =>
          obtain ⟨point, ends⟩ := Bool.and_eq_true_iff.mp ends
          rw [of_decide_eq_true point, scanOne_clauseEnd ends] at found
          obtain ⟨rfl, none⟩ := Prod.mk.inj (Except.ok.inj found)
          obtain rfl := List.length_eq_zero_iff.mp none.symm
          exact .clauseEnd (of_decide_eq_true point) rfl ends
      | false =>
          rw [scanOne_symbol 0 symbol ends] at found
          obtain ⟨rfl, length⟩ := Prod.mk.inj (Except.ok.inj found)
          have run : (word ++ rest).takeWhile isSymbol = word := by
            rw [List.prefix_iff_eq_take.mp (List.takeWhile_prefix isSymbol), length, List.take_left]
          rw [run]
          exact .symbols symbol run

theorem Lexeme.eq_point (lexeme : Lexeme c word rest .clauseEnd) :
    c = '.' ∧ word = [] ∧ endsClause rest = true := by
  cases lexeme.ending with
  | clauseEnd point none ends => exact ⟨point, none, ends⟩
  | firm _ noEnd => exact absurd rfl noEnd
  | code _ noEnd => exact absurd rfl noEnd

/-- What starts with a symbol and does not end the clause is a name of symbols. -/
theorem Lexeme.eq_symbols (lexeme : Lexeme c word rest kind) (noEnd : kind ≠ .clauseEnd)
    (symbol : isSymbol c = true) :
    kind = .name (String.ofList (c :: word)) ∧ (word ++ rest).takeWhile isSymbol = word := by
  cases lexeme.ending with
  | clauseEnd => exact absurd rfl noEnd
  | symbols _ run => exact ⟨rfl, run⟩
  | firm noSymbol =>
      rw [symbol] at noSymbol
      cases noSymbol
  | code d _ zero =>
      rw [zero] at symbol
      exact absurd symbol (by decide)

theorem Lexeme.eq_name (lexeme : Lexeme c word rest kind) (symbol : isSymbol c = true)
    (goesOn : endsClause rest = false) :
    kind = .name (String.ofList (c :: word)) ∧ (word ++ rest).takeWhile isSymbol = word := by
  refine lexeme.eq_symbols ?_ symbol
  rintro rfl
  rw [lexeme.eq_point.2.2] at goesOn
  cases goesOn

/-- A point that ends no clause is followed by something else. -/
theorem Lexeme.endsClause_eq_false (lexeme : Lexeme '.' word rest kind)
    (noEnd : kind ≠ .clauseEnd) : endsClause (word ++ rest) = false := by
  rw [← Bool.not_eq_true]
  intro ends
  have found := lexeme.found 0 rest (.refl rest) (.inl rfl)
  rw [scanOne_clauseEnd ends] at found
  exact noEnd (Prod.mk.inj (Except.ok.inj found)).1.symm

theorem Lexeme.stop_eq {gap : List Char} {position : Nat} {token : Token} {tokens : List Token}
    (lexeme : Lexeme c word rest kind) (skips : Skips gap)
    (scanned : scanFrom position (gap ++ c :: (word ++ rest)) = .ok (token :: tokens)) :
    token.stop = position + byteLength (gap ++ c :: word) := by
  have layout := skips position (c :: (word ++ rest))
  rw [lexeme.starts.layoutLength_eq] at layout
  rw [scanFrom_of_token layout List.drop_left rfl] at scanned
  obtain ⟨⟨other, width⟩, found, continued⟩ := bind_eq_ok.mp scanned
  cases (lexeme.found _ rest (.refl rest) (.inl rfl)).symm.trans found
  obtain ⟨others, _, done⟩ := bind_eq_ok.mp continued
  cases done
  simp [byteLength_append, byteLength_cons, Nat.add_assoc]

end

/-! The ends of clauses among tokens. -/

theorem isEnd_iff {token : Token} : token.isEnd = true ↔ token.kind = .clauseEnd := by
  unfold isEnd
  split
  case h_1 kind => exact iff_of_true rfl kind
  case h_2 other => exact iff_of_false Bool.false_ne_true other

theorem exists_onlyEnds (tokens : List Token) :
    OnlyEnds tokens ∨ ∃ former token ends, tokens = former ++ token :: ends ∧
      token.kind ≠ .clauseEnd ∧ OnlyEnds ends := by
  induction tokens using List.reverseRecOn with
  | nil => exact .inl nofun
  | append_singleton tokens last induction =>
      by_cases isEnd : last.kind = .clauseEnd
      · have more : ∀ {ends}, OnlyEnds ends → OnlyEnds (ends ++ [last]) := fun onlyEnds =>
          List.forall_mem_append.mpr ⟨onlyEnds, List.forall_mem_singleton.mpr isEnd⟩
        rcases induction with onlyEnds | ⟨former, token, ends, rfl, noEnd, onlyEnds⟩
        · exact .inl (more onlyEnds)
        · exact .inr ⟨former, token, ends ++ [last], by simp, noEnd, more onlyEnds⟩
      · exact .inr ⟨tokens, last, [], rfl, isEnd, nofun⟩

/-! Layout at the end of a text. -/

theorem exists_blockEnd {text : List Char} {width : Nat} (found : blockLength? text = some width) :
    ∃ inside, text.take width = inside ++ ['*', '/'] := by
  fun_induction blockLength? text generalizing width with
  | case1 => cases found
  | case2 rest =>
      cases found
      exact ⟨[], rfl⟩
  | case3 c text noEnd induction =>
      obtain ⟨count, inner, rfl⟩ := Option.map_eq_some_iff.mp found
      obtain ⟨inside, same⟩ := induction inner
      exact ⟨c :: inside, by rw [List.take_succ_cons, same]; rfl⟩

theorem firm_blockEnd (inside : List Char) : Firm (inside ++ ['*', '/']) := by
  have slash : Firm ['/'] := firm_singleton (by decide) (by decide)
  rw [List.append_cons]
  exact firm_concat slash (inside ++ ['*'])

/-- The block is closed within what is kept, for its last character is not loose. -/
theorem exists_keptBlock {kept trail : List Char} {width : Nat} (loose : Loose trail)
    (found : blockLength? (kept ++ trail) = some width) :
    ∃ block rest, kept = block ++ rest ∧ width = block.length ∧
      ∀ other, blockLength? (block ++ other) = some block.length := by
  obtain ⟨block, rest, whole, rfl, again⟩ := exists_block found
  obtain ⟨inside, same⟩ := exists_blockEnd found
  rw [whole, List.take_left] at same
  rcases List.append_eq_append_iff.mp whole with ⟨lost, ends, rfl⟩ | ⟨more, rfl, rfl⟩
  · have firm := firm_blockEnd inside
    rw [← same, ends] at firm
    have none := firm.eq_nil fun c member => loose c (List.mem_append_left rest member)
    subst none
    rw [List.append_nil] at ends
    exact ⟨block, [], by rw [List.append_nil, ends], rfl, again⟩
  · exact ⟨block, more, rfl, rfl, again⟩

/-- Layout that goes to the end of a text is layout where the text is cut off, also within a line
comment. -/
theorem layoutLength_shortened {position place : Nat} {text kept trail : List Char}
    (loose : Loose trail) (whole : text = kept ++ trail)
    (layout : layoutLength position text = .ok text.length) :
    layoutLength place kept = .ok kept.length := by
  fun_induction layoutLength position text generalizing place kept with
  | case1 =>
      obtain ⟨rfl, _⟩ := List.append_eq_nil_iff.mp whole.symm
      rw [layoutLength]
      rfl
  | case2 position c text blank induction =>
      cases kept with
      | nil => rw [layoutLength]; rfl
      | cons d kept =>
          obtain ⟨rfl, inner⟩ := List.cons.inj whole
          obtain ⟨more, isMore, done⟩ := bind_eq_ok.mp layout
          have length := Except.ok.inj done
          rw [List.length_cons, Nat.add_comm, Nat.add_right_cancel_iff] at length
          rw [layoutLength_blank blank, induction inner (length ▸ isMore), List.length_cons,
            Nat.add_comm]
          rfl
  | case3 position text comment visible =>
      rename_i induction
      cases kept with
      | nil => rw [layoutLength]; rfl
      | cons d kept =>
          obtain ⟨rfl, inner⟩ := List.cons.inj whole
          obtain ⟨line, after, rfl, all, stops⟩ := exists_run (· ≠ '\n') kept
          rw [layoutLength_line place all stops]
          cases after with
          | nil =>
              rw [layoutLength, List.length_cons, List.append_nil, Nat.add_comm]
              rfl
          | cons feed after =>
              have inner : text = line ++ (feed :: after ++ trail) := by simpa using inner
              have run : comment = line := by
                have otherStops : ∀ c ∈ (feed :: after ++ trail).head?, decide (c ≠ '\n') = false :=
                  stops
                show text.takeWhile _ = line
                rw [inner, takeWhile_append_of_stops all otherStops]
              have left : text.drop comment.length = feed :: after ++ trail := by
                rw [run, inner, List.drop_left]
              obtain ⟨more, isMore, done⟩ := bind_eq_ok.mp layout
              have length : more = (text.drop comment.length).length := by
                have := Except.ok.inj done
                rw [List.length_cons] at this
                rw [List.length_drop]
                omega
              rw [induction left (length ▸ isMore)]
              simp [Except.map]
              omega
  | case4 => cases layout
  | case5 position c text visible noLine opens width isBlock comment =>
      rename_i induction
      simp only [Bool.and_eq_true, decide_eq_true_eq] at opens
      obtain ⟨rfl, star⟩ := opens
      cases kept with
      | nil => rw [layoutLength]; rfl
      | cons d kept =>
          obtain ⟨rfl, inner⟩ := List.cons.inj whole
          cases kept with
          | nil =>
              rw [inner] at star
              rcases loose '*' (List.mem_of_mem_head? star) with blank | point
              · exact absurd blank (by decide)
              · exact absurd point (by decide)
          | cons e kept =>
              rw [inner] at star isBlock
              cases star
              obtain ⟨block, rest, rfl, rfl, closes⟩ := exists_keptBlock loose isBlock
              have left : text.drop (1 + block.length) = rest ++ trail := by
                rw [inner, Nat.add_comm, List.append_eq, List.cons_append, List.drop_succ_cons,
                  List.append_assoc, List.drop_left]
              obtain ⟨more, isMore, done⟩ := bind_eq_ok.mp layout
              have length : more = (text.drop (1 + block.length)).length := by
                have := Except.ok.inj done
                rw [List.length_cons] at this
                rw [List.length_drop]
                omega
              rw [layoutLength_block place closes, induction left (length ▸ isMore)]
              simp [Except.map]
              omega
  | case6 position c text visible noLine noBlock =>
      rw [List.length_cons] at layout
      cases layout

theorem layoutLength_of_scanFrom {position : Nat} {text : List Char}
    (scanned : scanFrom position text = .ok []) : layoutLength position text = .ok text.length := by
  obtain ⟨skipped, layout, _⟩ := bind_eq_ok.mp ((scanFrom.eq_def position text).symm.trans scanned)
  obtain ⟨gap, rest, rfl, rfl, _⟩ := exists_gap layout
  cases rest with
  | nil =>
      rw [List.append_nil] at layout ⊢
      exact layout
  | cons c later =>
      rw [scanFrom_of_token layout List.drop_left rfl] at scanned
      obtain ⟨_, _, continued⟩ := bind_eq_ok.mp scanned
      obtain ⟨_, _, done⟩ := bind_eq_ok.mp continued
      cases done

theorem scanFrom_shortened {position : Nat} {kept trail : List Char}
    (layout : layoutLength position (kept ++ trail) = .ok (kept ++ trail).length)
    (loose : Loose trail) (place : Nat) : scanFrom place kept = .ok [] :=
  scanFrom_of_layout (layoutLength_shortened loose rfl layout) List.drop_length

end HornQuery.Token
