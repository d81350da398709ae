import HornQuery.Proofs.Token.NumberExchange

namespace HornQuery.Token

open Text

theorem endsClause_congr {text other : List Char} (same : other.head? = text.head?) :
    endsClause other = endsClause text := by
  cases text with
  | nil =>
      obtain rfl := List.head?_eq_none_iff.mp same
      rfl
  | cons c text =>
      obtain ⟨rest, rfl⟩ := List.head?_eq_some_iff.mp same
      rfl

/-- A text that does not go on with a token of symbols in front of it. A lone point is such a token
only as long as it does not end the clause. -/
structure Settles (kind : TokenKind) (other : List Char) : Prop where
  noEnd : kind ≠ .clauseEnd
  noSymbol : ∀ c ∈ other.head?, isSymbol c = false
  noPoint : endsClause other = true → kind ≠ .name "."

theorem scanOne_name_exchanged {place width : Nat} {c : Char} {text : List Char}
    {kind : TokenKind} (symbol : isSymbol c = true)
    (noEnd : (c = '.' && endsClause text) = false)
    (found : scanOne place c text = .ok (kind, width)) :
    ∃ word rest, text = word ++ rest ∧ width = word.length ∧
      ∀ elsewhere other, (other.head? = rest.head? ∨ Settles kind other) →
        scanOne elsewhere c (word ++ other) = .ok (kind, word.length) := by
  rw [scanOne_symbol place symbol noEnd] at found
  cases found
  obtain ⟨run, rest, rfl, symbols, stops⟩ := exists_run isSymbol text
  rw [takeWhile_append_of_stops symbols stops]
  refine ⟨run, rest, rfl, rfl, ?_⟩
  intro elsewhere other follows
  have otherStops : ∀ c ∈ other.head?, isSymbol c = false := by
    rcases follows with same | settles
    · rw [same]
      exact stops
    · exact settles.noSymbol
  have otherNoEnd : (c = '.' && endsClause (run ++ other)) = false := by
    cases run with
    | nil =>
        rcases follows with same | settles
        · rw [List.nil_append, endsClause_congr same]
          exact noEnd
        · rw [List.nil_append, ← Bool.not_eq_true, Bool.and_eq_true]
          rintro ⟨point, ends⟩
          rw [of_decide_eq_true point] at settles
          exact settles.noPoint ends rfl
    | cons d run =>
        rw [← noEnd]
        exact congrArg _ (endsClause_congr rfl)
  rw [scanOne_symbol elsewhere symbol otherNoEnd, takeWhile_append_of_stops symbols otherStops]

theorem scanOne_clauseEnd {text : List Char} (ends : endsClause text = true) (place : Nat) :
    scanOne place '.' text = .ok (.clauseEnd, 0) := by
  have noDigit : Number.isDigit '.' = false := by decide
  have noCapital : isUppercase '.' = false := by decide +kernel
  have noLetter : isAlphabetic '.' = false := by decide +kernel
  simp [scanOne, noDigit, noCapital, noLetter, ends, marks]

theorem scanOne_symbol_exchanged {place width : Nat} {c : Char} {text : List Char}
    {kind : TokenKind} (symbol : isSymbol c = true)
    (found : scanOne place c text = .ok (kind, width)) :
    ∃ word rest, text = word ++ rest ∧ width = word.length ∧
      ∀ elsewhere other, (other.head? = rest.head? ∨ Settles kind other) →
        scanOne elsewhere c (word ++ other) = .ok (kind, word.length) := by
  cases ends : (c = '.' && endsClause text) with
  | true =>
      obtain ⟨point, ends⟩ := Bool.and_eq_true_iff.mp ends
      rw [of_decide_eq_true point] at found ⊢
      rw [scanOne_clauseEnd ends] at found
      cases found
      refine ⟨[], text, rfl, rfl, ?_⟩
      intro elsewhere other follows
      rcases follows with same | settles
      · exact scanOne_clauseEnd (by rw [List.nil_append, endsClause_congr same]; exact ends) _
      · exact absurd rfl settles.noEnd
  | false => exact scanOne_name_exchanged symbol ends found

theorem continues_name : Continues isNameCharacter :=
  fun _ name => .inl name

theorem scanOne_exchanged {place width : Nat} {c : Char} {text : List Char} {kind : TokenKind}
    (found : scanOne place c text = .ok (kind, width)) :
    ∃ word rest, text = word ++ rest ∧ width = word.length ∧
      ∀ elsewhere other, Exchanged rest other →
        (other.head? = rest.head? ∨ (isSymbol c = true → Settles kind other)) →
        scanOne elsewhere c (word ++ other) = .ok (kind, word.length) := by
  by_cases symbol : isSymbol c = true
  · obtain ⟨word, rest, rfl, rfl, again⟩ := scanOne_symbol_exchanged symbol found
    refine ⟨word, rest, rfl, rfl, ?_⟩
    intro elsewhere other _ follows
    exact again elsewhere other (follows.imp_right fun settles => settles symbol)
  have noPoint : ∀ text, ¬(c = '.' && endsClause text) = true := by
    intro text both
    obtain ⟨point, _⟩ := Bool.and_eq_true_iff.mp both
    rw [of_decide_eq_true point] at symbol
    exact symbol (by decide)
  simp only [scanOne] at found ⊢
  by_cases digit : Number.isDigit c = true
  · simp only [if_pos digit] at found ⊢
    obtain ⟨⟨isKind, count⟩, isNumber, done⟩ := bind_eq_ok.mp found
    cases done
    obtain ⟨word, rest, rfl, rfl, again⟩ := number_exchanged digit isNumber
    refine ⟨word, rest, rfl, Nat.add_sub_cancel_left 1 _, ?_⟩
    intro elsewhere other exchanged _
    refine bind_eq_ok.mpr ⟨_, again elsewhere other exchanged, ?_⟩
    rw [Nat.add_sub_cancel_left]
  simp only [if_neg digit] at found ⊢
  by_cases capital : (c = '_' || isUppercase c) = true
  · simp only [if_pos capital] at found ⊢
    cases found
    obtain ⟨run, rest, rfl, _, keeps⟩ := exists_kept continues_name text
    rw [keeps rest (.refl rest)]
    refine ⟨run, rest, rfl, rfl, ?_⟩
    intro elsewhere other exchanged _
    rw [keeps other exchanged]
  simp only [if_neg capital] at found ⊢
  by_cases letter : isAlphabetic c = true
  · simp only [if_pos letter] at found ⊢
    cases found
    obtain ⟨run, rest, rfl, _, keeps⟩ := exists_kept continues_name text
    rw [keeps rest (.refl rest)]
    refine ⟨run, rest, rfl, rfl, ?_⟩
    intro elsewhere other exchanged _
    rw [keeps other exchanged]
  simp only [if_neg letter] at found ⊢
  by_cases apostrophe : c = '\x27'
  · simp only [if_pos apostrophe] at found ⊢
    obtain ⟨⟨content, count⟩, isQuoted, done⟩ := bind_eq_ok.mp found
    cases done
    obtain ⟨word, rest, rfl, rfl, again⟩ :=
      quotedText_exchanged (by rw [apostrophe]; decide) isQuoted
    refine ⟨word, rest, rfl, rfl, ?_⟩
    intro elsewhere other exchanged _
    exact bind_eq_ok.mpr ⟨_, again _ _ other exchanged, rfl⟩
  simp only [if_neg apostrophe] at found ⊢
  by_cases string : (c = '\x22' || c = '\x60') = true
  · simp only [if_pos string] at found ⊢
    have isQuote : c ∈ quotes := by
      simp only [Bool.or_eq_true, decide_eq_true_eq] at string
      rcases string with double | back
      · rw [double]
        decide
      · rw [back]
        decide
    obtain ⟨⟨content, count⟩, isQuoted, done⟩ := bind_eq_ok.mp found
    cases done
    obtain ⟨word, rest, rfl, rfl, again⟩ := quotedText_exchanged isQuote isQuoted
    refine ⟨word, rest, rfl, rfl, ?_⟩
    intro elsewhere other exchanged _
    exact bind_eq_ok.mpr ⟨_, again _ _ other exchanged, rfl⟩
  simp only [if_neg string, if_neg (noPoint _), if_neg symbol] at found ⊢
  split at found
  case isTrue mark =>
    cases found
    exact ⟨[], text, rfl, rfl, fun _ _ _ _ => if_pos mark⟩
  case isFalse noMark =>
    split at found
    case isTrue solo =>
      cases found
      refine ⟨[], text, rfl, rfl, ?_⟩
      intro elsewhere other _ _
      rw [if_neg noMark, if_pos solo]
      rfl
    case isFalse => cases found

end HornQuery.Token
