import HornQuery.Proofs.Token.Endings

namespace HornQuery.Token

open Text

/-- The name that a token gives to a variable or to an atom. -/
def name? (token : Token) : Option String :=
  match token.kind with
  | .name text | .quoted text | .string text | .var text => some text
  | _ => none

/-- A name between quotes that is spelled with a backslash in it. -/
def HasEscape (token : Token) (spelled : List Char) : Prop :=
  '\\' ∈ spelled ∧ ∃ name, token.kind = .quoted name ∨ token.kind = .string name

section

variable {c quote : Char} {text content needle : List Char} {opening position width : Nat}

/-- A stretch of quoted text with no quote in it was written just as it stands, at the front or
somewhere within. -/
theorem written_of_quotedText
    (found : quotedText opening quote position text = .ok (content, width))
    (noEscape : '\\' ∉ text.take width) (noQuote : quote ∉ needle) :
    (needle <+: content → needle <+: text.take width) ∧
      (needle <:+: content → needle <:+: text.take width) := by
  fun_induction quotedText opening quote position text generalizing content width needle with
  | case1 => cases found
  | case2 | case4 =>
      cases found
      exact ⟨fun starts => List.prefix_nil.mp starts ▸ List.nil_prefix,
        fun inside => List.infix_nil.mp inside ▸ List.nil_infix⟩
  | case3 position rest induction =>
      obtain ⟨⟨inner, count⟩, isInner, done⟩ := bind_eq_ok.mp found
      cases done
      rw [List.take_succ_cons, List.take_succ_cons] at noEscape ⊢
      rw [List.mem_cons, not_or, List.mem_cons, not_or] at noEscape
      -- What starts with the quote has a quote in it.
      have first : needle <+: quote :: inner → needle = [] := by
        intro starts
        cases needle with
        | nil => rfl
        | cons d needle =>
            rw [List.cons_prefix_cons] at starts
            exact absurd (starts.1 ▸ List.mem_cons_self) noQuote
      refine ⟨fun starts => first starts ▸ List.nil_prefix, fun inside => ?_⟩
      rcases List.infix_cons_iff.mp inside with starts | deeper
      · exact first starts ▸ List.nil_infix
      · exact List.infix_cons (List.infix_cons ((induction isInner noEscape.2.2 noQuote).2 deeper))
  | case5 =>
      obtain ⟨⟨decoded?, count⟩, _, continued⟩ := bind_eq_ok.mp found
      obtain ⟨⟨inner, more⟩, _, done⟩ := bind_eq_ok.mp continued
      cases done
      rw [Nat.add_assoc, Nat.add_comm, List.take_succ_cons] at noEscape
      exact absurd List.mem_cons_self noEscape
  | case6 position c rest _ _ induction =>
      obtain ⟨⟨inner, count⟩, isInner, done⟩ := bind_eq_ok.mp found
      cases done
      rw [List.take_succ_cons] at noEscape ⊢
      rw [List.mem_cons, not_or] at noEscape
      have front : needle <+: c :: inner → needle <+: c :: rest.take count := by
        intro starts
        cases needle with
        | nil => exact List.nil_prefix
        | cons d needle =>
            rw [List.cons_prefix_cons] at starts ⊢
            rw [List.mem_cons, not_or] at noQuote
            exact ⟨starts.1, (induction isInner noEscape.2 noQuote.2).1 starts.2⟩
      refine ⟨front, fun inside => ?_⟩
      rcases List.infix_cons_iff.mp inside with starts | deeper
      · exact (front starts).isInfix
      · exact List.infix_cons ((induction isInner noEscape.2 noQuote).2 deeper)

end

/-! Tokens. -/

section

variable {place width : Nat} {c : Char} {text needle : List Char} {kind : TokenKind} {name : String}

theorem toList_of_scanOne (found : scanOne place c text = .ok (kind, width))
    (bare : kind = .var name ∨ kind = .name name) : name.toList = c :: text.take width := by
  simp only [scanOne] at found
  split at found
  case isTrue =>
    obtain ⟨⟨other, count⟩, isNumber, done⟩ := bind_eq_ok.mp found
    cases done
    rcases isNumber_number isNumber with ⟨_, rfl⟩ | ⟨_, rfl⟩ <;> rcases bare with same | same <;>
      cases same
  case isFalse =>
    -- Every branch that gives a name spells it as it stands.
    repeat' split at found
    all_goals first
      | cases found
        rcases bare with same | same <;> cases same <;>
          simp [String.toList_ofList, take_length_takeWhile]
      | obtain ⟨_, _, done⟩ := bind_eq_ok.mp found
        cases done
        rcases bare with same | same <;> cases same
      | cases found

/-- Quoted names and strings are told apart by their quotes. -/
theorem quote_of_scanOne (found : scanOne place c text = .ok (kind, width)) :
    (kind = .quoted name → c = '\x27') ∧ (kind = .string name → c = '\x22' ∨ c = '\x60') := by
  simp only [scanOne] at found
  split at found
  case isTrue =>
    obtain ⟨⟨other, count⟩, isNumber, done⟩ := bind_eq_ok.mp found
    cases done
    rcases isNumber_number isNumber with ⟨_, rfl⟩ | ⟨_, rfl⟩ <;> simp
  case isFalse =>
    split at found
    case isTrue => cases found; simp
    case isFalse =>
      split at found
      case isTrue => cases found; simp
      case isFalse =>
        split at found
        case isTrue apostrophe =>
          obtain ⟨_, _, done⟩ := bind_eq_ok.mp found
          cases done
          simp [apostrophe]
        case isFalse =>
          split at found
          case isTrue string =>
            obtain ⟨_, _, done⟩ := bind_eq_ok.mp found
            cases done
            exact ⟨by simp, fun _ => by simpa using string⟩
          case isFalse =>
            repeat' split at found
            all_goals first
              | cases found; simp
              | cases found

theorem scanOne_apostrophe (place : Nat) (text : List Char) :
    scanOne place '\x27' text = (do
      let (content, width) ← quotedText place '\x27' (place + 1) text
      .ok (.quoted (String.ofList content), width)) := by
  have noVariable : ('\x27' = '_' || isUppercase '\x27') = false := by decide +kernel
  have noLetter : isAlphabetic '\x27' = false := by decide +kernel
  simp only [scanOne, show Number.isDigit '\x27' = false from rfl, noVariable, noLetter,
    Bool.false_eq_true, if_false, if_true]

theorem scanOne_string (string : c = '\x22' ∨ c = '\x60') (place : Nat) (text : List Char) :
    scanOne place c text = (do
      let (content, width) ← quotedText place c (place + 1) text
      .ok (.string (String.ofList content), width)) := by
  have apart : ∀ c ∈ ['\x22', '\x60'], Number.isDigit c = false ∧
      (c = '_' || isUppercase c) = false ∧ isAlphabetic c = false ∧ c ≠ '\x27' ∧
      (c = '\x22' || c = '\x60') = true :=
    forall_mem_of_all (by decide +kernel)
  obtain ⟨noDigit, noVariable, noLetter, noApostrophe, isString⟩ := apart c (by simpa using string)
  simp only [scanOne, noDigit, noVariable, noLetter, if_neg noApostrophe, isString,
    Bool.false_eq_true, if_false, if_true]

theorem quotedText_of_scanOne (found : scanOne place c text = .ok (kind, width))
    (quoted : kind = .quoted name ∨ kind = .string name) :
    (c = '\x27' ∨ c = '\x22' ∨ c = '\x60') ∧
      quotedText place c (place + 1) text = .ok (name.toList, width) := by
  rcases quoted with rfl | rfl
  · obtain rfl := (quote_of_scanOne found).1 rfl
    rw [scanOne_apostrophe] at found
    obtain ⟨⟨content, count⟩, isQuoted, done⟩ := bind_eq_ok.mp found
    cases done
    exact ⟨.inl rfl, by rwa [String.toList_ofList]⟩
  · have string := (quote_of_scanOne found).2 rfl
    rw [scanOne_string string] at found
    obtain ⟨⟨content, count⟩, isQuoted, done⟩ := bind_eq_ok.mp found
    cases done
    exact ⟨.inr string, by rwa [String.toList_ofList]⟩

/-- What a token is spelled as: the stretch of the text from its first byte to its last. -/
def Covers (token : Token) (text spelled : List Char) : Prop :=
  ∃ before after, text = before ++ (spelled ++ after) ∧ token.start = byteLength before ∧
    token.stop = byteLength (before ++ spelled)

theorem Covers.isInfix {token : Token} {spelled : List Char} (covers : token.Covers text spelled) :
    spelled <:+: text := by
  obtain ⟨before, after, rfl, _⟩ := covers
  exact ⟨before, after, List.append_assoc _ _ _⟩

theorem exists_lexeme_of_mem {tokens : List Token} {token : Token}
    (scanned : scan text = .ok tokens) (member : token ∈ tokens) :
    ∃ before c word rest, text = before ++ (c :: word ++ rest) ∧ token.start = byteLength before ∧
      token.stop = byteLength (before ++ c :: word) ∧ Lexeme c word rest token.kind := by
  obtain ⟨former, latter, rfl⟩ := List.append_of_mem member
  obtain ⟨body, later, rfl, scannedLater, _⟩ := exists_split scanned
  obtain ⟨gap, c, word, rest, rfl, skips, lexeme, _, starts, _⟩ := exists_lexeme scannedLater
  have stops := lexeme.stop_eq skips scannedLater
  refine ⟨body ++ gap, c, word, rest, by simp, ?_, ?_, lexeme⟩
  · rw [starts, byteLength_append, Nat.zero_add]
  · rw [stops, List.append_assoc, byteLength_append body, Nat.zero_add]

/-- Whatever occurs in the name of a token occurs in what the token is spelled as, unless a quote
or an escape comes in between. -/
theorem exists_spelled {tokens : List Token} {token : Token} (scanned : scan text = .ok tokens)
    (member : token ∈ tokens) :
    ∃ spelled, token.Covers text spelled ∧
      ∀ name needle, token.name? = some name →
        (∀ quote, quote = '\x27' ∨ quote = '\x22' ∨ quote = '\x60' → quote ∉ needle) →
        needle <:+: name.toList → needle <:+: spelled ∨ token.HasEscape spelled := by
  obtain ⟨before, c, word, rest, whole, starts, stops, lexeme⟩ :=
    exists_lexeme_of_mem scanned member
  have found := lexeme.found 0 rest (.refl rest) (.inl rfl)
  refine ⟨c :: word, ⟨before, rest, whole, starts, stops⟩, ?_⟩
  intro name needle named noQuote inside
  have bare : token.kind = .var name ∨ token.kind = .name name →
      needle <:+: c :: word ∨ token.HasEscape (c :: word) := by
    intro bare
    rw [toList_of_scanOne found bare, List.take_left] at inside
    exact .inl inside
  have quoted : token.kind = .quoted name ∨ token.kind = .string name →
      needle <:+: c :: word ∨ token.HasEscape (c :: word) := by
    intro quoted
    by_cases escaped : '\\' ∈ word
    · exact .inr ⟨List.mem_cons_of_mem c escaped, name, quoted⟩
    obtain ⟨isQuote, content⟩ := quotedText_of_scanOne found quoted
    have written := (written_of_quotedText content (List.take_left.symm ▸ escaped)
      (noQuote c isQuote)).2 inside
    rw [List.take_left] at written
    exact .inl (List.infix_cons written)
  rw [name?.eq_def] at named
  split at named
  case h_1 text isName =>
    cases named
    exact bare (.inr isName)
  case h_2 text isQuoted =>
    cases named
    exact quoted (.inl isQuoted)
  case h_3 text isString =>
    cases named
    exact quoted (.inr isString)
  case h_4 text isVar =>
    cases named
    exact bare (.inl isVar)
  case h_5 => cases named

end

end HornQuery.Token
