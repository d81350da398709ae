import HornQuery.Proofs.Token.Scanning
import HornQuery.Term.Writer

namespace HornQuery.Token

open Text

/-- The names that scanning takes for variables: an underscore or a capital, then characters
of names. -/
def IsVariableName (name : String) : Prop :=
  ∃ first rest, name.toList = first :: rest ∧ (first = '_' ∨ isUppercase first = true) ∧
    ∀ c ∈ rest, isNameCharacter c = true

theorem isNameCharacter_of_mem_enders : ∀ c ∈ enders, isNameCharacter c = false :=
  forall_mem_of_all (by decide)

theorem Ended.noNameCharacter {text : List Char} (ended : Ended text) :
    ∀ c ∈ text.head?, isNameCharacter c = false :=
  fun c found => isNameCharacter_of_mem_enders c (ended c found)

section

variable {name : String} {first : Char} {more rest : List Char}

theorem ofList_eq (text : name.toList = first :: more) : String.ofList (first :: more) = name := by
  rw [← text, String.ofList_toList]

theorem scans_variable (spelled : IsVariableName name) (ended : Ended rest) :
    Scans name.toList rest (IsToken (.var name)) := by
  obtain ⟨first, more, text, starts, continues⟩ := spelled
  have letter : 0x41 ≤ first.toNat := by
    rcases starts with underscore | capital
    · subst underscore
      decide
    · exact le_toNat_of_isUppercase capital
  have visible : isBlank first = false := by
    rcases starts with underscore | capital
    · subst underscore
      decide
    · exact isBlank_of_isAlphabetic (isAlphabetic_of_isUppercase capital)
  have run := takeWhile_append_of_stops continues ended.noNameCharacter
  rw [text]
  apply Scans.one
  · intro position
    exact layoutLength_of_le_toNat letter visible position (more ++ rest)
  · intro position
    simp [scanOne, isDigit_of_le_toNat letter, starts, run, ← ofList_eq text]

theorem scans_word (text : name.toList = first :: more) (small : isLowercase first = true)
    (continues : ∀ c ∈ more, isNameCharacter c = true)
    (stops : ∀ c ∈ rest.head?, isNameCharacter c = false) :
    Scans name.toList rest (IsToken (.name name)) := by
  have letter := le_toNat_of_isAlphabetic (isAlphabetic_of_isLowercase small)
  have noUnderscore : first ≠ '_' := by
    intro same
    subst same
    exact absurd small (by decide)
  have run := takeWhile_append_of_stops continues stops
  rw [text]
  apply Scans.one
  · intro position
    exact layoutLength_of_le_toNat letter
      (isBlank_of_isAlphabetic (isAlphabetic_of_isLowercase small)) position (more ++ rest)
  · intro position
    simp [scanOne, isDigit_of_le_toNat letter, noUnderscore, isUppercase_of_isLowercase small,
      isAlphabetic_of_isLowercase small, run, ← ofList_eq text]

theorem visible_of_isSymbol {c : Char} (symbol : isSymbol c = true) :
    isBlank c = false ∧ c ≠ '%' := by
  have all : ∀ c ∈ symbolCharacters, isBlank c = false ∧ c ≠ '%' :=
    forall_mem_of_all (by decide)
  exact all c (List.contains_iff_mem.mp symbol)

theorem scanOne_symbol (position : Nat) {c : Char} {text : List Char} (symbol : isSymbol c = true)
    (noEnd : (c = '.' && endsClause text) = false) :
    scanOne position c text =
      .ok (.name (String.ofList (c :: text.takeWhile isSymbol)),
        (text.takeWhile isSymbol).length) := by
  have earlier : ∀ c ∈ symbolCharacters, Number.isDigit c = false ∧
      (c = '_' || isUppercase c) = false ∧ isAlphabetic c = false ∧ c ≠ '\x27' ∧
      (c = '\x22' || c = '\x60') = false ∧ marks.contains c = false ∧
      (c = '!' || c = ';') = false :=
    forall_mem_of_all (by decide)
  obtain ⟨noDigit, noVariable, noLetter, noQuote, noString, noMark, noSolo⟩ :=
    earlier c (List.contains_iff_mem.mp symbol)
  rw [scanOne, noDigit, noVariable, noLetter, noString, noMark, noSolo, noEnd, symbol]
  simp [noQuote]

theorem scans_symbols (text : name.toList = first :: more)
    (symbols : ∀ c ∈ first :: more, isSymbol c = true) (noPoint : name ≠ ".")
    (noComment : ¬(first = '/' ∧ more.head? = some '*'))
    (stops : ∀ c ∈ rest.head?, isSymbol c = false) :
    Scans name.toList rest (IsToken (.name name)) := by
  have symbol := symbols first List.mem_cons_self
  have continues : ∀ c ∈ more, isSymbol c = true := fun c member =>
    symbols c (List.mem_cons_of_mem _ member)
  have run := takeWhile_append_of_stops continues stops
  rw [text]
  apply Scans.one
  · intro position
    obtain ⟨visible, noComment⟩ := visible_of_isSymbol symbol
    apply layoutLength_eq_zero position visible noComment
    intro opening
    cases more with
    | nil =>
        have star := stops '*' opening.2
        exact absurd star (by decide)
    | cons second others => exact noComment opening
  · intro position
    rw [scanOne_symbol position symbol, run, ofList_eq text]
    cases more with
    | nil =>
        have other : first ≠ '.' := by
          intro same
          subst same
          exact noPoint (String.toList_inj.mp text)
        simp [other]
    | cons second others =>
        have visible := visible_of_isSymbol (continues second List.mem_cons_self)
        simp [endsClause, visible]

theorem scans_solo {c : Char} (solo : c = '!' ∨ c = ';') (rest : List Char) :
    Scans [c] rest (IsToken (.name (String.ofList [c]))) := by
  have earlier : ∀ c ∈ ['!', ';'], isBlank c = false ∧ c ≠ '%' ∧ c ≠ '/' ∧
      Number.isDigit c = false ∧ (c = '_' || isUppercase c) = false ∧ isAlphabetic c = false ∧
      c ≠ '\x27' ∧ (c = '\x22' || c = '\x60') = false ∧ marks.contains c = false :=
    forall_mem_of_all (by decide)
  obtain ⟨noBlank, noComment, noSlash, noDigit, noVariable, noLetter, noQuote, noString, noMark⟩ :=
    earlier c (by simp [solo])
  apply Scans.one
  · intro position
    exact layoutLength_eq_zero position noBlank noComment (fun opening => noSlash opening.1)
  · intro position
    rw [scanOne, noDigit, noVariable, noLetter, noString, noMark]
    simp [noQuote, solo]

theorem scans_bareName (bare : Term.needsQuotes name = false) (noList : name ≠ "[]")
    (noBraces : name ≠ "\x7b\x7d") (parted : Parted name.toList rest) :
    Scans name.toList rest (IsToken (.name name)) := by
  unfold Term.needsQuotes at bare
  split at bare
  case isTrue listed =>
    have solo : name = "!" ∨ name = ";" := by
      simpa [Term.bareNames, noList, noBraces] using listed
    rcases solo with same | same
    · subst same
      exact scans_solo (Or.inl rfl) rest
    · subst same
      exact scans_solo (Or.inr rfl) rest
  case isFalse =>
    split at bare
    case h_1 => contradiction
    case h_2 first more text =>
      split at bare
      case isTrue small =>
        have continues : ∀ c ∈ more, isNameCharacter c = true := by
          simpa [List.all_eq_true] using bare
        exact scans_word text small continues parted.ended.noNameCharacter
      case isFalse =>
        split at bare
        case isTrue symbol =>
          simp only [Bool.or_eq_false_iff, Bool.not_eq_false', List.all_eq_true,
            decide_eq_false_iff_not, Bool.and_eq_false_imp, decide_eq_true_eq] at bare
          obtain ⟨⟨symbols, noPoint⟩, noComment⟩ := bare
          have nonempty := List.cons_ne_nil first more
          have last : (first :: more).getLast nonempty ∈ name.toList.getLast? := by
            rw [text]
            exact List.getLast?_eq_some_getLast nonempty
          have stops := parted.noSymbol ⟨_, last, symbols _ (List.getLast_mem nonempty)⟩
          exact scans_symbols text symbols noPoint (fun opening => noComment opening.1 opening.2)
            stops
        case isFalse => contradiction

end

/-! Quoted names. -/

theorem hexadecimal_of_mem_range : ∀ code ∈ List.range 0xa0,
    (hexadecimal code).all isHexDigit = true ∧ (hexadecimal code).isEmpty = false ∧
      ofRadix 16 (hexadecimal code) = code :=
  forall_mem_of_all (by decide +kernel)

theorem lt_of_isControl {c : Char} (control : isControl c = true) : c.toNat < 0xa0 := by
  simp only [isControl, Bool.or_eq_true, Bool.and_eq_true, decide_eq_true_eq] at control
  omega

theorem escape_control {c : Char} (control : isControl c = true) (position : Nat)
    (rest : List Char) :
    escape position ('x' :: (hexadecimal c.toNat ++ '\\' :: rest)) =
      .ok (some c, 1 + (hexadecimal c.toNat).length + 1) := by
  have small := lt_of_isControl control
  obtain ⟨digits, some, value⟩ := hexadecimal_of_mem_range c.toNat (List.mem_range.mpr small)
  have run : (hexadecimal c.toNat ++ '\\' :: rest).takeWhile isHexDigit =
      hexadecimal c.toNat := by
    rw [List.takeWhile_append_of_pos (List.all_eq_true.mp digits),
      List.takeWhile_cons_of_neg (by decide), List.append_nil]
  have inRange : ¬UInt32.size ≤ c.toNat := by
    have : UInt32.size = 4294967296 := rfl
    omega
  have decoded : character c.toNat = fun _ => .ok c := by
    funext position
    rw [character, if_pos (show c.toNat.isValidChar from c.valid), Char.ofNat_toNat]
  simp [escape, letterEscape?, run, some, value, inRange, decoded, closing, bind, Except.bind]

theorem quotedText_escape {c : Char} {escaped tail : List Char} (opening position : Nat)
    (decodes : ∀ position, escape position (escaped ++ tail) = .ok (some c, escaped.length)) :
    ∃ next, quotedText opening '\x27' position ('\\' :: (escaped ++ tail)) =
      (quotedText opening '\x27' next tail).map fun (content, taken) =>
        (c :: content, 1 + escaped.length + taken) := by
  refine ⟨position + '\\'.utf8Size + byteLength escaped, ?_⟩
  rw [quotedText.eq_def]
  simp only [if_true]
  rw [if_neg (by decide), decodes]
  simp only [bind, Except.bind, List.take_left', List.drop_left']
  cases quotedText opening '\x27' _ tail <;> rfl

theorem quotedText_plain {c : Char} (tail : List Char) (opening position : Nat)
    (noQuote : c ≠ '\x27') (noBackslash : c ≠ '\\') :
    ∃ next, quotedText opening '\x27' position (c :: tail) =
      (quotedText opening '\x27' next tail).map fun (content, taken) =>
        (c :: content, taken + 1) := by
  refine ⟨position + c.utf8Size, ?_⟩
  rw [quotedText.eq_def]
  simp only
  rw [if_neg noQuote, if_neg noBackslash]
  simp only [bind, Except.bind]
  cases quotedText opening '\x27' _ tail <;> rfl

theorem quotedText_escapeCharacter (c : Char) (tail : List Char) (opening position : Nat) :
    ∃ next, quotedText opening '\x27' position (Term.escapeCharacter c ++ tail) =
      (quotedText opening '\x27' next tail).map fun (content, taken) =>
        (c :: content, (Term.escapeCharacter c).length + taken) := by
  have letter : ∀ {name decoded : Char}, letterEscape? name = some decoded →
      ∀ position, escape position ([name] ++ tail) = .ok (some decoded, [name].length) := by
    intro name decoded found position
    simp [escape, found]
  unfold Term.escapeCharacter
  split
  case isTrue same =>
    subst same
    exact quotedText_escape opening position (letter rfl)
  split
  case isTrue same =>
    subst same
    exact quotedText_escape opening position (letter rfl)
  split
  case isTrue same =>
    subst same
    exact quotedText_escape opening position (letter rfl)
  split
  case isTrue same =>
    subst same
    exact quotedText_escape opening position (letter rfl)
  split
  case isTrue same =>
    subst same
    exact quotedText_escape opening position (letter rfl)
  split
  case isTrue control =>
    have decodes : ∀ position, escape position (('x' :: (hexadecimal c.toNat ++ ['\\'])) ++ tail) =
        .ok (some c, ('x' :: (hexadecimal c.toNat ++ ['\\'])).length) := by
      intro position
      simpa [Nat.add_comm] using escape_control control position tail
    simpa [Nat.add_comm] using quotedText_escape opening position decodes
  case isFalse noQuote noBackslash _ _ _ _ =>
    simpa [Nat.add_comm] using quotedText_plain tail opening position noQuote noBackslash

theorem quotedText_flatMap (opening : Nat) {content rest : List Char}
    (ended : Ended rest) (position : Nat) :
    quotedText opening '\x27' position (content.flatMap Term.escapeCharacter ++ '\x27' :: rest) =
      .ok (content, (content.flatMap Term.escapeCharacter).length + 1) := by
  induction content generalizing position with
  | nil =>
      rw [List.flatMap_nil, List.nil_append, quotedText.eq_def]
      simp only [if_true]
      cases rest with
      | nil => rfl
      | cons next more =>
          -- A second apostrophe would stand for one in the text.
          have other : next ≠ '\x27' := by
            intro same
            exact absurd (ended next rfl) (by rw [same]; decide)
          simp [other]
  | cons c content induction =>
      obtain ⟨next, step⟩ := quotedText_escapeCharacter c
        (content.flatMap Term.escapeCharacter ++ '\x27' :: rest) opening position
      rw [List.flatMap_cons, List.append_assoc, step, induction next]
      simp [Except.map, Nat.add_assoc]

theorem scans_quoteName {rest : List Char} (name : String) (ended : Ended rest) :
    Scans (Term.quoteName name) rest (IsToken (.quoted name)) := by
  apply Scans.one
  · intro position
    exact layoutLength_eq_zero position (by decide) (by decide)
      (fun opening => absurd opening.1 (by decide))
  · intro position
    have noDigit : Number.isDigit '\x27' = false := by decide
    have noVariable : isUppercase '\x27' = false := by decide
    have noLetter : isAlphabetic '\x27' = false := by decide
    have inside := @quotedText_flatMap position name.toList rest ended
    simp [scanOne, noDigit, noVariable, noLetter, inside, bind, Except.bind]

end HornQuery.Token
