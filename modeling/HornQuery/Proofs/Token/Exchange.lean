import HornQuery.Proofs.Token.Names

namespace HornQuery.Token

open Text

def quotes : List Char := ['\x27', '\x22', '\x60']

/-- A text that goes on with no token in front of it, unless that is spelled with symbols and the
text is a point that ends a clause. -/
structure Breaks (text : List Char) : Prop where
  noName : ∀ c ∈ text.head?, isNameCharacter c = false
  noQuote : ∀ c ∈ text.head?, c ∉ quotes
  noSymbol : ∀ c ∈ text.head?, isSymbol c = true → c = '.' ∧ endsClause text.tail = true

/-- A text after some characters of which another text begins, one that breaks. The end of a text is
not exchanged: a shortened character code would take in what comes after it. -/
inductive Exchanged : List Char → List Char → Prop
  | nil : Exchanged [] []
  | breaks {c : Char} {rest other : List Char} (stops : Breaks other) : Exchanged (c :: rest) other
  | cons (c : Char) {rest other : List Char} (later : Exchanged rest other) :
      Exchanged (c :: rest) (c :: other)

/-- Characters of which none begins a text that breaks. -/
def Continues (p : Char → Bool) : Prop :=
  ∀ c, p c = true → isNameCharacter c = true ∨ c ∈ quotes ∨ isSymbol c = true ∧ c ≠ '.'

section

variable {p : Char → Bool} {text rest other : List Char}

theorem Breaks.stops (breaks : Breaks text) (continues : Continues p) :
    ∀ c ∈ text.head?, p c = false := by
  intro c found
  rw [← Bool.not_eq_true]
  intro holds
  rcases continues c holds with name | quote | symbol
  · rw [breaks.noName c found] at name
    cases name
  · exact breaks.noQuote c found quote
  · exact symbol.2 (breaks.noSymbol c found symbol.1).1

theorem Exchanged.stops (exchanged : Exchanged rest other) (continues : Continues p)
    (stops : ∀ c ∈ rest.head?, p c = false) : ∀ c ∈ other.head?, p c = false := by
  cases exchanged with
  | nil => exact stops
  | breaks breaks => exact breaks.stops continues
  | cons c later => exact stops

theorem Exchanged.head?_ne {mark : Char} (exchanged : Exchanged rest other)
    (continues : Continues (· = mark)) (absent : rest.head? ≠ some mark) :
    other.head? ≠ some mark := by
  intro found
  have stops : ∀ c ∈ rest.head?, decide (c = mark) = false := by
    intro c first
    exact decide_eq_false fun same => absent (same ▸ first)
  exact of_decide_eq_false (exchanged.stops continues stops mark found) rfl

theorem Exchanged.refl (text : List Char) : Exchanged text text := by
  induction text with
  | nil => exact .nil
  | cons c text induction => exact .cons c induction

theorem Exchanged.append (common : List Char) (exchanged : Exchanged rest other) :
    Exchanged (common ++ rest) (common ++ other) := by
  induction common with
  | nil => exact exchanged
  | cons c common induction => exact .cons c induction

/-- Either the first part is kept, or the other text breaks off within it. -/
theorem Exchanged.split {first : List Char} (exchanged : Exchanged (first ++ rest) other) :
    (∃ later, other = first ++ later ∧ Exchanged rest later) ∨
      ∃ kept lost later, first = kept ++ lost ∧ other = kept ++ later ∧ Breaks later := by
  induction first generalizing other with
  | nil => exact .inl ⟨other, rfl, exchanged⟩
  | cons c first induction =>
      cases exchanged with
      | breaks breaks => exact .inr ⟨[], c :: first, other, rfl, rfl, breaks⟩
      | cons _ later =>
          rcases induction later with ⟨last, rfl, kept⟩ | ⟨kept, lost, last, rfl, rfl, breaks⟩
          · exact .inl ⟨last, rfl, kept⟩
          · exact .inr ⟨c :: kept, lost, last, rfl, rfl, breaks⟩

theorem utf8Size_of_isHexDigit {c : Char} (digit : isHexDigit c = true) : c.utf8Size = 1 := by
  rw [Char.utf8Size_eq_one_iff]
  simp only [isHexDigit, Number.isDigit, Bool.or_eq_true, Bool.and_eq_true,
    decide_eq_true_eq] at digit
  have last : ∀ d : Char, c ≤ d → d.val ≤ 127 → c.val ≤ 127 := fun _ => UInt32.le_trans
  rcases digit with (figure | small) | capital
  · exact last '9' figure.2 (by decide)
  · exact last 'f' small.2 (by decide)
  · exact last 'F' capital.2 (by decide)

theorem isNameCharacter_of_isHexDigit {c : Char} (digit : isHexDigit c = true) :
    isNameCharacter c = true := by
  have figures : (0x30, 0x39) ∈ numericCodes := by decide
  have capitals : (0x41, 0x5a) ∈ alphabeticCodes := by decide
  have letters : (0x61, 0x7a) ∈ alphabeticCodes := by decide
  have between : ∀ low high : Char, low ≤ c ∧ c ≤ high →
      low.toNat ≤ c.toNat ∧ c.toNat ≤ high.toNat :=
    fun _ _ within => within
  simp only [isHexDigit, Number.isDigit, Bool.or_eq_true, Bool.and_eq_true,
    decide_eq_true_eq] at digit
  simp only [isNameCharacter, isAlphanumeric, isAlphabetic, isNumeric, Bool.or_eq_true]
  rw [CodePoints.has_iff ascending_alphabeticCodes, CodePoints.has_iff ascending_numericCodes]
  rcases digit with (figure | small) | capital
  · have := between _ _ figure
    exact .inl (.inr ⟨_, figures, this⟩)
  · have := between _ _ small
    have low : 'a'.toNat = 0x61 := rfl
    have high : 'f'.toNat = 0x66 := rfl
    exact .inl (.inl ⟨_, letters, by omega, by omega⟩)
  · have := between _ _ capital
    have low : 'A'.toNat = 0x41 := rfl
    have high : 'F'.toNat = 0x46 := rfl
    exact .inl (.inl ⟨_, capitals, by omega, by omega⟩)

end

theorem exists_run (p : Char → Bool) (text : List Char) :
    ∃ run rest, text = run ++ rest ∧ (∀ c ∈ run, p c = true) ∧ ∀ c ∈ rest.head?, p c = false := by
  refine ⟨text.takeWhile p, text.dropWhile p, List.takeWhile_append_dropWhile.symm, ?_, ?_⟩
  · exact fun c member => List.mem_takeWhile_imp member
  · intro c found
    have stopped := List.head?_dropWhile_not p text
    rw [found] at stopped
    simpa using stopped

/-- A run of characters does not go on where what follows it is exchanged. -/
theorem exists_kept {p : Char → Bool} (continues : Continues p) (text : List Char) :
    ∃ run rest, text = run ++ rest ∧ (∀ c ∈ run, p c = true) ∧
      ∀ other, Exchanged rest other → (run ++ other).takeWhile p = run := by
  obtain ⟨run, rest, same, all, stops⟩ := exists_run p text
  refine ⟨run, rest, same, all, ?_⟩
  intro other exchanged
  exact takeWhile_append_of_stops all (exchanged.stops continues stops)

/-- What a scanner finds at the start of a text it finds again wherever what follows is exchanged.
The width counts some characters before the text as well. -/
def FindsAgain {π β : Type} (scanner : π → List Char → β) (text : List Char) (result : β)
    (before width : Nat) : Prop :=
  ∃ word rest, text = word ++ rest ∧ width = before + word.length ∧
    ∀ elsewhere other, Exchanged rest other → scanner elsewhere (word ++ other) = result

/-! Escape sequences. -/

theorem isHexDigit_of_isDigit {c : Char} (digit : Number.isDigit c = true) :
    isHexDigit c = true := by
  rw [isHexDigit, digit, Bool.true_or, Bool.true_or]

theorem continues_hexDigit : Continues isHexDigit :=
  fun _ digit => .inl (isNameCharacter_of_isHexDigit digit)

theorem isHexDigit_of_isOctalDigit {c : Char} (digit : isOctalDigit c = true) :
    isHexDigit c = true := by
  simp only [isOctalDigit, isHexDigit, Number.isDigit, Bool.and_eq_true, Bool.or_eq_true,
    decide_eq_true_eq] at digit ⊢
  exact .inl (.inl ⟨digit.1, Nat.le_trans digit.2 (by decide)⟩)

theorem continues_octalDigit : Continues isOctalDigit :=
  fun c digit => continues_hexDigit c (isHexDigit_of_isOctalDigit digit)

theorem continues_backslash : Continues (· = '\\') := by
  intro c same
  rw [decide_eq_true_eq] at same
  subst same
  exact .inr (.inr (by decide))

theorem exists_closed {p : Char → Bool} (continues : Continues p) (apart : p '\\' = false)
    (text : List Char) :
    ∃ digits close rest, text = digits ++ (close ++ rest) ∧
      ∀ other, Exchanged rest other → (digits ++ (close ++ other)).takeWhile p = digits ∧
        closing (close ++ other) = close.length := by
  obtain ⟨digits, after, rfl, all, stops⟩ := exists_run p text
  by_cases closed : after.head? = some '\\'
  · obtain ⟨rest, rfl⟩ := List.head?_eq_some_iff.mp closed
    refine ⟨digits, ['\\'], rest, rfl, ?_⟩
    intro other _
    refine ⟨takeWhile_append_of_stops all ?_, rfl⟩
    intro c found
    cases found
    exact apart
  · refine ⟨digits, [], after, rfl, ?_⟩
    intro other exchanged
    exact ⟨takeWhile_append_of_stops all (exchanged.stops continues stops),
      if_neg (exchanged.head?_ne continues_backslash closed)⟩

theorem character_of_ok {code place elsewhere : Nat} {c : Char}
    (found : character code place = .ok c) : character code elsewhere = .ok c := by
  unfold character at found ⊢
  split at found
  case isTrue valid => rwa [if_pos valid]
  case isFalse => cases found

theorem window?_byteLength (digits rest : List Char) :
    window? (byteLength digits) (digits ++ rest) = some digits := by
  induction digits with
  | nil => rw [byteLength_nil, window?]
  | cons c digits induction =>
      have positive := c.utf8Size_pos
      obtain ⟨bytes, same⟩ : ∃ bytes, byteLength (c :: digits) = bytes + 1 :=
        ⟨byteLength (c :: digits) - 1, by rw [byteLength_cons]; omega⟩
      have left : bytes + 1 - c.utf8Size = byteLength digits := by
        rw [← same, byteLength_cons, Nat.add_sub_cancel_left]
      have fits : c.utf8Size ≤ bytes + 1 := by
        rw [← same, byteLength_cons]
        exact Nat.le_add_right _ _
      rw [same, List.cons_append, window?, if_pos fits, left, induction, Option.map_some]

theorem window?_of_byteLength_le {bytes : Nat} {text : List Char}
    (short : byteLength text ≤ bytes) : window? bytes text = some text := by
  fun_induction window? bytes text with
  | case1 text =>
      cases text with
      | nil => rfl
      | cons c rest =>
          have positive := c.utf8Size_pos
          rw [byteLength_cons] at short
          omega
  | case2 => rfl
  | case3 bytes c rest fits induction =>
      rw [byteLength_cons] at short
      rw [induction (Nat.le_sub_of_add_le' short), Option.map_some]
  | case4 bytes c rest wide =>
      rw [byteLength_cons] at short
      exact absurd (Nat.le_of_add_right_le short) wide

theorem window?_eq_some_iff {bytes : Nat} {text digits : List Char} :
    window? bytes text = some digits ↔ ∃ rest, text = digits ++ rest ∧
      (byteLength digits = bytes ∨ byteLength digits < bytes ∧ rest = []) := by
  constructor
  · intro found
    fun_induction window? bytes text generalizing digits with
    | case1 text =>
        cases found
        exact ⟨text, rfl, .inl rfl⟩
    | case2 =>
        cases found
        exact ⟨[], rfl, .inr ⟨Nat.succ_pos _, rfl⟩⟩
    | case3 bytes c rest fits induction =>
        obtain ⟨others, foundOthers, rfl⟩ := Option.map_eq_some_iff.mp found
        obtain ⟨after, rfl, whole⟩ := induction foundOthers
        refine ⟨after, rfl, whole.imp ?_ (And.imp_left ?_)⟩ <;>
        · rw [byteLength_cons]
          omega
    | case4 => cases found
  · rintro ⟨rest, rfl, rfl | ⟨short, rfl⟩⟩
    · exact window?_byteLength digits rest
    · rw [List.append_nil]
      exact window?_of_byteLength_le (Nat.le_of_lt short)

theorem decoded_again {code place count width : Nat} {value : Option Char}
    (found : (do
      let decoded ← character code place
      Except.ok (some decoded, count)) = .ok (value, width)) :
    width = count ∧ ∀ elsewhere, (do
      let decoded ← character code elsewhere
      Except.ok (some decoded, count)) = .ok (value, count) := by
  obtain ⟨decoded, isCharacter, done⟩ := bind_eq_ok.mp found
  cases done
  exact ⟨rfl, fun elsewhere => bind_eq_ok.mpr ⟨decoded, character_of_ok isCharacter, rfl⟩⟩

section

variable {place width : Nat} {c : Char} {text : List Char} {value : Option Char}

section

variable (letter : letterEscape? c = none) (lineEnd : c ≠ '\n')
include letter lineEnd

theorem hexEscape_exchanged (isHex : c = 'x')
    (found : escape place (c :: text) = .ok (value, width)) :
    FindsAgain (fun place text => escape place (c :: text)) text (.ok (value, width)) 1 width := by
  simp only [FindsAgain, escape, letter, if_neg lineEnd, if_pos isHex] at found ⊢
  obtain ⟨digits, close, after, rfl, run⟩ := exists_closed continues_hexDigit (by decide) text
  have here := run after (.refl after)
  rw [here.1, List.drop_left, here.2] at found
  split at found
  case isTrue => cases found
  case isFalse proper =>
    obtain ⟨rfl, again⟩ := decoded_again found
    refine ⟨digits ++ close, after, by simp, by simp; omega, ?_⟩
    intro elsewhere other exchanged
    have there := run other exchanged
    rw [List.append_assoc, there.1, List.drop_left, there.2, if_neg proper, again]

theorem unicodeEscape_exchanged (noHex : c ≠ 'x')
    (isUnicode : (decide (c = 'u') || decide (c = 'U')) = true)
    (found : escape place (c :: text) = .ok (value, width)) :
    FindsAgain (fun place text => escape place (c :: text)) text (.ok (value, width)) 1 width := by
  simp only [FindsAgain, escape, letter, if_neg lineEnd, if_neg noHex,
    if_pos isUnicode] at found ⊢
  split at found
  case h_1 => cases found
  case h_2 digits window =>
    split at found
    case h_1 => cases found
    case h_2 code number =>
      obtain ⟨rfl, again⟩ := decoded_again found
      obtain ⟨after, rfl, whole⟩ := window?_eq_some_iff.mp window
      refine ⟨digits, after, rfl, rfl, ?_⟩
      intro elsewhere other exchanged
      have same : window? (if c = 'u' then 4 else 8) (digits ++ other) = some digits := by
        rcases whole with full | ⟨_, rfl⟩
        · rw [← full]
          exact window?_byteLength digits other
        · cases exchanged
          exact window
      simp only [same, number]
      exact again _

theorem octalEscape_exchanged (noHex : c ≠ 'x')
    (noUnicode : ¬(decide (c = 'u') || decide (c = 'U')) = true) (isOctal : isOctalDigit c = true)
    (found : escape place (c :: text) = .ok (value, width)) :
    FindsAgain (fun place text => escape place (c :: text)) text (.ok (value, width)) 1 width := by
  simp only [FindsAgain, escape, letter, if_neg lineEnd, if_neg noHex, if_neg noUnicode,
    if_pos isOctal] at found ⊢
  obtain ⟨digits, close, after, rfl, run⟩ := exists_closed continues_octalDigit (by decide) text
  have here := run after (.refl after)
  rw [here.1, List.drop_left, here.2] at found
  obtain ⟨rfl, again⟩ := decoded_again found
  refine ⟨digits ++ close, after, by simp, by simp; omega, ?_⟩
  intro elsewhere other exchanged
  have there := run other exchanged
  rw [List.append_assoc, there.1, List.drop_left, there.2, again]

end

theorem escape_exchanged (found : escape place (c :: text) = .ok (value, width)) :
    FindsAgain (fun place text => escape place (c :: text)) text (.ok (value, width)) 1 width := by
  cases letter : letterEscape? c with
  | some char =>
      simp only [FindsAgain, escape, letter] at found ⊢
      cases found
      exact ⟨[], text, rfl, rfl, fun _ _ _ => rfl⟩
  | none =>
      by_cases lineEnd : c = '\n'
      · simp only [FindsAgain, escape, letter, if_pos lineEnd] at found ⊢
        cases found
        exact ⟨[], text, rfl, rfl, fun _ _ _ => rfl⟩
      by_cases isHex : c = 'x'
      · exact hexEscape_exchanged letter lineEnd isHex found
      by_cases isUnicode : (decide (c = 'u') || decide (c = 'U')) = true
      · exact unicodeEscape_exchanged letter lineEnd isHex isUnicode found
      by_cases isOctal : isOctalDigit c = true
      · exact octalEscape_exchanged letter lineEnd isHex isUnicode isOctal found
      · simp only [escape, letter, if_neg lineEnd, if_neg isHex, if_neg isUnicode,
          if_neg isOctal] at found
        cases found

end

/-! Quoted text. -/

theorem continues_quote {quote : Char} (isQuote : quote ∈ quotes) : Continues (· = quote) := by
  intro c same
  rw [decide_eq_true_eq] at same
  exact .inr (.inl (same ▸ isQuote))

theorem quotedText_exchanged {quote : Char} {opening position taken : Nat}
    {text content : List Char} (isQuote : quote ∈ quotes)
    (found : quotedText opening quote position text = .ok (content, taken)) :
    ∃ word rest, text = word ++ rest ∧ taken = word.length ∧
      ∀ start place other, Exchanged rest other →
        quotedText start quote place (word ++ other) = .ok (content, taken) := by
  fun_induction quotedText opening quote position text generalizing content taken with
  | case1 => cases found
  | case2 position =>
      cases found
      refine ⟨[quote], [], rfl, rfl, ?_⟩
      intro start place other exchanged
      cases exchanged
      simp [quotedText]
  | case3 position more induction =>
      obtain ⟨⟨inside, count⟩, isInside, done⟩ := bind_eq_ok.mp found
      cases done
      obtain ⟨word, rest, rfl, rfl, again⟩ := induction isInside
      refine ⟨quote :: quote :: word, rest, rfl, rfl, ?_⟩
      intro start place other exchanged
      simp only [List.cons_append, quotedText, if_true]
      exact bind_eq_ok.mpr ⟨(inside, _), again _ _ other exchanged, rfl⟩
  | case4 position next more apart =>
      cases found
      refine ⟨[quote], next :: more, rfl, rfl, ?_⟩
      intro start place other exchanged
      have closed := exchanged.head?_ne (continues_quote isQuote) (by simpa using apart)
      cases other with
      | nil => simp [quotedText]
      | cons c other =>
          have noQuote : c ≠ quote := by simpa using closed
          simp [quotedText, noQuote]
  | case5 position text apart induction =>
      obtain ⟨⟨decoded?, width⟩, isEscape, continued⟩ := bind_eq_ok.mp found
      obtain ⟨⟨inside, count⟩, isInside, done⟩ := bind_eq_ok.mp continued
      cases done
      cases text with
      | nil => cases isEscape
      | cons letter text =>
          obtain ⟨sequence, after, rfl, rfl, escapes⟩ := escape_exchanged isEscape
          have cut : ∀ rest, (letter :: (sequence ++ rest)).drop (1 + sequence.length) = rest := by
            intro rest
            rw [Nat.add_comm, List.drop_succ_cons, List.drop_left]
          have kept : ∀ rest, (letter :: (sequence ++ rest)).take (1 + sequence.length) =
              letter :: sequence := by
            intro rest
            rw [Nat.add_comm, List.take_succ_cons, List.take_left]
          obtain ⟨word, rest, same, rfl, again⟩ := induction (1 + sequence.length) isInside
          rw [cut] at same
          subst same
          refine ⟨'\\' :: letter :: (sequence ++ word), rest, by simp, by simp; omega, ?_⟩
          intro start place other exchanged
          simp only [List.cons_append, List.append_assoc]
          rw [quotedText.eq_def]
          simp only [if_neg apart, if_true]
          refine bind_eq_ok.mpr ⟨_, escapes _ _ (exchanged.append word), ?_⟩
          simp only [cut, kept]
          exact bind_eq_ok.mpr ⟨(inside, _), again _ _ other exchanged, rfl⟩
  | case6 position c text noQuote noEscape induction =>
      obtain ⟨⟨inside, count⟩, isInside, done⟩ := bind_eq_ok.mp found
      cases done
      obtain ⟨word, rest, rfl, rfl, again⟩ := induction isInside
      refine ⟨c :: word, rest, rfl, rfl, ?_⟩
      intro start place other exchanged
      rw [List.cons_append, quotedText.eq_def]
      simp only [if_neg noQuote, if_neg noEscape]
      exact bind_eq_ok.mpr ⟨(inside, _), again _ _ other exchanged, rfl⟩

end HornQuery.Token
