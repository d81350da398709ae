import HornQuery.Proofs.Token.Escapes

namespace HornQuery.Token

open Text

/-! Quoted text and character codes. -/

/-- Quoted text through its closing quote, in front of a text, with the characters it stands for. A
quote that is written twice stands for itself. -/
inductive QuotedText (escapes : List Char → List Char → Option Char → Prop) (quote : Char)
    (rest : List Char) : List Char → List Char → Prop
  | closed (single : rest.head? ≠ some quote) : QuotedText escapes quote rest [quote] []
  | doubled {written content : List Char} (later : QuotedText escapes quote rest written content) :
      QuotedText escapes quote rest (quote :: quote :: written) (quote :: content)
  | escaped {sequence written content : List Char} {decoded? : Option Char}
      (escape : escapes (written ++ rest) sequence decoded?)
      (later : QuotedText escapes quote rest written content) :
      QuotedText escapes quote rest ('\\' :: (sequence ++ written)) (decoded?.toList ++ content)
  | plain {c : Char} {written content : List Char} (noQuote : c ≠ quote) (noEscape : c ≠ '\\')
      (later : QuotedText escapes quote rest written content) :
      QuotedText escapes quote rest (c :: written) (c :: content)

/-- The code of a character after the apostrophe that announces it, in front of a text, with the
character. A line end has no code that is written with a backslash. -/
inductive CodeText (escapes : List Char → List Char → Option Char → Prop) (rest : List Char) :
    List Char → Char → Prop
  | escaped {sequence : List Char} {decoded : Char} (escape : escapes rest sequence (some decoded)) :
      CodeText escapes rest ('\\' :: sequence) decoded
  | quote (single : rest.head? ≠ some '\x27') : CodeText escapes rest ['\x27'] '\x27'
  | doubled : CodeText escapes rest ['\x27', '\x27'] '\x27'
  | plain {c : Char} (noEscape : c ≠ '\\') (noQuote : c ≠ '\x27') : CodeText escapes rest [c] c

section

variable {quote c : Char} {opening position width : Nat} {text written rest content : List Char}
  {kind : TokenKind}

theorem exists_quotedText (found : quotedText opening quote position text = .ok (content, width)) :
    ∃ written rest, text = written ++ rest ∧ width = written.length ∧
      QuotedText Accepted quote rest written content := by
  fun_induction quotedText opening quote position text generalizing content width with
  | case1 => cases found
  | case2 position =>
      cases found
      exact ⟨[quote], [], rfl, rfl, .closed (by simp)⟩
  | case3 position more induction =>
      obtain ⟨⟨inside, count⟩, isInside, done⟩ := bind_eq_ok.mp found
      cases done
      obtain ⟨written, rest, rfl, rfl, later⟩ := induction isInside
      exact ⟨quote :: quote :: written, rest, rfl, rfl, .doubled later⟩
  | case4 position next more apart =>
      cases found
      exact ⟨[quote], next :: more, rfl, rfl, .closed (by simpa using apart)⟩
  | case5 position text apart induction =>
      obtain ⟨⟨decoded?, count⟩, isEscape, continued⟩ := bind_eq_ok.mp found
      obtain ⟨⟨inside, taken⟩, isInside, done⟩ := bind_eq_ok.mp continued
      cases done
      obtain ⟨sequence, after, rfl, rfl, accepted⟩ := exists_accepted isEscape
      obtain ⟨written, rest, same, rfl, later⟩ := induction sequence.length isInside
      rw [List.drop_left] at same
      subst same
      exact ⟨'\\' :: (sequence ++ written), rest, by simp, by simp; omega,
        .escaped accepted later⟩
  | case6 position c text noQuote noEscape induction =>
      obtain ⟨⟨inside, count⟩, isInside, done⟩ := bind_eq_ok.mp found
      cases done
      obtain ⟨written, rest, rfl, rfl, later⟩ := induction isInside
      exact ⟨c :: written, rest, rfl, rfl, .plain noQuote noEscape later⟩

theorem QuotedText.quotedText_eq (quoted : QuotedText Accepted quote rest written content)
    (apart : quote ≠ '\\') :
    quotedText opening quote position (written ++ rest) = .ok (content, written.length) := by
  induction quoted generalizing position with
  | closed single =>
      cases rest with
      | nil => simp [quotedText]
      | cons next rest =>
          have noQuote : next ≠ quote := by simpa using single
          simp [quotedText, noQuote]
  | doubled later induction =>
      rw [List.cons_append, List.cons_append, quotedText.eq_def]
      simp only [if_true, induction]
      rfl
  | @escaped sequence written content decoded? escape later induction =>
      rw [List.cons_append, List.append_assoc, quotedText.eq_def]
      simp only [if_neg apart.symm, if_true, escape_of_accepted escape]
      refine bind_eq_ok.mpr ⟨_, rfl, ?_⟩
      simp only [List.drop_left, induction]
      have length : ('\\' :: (sequence ++ written)).length =
          1 + sequence.length + written.length := by
        simp
        omega
      rw [length]
      rfl
  | plain noQuote noEscape later induction =>
      rw [List.cons_append, quotedText.eq_def]
      simp only [if_neg noQuote, if_neg noEscape, induction]
      rfl

theorem exists_codeText (found : characterCode position text = .ok (kind, width)) :
    ∃ written rest c, text = written ++ rest ∧ width = written.length ∧ kind = .integer c.toNat ∧
      CodeText Accepted rest written c := by
  cases text with
  | nil => cases found
  | cons c rest =>
      by_cases escaped : c = '\\'
      · subst escaped
        obtain ⟨⟨decoded?, count⟩, isEscape, continued⟩ := bind_eq_ok.mp found
        obtain ⟨sequence, after, rfl, rfl, accepted⟩ := exists_accepted isEscape
        cases decoded? with
        | none => cases continued
        | some decoded =>
            cases continued
            exact ⟨'\\' :: sequence, after, decoded, rfl, Nat.add_comm _ _, rfl, .escaped accepted⟩
      by_cases quoted : c = '\x27'
      · simp only [characterCode, if_neg escaped, if_pos quoted] at found
        cases found
        subst quoted
        by_cases twice : rest.head? = some '\x27'
        · obtain ⟨after, rfl⟩ := List.head?_eq_some_iff.mp twice
          exact ⟨['\x27', '\x27'], after, '\x27', rfl, rfl, rfl, .doubled⟩
        · exact ⟨['\x27'], rest, '\x27', rfl, if_neg twice, rfl, .quote twice⟩
      · simp only [characterCode, if_neg escaped, if_neg quoted] at found
        cases found
        exact ⟨[c], rest, c, rfl, rfl, rfl, .plain escaped quoted⟩

theorem CodeText.characterCode_eq (code : CodeText Accepted rest written c) :
    characterCode position (written ++ rest) = .ok (.integer c.toNat, written.length) := by
  cases code with
  | @escaped sequence decoded escape =>
      simp only [List.cons_append, characterCode, if_true, escape_of_accepted escape]
      refine bind_eq_ok.mpr ⟨_, rfl, ?_⟩
      simp only [List.length_cons, Nat.add_comm]
  | quote single => simp [characterCode, single]
  | doubled => rfl
  | plain noEscape noQuote => simp [characterCode, noEscape, noQuote]

end

/-! Tokens. -/

/-- How a quoted name, a string or the code of a character is written, in front of a text. -/
inductive EscapedToken (escapes : List Char → List Char → Option Char → Prop) (rest : List Char) :
    List Char → TokenKind → Prop
  | quoted {written content : List Char} (text : QuotedText escapes '\x27' rest written content) :
      EscapedToken escapes rest ('\x27' :: written) (.quoted (String.ofList content))
  | string {quote : Char} {written content : List Char} (isQuote : quote = '\x22' ∨ quote = '\x60')
      (text : QuotedText escapes quote rest written content) :
      EscapedToken escapes rest (quote :: written) (.string (String.ofList content))
  | code {written : List Char} {c : Char} (text : CodeText escapes rest written c) :
      EscapedToken escapes rest ('0' :: '\x27' :: written) (.integer c.toNat)

/-- Quoted names, strings and the codes of characters, by what they are and how they are spelled. -/
def HoldsEscapes (kind : TokenKind) (spelled : List Char) : Prop :=
  (∃ name, kind = .quoted name ∨ kind = .string name) ∨ ['0', '\x27'] <+: spelled

/-- Where the text holds a token with escapes, the token is written with the escapes given. -/
def WrittenWith (escapes : List Char → List Char → Option Char → Prop) (text : List Char) : Prop :=
  ∀ tokens, scan text = .ok tokens → ∀ token ∈ tokens, ∃ before spelled after,
    text = before ++ (spelled ++ after) ∧ token.start = byteLength before ∧
      token.stop = byteLength (before ++ spelled) ∧
      (HoldsEscapes token.kind spelled → EscapedToken escapes after spelled token.kind)

section

variable {c : Char} {place : Nat} {word rest spelled : List Char} {kind : TokenKind}

theorem scanOne_code (place : Nat) (text : List Char) :
    scanOne place '0' ('\x27' :: text) = (do
      let (kind, width) ← characterCode (place + 2) text
      .ok (kind, width + 1)) := by
  have isDigit : Number.isDigit '0' = true := rfl
  simp only [scanOne, isDigit, if_true, number]
  cases characterCode (place + 2) text with
  | error cause => rfl
  | ok found =>
      have width : 2 + found.2 - 1 = found.2 + 1 := by omega
      simp only [bind, Except.bind, width]

theorem escapedToken_of_scanOne (found : scanOne place c (word ++ rest) = .ok (kind, word.length))
    (holds : HoldsEscapes kind (c :: word)) : EscapedToken Accepted rest (c :: word) kind := by
  have cut : ∀ {written other}, word ++ rest = written ++ other → word.length = written.length →
      word = written ∧ rest = other :=
    fun same length => List.append_inj same length
  rcases holds with ⟨name, isQuoted⟩ | code
  · obtain ⟨written, other, same, length, quoted⟩ :=
      exists_quotedText (quotedText_of_scanOne found isQuoted).2
    obtain ⟨rfl, rfl⟩ := cut same length
    rw [← String.ofList_toList (s := name)] at isQuoted
    rcases isQuoted with rfl | rfl
    · obtain rfl := (quote_of_scanOne found).1 rfl
      exact .quoted quoted
    · exact .string ((quote_of_scanOne found).2 rfl) quoted
  · obtain ⟨written, isWritten⟩ := code
    obtain ⟨rfl, isWord⟩ := List.cons.inj isWritten
    have isWord : '\x27' :: written = word := isWord
    subst isWord
    rw [List.cons_append, scanOne_code] at found
    obtain ⟨⟨other, width⟩, isCode, done⟩ := bind_eq_ok.mp found
    obtain ⟨inner, after, d, same, length, rfl, code⟩ := exists_codeText isCode
    have counted : width = written.length :=
      Nat.succ.inj (Prod.mk.inj (Except.ok.inj done)).2
    obtain ⟨rfl, rfl⟩ := List.append_inj same (counted.symm.trans length)
    cases done
    exact .code code

theorem EscapedToken.scans (token : EscapedToken Accepted rest spelled kind) :
    Scans spelled rest (IsToken kind) := by
  have starts : ∀ c ∈ ['\x27', '\x22', '\x60', '0'], isBlank c = false ∧ c ≠ '%' ∧ c ≠ '/' :=
    forall_mem_of_all (by decide)
  have layout : ∀ c ∈ ['\x27', '\x22', '\x60', '0'], ∀ position text,
      layoutLength position (c :: text) = .ok 0 := by
    intro c member position text
    obtain ⟨visible, noComment, noSlash⟩ := starts c member
    exact layoutLength_eq_zero position visible noComment fun opening => noSlash opening.1
  cases token with
  | quoted text =>
      refine Scans.one (fun position => layout _ (by decide) _ _) fun position => ?_
      rw [scanOne_apostrophe, text.quotedText_eq (by decide)]
      rfl
  | @string quote written content isQuote text =>
      have member : quote ∈ ['\x27', '\x22', '\x60', '0'] := by
        rcases isQuote with rfl | rfl <;> decide
      have apart : quote ≠ '\\' := by
        rcases isQuote with rfl | rfl <;> decide
      refine Scans.one (fun position => layout _ member _ _) fun position => ?_
      rw [scanOne_string isQuote, text.quotedText_eq apart]
      rfl
  | code text =>
      refine Scans.one (fun position => layout _ (by decide) _ _) fun position => ?_
      rw [List.cons_append, scanOne_code, text.characterCode_eq]
      rfl

end

/-! Where a loose escape stands. -/

/-- Quoted text in which the first escape out of the grammar is a loose one. -/
inductive LooseText (quote : Char) (rest : List Char) : List Char → Prop
  | loose {sequence written : List Char} {decoded? : Option Char}
      (escape : LooseEscape (written ++ rest) sequence decoded?) :
      LooseText quote rest ('\\' :: (sequence ++ written))
  | doubled {written : List Char} (later : LooseText quote rest written) :
      LooseText quote rest (quote :: quote :: written)
  | escaped {sequence written : List Char} {decoded? : Option Char}
      (escape : EscapeSequence (written ++ rest) sequence decoded?)
      (later : LooseText quote rest written) : LooseText quote rest ('\\' :: (sequence ++ written))
  | plain {c : Char} {written : List Char} (noQuote : c ≠ quote) (noEscape : c ≠ '\\')
      (later : LooseText quote rest written) : LooseText quote rest (c :: written)

inductive LooseToken (rest : List Char) : List Char → Prop
  | quoted {quote : Char} {written : List Char}
      (isQuote : quote = '\x27' ∨ quote = '\x22' ∨ quote = '\x60')
      (text : LooseText quote rest written) : LooseToken rest (quote :: written)
  | code {sequence : List Char} {decoded? : Option Char}
      (escape : LooseEscape rest sequence decoded?) :
      LooseToken rest ('0' :: '\x27' :: '\\' :: sequence)

/-- The text holds a token with escapes in which a loose escape stands. -/
def HoldsLoose (text : List Char) : Prop :=
  ∃ tokens token before spelled after, scan text = .ok tokens ∧ token ∈ tokens ∧
    text = before ++ (spelled ++ after) ∧ token.start = byteLength before ∧
      token.stop = byteLength (before ++ spelled) ∧ HoldsEscapes token.kind spelled ∧
      LooseToken after spelled

section

variable {quote c : Char} {written rest content spelled : List Char} {kind : TokenKind}

theorem LooseText.of_not_quotedText (quoted : QuotedText Accepted quote rest written content)
    (improper : ¬QuotedText EscapeSequence quote rest written content) :
    LooseText quote rest written := by
  induction quoted with
  | closed single => exact absurd (.closed single) improper
  | doubled _ induction => exact .doubled (induction fun later => improper (.doubled later))
  | escaped escape _ induction =>
      rcases escape with proper | loose
      · exact .escaped proper (induction fun later => improper (.escaped proper later))
      · exact .loose loose
  | plain noQuote noEscape _ induction =>
      exact .plain noQuote noEscape (induction fun later => improper (.plain noQuote noEscape later))

theorem LooseText.cons_cases {text : List Char} (loose : LooseText quote rest (c :: text))
    (noEscape : c ≠ '\\') :
    (c = quote ∧ ∃ written, text = quote :: written ∧ LooseText quote rest written) ∨
      (c ≠ quote ∧ LooseText quote rest text) := by
  generalize spelled : c :: text = whole at loose
  cases loose with
  | loose => exact absurd (List.cons.inj spelled).1 noEscape
  | doubled later =>
      obtain ⟨rfl, rfl⟩ := List.cons.inj spelled
      exact .inl ⟨rfl, _, rfl, later⟩
  | escaped => exact absurd (List.cons.inj spelled).1 noEscape
  | plain noQuote _ later =>
      obtain ⟨rfl, rfl⟩ := List.cons.inj spelled
      exact .inr ⟨noQuote, later⟩

/-- What is read at a backslash is settled by the text behind it, so no second reading of the same
text comes upon a loose escape. -/
theorem QuotedText.not_looseText (quoted : QuotedText EscapeSequence quote rest written content)
    (apart : quote ≠ '\\') : ¬LooseText quote rest written := by
  induction quoted with
  | closed =>
      intro loose
      rcases loose.cons_cases apart with ⟨_, _, more, _⟩ | ⟨noQuote, _⟩
      · cases more
      · exact noQuote rfl
  | doubled _ induction =>
      intro loose
      rcases loose.cons_cases apart with ⟨_, _, same, later⟩ | ⟨noQuote, _⟩
      · obtain ⟨_, rfl⟩ := List.cons.inj same
        exact induction later
      · exact noQuote rfl
  | @escaped sequence written content decoded? escape _ induction =>
      intro loose
      generalize spelled : '\\' :: (sequence ++ written) = text at loose
      have settled : ∀ {other more : List Char} {other? : Option Char},
          '\\' :: (sequence ++ written) = '\\' :: (other ++ more) →
          Accepted (more ++ rest) other other? → sequence = other ∧ written = more := by
        intro other more other? same accepted
        have same := (List.cons.inj same).2
        have whole : sequence ++ (written ++ rest) = other ++ (more ++ rest) := by
          rw [← List.append_assoc, same, List.append_assoc]
        obtain ⟨rfl, _⟩ := Accepted.append_inj (.inl escape) accepted whole
        exact ⟨rfl, List.append_cancel_left same⟩
      cases loose with
      | loose other =>
          obtain ⟨rfl, rfl⟩ := settled spelled (.inr other)
          exact escape.not_looseEscape other
      | doubled => exact apart (List.cons.inj spelled).1.symm
      | escaped other later =>
          obtain ⟨rfl, rfl⟩ := settled spelled (.inl other)
          exact induction later
      | plain _ noEscape => exact noEscape (List.cons.inj spelled).1.symm
  | plain noQuote noEscape _ induction =>
      intro loose
      rcases loose.cons_cases noEscape with ⟨isQuote, _⟩ | ⟨_, later⟩
      · exact noQuote isQuote
      · exact induction later

theorem EscapedToken.not_looseToken (token : EscapedToken EscapeSequence rest spelled kind) :
    ¬LooseToken rest spelled := by
  intro loose
  cases loose with
  | @quoted quote _ isQuote loose =>
      cases token with
      | quoted text => exact text.not_looseText (by decide) loose
      | string string text =>
          have apart : quote ≠ '\\' := by
            rcases string with rfl | rfl <;> decide
          exact text.not_looseText apart loose
      | code => simp at isQuote
  | code loose =>
      cases token with
      | string string => simp at string
      | code text =>
          cases text with
          | escaped escape => exact escape.not_looseEscape loose
          | plain noEscape => exact noEscape rfl

theorem EscapedToken.escapeSequence_of_not_looseToken
    (token : EscapedToken Accepted rest spelled kind) (noLoose : ¬LooseToken rest spelled) :
    EscapedToken EscapeSequence rest spelled kind := by
  cases token with
  | quoted text =>
      refine .quoted (Classical.byContradiction fun improper => noLoose ?_)
      exact .quoted (.inl rfl) (.of_not_quotedText text improper)
  | string isQuote text =>
      refine .string isQuote (Classical.byContradiction fun improper => noLoose ?_)
      exact .quoted (.inr isQuote) (.of_not_quotedText text improper)
  | code text =>
      cases text with
      | escaped escape =>
          exact .code (.escaped (escape.resolve_right fun loose => noLoose (.code loose)))
      | quote single => exact .code (.quote single)
      | doubled => exact .code .doubled
      | plain noEscape noQuote => exact .code (.plain noEscape noQuote)

end

theorem writtenWith_accepted (text : List Char) : WrittenWith Accepted text := by
  intro tokens scanned token member
  obtain ⟨before, c, word, rest, whole, starts, stops, lexeme⟩ :=
    exists_lexeme_of_mem scanned member
  have found := lexeme.found 0 rest (.refl rest) (.inl rfl)
  exact ⟨before, c :: word, rest, whole, starts, stops, escapedToken_of_scanOne found⟩

theorem writtenWith_escapeSequence_iff (text : List Char) :
    WrittenWith EscapeSequence text ↔ ¬HoldsLoose text := by
  constructor
  · rintro proper ⟨tokens, token, before, spelled, after, scanned, member, whole, starts, stops,
      holds, loose⟩
    obtain ⟨front, other, rest, same, begins, ends, keeps⟩ := proper tokens scanned token member
    obtain ⟨rfl, inner⟩ := append_inj_of_byteLength (whole.symm.trans same) (starts.symm.trans begins)
    have length : byteLength spelled = byteLength other := by
      rw [stops, byteLength_append, byteLength_append] at ends
      exact Nat.add_left_cancel ends
    obtain ⟨rfl, rfl⟩ := append_inj_of_byteLength inner length
    exact (keeps holds).not_looseToken loose
  · intro noLoose tokens scanned token member
    obtain ⟨before, spelled, after, whole, starts, stops, keeps⟩ :=
      writtenWith_accepted text tokens scanned token member
    refine ⟨before, spelled, after, whole, starts, stops, fun holds => ?_⟩
    refine (keeps holds).escapeSequence_of_not_looseToken fun loose => noLoose ?_
    exact ⟨tokens, token, before, spelled, after, scanned, member, whole, starts, stops, holds, loose⟩

/-- The scanner takes exactly the escapes of the grammar and the loose ones. All that it reads with
escapes in it is written with them, with those of the grammar alone just where no loose escape
stands in the text, and all that is so written is read. -/
theorem escapes_of_scan (text : List Char) :
    WrittenWith Accepted text ∧ (WrittenWith EscapeSequence text ↔ ¬HoldsLoose text) ∧
      ∀ spelled kind, EscapedToken Accepted text spelled kind →
        Scans spelled text (IsToken kind) :=
  ⟨writtenWith_accepted text, writtenWith_escapeSequence_iff text, fun _ _ token => token.scans⟩

theorem escapes_of_scan_closed :
    scan "a, 'it''s \\x41\\'".toList = .ok [⟨.name "a", 0, 1, false⟩,
      ⟨.punctuation ',', 1, 2, false⟩, ⟨.quoted "it's A", 3, 16, true⟩] ∧
    ∃ before spelled after, "a, 'it''s \\x41\\'".toList = before ++ (spelled ++ after) ∧
      3 = byteLength before ∧ 16 = byteLength (before ++ spelled) ∧
      (HoldsEscapes (.quoted "it's A") spelled →
        EscapedToken Accepted after spelled (.quoted "it's A")) := by
  have scanned : scan "a, 'it''s \\x41\\'".toList = .ok [⟨.name "a", 0, 1, false⟩,
      ⟨.punctuation ',', 1, 2, false⟩, ⟨.quoted "it's A", 3, 16, true⟩] := by
    cbv
  exact ⟨scanned, (escapes_of_scan _).1 _ scanned ⟨.quoted "it's A", 3, 16, true⟩ (by simp)⟩

/-- A plus sign in the place of the first digit is not refused. -/
theorem not_writtenWith_escapeSequence : ¬∀ text, WrittenWith EscapeSequence text := by
  intro all
  have scanned : scan ['\x27', '\\', 'u', '+', '0', '4', '1', '\x27'] =
      .ok [⟨.quoted "A", 0, 8, false⟩] := by
    cbv
  have listed : ('u', 4) ∈ unicodeEscapes := by decide
  have signed : LooseEscape ['\x27'] ['u', '+', '0', '4', '1'] (some 'A') :=
    .unicode listed (.inr rfl) (List.cons_ne_nil '0' ['4', '1']) (forall_mem_of_all (by decide))
      (.inl ⟨rfl, List.cons_ne_nil _ _⟩) (by decide)
  have loose : LooseText '\x27' [] ('\\' :: (['u', '+', '0', '4', '1'] ++ ['\x27'])) :=
    .loose signed
  have holds : HoldsLoose ['\x27', '\\', 'u', '+', '0', '4', '1', '\x27'] :=
    ⟨_, _, [], _, [], scanned, List.mem_cons_self, rfl, rfl, rfl, .inl ⟨"A", .inl rfl⟩,
      .quoted (.inl rfl) loose⟩
  exact (writtenWith_escapeSequence_iff _).mp (all _) holds

end HornQuery.Token
