import HornQuery.Proofs.Token.Lookahead

namespace HornQuery.Token

open Text

def shape (token : Token) : TokenKind × Bool :=
  (token.kind, token.layoutBefore)

def isEnd (token : Token) : Bool :=
  match token.kind with
  | .clauseEnd => true
  | _ => false

def OnlyEnds (tokens : List Token) : Prop :=
  ∀ token ∈ tokens, token.kind = .clauseEnd

theorem OnlyEnds.afterLayout {tokens : List Token} (ends : OnlyEnds tokens) :
    OnlyEnds (afterLayout tokens) := by
  cases tokens with
  | nil => exact ends
  | cons token others =>
      intro other member
      rcases List.mem_cons.mp member with rfl | later
      · exact ends token List.mem_cons_self
      · exact ends other (List.mem_cons_of_mem token later)

/-! Layout. -/

structure Starts (c : Char) (rest : List Char) : Prop where
  visible : isBlank c = false
  noLine : c ≠ '%'
  noBlock : ¬(c = '/' ∧ rest.head? = some '*')

theorem Starts.layoutLength_eq {c : Char} {rest : List Char} (starts : Starts c rest)
    (position : Nat) : layoutLength position (c :: rest) = .ok 0 :=
  layoutLength_eq_zero position starts.visible starts.noLine starts.noBlock

theorem Starts.exchange {c : Char} {rest other : List Char} (starts : Starts c rest)
    (exchanged : Exchanged rest other) : Starts c other := by
  refine ⟨starts.visible, starts.noLine, ?_⟩
  rintro ⟨slash, star⟩
  have continues : Continues (· = '*') := by
    intro d same
    rw [of_decide_eq_true same]
    exact .inr (.inr (by decide))
  exact exchanged.head?_ne continues (fun star => starts.noBlock ⟨slash, star⟩) star

theorem layoutLength_line {comment rest : List Char} (position : Nat)
    (line : ∀ c ∈ comment, decide (c ≠ '\n') = true)
    (stops : ∀ c ∈ rest.head?, decide (c ≠ '\n') = false) :
    layoutLength position ('%' :: (comment ++ rest)) =
      (layoutLength (position + byteLength ('%' :: comment)) rest).map
        (1 + comment.length + ·) := by
  have visible : isBlank '%' = false := by decide
  rw [layoutLength, if_neg (by rw [visible]; exact Bool.false_ne_true), if_pos rfl]
  simp only [takeWhile_append_of_stops line stops, List.drop_left, byteLength_cons, Nat.add_assoc]
  cases layoutLength (position + ('%'.utf8Size + byteLength comment)) rest <;> rfl

theorem skips_line {comment gap : List Char} (line : ∀ c ∈ comment, decide (c ≠ '\n') = true)
    (closes : gap.head? = some '\n') (skips : Skips gap) : Skips ('%' :: (comment ++ gap)) := by
  obtain ⟨after, rfl⟩ := List.head?_eq_some_iff.mp closes
  intro position rest
  have stops : ∀ c ∈ ('\n' :: after ++ rest).head?, decide (c ≠ '\n') = false := by
    intro c found
    cases found
    rfl
  rw [List.cons_append, List.append_assoc, layoutLength_line position line stops, skips]
  simp only [byteLength_cons, byteLength_append, Nat.add_assoc]
  cases layoutLength _ rest with
  | error cause => rfl
  | ok width => simp [Except.map]; omega

theorem exists_block {text : List Char} {width : Nat} (found : blockLength? text = some width) :
    ∃ block rest, text = block ++ rest ∧ width = block.length ∧
      ∀ other, blockLength? (block ++ other) = some block.length := by
  fun_induction blockLength? text generalizing width with
  | case1 => cases found
  | case2 rest =>
      cases found
      exact ⟨['*', '/'], rest, rfl, rfl, fun _ => rfl⟩
  | case3 c text noEnd induction =>
      obtain ⟨count, inner, rfl⟩ := Option.map_eq_some_iff.mp found
      obtain ⟨block, rest, rfl, rfl, again⟩ := induction inner
      refine ⟨c :: block, rest, rfl, rfl, ?_⟩
      intro other
      rw [List.cons_append, blockLength?, again other]
      · rfl
      · -- A block has at least two characters, so its own second one decides.
        intro more star slash
        cases block with
        | nil =>
            have none := again []
            cases none
        | cons d block =>
            cases slash
            exact noEnd _ star rfl

theorem layoutLength_block {block : List Char} (position : Nat)
    (closes : ∀ other, blockLength? (block ++ other) = some block.length) (rest : List Char) :
    layoutLength position ('/' :: '*' :: (block ++ rest)) =
      (layoutLength (position + byteLength ('/' :: '*' :: block)) rest).map
        (2 + block.length + ·) := by
  have visible : isBlank '/' = false := by decide
  have opens : ('/' = '/' && ('*' :: (block ++ rest)).head? = some '*') = true := rfl
  rw [layoutLength, if_neg (by rw [visible]; exact Bool.false_ne_true), if_neg (by decide),
    if_pos opens, List.drop_succ_cons, List.drop_zero, closes]
  simp only [Nat.add_comm 1, List.take_succ_cons, List.take_left, List.drop_succ_cons,
    List.drop_left, byteLength_cons, Nat.add_assoc]
  cases layoutLength _ rest <;> rfl

theorem skips_block {block : List Char}
    (closes : ∀ other, blockLength? (block ++ other) = some block.length) :
    Skips ('/' :: '*' :: block) := by
  intro position rest
  rw [List.cons_append, List.cons_append, layoutLength_block position closes]
  cases layoutLength _ rest with
  | error cause => rfl
  | ok width => simp [Except.map]; omega

/-- The layout that a text starts with. A line comment is closed where a token follows it. -/
theorem exists_gap {position skipped : Nat} {text : List Char}
    (layout : layoutLength position text = .ok skipped) :
    ∃ gap rest, text = gap ++ rest ∧ skipped = gap.length ∧
      ∀ c later, rest = c :: later → Skips gap ∧ Starts c later := by
  fun_induction layoutLength position text generalizing skipped with
  | case1 =>
      cases layout
      exact ⟨[], [], rfl, rfl, nofun⟩
  | case2 position c text blank induction =>
      obtain ⟨more, isMore, done⟩ := bind_eq_ok.mp layout
      cases done
      obtain ⟨gap, rest, rfl, rfl, follows⟩ := induction isMore
      refine ⟨c :: gap, rest, rfl, by simp; omega, ?_⟩
      intro d later same
      obtain ⟨skips, starts⟩ := follows d later same
      exact ⟨skips_append (skips_blank blank) skips, starts⟩
  | case3 position text comment visible =>
      rename_i induction
      obtain ⟨line, after, rfl, all, stops⟩ := exists_run (· ≠ '\n') text
      have run : comment = line := takeWhile_append_of_stops all stops
      rw [run, List.drop_left] at layout induction
      obtain ⟨more, isMore, done⟩ := bind_eq_ok.mp layout
      cases done
      obtain ⟨gap, rest, rfl, rfl, follows⟩ := induction isMore
      refine ⟨'%' :: (line ++ gap), rest, by simp, by simp; omega, ?_⟩
      intro c later same
      obtain ⟨skips, starts⟩ := follows c later same
      subst same
      refine ⟨skips_line all ?_ skips, starts⟩
      -- The token does not start with the line end, so that belongs to the layout.
      cases gap with
      | nil =>
          have lineEnd : c = '\n' := by simpa using stops c rfl
          have visible := starts.visible
          rw [lineEnd] at visible
          exact absurd visible (by decide)
      | cons d gap =>
          have lineEnd : d = '\n' := by simpa using stops d rfl
          rw [lineEnd]
          rfl
  | case4 => cases layout
  | case5 position c text visible noLine opens width isBlock comment =>
      rename_i induction
      simp only [Bool.and_eq_true, decide_eq_true_eq] at opens
      obtain ⟨rfl, star⟩ := opens
      obtain ⟨text, rfl⟩ := List.head?_eq_some_iff.mp star
      obtain ⟨block, after, rfl, rfl, closes⟩ := exists_block isBlock
      have left : ('*' :: (block ++ after)).drop (1 + block.length) = after := by
        rw [Nat.add_comm, List.drop_succ_cons, List.drop_left]
      rw [left] at layout induction
      obtain ⟨more, isMore, done⟩ := bind_eq_ok.mp layout
      cases done
      obtain ⟨gap, rest, rfl, rfl, follows⟩ := induction isMore
      refine ⟨'/' :: '*' :: (block ++ gap), rest, by simp, by simp; omega, ?_⟩
      intro c later same
      obtain ⟨skips, starts⟩ := follows c later same
      exact ⟨skips_append (skips_block closes) skips, starts⟩
  | case6 position c text visible noLine noBlock =>
      cases layout
      refine ⟨[], c :: text, rfl, rfl, ?_⟩
      intro d later same
      cases same
      exact ⟨skips_nil, by simpa using visible, noLine, by simpa using noBlock⟩

/-! Tokens. -/

def Shaped (shapes : List (TokenKind × Bool)) (tokens : List Token) : Prop :=
  tokens.map shape = shapes

theorem scans_nil (rest : List Char) : Scans [] rest (Shaped []) := by
  intro position
  refine ⟨[], rfl, ?_⟩
  rw [List.nil_append, byteLength_nil, Nat.add_zero]
  cases scanFrom position rest <;> rfl

/-- The spelling of a token in front of a text: it is the same token in front of any other text
that does not go on with it. -/
structure Lexeme (c : Char) (word rest : List Char) (kind : TokenKind) : Prop where
  starts : Starts c (word ++ rest)
  found : ∀ place other, Exchanged rest other →
    (other.head? = rest.head? ∨ (isSymbol c = true → Settles kind other)) →
    scanOne place c (word ++ other) = .ok (kind, word.length)

theorem Lexeme.scans {gap : List Char} {c : Char} {word rest other : List Char} {kind : TokenKind}
    (lexeme : Lexeme c word rest kind) (skips : Skips gap) (exchanged : Exchanged rest other)
    (follows : other.head? = rest.head? ∨ (isSymbol c = true → Settles kind other)) :
    Scans (gap ++ c :: word) other (Shaped [(kind, decide (0 < gap.length))]) := by
  intro position
  have layout := skips position (c :: (word ++ other))
  rw [(lexeme.starts.exchange (exchanged.append word)).layoutLength_eq] at layout
  refine ⟨[⟨kind, position + byteLength gap,
    position + byteLength gap + c.utf8Size + byteLength word, 0 < gap.length⟩], rfl, ?_⟩
  rw [List.append_assoc, List.cons_append, scanFrom_of_token layout List.drop_left rfl]
  simp only [Nat.add_zero, List.take_left, lexeme.found _ other exchanged follows, bind,
    Except.bind, List.drop_left, byteLength_append, byteLength_cons, Nat.add_assoc]
  rfl

theorem exists_lexeme {position : Nat} {text : List Char} {token : Token} {tokens : List Token}
    (scanned : scanFrom position text = .ok (token :: tokens)) :
    ∃ gap c word rest, text = gap ++ c :: (word ++ rest) ∧ Skips gap ∧
      Lexeme c word rest token.kind ∧ shape token = (token.kind, decide (0 < gap.length)) ∧
      token.start = position + byteLength gap ∧
      scanFrom (position + byteLength (gap ++ c :: word)) rest = .ok tokens := by
  obtain ⟨skipped, layout, _⟩ := bind_eq_ok.mp ((scanFrom.eq_def position text).symm.trans scanned)
  obtain ⟨gap, after, rfl, rfl, follows⟩ := exists_gap layout
  cases after with
  | nil =>
      rw [scanFrom_of_layout layout (by simp)] at scanned
      cases scanned
  | cons c after =>
      obtain ⟨skips, starts⟩ := follows c after rfl
      rw [scanFrom_of_token layout List.drop_left rfl, List.take_left] at scanned
      obtain ⟨⟨kind, width⟩, found, continued⟩ := bind_eq_ok.mp scanned
      obtain ⟨word, rest, rfl, rfl, again⟩ := scanOne_exchanged found
      obtain ⟨others, scannedOthers, done⟩ := bind_eq_ok.mp continued
      cases done
      refine ⟨gap, c, word, rest, rfl, skips, ⟨starts, again⟩, rfl, rfl, ?_⟩
      rw [List.take_left, List.drop_left] at scannedOthers
      rw [byteLength_append, byteLength_cons, ← scannedOthers]
      congr 1
      omega

/-- What a text is cut into is found again where the text after some of the tokens is exchanged for
one that starts alike. -/
theorem exists_split {position : Nat} {text : List Char} {former latter : List Token}
    (scanned : scanFrom position text = .ok (former ++ latter)) :
    ∃ body rest, text = body ++ rest ∧
      scanFrom (position + byteLength body) rest = .ok latter ∧
      ∀ other, Exchanged rest other → other.head? = rest.head? →
        Scans body other (Shaped (former.map shape)) := by
  induction former generalizing position text with
  | nil =>
      exact ⟨[], text, rfl, scanned, fun other _ _ => scans_nil other⟩
  | cons token former induction =>
      obtain ⟨gap, c, word, after, rfl, skips, lexeme, shaped, _, scannedAfter⟩ :=
        exists_lexeme scanned
      obtain ⟨body, rest, rfl, scannedRest, scans⟩ := induction scannedAfter
      refine ⟨gap ++ c :: word ++ body, rest, by simp, ?_, ?_⟩
      · rw [byteLength_append, ← Nat.add_assoc]
        exact scannedRest
      · intro other exchanged same
        have head : (body ++ other).head? = (body ++ rest).head? := by
          rw [List.head?_append, List.head?_append, same]
        refine (lexeme.scans skips (exchanged.append body) (.inl head)).append
          (scans other exchanged same) ?_
        intro first second isFirst isSecond
        rw [Shaped, List.map_append, isFirst, isSecond, List.map_cons, shaped]
        rfl

/-! What numbers are read as. -/

def IsNumber (kind : TokenKind) : Prop :=
  (∃ n, kind = .integer n) ∨ ∃ value, kind = .float value

theorem isNumber_characterCode {place width : Nat} {text : List Char} {kind : TokenKind}
    (found : characterCode place text = .ok (kind, width)) : IsNumber kind := by
  cases text with
  | nil => cases found
  | cons c rest =>
      simp only [characterCode] at found
      split at found
      case isTrue =>
        obtain ⟨⟨decoded?, count⟩, _, continued⟩ := bind_eq_ok.mp found
        cases decoded? with
        | none => cases continued
        | some decoded =>
            cases continued
            exact .inl ⟨_, rfl⟩
      case isFalse =>
        split at found
        all_goals
          cases found
          exact .inl ⟨_, rfl⟩

theorem isNumber_decimalNumber {place width : Nat} {text : List Char} {kind : TokenKind}
    (found : decimalNumber place text = .ok (kind, width)) : IsNumber kind := by
  simp only [decimalNumber] at found
  repeat' split at found
  all_goals first
    | (cases found; exact .inl ⟨_, rfl⟩)
    | (cases found; exact .inr ⟨_, rfl⟩)
    | cases found

theorem isNumber_radixNumber? {place width : Nat} {text : List Char} {kind : TokenKind}
    (found : radixNumber? place text = some (.ok (kind, width))) : IsNumber kind := by
  simp only [radixNumber?] at found
  split at found
  case h_1 letter rest =>
    simp only [bind, Option.bind_eq_some_iff] at found
    obtain ⟨radix, _, _, _, found⟩ := found
    split at found <;> cases found
    exact .inl ⟨_, rfl⟩
  case h_2 => cases found

theorem isNumber_number {place width : Nat} {text : List Char} {kind : TokenKind}
    (found : number place text = .ok (kind, width)) : IsNumber kind := by
  unfold number at found
  split at found
  case h_1 rest =>
    obtain ⟨⟨other, count⟩, isCode, done⟩ := bind_eq_ok.mp found
    cases done
    exact isNumber_characterCode isCode
  case h_2 =>
    cases radix : radixNumber? place text with
    | none =>
        rw [radix] at found
        exact isNumber_decimalNumber found
    | some result =>
        rw [radix, Option.getD_some] at found
        exact isNumber_radixNumber? (found ▸ radix)

/-! Variables. -/

theorem scanOne_var {place width : Nat} {c : Char} {text : List Char} {name : String}
    (found : scanOne place c text = .ok (.var name, width)) : IsVariableName name := by
  simp only [scanOne] at found
  split at found
  case isTrue =>
    obtain ⟨⟨kind, count⟩, isNumber, done⟩ := bind_eq_ok.mp found
    cases done
    rcases isNumber_number isNumber with ⟨_, same⟩ | ⟨_, same⟩ <;> cases same
  case isFalse =>
    split at found
    case isTrue capital =>
      cases found
      refine ⟨c, _, String.toList_ofList, ?_, fun d => List.mem_takeWhile_imp⟩
      simpa using capital
    case isFalse =>
      -- No other branch finds a variable.
      repeat' split at found
      all_goals first
        | cases found
        | obtain ⟨_, _, done⟩ := bind_eq_ok.mp found
          cases done

theorem isVariableName_of_mem {text : List Char} {tokens : List Token} {token : Token}
    {name : String} (scanned : scan text = .ok tokens) (member : token ∈ tokens)
    (kind : token.kind = .var name) : IsVariableName name := by
  obtain ⟨former, latter, rfl⟩ := List.append_of_mem member
  obtain ⟨_, _, _, scannedLater, _⟩ := exists_split scanned
  obtain ⟨_, c, word, rest, _, _, lexeme, _⟩ := exists_lexeme scannedLater
  rw [kind] at lexeme
  exact scanOne_var (lexeme.found 0 rest (.refl rest) (.inl rfl))

end HornQuery.Token
