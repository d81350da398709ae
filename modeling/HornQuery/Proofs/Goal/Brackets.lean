import HornQuery.Proofs.Text.Lines
import HornQuery.Proofs.Token.Endings
import HornQuery.Theory.Basic

namespace HornQuery

open Text

namespace Token

variable {c mark : Char} {word gap text rest : List Char}

/-! Texts that go on with no token. -/

theorem breaks_nil : Breaks [] :=
  ⟨nofun, nofun, nofun⟩

theorem breaks_mark (member : mark ∈ marks) (rest : List Char) : Breaks (mark :: rest) := by
  have apart : ∀ c ∈ marks, isNameCharacter c = false ∧ c ∉ quotes ∧ isSymbol c = false :=
    forall_mem_of_all (by decide)
  obtain ⟨noName, noQuote, noSymbol⟩ := apart mark member
  constructor
  · intro c found
    cases found
    exact noName
  · intro c found
    cases found
    exact noQuote
  · intro c found symbol
    cases found
    rw [noSymbol] at symbol
    cases symbol

theorem breaks_blank (blank : isBlank c = true) (rest : List Char) : Breaks (c :: rest) := by
  constructor
  · intro d found
    cases found
    rw [← Bool.not_eq_true]
    intro name
    rw [isBlank_of_isNameCharacter name] at blank
    cases blank
  · intro d found quote
    cases found
    have visible : ∀ c ∈ quotes, isBlank c = false := forall_mem_of_all (by decide)
    rw [visible c quote] at blank
    cases blank
  · intro d found symbol
    cases found
    rw [(visible_of_isSymbol symbol).1] at blank
    cases blank

theorem breaks_blanks (blank : ∀ c ∈ text, isBlank c = true) : Breaks text := by
  cases text with
  | nil => exact breaks_nil
  | cons c rest => exact breaks_blank (blank c List.mem_cons_self) rest

theorem breaks_clauseEnd (ends : endsClause rest = true) : Breaks ('.' :: rest) := by
  constructor
  · intro c found
    cases found
    decide
  · intro c found
    cases found
    decide
  · intro c found symbol
    cases found
    exact ⟨rfl, ends⟩

/-! Marks and clause ends as tokens. -/

theorem lexeme_mark (member : mark ∈ marks) (rest : List Char) :
    Lexeme mark [] rest (.punctuation mark) := by
  obtain ⟨visible, noLine, noSlash⟩ := visible_of_mem_marks mark member
  exact ⟨⟨visible, noLine, fun opening => noSlash opening.1⟩,
    fun place other _ _ => scanOne_mark member place other⟩

theorem endsClause_of_blanks (blank : ∀ c ∈ text, isBlank c = true) : endsClause text = true := by
  cases text with
  | nil => rfl
  | cons c rest => simp [endsClause, blank c List.mem_cons_self]

theorem lexeme_clauseEnd (ends : endsClause rest = true) : Lexeme '.' [] rest .clauseEnd := by
  refine ⟨⟨by decide, by decide, fun opening => absurd opening.1 (by decide)⟩, ?_⟩
  intro place other _ follows
  rcases follows with same | settles
  · exact scanOne_clauseEnd (by rw [List.nil_append, endsClause_congr same]; exact ends) place
  · exact absurd rfl (settles (by decide)).noEnd

theorem scanFrom_skipped (skips : Skips gap) (position : Nat) : scanFrom position gap = .ok [] := by
  cases gap with
  | nil => exact scanFrom_nil position
  | cons c gap =>
      have skipped := scanFrom_skips skips (List.cons_ne_nil c gap) position []
      rw [List.append_nil, scanFrom_nil] at skipped
      exact skipped

theorem lexeme_symbols (symbol : isSymbol c = true) (all : ∀ d ∈ word, isSymbol d = true)
    (long : word ≠ []) (stops : ∀ d ∈ rest.head?, isSymbol d = false)
    (starts : Starts c (word ++ rest)) :
    Lexeme c word rest (.name (String.ofList (c :: word))) := by
  obtain ⟨d, more, rfl⟩ := List.exists_cons_of_ne_nil long
  refine ⟨starts, ?_⟩
  intro place other _ follows
  have visible := visible_of_isSymbol (all d List.mem_cons_self)
  have noEnd : (c = '.' && endsClause (d :: more ++ other)) = false := by
    simp [endsClause, visible]
  have otherStops : ∀ d ∈ other.head?, isSymbol d = false := by
    rcases follows with same | settles
    · exact same ▸ stops
    · exact (settles symbol).noSymbol
  rw [scanOne_symbol place symbol noEnd, takeWhile_append_of_stops all otherStops]

theorem isSymbol_of_isBlank (blank : isBlank c = true) : isSymbol c = false := by
  rw [← Bool.not_eq_true]
  intro symbol
  rw [(visible_of_isSymbol symbol).1] at blank
  cases blank

end Token

/-! A goal without its end. -/

def Token.last? (text : List Char) : Option Token :=
  (Token.scan text).toOption.bind List.getLast?

theorem Token.exists_last {text : List Char} {token : Token}
    (last : Token.last? text = some token) :
    ∃ tokens, Token.scan text = .ok (tokens ++ [token]) := by
  obtain ⟨tokens, scanned, ends⟩ := Option.bind_eq_some_iff.mp last
  obtain ⟨former, rfl⟩ := List.getLast?_eq_some_iff.mp ends
  refine ⟨former, ?_⟩
  cases result : Token.scan text with
  | error cause =>
      rw [result] at scanned
      cases scanned
  | ok tokens =>
      rw [result] at scanned
      cases scanned
      rfl

namespace Goal

/-- White space with no point or one in it, which ends a clause. -/
inductive Trail : Nat → List Char → Prop
  | blanks {text : List Char} (blank : ∀ c ∈ text, isBlank c = true) : Trail 0 text
  | point {before after : List Char} (blank : ∀ c ∈ before, isBlank c = true)
      (blankAfter : ∀ c ∈ after, isBlank c = true) : Trail 1 (before ++ '.' :: after)

theorem exists_stripped (goal : String) :
    ∃ lead trail points, goal.toList = lead ++ ((withoutClauseEnd goal).toList ++ trail) ∧
      (∀ c ∈ lead, isBlank c = true) ∧ Trail points trail ∧
      (points = 0 → (withoutClauseEnd goal).toList.getLast? ≠ some '.') ∧
      (points = 1 ↔ (trim goal.toList).getLast? = some '.') := by
  obtain ⟨lead, after, whole, blankLead, blankAfter⟩ := exists_trim goal.toList
  by_cases pointed : (trim goal.toList).getLast? = some '.'
  · have stripped : (withoutClauseEnd goal).toList = trimEnd (trim goal.toList).dropLast := by
      simp [withoutClauseEnd, pointed]
    obtain ⟨before, inner, blankBefore⟩ := exists_trimEnd (trim goal.toList).dropLast
    refine ⟨lead, before ++ '.' :: after, 1, ?_, blankLead, .point blankBefore blankAfter, nofun,
      iff_of_true rfl pointed⟩
    have ends := List.dropLast_append_getLast? '.' pointed
    have inside : trim goal.toList ++ after =
        trimEnd (trim goal.toList).dropLast ++ (before ++ '.' :: after) := by
      nth_rewrite 1 [← ends, inner]
      simp
    rw [stripped, ← inside]
    exact whole
  · have stripped : (withoutClauseEnd goal).toList = trim goal.toList := by
      simp [withoutClauseEnd, pointed]
    rw [stripped]
    exact ⟨lead, after, 0, whole, blankLead, .blanks blankAfter, fun _ => pointed,
      iff_of_false nofun pointed⟩

/-- A goal whose text can be put between brackets: a bracket that comes right after the text is a
token of its own, and the text ends in a point exactly if its last token ends the clause. -/
structure FitsBrackets (goal : String) : Prop where
  closed : (Token.last? ((withoutClauseEnd goal).toList ++ [')'])).map Token.start =
    some (byteLength (withoutClauseEnd goal).toList)
  pointed : (trim goal.toList).getLast? = some '.' ↔
    (Token.last? goal.toList).any Token.isEnd = true

open Token

section

variable {text trail after : List Char} {position points : Nat}

theorem Trail.le_one (trailing : Trail points trail) : points ≤ 1 := by
  cases trailing with
  | blanks => exact Nat.zero_le 1
  | point => exact Nat.le_refl 1

theorem Trail.breaks (trailing : Trail points trail) : Breaks trail := by
  cases trailing with
  | blanks blank => exact breaks_blanks blank
  | @point before after blank blankAfter =>
      cases before with
      | nil => exact breaks_clauseEnd (endsClause_of_blanks blankAfter)
      | cons c before => exact breaks_blank (blank c List.mem_cons_self) _

theorem Trail.exists_ends (trailing : Trail points trail) (skips : Skips after) (position : Nat) :
    ∃ ends, scanFrom position (after ++ trail) = .ok ends ∧ OnlyEnds ends ∧
      ends.length = points := by
  have bare : ∀ position, ∃ ends, scanFrom position trail = .ok ends ∧ OnlyEnds ends ∧
      ends.length = points := by
    intro position
    cases trailing with
    | blanks blank => exact ⟨[], scanFrom_skipped (skips_blanks blank) position, nofun, rfl⟩
    | @point before after blank blankAfter =>
        have lexeme := lexeme_clauseEnd (endsClause_of_blanks blankAfter)
        obtain ⟨tokens, shaped, scanned⟩ :=
          lexeme.scans (skips_blanks blank) (.refl after) (.inl rfl) position
        obtain ⟨token, rfl, same⟩ := List.map_eq_singleton_iff.mp shaped
        refine ⟨[token], ?_, ?_, rfl⟩
        · rw [List.append_cons, scanned, scanFrom_skipped (skips_blanks blankAfter)]
          rfl
        · intro other member
          rw [List.mem_singleton.mp member]
          exact congrArg Prod.fst same
  cases after with
  | nil => exact bare position
  | cons c after =>
      obtain ⟨ends, scanned, onlyEnds, count⟩ := bare (position + byteLength (c :: after))
      refine ⟨afterLayout ends, ?_, onlyEnds.afterLayout, ?_⟩
      · rw [scanFrom_skips skips (List.cons_ne_nil c after), scanned]
        rfl
      · cases ends <;> exact count

/-- The last token in front of a closing bracket, or of a point, with what stands before it and
after it. -/
structure LastLexeme (closing : Char) (body gap : List Char) (c : Char) (word after : List Char)
    (kind : TokenKind) (shapes : List (TokenKind × Bool)) : Prop where
  skips : Skips gap
  skipsAfter : Skips after
  lexeme : Lexeme c word (after ++ [closing]) kind
  scans : ∀ other, Exchanged (after ++ [closing]) other →
    Scans body (gap ++ c :: (word ++ other)) (Shaped shapes)

theorem exists_lastLexeme {closing : Char}
    (closed : (Token.last? (text ++ [closing])).map Token.start = some (byteLength text)) :
    Skips text ∨ ∃ body gap c word after kind shapes,
      text = body ++ (gap ++ c :: word) ++ after ∧
        LastLexeme closing body gap c word after kind shapes := by
  obtain ⟨ending, isLast, start⟩ := Option.map_eq_some_iff.mp closed
  obtain ⟨former, scanned⟩ := exists_last isLast
  rcases List.eq_nil_or_concat former with rfl | ⟨former, last, rfl⟩
  · obtain ⟨gap, c, word, rest, whole, skips, _, _, starts, _⟩ := exists_lexeme scanned
    rw [start, Nat.zero_add] at starts
    exact .inl ((append_inj_of_byteLength whole starts).1 ▸ skips)
  · rw [List.concat_eq_append, List.append_assoc] at scanned
    obtain ⟨body, rest, whole, scannedRest, scans⟩ := exists_split scanned
    obtain ⟨gap, c, word, later, rfl, skips, lexeme, _, _, scannedLater⟩ :=
      exists_lexeme scannedRest
    obtain ⟨after, d, tail, final, rfl, skipsAfter, _, _, starts, _⟩ := exists_lexeme scannedLater
    have prefixed : text ++ [closing] =
        (body ++ (gap ++ c :: word) ++ after) ++ d :: (tail ++ final) := by
      rw [whole]
      simp
    have length : byteLength text = byteLength (body ++ (gap ++ c :: word) ++ after) := by
      rw [← start, starts]
      simp only [byteLength_append, byteLength_cons]
      omega
    obtain ⟨rfl, closes⟩ := append_inj_of_byteLength prefixed length
    rw [← closes] at lexeme scans
    refine .inr ⟨body, gap, c, word, after, last.kind, former.map shape, rfl,
      skips, skipsAfter, lexeme, ?_⟩
    intro other exchanged
    refine scans _ (.append gap (.cons c (exchanged.append word))) ?_
    cases gap <;> rfl

section

variable {body gap word : List Char} {c closing : Char} {kind : TokenKind}
  {shapes : List (TokenKind × Bool)}

theorem LastLexeme.scans_through (last : LastLexeme closing body gap c word after kind shapes)
    {other : List Char} (exchanged : Exchanged (after ++ [closing]) other)
    (follows : other.head? = (after ++ [closing]).head? ∨
      (isSymbol c = true → Settles kind other)) :
    Scans (body ++ (gap ++ c :: word)) other
      (Shaped (shapes ++ [(kind, decide (0 < gap.length))])) := by
  have first := last.scans other exchanged
  rw [← List.cons_append, ← List.append_assoc] at first
  apply first.append (last.lexeme.scans last.skips exchanged follows)
  intro former latter isFormer isLatter
  rw [Shaped, List.map_append, isFormer, isLatter]

def Followed (spelled : List Token → Prop) (kind : TokenKind) (tokens : List Token) : Prop :=
  ∃ former token, spelled former ∧ token.kind = kind ∧ tokens = former ++ [token]

theorem scans_followed {before piece rest : List Char} {spelled : List Token → Prop}
    {kind : TokenKind} {spaced : Bool} (scans : Scans before (piece ++ rest) spelled)
    (last : Scans piece rest (Shaped [(kind, spaced)])) :
    Scans (before ++ piece) rest (Followed spelled kind) := by
  apply scans.append last
  intro former latter isFormer isLast
  obtain ⟨token, rfl, same⟩ := List.map_eq_singleton_iff.mp isLast
  exact ⟨former, token, isFormer, congrArg Prod.fst same, rfl⟩

theorem scans_ending {before rest : List Char} {spelled : List Token → Prop} {kind : TokenKind}
    (lexeme : Lexeme closing [] rest kind) (skips : Skips after)
    (scans : Scans before (after ++ closing :: rest) spelled) :
    Scans (before ++ after ++ [closing]) rest (Followed spelled kind) := by
  rw [List.append_cons] at scans
  rw [List.append_assoc]
  exact scans_followed scans (lexeme.scans skips (.refl rest) (.inl rfl))

theorem scans_closing {before : List Char} {spelled : List Token → Prop} (skips : Skips after)
    (scans : ∀ rest, Scans before (after ++ ')' :: rest) spelled) (rest : List Char) :
    Scans (before ++ after ++ [')']) rest (Followed spelled (.punctuation ')')) :=
  scans_ending (lexeme_mark (by decide) rest) skips (scans rest)

theorem LastLexeme.bracketed (last : LastLexeme ')' body gap c word after kind shapes)
    (rest : List Char) : Scans (body ++ (gap ++ c :: word) ++ after ++ [')']) rest
      (Followed (Shaped (shapes ++ [(kind, decide (0 < gap.length))])) (.punctuation ')')) := by
  apply scans_closing last.skipsAfter
  intro rest
  apply last.scans_through
  · exact (Exchanged.breaks (breaks_mark (by decide) rest)).append after
  · cases after with
    | nil => exact .inl rfl
    | cons d after => exact .inl rfl

/-- Where the end of a goal goes on with its last token, that is spelled with symbols. -/
theorem LastLexeme.clash (last : LastLexeme ')' body gap c word after kind shapes)
    (trailing : Trail points trail)
    (runsOn : ¬((after ++ trail).head? = (after ++ [')']).head? ∨
      (isSymbol c = true → Settles kind (after ++ trail)))) :
    after = [] ∧ (c :: word = ['.'] ∧ endsClause trail = true ∨
      points = 1 ∧ isSymbol c = true ∧ (∀ d ∈ word, isSymbol d = true) ∧
        ∃ blanks, trail = '.' :: blanks ∧ ∀ d ∈ blanks, isBlank d = true) := by
  cases after with
  | cons d after => exact absurd (.inl rfl) runsOn
  | nil =>
      rw [not_or] at runsOn
      obtain ⟨symbol, unsettled⟩ := Classical.not_imp.mp runsOn.2
      obtain ⟨rfl, run⟩ := last.lexeme.eq_name symbol rfl
      have symbols : ∀ d ∈ word, isSymbol d = true :=
        fun d member => List.mem_takeWhile_imp (run.symm ▸ member)
      have lonePoint : (∀ d ∈ trail.head?, isSymbol d = false) → c :: word = ['.'] := by
        intro stops
        by_contra other
        refine unsettled ⟨nofun, stops, ?_⟩
        intro _ same
        exact other (String.ofList_injective (TokenKind.name.inj same))
      refine ⟨rfl, ?_⟩
      cases trailing with
      | blanks blank =>
          refine .inl ⟨lonePoint ?_, endsClause_of_blanks blank⟩
          exact fun d found => isSymbol_of_isBlank (blank d (List.mem_of_mem_head? found))
      | @point before blanks blank blankAfter =>
          cases before with
          | nil => exact .inr ⟨rfl, symbol, symbols, blanks, rfl, blankAfter⟩
          | cons d before =>
              have isBlank := blank d List.mem_cons_self
              refine .inl ⟨lonePoint ?_, by simp [endsClause, isBlank]⟩
              intro other found
              cases found
              exact isSymbol_of_isBlank isBlank

/-- A lone point at the end of the text ends the clause before white space. -/
theorem LastLexeme.ends_clause (last : LastLexeme ')' body gap '.' [] [] kind shapes)
    (trailing : Trail points trail) (ends : endsClause trail = true) (position : Nat) :
    ∃ inside ends, scanFrom position (body ++ (gap ++ ['.']) ++ trail) = .ok (inside ++ ends) ∧
      OnlyEnds ends ∧ ends.length = points + 1 := by
  have before : Scans body (gap ++ '.' :: trail) (Shaped shapes) :=
    last.scans trail (.breaks trailing.breaks)
  have point := (lexeme_clauseEnd ends).scans last.skips (.refl trail) (.inl rfl)
  rw [List.append_cons] at before
  obtain ⟨_, ⟨inside, token, _, isEnd, rfl⟩, scanned⟩ := scans_followed before point position
  obtain ⟨others, scannedOthers, onlyEnds, count⟩ := trailing.exists_ends skips_nil
    (position + byteLength (body ++ (gap ++ ['.'])))
  refine ⟨inside, token :: others, ?_, ?_, by rw [List.length_cons, count]⟩
  · rw [List.nil_append] at scannedOthers
    rw [scanned, scannedOthers]
    simp [Except.map]
  · intro other member
    rcases List.mem_cons.mp member with rfl | later
    · exact isEnd
    · exact onlyEnds other later

/-- A point right behind a name of symbols goes on with it, and then it does not end the clause. -/
theorem LastLexeme.joins_point {blanks : List Char}
    (last : LastLexeme ')' body gap c word [] kind shapes) (symbol : isSymbol c = true)
    (symbols : ∀ d ∈ word, isSymbol d = true) (blank : ∀ d ∈ blanks, isBlank d = true)
    (position : Nat) :
    ∃ tokens, scanFrom position (body ++ (gap ++ c :: word) ++ '.' :: blanks) = .ok tokens ∧
      tokens.getLast?.any Token.isEnd = false := by
  have breaks : Breaks ('.' :: blanks) := breaks_clauseEnd (endsClause_of_blanks blank)
  have before : Scans body (gap ++ c :: (word ++ '.' :: blanks)) (Shaped shapes) :=
    last.scans _ (.breaks breaks)
  have stops : ∀ d ∈ blanks.head?, isSymbol d = false :=
    fun d found => isSymbol_of_isBlank (blank d (List.mem_of_mem_head? found))
  have all : ∀ d ∈ word ++ ['.'], isSymbol d = true := by
    intro d member
    rcases List.mem_append.mp member with inner | point
    · exact symbols d inner
    · rw [List.mem_singleton.mp point]
      decide
  have starts := last.lexeme.starts.exchange ((Exchanged.breaks breaks).append word)
  rw [List.append_cons] at starts
  have merged := (lexeme_symbols symbol all (by simp) stops starts).scans last.skips
    (.refl blanks) (.inl rfl)
  have regrouped : gap ++ c :: (word ++ '.' :: blanks) =
      gap ++ c :: (word ++ ['.']) ++ blanks := by
    simp
  rw [regrouped] at before
  obtain ⟨_, ⟨inside, token, _, isName, rfl⟩, scanned⟩ := scans_followed before merged position
  rw [scanFrom_skipped (skips_blanks blank)] at scanned
  have whole : body ++ (gap ++ c :: word) ++ '.' :: blanks =
      body ++ (gap ++ c :: (word ++ ['.'])) ++ blanks := by
    simp
  rw [whole]
  refine ⟨_, scanned, ?_⟩
  simp [Token.isEnd, isName]

end

/-- The tokens of a text in front of a bracket and in front of its end. A point behind a name of
symbols would go on with it, and behind a lone point it would end the clause once more. -/
theorem exists_inside
    (closed : (Token.last? (text ++ [')'])).map Token.start = some (byteLength text))
    (trailing : Trail points trail) (bare : points = 0 → text.getLast? ≠ some '.')
    (ended : points = 1 → ∀ tokens, scanFrom position (text ++ trail) = .ok tokens →
      tokens.getLast?.any Token.isEnd = true) :
    ∃ inside ends, scanFrom position (text ++ trail) = .ok (inside ++ ends) ∧ OnlyEnds ends ∧
      points ≤ ends.length ∧ (ends.length ≤ 1 → ∀ rest, Scans (text ++ [')']) rest
        (Followed (Shaped (inside.map shape)) (.punctuation ')'))) := by
  rcases exists_lastLexeme closed with skips |
    ⟨body, gap, c, word, after, kind, shapes, rfl, last⟩
  · obtain ⟨ends, scanned, onlyEnds, count⟩ := trailing.exists_ends skips position
    refine ⟨[], ends, scanned, onlyEnds, count.ge, ?_⟩
    intro _
    exact scans_closing skips fun rest => scans_nil _
  by_cases follows : (after ++ trail).head? = (after ++ [')']).head? ∨
      (isSymbol c = true → Settles kind (after ++ trail))
  · obtain ⟨inside, shaped, scanned⟩ :=
      last.scans_through ((Exchanged.breaks trailing.breaks).append after) follows position
    obtain ⟨ends, scannedEnds, onlyEnds, count⟩ := trailing.exists_ends last.skipsAfter
      (position + byteLength (body ++ (gap ++ c :: word)))
    refine ⟨inside, ends, ?_, onlyEnds, count.ge, ?_⟩
    · rw [List.append_assoc, scanned, scannedEnds]
      rfl
    · intro _ rest
      rw [show inside.map shape = _ from shaped]
      exact last.bracketed rest
  · obtain ⟨rfl, clash⟩ := last.clash trailing follows
    rcases clash with ⟨point, ends⟩ | ⟨rfl, symbol, symbols, blanks, rfl, blank⟩
    · obtain ⟨rfl, rfl⟩ := List.cons.inj point
      have pointed : points = 1 := by
        have := trailing.le_one
        by_contra none
        exact bare (by omega) (by simp)
      obtain ⟨inside, ends, scanned, onlyEnds, count⟩ := last.ends_clause trailing ends position
      rw [List.append_nil]
      exact ⟨inside, ends, scanned, onlyEnds, by omega, fun single => by omega⟩
    · obtain ⟨tokens, scanned, noEnd⟩ := last.joins_point symbol symbols blank position
      have isEnd := ended rfl tokens (by rw [List.append_nil]; exact scanned)
      rw [noEnd] at isEnd
      cases isEnd

end

theorem any_isEnd_afterLayout (tokens : List Token) :
    (afterLayout tokens).getLast?.any Token.isEnd = tokens.getLast?.any Token.isEnd := by
  cases tokens with
  | nil => rfl
  | cons token others =>
      cases others with
      | nil => rfl
      | cons next others => simp [afterLayout, List.getLast?_cons_cons]

theorem exists_scanned {goal : String} {lead text : List Char} {all : List Token}
    (scanned : scan goal.toList = .ok all) (whole : goal.toList = lead ++ text)
    (blank : ∀ c ∈ lead, isBlank c = true) :
    ∃ tokens, scanFrom (byteLength lead) text = .ok tokens ∧
      (all = tokens ∨ all = afterLayout tokens) := by
  rw [scan, whole] at scanned
  cases lead with
  | nil => exact ⟨all, scanned, .inl rfl⟩
  | cons c lead =>
      rw [scanFrom_skips (skips_blanks blank) (List.cons_ne_nil c lead), Nat.zero_add] at scanned
      cases found : scanFrom (byteLength (c :: lead)) text with
      | error cause =>
          rw [found] at scanned
          cases scanned
      | ok tokens =>
          rw [found] at scanned
          cases scanned
          exact ⟨tokens, rfl, .inr rfl⟩

/-- A goal that fits between brackets is cut into the same tokens there, up to the end of its
clause and the white space before it. -/
theorem FitsBrackets.exists_inside {goal : String} {all : List Token} (fits : FitsBrackets goal)
    (scanned : scan goal.toList = .ok all) :
    ∃ inside ends, (all = inside ++ ends ∨ all = afterLayout (inside ++ ends)) ∧ OnlyEnds ends ∧
      (inside.getLast?.any Token.isEnd = true → ends ≠ []) ∧
      (ends.length ≤ 1 → ∀ rest, Scans ((withoutClauseEnd goal).toList ++ [')']) rest
        (Followed (Shaped (inside.map shape)) (.punctuation ')'))) := by
  obtain ⟨lead, trail, points, whole, blank, trailing, bare, pointed⟩ := exists_stripped goal
  have isLast : Token.last? goal.toList = all.getLast? := by
    rw [Token.last?, scanned]
    rfl
  have ended := fits.pointed
  rw [isLast, ← pointed] at ended
  obtain ⟨tokens, scannedTokens, same⟩ := exists_scanned scanned whole blank
  have lastEnds : all.getLast?.any Token.isEnd = tokens.getLast?.any Token.isEnd := by
    rcases same with rfl | rfl
    · rfl
    · exact any_isEnd_afterLayout tokens
  rw [lastEnds] at ended
  obtain ⟨inside, ends, found, onlyEnds, count, scans⟩ :=
    Goal.exists_inside fits.closed trailing bare fun one others scannedOthers => by
      rw [scannedTokens] at scannedOthers
      cases scannedOthers
      exact ended.mp one
  rw [scannedTokens] at found
  cases found
  refine ⟨inside, ends, same, onlyEnds, ?_, scans⟩
  rintro isEnd rfl
  rw [List.append_nil] at ended
  rw [ended.mpr isEnd] at count
  cases count

/-! A text as it is. -/

section

variable {text trail after : List Char} {position : Nat}

theorem scanFrom_layout (skips : Skips after) (blank : ∀ c ∈ trail, isBlank c = true)
    (position : Nat) : scanFrom position (after ++ trail) = .ok [] :=
  scanFrom_skipped (skips_append skips (skips_blanks blank)) position

theorem scans_layout (skips : Skips after) : Scans after [] (Shaped []) := by
  intro position
  refine ⟨[], rfl, ?_⟩
  rw [scanFrom_layout skips (List.forall_mem_nil _), scanFrom_nil]
  rfl

/-- The tokens of a text in front of white space, alone and in front of a bracket, if its end does
not end a clause. -/
theorem exists_kept
    (closed : (Token.last? (text ++ [')'])).map Token.start = some (byteLength text))
    (blank : ∀ c ∈ trail, isBlank c = true)
    (noEnd : ∀ tokens, scanFrom position (text ++ trail) = .ok tokens →
      tokens.getLast?.any Token.isEnd = false) :
    ∃ inside, scanFrom position (text ++ trail) = .ok inside ∧
      Scans text [] (Shaped (inside.map shape)) ∧
      ∀ rest, Scans (text ++ [')']) rest
        (Followed (Shaped (inside.map shape)) (.punctuation ')')) := by
  rcases exists_lastLexeme closed with skips |
    ⟨body, gap, c, word, after, kind, shapes, rfl, last⟩
  · exact ⟨[], scanFrom_layout skips blank position, scans_layout skips,
      scans_closing skips fun rest => scans_nil _⟩
  · have follows : ∀ {other}, (∀ c ∈ other, isBlank c = true) →
        (after ++ other).head? = (after ++ [')']).head? ∨
          (isSymbol c = true → Settles kind (after ++ other)) := by
      intro other otherBlank
      by_contra runsOn
      obtain ⟨rfl, ⟨point, _⟩ | ⟨one, _⟩⟩ := last.clash (.blanks otherBlank) runsOn
      · obtain ⟨rfl, rfl⟩ := List.cons.inj point
        obtain ⟨inside, ends, scanned, onlyEnds, count⟩ :=
          last.ends_clause (.blanks blank) (endsClause_of_blanks blank) position
        obtain ⟨token, rfl⟩ := List.length_eq_one_iff.mp count
        have isLast := noEnd _ (by rw [List.append_nil]; exact scanned)
        rw [List.getLast?_concat, Option.any_some, isEnd,
          onlyEnds token List.mem_cons_self] at isLast
        cases isLast
      · cases one
    have scans : ∀ {other}, (∀ c ∈ other, isBlank c = true) →
        Scans (body ++ (gap ++ c :: word)) (after ++ other) _ := fun otherBlank =>
      last.scans_through ((Exchanged.breaks (breaks_blanks otherBlank)).append after)
        (follows otherBlank)
    obtain ⟨inside, shaped, scanned⟩ := scans blank position
    refine ⟨inside, ?_, ?_, ?_⟩
    · rw [List.append_assoc, scanned, scanFrom_layout last.skipsAfter blank]
      exact congrArg Except.ok (List.append_nil inside)
    · apply (scans (List.forall_mem_nil _)).append (scans_layout last.skipsAfter)
      intro former others isFormer none
      obtain rfl := List.map_eq_nil_iff.mp none
      rw [List.append_nil, Shaped, isFormer, shaped]
    · rw [show inside.map shape = _ from shaped]
      exact last.bracketed

end

/-- A text that can be put between brackets as it is: a bracket that comes right after it is a token
of its own, and its last token does not end a clause. -/
structure StandsBetween (text : String) : Prop where
  closed : (Token.last? (text.toList ++ [')'])).map Token.start = some (byteLength text.toList)
  unended : (Token.last? text.toList).any Token.isEnd = false

instance (text : String) : Decidable (StandsBetween text) :=
  decidable_of_iff (_ ∧ _) ⟨fun both => ⟨both.1, both.2⟩, fun stands => ⟨stands.1, stands.2⟩⟩

theorem StandsBetween.scans {text : String} {tokens : List Token} (stands : StandsBetween text)
    (scanned : scan text.toList = .ok tokens) :
    tokens.getLast?.any Token.isEnd = false ∧ ∀ rest, Scans (text.toList ++ [')']) rest
      (Followed (Shaped (tokens.map shape)) (.punctuation ')')) := by
  have unended : tokens.getLast?.any Token.isEnd = false := by
    have unended := stands.unended
    rw [Token.last?, scanned] at unended
    exact unended
  have whole : scanFrom 0 (text.toList ++ []) = .ok tokens := by
    rwa [List.append_nil]
  have noEnd : ∀ others, scanFrom 0 (text.toList ++ []) = .ok others →
      others.getLast?.any Token.isEnd = false := by
    intro others found
    cases whole.symm.trans found
    exact unended
  obtain ⟨inside, found, _, scans⟩ := exists_kept stands.closed (List.forall_mem_nil _) noEnd
  cases whole.symm.trans found
  exact ⟨unended, scans⟩

end Goal

end HornQuery
