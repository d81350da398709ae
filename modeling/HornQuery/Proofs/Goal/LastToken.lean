import HornQuery.Proofs.Goal.Brackets
import HornQuery.Proofs.Term.Nesting

namespace HornQuery

open Text Token

/-! What is cut off. -/

namespace Goal

section

variable {trail : List Char} {points : Nat}

theorem Trail.loose (trailing : Trail points trail) : Loose trail := by
  cases trailing with
  | blanks blank => exact fun c member => .inl (blank c member)
  | point blank blankAfter =>
      intro c member
      rcases List.mem_append.mp member with before | later
      · exact .inl (blank c before)
      · exact (List.mem_cons.mp later).symm.imp_left (blankAfter c)

/-- What can be seen of it is the point, and only white space comes after that. -/
theorem Trail.eq_point {c : Char} {before after : List Char}
    (trailing : Trail points (before ++ c :: after)) (visible : isBlank c = false) :
    c = '.' ∧ ∀ d ∈ after, isBlank d = true := by
  generalize same : before ++ c :: after = trail at trailing
  cases trailing with
  | blanks blank =>
      rw [blank c (by rw [← same]; simp)] at visible
      cases visible
  | @point first last blank blankAfter =>
      rcases List.append_eq_append_iff.mp same with ⟨more, rfl, ends⟩ | ⟨more, rfl, ends⟩
      · cases more with
        | nil =>
            obtain ⟨rfl, rfl⟩ := List.cons.inj ends
            exact ⟨rfl, blankAfter⟩
        | cons d more =>
            obtain ⟨rfl, -⟩ := List.cons.inj ends
            rw [blank c (by simp)] at visible
            cases visible
      · cases more with
        | nil =>
            obtain ⟨rfl, rfl⟩ := List.cons.inj ends
            exact ⟨rfl, blankAfter⟩
        | cons d more =>
            obtain ⟨-, rfl⟩ := List.cons.inj ends
            rw [blankAfter c (by simp)] at visible
            cases visible

end

end Goal

namespace Token

open Goal

section

variable {position points : Nat} {text trail body gap word more lost start rest kept : List Char}
  {c : Char} {former ends : List Token} {token : Token}

theorem exchanged_cut (kept trail : List Char) : Exchanged (kept ++ trail) kept := by
  have cut : Exchanged trail [] := by
    cases trail with
    | nil => exact .nil
    | cons c trail => exact .breaks breaks_nil
  have kept := cut.append kept
  rwa [List.append_nil] at kept

theorem exists_fewerEnds (loose : Loose trail) (onlyEnds : OnlyEnds ends)
    (scanned : scanFrom position (kept ++ trail) = .ok ends) (place : Nat) :
    ∃ fewer, scanFrom place kept = .ok fewer ∧ OnlyEnds fewer ∧ fewer.length ≤ ends.length := by
  induction ends generalizing position place kept with
  | nil =>
      have layout := layoutLength_of_scanFrom scanned
      exact ⟨[], scanFrom_shortened layout loose place, nofun, Nat.le_refl 0⟩
  | cons token ends induction =>
      obtain ⟨isEnd, others⟩ := List.forall_mem_cons.mp onlyEnds
      obtain ⟨gap, c, word, rest, whole, skips, lexeme, _, _, scannedRest⟩ := exists_lexeme scanned
      have inGap : ∀ {before}, gap = kept ++ before → Loose before →
          ∃ fewer, scanFrom place kept = .ok fewer ∧ OnlyEnds fewer ∧
            fewer.length ≤ (token :: ends).length := by
        rintro before rfl looseBefore
        have layout := skips position []
        rw [List.append_nil, layoutLength] at layout
        exact ⟨[], scanFrom_shortened layout looseBefore place, nofun, Nat.zero_le _⟩
      rcases List.append_eq_append_iff.mp whole with ⟨before, isGap, rfl⟩ | ⟨later, rfl, inside⟩
      · exact inGap isGap fun c member => loose c (List.mem_append_left _ member)
      · cases later with
        | nil => exact inGap (by simp) (List.forall_mem_nil _)
        | cons d later =>
            obtain ⟨rfl, same⟩ := List.cons.inj inside
            rw [isEnd] at lexeme
            obtain ⟨rfl, rfl, goesOn⟩ := lexeme.eq_point
            rw [List.nil_append, List.append_eq] at same
            subst same
            have stillEnds : endsClause later = true := by
              cases later with
              | nil => rfl
              | cons d later => exact goesOn
            obtain ⟨fewer, scannedLater, onlyFewer, count⟩ :=
              induction others scannedRest (place + byteLength (gap ++ ['.']))
            obtain ⟨tokens, shaped, scannedEnd⟩ :=
              (lexeme_clauseEnd stillEnds).scans skips (.refl later) (.inl rfl) place
            obtain ⟨last, rfl, kind⟩ := List.map_eq_singleton_iff.mp shaped
            refine ⟨last :: fewer, ?_, ?_, Nat.succ_le_succ count⟩
            · rw [List.append_cons, scannedEnd, scannedLater]
              rfl
            · exact List.forall_mem_cons.mpr ⟨congrArg Prod.fst kind, onlyFewer⟩

/-! The last token. -/

/-- The last token of a text, but for what ends the clause, with what stands around it. -/
structure LastRead (position : Nat) (text body gap : List Char) (c : Char) (word rest : List Char)
    (former : List Token) (token : Token) (ends : List Token) : Prop where
  whole : text = body ++ (gap ++ c :: (word ++ rest))
  skips : Skips gap
  lexeme : Lexeme c word rest token.kind
  noEnd : token.kind ≠ .clauseEnd
  shaped : shape token = (token.kind, decide (0 < gap.length))
  stop : token.stop = position + byteLength (body ++ (gap ++ c :: word))
  scans : ∀ other, Exchanged (gap ++ c :: (word ++ rest)) other →
    other.head? = (gap ++ c :: (word ++ rest)).head? → Scans body other (Shaped (former.map shape))
  scannedRest : ∃ place, scanFrom place rest = .ok ends
  onlyEnds : OnlyEnds ends

theorem exists_lastRead (scanned : scanFrom position text = .ok (former ++ token :: ends))
    (noEnd : token.kind ≠ .clauseEnd) (onlyEnds : OnlyEnds ends) :
    ∃ body gap c word rest, LastRead position text body gap c word rest former token ends := by
  obtain ⟨body, later, whole, scannedLater, scans⟩ := exists_split scanned
  obtain ⟨gap, c, word, rest, rfl, skips, lexeme, shaped, _, scannedRest⟩ :=
    exists_lexeme scannedLater
  have stop := lexeme.stop_eq skips scannedLater
  rw [Nat.add_assoc, ← byteLength_append] at stop
  exact ⟨body, gap, c, word, rest, whole, skips, lexeme, noEnd, shaped, stop, scans,
    ⟨_, scannedRest⟩, onlyEnds⟩

/-- The last token starts in what is kept, for what can be seen of the rest would end the
clause. -/
theorem LastRead.exists_start
    (last : LastRead position (kept ++ trail) body gap c word rest former token ends)
    (trailing : Trail points trail) :
    ∃ start, kept = body ++ (gap ++ c :: start) ∧ start ++ trail = word ++ rest := by
  have outside : ∀ before, trail ≠ before ++ c :: (word ++ rest) := by
    rintro before rfl
    obtain ⟨rfl, blank⟩ := trailing.eq_point last.lexeme.starts.visible
    have goesOn := last.lexeme.endsClause_eq_false last.noEnd
    rw [endsClause_of_blanks blank] at goesOn
    cases goesOn
  have whole : kept ++ trail = (body ++ gap) ++ c :: (word ++ rest) := by
    rw [last.whole, List.append_assoc]
  rcases List.append_eq_append_iff.mp whole with ⟨before, _, inside⟩ | ⟨later, rfl, inside⟩
  · exact absurd inside (outside before)
  · cases later with
    | nil => exact absurd inside.symm (outside [])
    | cons d later =>
        obtain ⟨rfl, same⟩ := List.cons.inj inside
        exact ⟨later, by simp, same.symm⟩

theorem exists_lost_or_more (same : start ++ trail = word ++ rest) :
    (∃ lost, lost ≠ [] ∧ word = start ++ lost ∧ trail = lost ++ rest) ∨
      ∃ more, start = word ++ more ∧ rest = more ++ trail := by
  rcases List.append_eq_append_iff.mp same with ⟨lost, rfl, rfl⟩ | ⟨more, rfl, rfl⟩
  · by_cases none : lost = []
    · subst none
      exact .inr ⟨[], by simp, rfl⟩
    · exact .inl ⟨lost, none, rfl, rfl⟩
  · exact .inr ⟨more, rfl, rfl⟩

/-! A last token that is kept. -/

/-- A lone point does not stand in front of what is cut off: it would end the clause there, or go
on with the point that does. -/
theorem LastRead.settles
    (last : LastRead position text body gap c word trail former token ends)
    (trailing : Trail points trail) (symbol : isSymbol c = true) : Settles token.kind [] := by
  refine ⟨last.noEnd, nofun, fun _ point => ?_⟩
  obtain ⟨named, run⟩ := last.lexeme.eq_symbols last.noEnd symbol
  have letters : String.ofList (c :: word) = "." := TokenKind.name.inj (named.symm.trans point)
  obtain ⟨rfl, rfl⟩ : c = '.' ∧ word = [] := by
    have same := congrArg String.toList letters
    rw [String.toList_ofList] at same
    exact List.cons.inj same
  have goesOn := last.lexeme.endsClause_eq_false last.noEnd
  cases trail with
  | nil => cases goesOn
  | cons d after =>
      rw [List.nil_append, endsClause, Bool.or_eq_false_iff] at goesOn
      rw [← List.nil_append (d :: after)] at trailing
      obtain ⟨rfl, -⟩ := trailing.eq_point goesOn.1
      exact absurd run (by simp [show isSymbol '.' = true by decide])

theorem LastRead.exists_alike
    (last : LastRead position text body gap c word (more ++ trail) former token ends)
    (trailing : Trail points trail) :
    ∃ latter fewer, scan (body ++ (gap ++ c :: (word ++ more))) = .ok (latter ++ fewer) ∧
      Term.Alike (former ++ [token]) latter ∧ OnlyEnds fewer ∧ fewer.length ≤ ends.length := by
  have exchanged := exchanged_cut more trail
  have follows : more.head? = (more ++ trail).head? ∨
      (isSymbol c = true → Settles token.kind more) := by
    cases more with
    | nil => exact .inr (last.settles trailing)
    | cons d more => exact .inl rfl
  have before : Scans body (gap ++ c :: word ++ more) (Shaped (former.map shape)) := by
    rw [List.append_assoc, List.cons_append]
    exact last.scans _ (.append gap (.cons c (exchanged.append word))) (by cases gap <;> rfl)
  have whole : Scans (body ++ (gap ++ c :: word)) more (Shaped ((former ++ [token]).map shape)) := by
    apply before.append (last.lexeme.scans last.skips exchanged follows)
    intro first second isFirst isSecond
    rw [Shaped, List.map_append, isFirst, isSecond, List.map_append, ← last.shaped]
    rfl
  obtain ⟨latter, alike, scanned⟩ := whole 0
  obtain ⟨place, scannedRest⟩ := last.scannedRest
  obtain ⟨fewer, scannedMore, onlyFewer, count⟩ :=
    exists_fewerEnds trailing.loose last.onlyEnds scannedRest
      (0 + byteLength (body ++ (gap ++ c :: word)))
  refine ⟨latter, fewer, ?_, alike, onlyFewer, count⟩
  have regrouped : body ++ (gap ++ c :: (word ++ more)) = body ++ (gap ++ c :: word) ++ more := by
    simp
  rw [scan, regrouped, scanned, scannedMore]
  rfl

/-! A last token that is cut. -/

theorem LastRead.scans_cut
    (last : LastRead position text body gap c (start ++ lost) rest former token ends) :
    Scans body (gap ++ c :: start) (Shaped (former.map shape)) := by
  have exchanged : Exchanged (start ++ lost ++ rest) start := by
    rw [List.append_assoc]
    exact exchanged_cut start (lost ++ rest)
  exact last.scans _ (.append gap (.cons c exchanged)) (by cases gap <;> rfl)

theorem LastRead.starts_cut
    (last : LastRead position text body gap c (start ++ lost) rest former token ends) :
    Starts c start := by
  apply last.lexeme.starts.exchange
  rw [List.append_assoc]
  exact exchanged_cut start (lost ++ rest)

theorem exists_error_of_cutCode (skips : Skips gap) (place : Nat) :
    ∃ cause, scanFrom place (gap ++ ['0', '\x27']) = .error cause := by
  have starts : Starts '0' ['\x27'] :=
    ⟨by decide, by decide, fun opening => absurd opening.1 (by decide)⟩
  have layout := skips place ['0', '\x27']
  rw [starts.layoutLength_eq] at layout
  rw [scanFrom_of_token layout List.drop_left rfl]
  exact ⟨_, rfl⟩

/-- A name of symbols is a shorter one without its last characters, or what ends the clause. -/
theorem exists_cutLexeme (starts : Starts c start) (symbol : isSymbol c = true)
    (all : ∀ d ∈ start, isSymbol d = true) :
    ∃ kind, Lexeme c start [] kind ∧
      (kind = .clauseEnd ∨ kind = .name (String.ofList (c :: start))) := by
  cases lone : (c = '.' && endsClause start) with
  | true =>
      obtain ⟨point, ends⟩ := Bool.and_eq_true_iff.mp lone
      cases start with
      | nil =>
          rw [of_decide_eq_true point]
          exact ⟨.clauseEnd, lexeme_clauseEnd rfl, .inl rfl⟩
      | cons d start =>
          have visible := visible_of_isSymbol (all d List.mem_cons_self)
          simp [endsClause, visible] at ends
  | false =>
      refine ⟨_, ⟨by rwa [List.append_nil], ?_⟩, .inr rfl⟩
      intro place other exchanged _
      cases exchanged
      rw [List.append_nil, scanOne_symbol place symbol lone, List.takeWhile_eq_self_iff.mpr all]

theorem LastRead.exists_cutName
    (last : LastRead position text body gap c (start ++ lost) rest former token ends)
    (symbol : isSymbol c = true) (all : ∀ d ∈ start, isSymbol d = true) :
    ∃ latter cut, scan (body ++ (gap ++ c :: start)) = .ok (latter ++ [cut]) ∧
      Term.Alike former latter ∧
      (cut.kind = .clauseEnd ∨ cut.kind = .name (String.ofList (c :: start))) := by
  obtain ⟨kind, lexeme, isCut⟩ := exists_cutLexeme last.starts_cut symbol all
  obtain ⟨latter, alike, scannedBody⟩ := last.scans_cut 0
  obtain ⟨tokens, shaped, scannedName⟩ :=
    lexeme.scans last.skips .nil (.inl rfl) (0 + byteLength body)
  obtain ⟨cut, rfl, same⟩ := List.map_eq_singleton_iff.mp shaped
  have isKind : cut.kind = kind := congrArg Prod.fst same
  rw [List.append_nil, scanFrom_nil] at scannedName
  refine ⟨latter, cut, ?_, alike, isKind ▸ isCut⟩
  rw [scan, scannedBody, scannedName]
  rfl

/-- What is cut is a name of symbols or the code of a character. -/
theorem LastRead.symbol_or_code
    (last : LastRead position text body gap c (start ++ lost) rest former token ends)
    (nonempty : lost ≠ []) (loose : Loose lost) :
    isSymbol c = true ∨ c = '0' ∧ start = ['\x27'] := by
  have ending := last.lexeme.ending
  generalize same : token.kind = kind at ending
  cases ending with
  | clauseEnd => exact absurd same last.noEnd
  | symbols symbol => exact .inl symbol
  | firm _ _ firm => exact absurd (firm.eq_nil loose) nonempty
  | code d _ zero coded =>
      refine .inr ⟨zero, ?_⟩
      rcases List.append_eq_cons_iff.mp coded with ⟨rfl, rfl⟩ | ⟨more, rfl, others⟩
      · rcases loose '\x27' List.mem_cons_self with blank | point
        · exact absurd blank (by decide)
        · exact absurd point (by decide)
      · rcases List.append_eq_singleton_iff.mp others.symm with ⟨rfl, _⟩ | ⟨_, none⟩
        · rfl
        · exact absurd none nonempty

end

end Token

end HornQuery
