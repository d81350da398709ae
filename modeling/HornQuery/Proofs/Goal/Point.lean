import HornQuery.Proofs.Goal.Brackets

namespace HornQuery.Goal

open Text Token

/-- A goal whose text can be put in front of a point. Either the point is a token of its own there,
the only one that ends a clause, or it is the point that the goal itself has right there as a part
of its last token. -/
inductive FitsPoint (goal : String) : Prop
  | parted
      (closed : (Token.last? ((withoutClauseEnd goal).toList ++ ['.'])).map Token.start =
        some (byteLength (withoutClauseEnd goal).toList))
      (pointed : (Token.last? goal.toList).any Token.isEnd = true →
        (trim goal.toList).getLast? = some '.')
  | kept
      (own : (withoutClauseEnd goal).toList ++ ['.'] = trim goal.toList)
      (closed : (Token.last? (trim goal.toList ++ [')'])).map Token.start =
        some (byteLength (trim goal.toList)))
      (noEnd : (Token.last? goal.toList).any Token.isEnd = false)

section

variable {text trail body gap word after : List Char} {c : Char} {kind : TokenKind}
  {shapes : List (TokenKind × Bool)} {position points : Nat}

theorem LastLexeme.noSymbol (last : LastLexeme '.' body gap c word [] kind shapes) :
    isSymbol c = false := by
  rw [← Bool.not_eq_true]
  intro symbol
  obtain ⟨-, run⟩ := last.lexeme.eq_name symbol rfl
  rw [List.nil_append] at run
  have all : ∀ d ∈ word, isSymbol d = true :=
    fun d member => List.mem_takeWhile_imp (run.symm ▸ member)
  rw [List.takeWhile_append_of_pos all] at run
  exact absurd (congrArg List.length run) (by simp [show isSymbol '.' = true by decide])

theorem LastLexeme.follows (last : LastLexeme '.' body gap c word after kind shapes)
    (other : List Char) : (after ++ other).head? = (after ++ ['.']).head? ∨
      (isSymbol c = true → Settles kind (after ++ other)) := by
  cases after with
  | cons d after => exact .inl rfl
  | nil =>
      refine .inr fun symbol => ?_
      rw [last.noSymbol] at symbol
      cases symbol

def Ended (inside tokens : List Token) : Prop :=
  ∃ former ends, Shaped (inside.map shape) former ∧ OnlyEnds ends ∧ ends.length ≤ 1 ∧
    tokens = former ++ ends

theorem Followed.ended (inside : List Token) {tokens : List Token}
    (followed : Followed (Shaped (inside.map shape)) .clauseEnd tokens) : Ended inside tokens := by
  obtain ⟨former, token, shaped, isEnd, rfl⟩ := followed
  refine ⟨former, [token], shaped, ?_, Nat.le_refl 1, rfl⟩
  intro other member
  exact List.mem_singleton.mp member ▸ isEnd

theorem exists_pointed
    (closed : (Token.last? (text ++ ['.'])).map Token.start = some (byteLength text))
    (trailing : Trail points trail) :
    ∃ inside ends, scanFrom position (text ++ trail) = .ok (inside ++ ends) ∧ OnlyEnds ends ∧
      ends.length = points ∧ Scans (text ++ ['.']) [] (Ended inside) := by
  rcases exists_lastLexeme closed with skips |
    ⟨body, gap, c, word, after, kind, shapes, rfl, last⟩
  · obtain ⟨ends, scanned, onlyEnds, count⟩ := trailing.exists_ends skips position
    refine ⟨[], ends, scanned, onlyEnds, count, ?_⟩
    exact (scans_ending (lexeme_clauseEnd rfl) skips (scans_nil _)).imp fun _ =>
      Followed.ended []
  · obtain ⟨inside, shaped, scanned⟩ := last.scans_through
      ((Exchanged.breaks trailing.breaks).append after) (last.follows trail) position
    obtain ⟨ends, scannedEnds, onlyEnds, count⟩ := trailing.exists_ends last.skipsAfter
      (position + byteLength (body ++ (gap ++ c :: word)))
    refine ⟨inside, ends, ?_, onlyEnds, count, ?_⟩
    · rw [List.append_assoc, scanned, scannedEnds]
      rfl
    · have through := last.scans_through
        ((Exchanged.breaks (breaks_clauseEnd (rfl : endsClause [] = true))).append after)
        (last.follows _)
      rw [← show inside.map shape = _ from shaped] at through
      exact (scans_ending (lexeme_clauseEnd rfl) last.skipsAfter through).imp fun _ =>
        Followed.ended inside

end

/-- A goal that fits in front of a point is cut into the same tokens there, up to the end of its
clause and the white space before it. -/
theorem FitsPoint.exists_inside {goal : String} {all : List Token} (fits : FitsPoint goal)
    (scanned : scan goal.toList = .ok all) :
    ∃ inside ends, (all = inside ++ ends ∨ all = afterLayout (inside ++ ends)) ∧ OnlyEnds ends ∧
      (inside.getLast?.any Token.isEnd = true → ends ≠ []) ∧
      Scans ((withoutClauseEnd goal).toList ++ ['.']) [] (Ended inside) := by
  have isLast : Token.last? goal.toList = all.getLast? := by
    rw [Token.last?, scanned]
    rfl
  have lastOf : ∀ {tokens}, all = tokens ∨ all = afterLayout tokens →
      all.getLast?.any Token.isEnd = tokens.getLast?.any Token.isEnd := by
    rintro tokens (rfl | rfl)
    · rfl
    · exact any_isEnd_afterLayout tokens
  cases fits with
  | parted closed pointed =>
      obtain ⟨lead, trail, points, whole, blank, trailing, _, isPoint⟩ := exists_stripped goal
      obtain ⟨tokens, scannedTokens, same⟩ := exists_scanned scanned whole blank
      obtain ⟨inside, ends, found, onlyEnds, count, scans⟩ := exists_pointed closed trailing
      rw [scannedTokens] at found
      cases found
      refine ⟨inside, ends, same, onlyEnds, ?_, scans⟩
      rintro isEnd rfl
      have lastEnds := lastOf same
      rw [List.append_nil, isEnd, ← isLast] at lastEnds
      rw [isPoint.mpr (pointed lastEnds)] at count
      cases count
  | kept own closed noEnd =>
      obtain ⟨lead, trail, whole, blank, blankTrail⟩ := exists_trim goal.toList
      obtain ⟨tokens, scannedTokens, same⟩ := exists_scanned scanned whole blank
      rw [isLast, lastOf same] at noEnd
      obtain ⟨inside, found, scans, _⟩ := exists_kept closed blankTrail fun others scannedOthers => by
        rw [scannedTokens] at scannedOthers
        cases scannedOthers
        exact noEnd
      rw [scannedTokens] at found
      cases found
      rw [own]
      have none : OnlyEnds [] := List.forall_mem_nil _
      refine ⟨tokens, [], by rwa [List.append_nil], none, ?_, ?_⟩
      · intro isEnd
        rw [noEnd] at isEnd
        cases isEnd
      · exact scans.imp fun former shaped =>
          ⟨former, [], shaped, none, Nat.zero_le 1, (List.append_nil former).symm⟩

/-- The point of the goal belongs to its last name, and it does so in the rule. -/
example : FitsPoint "X = =." :=
  .kept (by decide +kernel) (by decide +kernel) (by decide +kernel)

end HornQuery.Goal
