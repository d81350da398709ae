import HornQuery.Proofs.Token.Positions

namespace HornQuery.Token

open Text

/-- White space and comments in front of a text. A line comment ends where its line ends, a block
comment where its end first stands. -/
inductive Layout (after : List Char) : List Char → Prop
  | nil : Layout after []
  | blank {c : Char} {gap : List Char} (blank : isBlank c = true) (more : Layout after gap) :
      Layout after (c :: gap)
  | line {comment gap : List Char} (inside : '\n' ∉ comment)
      (ends : ∀ c ∈ (gap ++ after).head?, c = '\n') (more : Layout after gap) :
      Layout after ('%' :: (comment ++ gap))
  | block {inside gap : List Char} (first : ¬['*', '/'] <:+: inside ++ ['*'])
      (more : Layout after gap) : Layout after ('/' :: '*' :: (inside ++ '*' :: '/' :: gap))

/-- The stretches before, between and after the tokens that come from a byte position on. -/
def gaps (size position : Nat) : List Token → List (Nat × Nat)
  | [] => [(position, size)]
  | token :: others => (position, token.start) :: gaps size token.stop others

/-- How the tokens from a byte position on cut up the text. -/
structure Spans (text : List Char) (position : Nat) (tokens : List Token) : Prop where
  within : ∀ token ∈ tokens, position ≤ token.start
  nonempty : ∀ token ∈ tokens, token.start < token.stop
  ordered : tokens.Pairwise fun former latter =>
    former.start < latter.start ∧ former.stop ≤ latter.start
  boundaries : ∀ token ∈ tokens, IsBoundary text token.start ∧ IsBoundary text token.stop
  layout : ∀ gap ∈ gaps (byteLength text) position tokens, ∃ between after,
    slice? text gap.1 gap.2 = some between ∧ slice? text gap.2 (byteLength text) = some after ∧
      Layout after between
  layoutBefore : ∀ pair ∈ tokens.zip (gaps (byteLength text) position tokens),
    pair.1.layoutBefore = true ↔ pair.2.1 < pair.2.2

variable {text rest gap after : List Char} {position skipped : Nat} {token : Token}
  {tokens : List Token}

theorem exists_layout (layout : layoutLength position text = .ok skipped) :
    ∃ gap after, text = gap ++ after ∧ skipped = gap.length ∧ Layout after gap := by
  fun_induction layoutLength position text generalizing skipped with
  | case1 =>
      cases layout
      exact ⟨[], [], rfl, rfl, .nil⟩
  | case2 position c text blank induction =>
      obtain ⟨more, isMore, done⟩ := bind_eq_ok.mp layout
      cases done
      obtain ⟨gap, after, rfl, rfl, isLayout⟩ := induction isMore
      exact ⟨c :: gap, after, rfl, Nat.add_comm 1 _, .blank blank isLayout⟩
  | case3 position text comment visible =>
      rename_i induction
      obtain ⟨line, rest, rfl, all, stops⟩ := exists_run (· ≠ '\n') text
      have run : comment = line := takeWhile_append_of_stops all stops
      rw [run, List.drop_left] at layout induction
      obtain ⟨more, isMore, done⟩ := bind_eq_ok.mp layout
      cases done
      obtain ⟨gap, after, rfl, rfl, isLayout⟩ := induction isMore
      refine ⟨'%' :: (line ++ gap), after, by simp, by simp; omega, .line ?_ ?_ isLayout⟩
      · exact fun member => of_decide_eq_true (all '\n' member) rfl
      · simpa using stops
  | case4 => cases layout
  | case5 position c text visible noLine opens width isBlock comment =>
      rename_i induction
      simp only [Bool.and_eq_true, decide_eq_true_eq] at opens
      obtain ⟨rfl, star⟩ := opens
      obtain ⟨text, rfl⟩ := List.head?_eq_some_iff.mp star
      obtain ⟨inside, rest, same, rfl, first, _⟩ := Sliced.exists_find? isBlock
      rw [List.drop_succ_cons, List.drop_zero] at same
      subst same
      have left : ('*' :: (inside ++ '*' :: '/' :: rest)).drop (1 + (inside.length + 2)) = rest := by
        simp [Nat.add_comm 1]
      rw [left] at layout induction
      obtain ⟨more, isMore, done⟩ := bind_eq_ok.mp layout
      cases done
      obtain ⟨gap, after, rfl, rfl, isLayout⟩ := induction isMore
      exact ⟨'/' :: '*' :: (inside ++ '*' :: '/' :: gap), after, by simp, by simp; omega,
        .block first isLayout⟩
  | case6 position c text visible noLine noBlock =>
      cases layout
      exact ⟨[], c :: text, rfl, rfl, .nil⟩

theorem layout_of_layoutLength (layout : layoutLength position (gap ++ after) = .ok gap.length) :
    Layout after gap := by
  obtain ⟨other, later, same, length, isLayout⟩ := exists_layout layout
  obtain ⟨rfl, rfl⟩ := List.append_inj same length
  exact isLayout

theorem spans_nil (goesOn : GoesOn text position rest) (isLayout : Layout [] rest) :
    Spans text position [] where
  within := nofun
  nonempty := nofun
  ordered := .nil
  boundaries := nofun
  layout := by
    intro gap member
    obtain rfl := List.mem_singleton.mp member
    exact ⟨rest, [], goesOn.slice?_rest, (goesOn_byteLength text).slice?_rest, isLayout⟩
  layoutBefore := nofun

theorem spans_cons (goesOn : GoesOn text position (gap ++ rest)) (isLayout : Layout rest gap)
    (starts : token.start = position + byteLength gap)
    (before : token.layoutBefore = decide (0 < gap.length)) (covers : token.start < token.stop)
    (ends : IsBoundary text token.stop) (later : Spans text token.stop tokens) :
    Spans text position (token :: tokens) where
  within := by
    intro other member
    rcases List.mem_cons.mp member with rfl | member
    · omega
    · have := later.within other member
      omega
  nonempty := List.forall_mem_cons.mpr ⟨covers, later.nonempty⟩
  ordered := by
    refine .cons (fun other member => ?_) later.ordered
    have := later.within other member
    exact ⟨by omega, this⟩
  boundaries := List.forall_mem_cons.mpr ⟨⟨starts ▸ goesOn.after.isBoundary, ends⟩, later.boundaries⟩
  layout := by
    refine List.forall_mem_cons.mpr ⟨⟨gap, rest, ?_, ?_, isLayout⟩, later.layout⟩
    · rw [starts]
      exact goesOn.slice?_part
    · rw [starts]
      exact goesOn.after.slice?_rest
  layoutBefore := by
    refine List.forall_mem_cons.mpr ⟨?_, later.layoutBefore⟩
    rw [before, decide_eq_true_iff, starts]
    cases gap with
    | nil => simp
    | cons c gap => simp [c.utf8Size_pos]

theorem spans_of_scanFrom (goesOn : GoesOn text position rest)
    (scanned : scanFrom position rest = .ok tokens) : Spans text position tokens := by
  induction tokens generalizing position rest with
  | nil =>
      have layout := layoutLength_of_scanFrom scanned
      rw [← List.append_nil rest] at layout
      exact spans_nil goesOn (layout_of_layoutLength (by simpa using layout))
  | cons token tokens induction =>
      obtain ⟨gap, c, word, after, rfl, skips, lexeme, shaped, starts, scannedAfter⟩ :=
        exists_lexeme scanned
      have stops := lexeme.stop_eq skips scanned
      have layout := skips position (c :: (word ++ after))
      rw [lexeme.starts.layoutLength_eq] at layout
      have whole : GoesOn text position (gap ++ c :: word ++ after) := by simpa using goesOn
      rw [← stops] at scannedAfter
      have later := stops ▸ whole.after
      refine spans_cons goesOn (layout_of_layoutLength layout) starts ?_ ?_ later.isBoundary
        (induction later scannedAfter)
      · exact congrArg Prod.snd shaped
      · rw [starts, stops, byteLength_append, byteLength_cons]
        have := c.utf8Size_pos
        omega

theorem spans_of_scan (scanned : scan text = .ok tokens) : Spans text 0 tokens :=
  spans_of_scanFrom (goesOn_zero text) scanned

end HornQuery.Token
