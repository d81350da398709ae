import HornQuery.Proofs.Goal.LastToken
import HornQuery.Proofs.Term.Equality

namespace HornQuery

open Text Token Goal

/-! Where a text is cut. -/

section

variable {text : String} {lead trail : List Char}

theorem withoutClauseEnd_isPrefix (text : String) :
    (withoutClauseEnd text).toList <+: trim text.toList := by
  simp only [withoutClauseEnd]
  split
  case isTrue =>
    rw [String.toList_ofList]
    have kept := trimEnd_prefix (trim text.toList).dropLast
    exact kept.trans (List.dropLast_prefix _)
  case isFalse =>
    rw [String.toList_ofList]

theorem isBlank_of_head?_withoutClauseEnd {c : Char}
    (first : (withoutClauseEnd text).toList.head? = some c) : isBlank c = false := by
  obtain ⟨rest, same⟩ := withoutClauseEnd_isPrefix text
  have start : (trim text.toList).head? = some c := by
    rw [← same, List.head?_append, first, Option.some_or]
  exact isBlank_of_head?_trim start

def keptEnd (text : String) : Nat :=
  byteLength (text.toList.takeWhile isBlank) + byteLength (withoutClauseEnd text).toList

theorem keptEnd_eq (whole : text.toList = lead ++ ((withoutClauseEnd text).toList ++ trail))
    (blank : ∀ c ∈ lead, isBlank c = true) (some : (withoutClauseEnd text).toList ≠ []) :
    keptEnd text = byteLength lead + byteLength (withoutClauseEnd text).toList := by
  have stops : ∀ c ∈ ((withoutClauseEnd text).toList ++ trail).head?, isBlank c = false := by
    intro c first
    rw [List.head?_append_of_ne_nil _ some] at first
    exact isBlank_of_head?_withoutClauseEnd first
  rw [keptEnd, whole, takeWhile_append_of_stops blank stops]

end

def lastToken? (text : String) : Option Token :=
  (((scan text.toList).toOption.getD []).filter fun token => !token.isEnd).getLast?

/-- The last token stops before what is cut off. -/
def KeepsTokens (text : String) : Prop :=
  ∀ token ∈ lastToken? text, token.stop ≤ keptEnd text

instance (text : String) : Decidable (KeepsTokens text) :=
  inferInstanceAs (Decidable (∀ token ∈ lastToken? text, _))

theorem lastToken?_eq {text : String} {former ends : List Token} {token : Token}
    (scanned : scan text.toList = .ok (former ++ token :: ends)) (noEnd : token.kind ≠ .clauseEnd)
    (onlyEnds : OnlyEnds ends) : lastToken? text = some token := by
  have passes : token.isEnd = false := by
    rw [← Bool.not_eq_true, isEnd_iff]
    exact noEnd
  have none : ends.filter (fun token => !token.isEnd) = [] := by
    rw [List.filter_eq_nil_iff]
    intro other member
    simp [isEnd_iff.mpr (onlyEnds other member)]
  rw [lastToken?, scanned]
  simp [Except.toOption, List.filter_append, passes, none]

theorem keepsTokens_iff {text : String} {all former ends : List Token} {token : Token}
    (scanned : scan text.toList = .ok all)
    (spaced : all = former ++ token :: ends ∨ all = afterLayout (former ++ token :: ends))
    (noEnd : token.kind ≠ .clauseEnd) (onlyEnds : OnlyEnds ends) :
    KeepsTokens text ↔ token.stop ≤ keptEnd text := by
  obtain ⟨before, last, rfl, kind, stop⟩ : ∃ before last, all = before ++ last :: ends ∧
      last.kind = token.kind ∧ last.stop = token.stop := by
    rcases spaced with rfl | rfl
    · exact ⟨former, token, rfl, rfl, rfl⟩
    · cases former with
      | nil => exact ⟨[], _, rfl, rfl, rfl⟩
      | cons first more => exact ⟨_ :: more, token, rfl, rfl, rfl⟩
  rw [KeepsTokens, lastToken?_eq scanned (kind ▸ noEnd) onlyEnds, ← stop]
  simp

namespace Term

section

variable {position size : Nat} {text body gap start lost rest : List Char} {c : Char}
  {former ends : List Token} {token : Token} {kept : String} {term : Term}

theorem not_mem_silentNames {name : String} (pointed : name.toList.getLast? = some '.') :
    name ∉ silentNames := by
  have all : ∀ name ∈ silentNames, name.toList.getLast? ≠ some '.' := by decide
  exact fun member => all name member pointed

theorem Tally.ofTokens_ends {α : Type} (tally : Tally α)
    (clauseEnd : tally.ofKind .clauseEnd = []) (onlyEnds : OnlyEnds ends) :
    tally.ofTokens ends = [] := by
  apply List.flatMap_eq_nil_iff.mpr
  intro token member
  rw [onlyEnds token member, clauseEnd]

/-- The whole name is in the term, and not among the tokens of what is kept. -/
theorem parse_cutName_ne
    (last : LastRead position text body gap c (start ++ lost) rest former token ends)
    (symbol : isSymbol c = true) (nonempty : lost ≠ []) (loose : Loose lost)
    (isKept : kept.toList = body ++ (gap ++ c :: start))
    (read : ofTokens size (former ++ token :: ends) = .ok term) : parse kept ≠ .ok term := by
  obtain ⟨named, run⟩ := last.lexeme.eq_symbols last.noEnd symbol
  have all : ∀ d ∈ start ++ lost, isSymbol d = true := by
    rw [← run]
    exact fun d => List.mem_takeWhile_imp
  obtain ⟨inStart, inLost⟩ := List.forall_mem_append.mp all
  obtain ⟨latter, cut, scanned, alike, isCut⟩ := last.exists_cutName symbol inStart
  have pointed : (String.ofList (c :: (start ++ lost))).toList.getLast? = some '.' := by
    rw [String.toList_ofList, ← List.cons_append, List.getLast?_append,
      getLast?_eq_point nonempty loose inLost, Option.some_or]
  let tally := nameTally (not_mem_silentNames pointed)
  have clauseEnd : tally.ofKind .clauseEnd = [] := rfl
  have oneOfToken : tally.ofKind token.kind = [()] := by
    rw [named]
    exact if_pos rfl
  have noneOfCut : tally.ofKind cut.kind = [] := by
    rcases isCut with isEnd | isName
    · rw [isEnd, clauseEnd]
    · rw [isName]
      refine if_neg fun same => nonempty ?_
      have letters := congrArg (List.length ∘ String.toList) same
      simpa using letters
  rw [← isKept] at scanned
  rw [parse_eq_ofTokens scanned]
  refine tally.ofTokens_ne clauseEnd (fun same => ?_) read
  have lengths := congrArg List.length same
  rw [tally.ofTokens_append, tally.ofTokens_append, tally.ofTokens_cons, tally.ofTokens_cons,
    tally.ofTokens_congr alike.kinds, tally.ofTokens_ends clauseEnd last.onlyEnds, oneOfToken,
    noneOfCut] at lengths
  simp [Tally.ofTokens] at lengths

theorem parse_cutCode_ne
    (last : LastRead position text body gap '0' (['\x27'] ++ lost) rest former token ends)
    (isKept : kept.toList = body ++ (gap ++ ['0', '\x27'])) : parse kept ≠ .ok term := by
  intro read
  obtain ⟨tokens, scanned, _⟩ := bind_eq_ok.mp read
  obtain ⟨latter, _, scannedBody⟩ := last.scans_cut 0
  obtain ⟨cause, noCode⟩ := exists_error_of_cutCode last.skips (0 + byteLength body)
  rw [isKept, scan, scannedBody, noCode] at scanned
  cases scanned

theorem parse_cut_ne
    (last : LastRead position text body gap c (start ++ lost) rest former token ends)
    (nonempty : lost ≠ []) (loose : Loose lost)
    (isKept : kept.toList = body ++ (gap ++ c :: start))
    (read : ofTokens size (former ++ token :: ends) = .ok term) : parse kept ≠ .ok term := by
  rcases last.symbol_or_code nonempty loose with symbol | ⟨rfl, rfl⟩
  · exact parse_cutName_ne last symbol nonempty loose isKept read
  · exact parse_cutCode_ne last isKept

end

/-- The text without the end of its clause is read as the same term exactly if its last token is
not cut. -/
theorem parse_withoutClauseEnd_iff {text : String} {term : Term} (read : parse text = .ok term) :
    parse (withoutClauseEnd text) = .ok term ↔ KeepsTokens text := by
  obtain ⟨all, scanned, readAll⟩ := bind_eq_ok.mp read
  obtain ⟨lead, trail, points, whole, blank, trailing, _, _⟩ := exists_stripped text
  obtain ⟨tokens, scannedTokens, spaced⟩ := exists_scanned scanned whole blank
  rw [ofTokens_spaced spaced] at readAll
  rcases exists_onlyEnds tokens with onlyEnds | ⟨former, token, ends, rfl, noEnd, onlyEnds⟩
  · exact absurd readAll (ofTokens_ne_of_onlyEnds onlyEnds)
  obtain ⟨body, gap, c, word, rest, last⟩ := exists_lastRead scannedTokens noEnd onlyEnds
  obtain ⟨start, isKept, inside⟩ := last.exists_start trailing
  have keeps : KeepsTokens text ↔ byteLength word ≤ byteLength start := by
    have nonempty : (withoutClauseEnd text).toList ≠ [] := by simp [isKept]
    rw [keepsTokens_iff scanned spaced noEnd onlyEnds, keptEnd_eq whole blank nonempty, last.stop,
      isKept]
    simp only [byteLength_append, byteLength_cons]
    omega
  rw [keeps]
  rcases exists_lost_or_more inside with ⟨lost, nonempty, rfl, rfl⟩ | ⟨more, rfl, rfl⟩
  · have loose : Loose lost := fun c member => trailing.loose c (List.mem_append_left rest member)
    refine iff_of_false (parse_cut_ne last nonempty loose isKept readAll) ?_
    have positive := byteLength_pos nonempty
    rw [byteLength_append]
    omega
  · refine iff_of_true ?_ (by simp [byteLength_append])
    obtain ⟨latter, fewer, scannedKept, alike, onlyFewer, count⟩ :=
      last.exists_alike trailing
    rw [← isKept] at scannedKept
    rw [List.append_cons] at readAll
    rw [parse_eq_ofTokens scannedKept]
    refine ofTokens_alike ?_ onlyEnds readAll alike onlyFewer count
    rw [List.getLast?_concat, Option.any_some, ← Bool.not_eq_true, isEnd_iff]
    exact noEnd

/-- The points of the text stand in a name between apostrophes, in a character code and in a
comment. -/
theorem parse_withoutClauseEnd_iff_comment :
    let text := " age('J. R.', 0'.) . % in years."
    let term : Term := .compound "age" [.atom "J. R.", .integer 46]
    parse text = .ok term ∧ parse (withoutClauseEnd text) = .ok term := by
  intro text term
  have read : parse text = .ok term := (givesTerm_iff (by decide) _).mp (by decide +kernel)
  exact ⟨read, (parse_withoutClauseEnd_iff read).mpr (by decide +kernel)⟩

/-- The point belongs to the name, and the text without it has a shorter one. -/
theorem not_parse_withoutClauseEnd_all :
    (¬∀ text term, parse text = .ok term → parse (withoutClauseEnd text) = .ok term) ∧
      parse "f = =." = .ok (.compound "=" [.atom "f", .atom "=."]) ∧
      parse (withoutClauseEnd "f = =.") = .ok (.compound "=" [.atom "f", .atom "="]) := by
  have read : parse "f = =." = .ok (.compound "=" [.atom "f", .atom "=."]) :=
    (givesTerm_iff (by decide) _).mp (by decide +kernel)
  have stripped : parse (withoutClauseEnd "f = =.") = .ok (.compound "=" [.atom "f", .atom "="]) :=
    (givesTerm_iff (by decide) _).mp (by decide +kernel)
  refine ⟨fun all => ?_, read, stripped⟩
  have same := stripped.symm.trans (all _ _ read)
  exact absurd same (by simp)

end Term

end HornQuery
