import HornQuery.Proofs.Term.Spelling

namespace HornQuery.Term

/-- A reading that goes as expected if the levels suffice, and otherwise says that they do
not. -/
structure ReadsAs {α : Type} (fits : Prop) (result expected : Except ReadError α) : Prop where
  same : fits → result = expected
  deep : ¬fits → ∃ position,
    result = .error ((SyntaxFault.nestedTooDeep maxDepth).foundAt position)

abbrev ReadsIf {α : Type} (fits : Prop) (result : Except ReadError α) (value : α) : Prop :=
  ReadsAs fits result (.ok value)

namespace ReadsAs

variable {α β : Type} {fits narrower : Prop} {result expected last : Except ReadError α}

theorem of_eq (holds : fits) (read : result = expected) : ReadsAs fits result expected :=
  ⟨fun _ => read, fun deep => absurd holds deep⟩

theorem congr (reads : ReadsAs fits result expected) (same : fits ↔ narrower) :
    ReadsAs narrower result expected :=
  ⟨fun holds => reads.same (same.mpr holds), fun deep => reads.deep (deep ∘ same.mp)⟩

theorem trans (reads : ReadsAs fits result expected)
    (continues : fits → ReadsAs narrower expected last) :
    ReadsAs (fits ∧ narrower) result last := by
  constructor
  · intro both
    rw [reads.same both.1]
    exact (continues both.1).same both.2
  · intro deep
    by_cases holds : fits
    · rw [reads.same holds]
      exact (continues holds).deep fun stillHolds => deep ⟨holds, stillHolds⟩
    · exact reads.deep holds

theorem map (reads : ReadsAs fits result expected) (f : α → β) :
    ReadsAs fits (result.map f) (expected.map f) := by
  constructor
  · intro holds
    rw [reads.same holds]
  · intro deep
    obtain ⟨position, refused⟩ := reads.deep deep
    exact ⟨position, by rw [refused]; rfl⟩

theorem bind {value : α} (reads : ReadsIf fits result value) (next : α → Except ReadError β) :
    ReadsAs fits (result >>= next) (next value) := by
  constructor
  · intro holds
    rw [reads.same holds]
    rfl
  · intro deep
    obtain ⟨position, refused⟩ := reads.deep deep
    exact ⟨position, by rw [refused]; rfl⟩

theorem bind_ok {value : α} {next : α → Except ReadError β} {found : β}
    (reads : ReadsIf fits result value) (continues : next value = .ok found) :
    ReadsIf fits (result >>= next) found := by
  rw [ReadsIf, ← continues]
  exact reads.bind next

theorem isOk_iff {value : α} (reads : ReadsIf fits result value) : result.isOk = true ↔ fits := by
  constructor
  · intro found
    by_contra deep
    obtain ⟨position, refused⟩ := reads.deep deep
    rw [refused] at found
    cases found
  · intro holds
    rw [reads.same holds]
    rfl

end ReadsAs

theorem isMark_of_kind {token : Token} {mark : Char} (kind : token.kind = .punctuation mark)
    (other : Char) : token.isMark other = decide (mark = other) := by
  rw [Token.isMark, kind]

/-! What may follow a term without being taken into it. -/

/-- The end, a closing bracket, or a separator between arguments, for a reader that leaves
separators alone. -/
def Ends (bound : Nat) (rest : List Token) : Prop :=
  ∀ token ∈ rest.head?, ∃ mark, token.kind = .punctuation mark ∧
    (mark ∈ [')', ']', '\x7d'] ∨ (mark ∈ [',', '|'] ∧ bound ≤ argumentBound))

theorem ends_nil (bound : Nat) : Ends bound [] := by
  intro token found
  cases found

theorem ends_closing {token : Token} {mark : Char} (kind : token.kind = .punctuation mark)
    (member : mark ∈ [')', ']', '\x7d']) (bound : Nat) (rest : List Token) :
    Ends bound (token :: rest) := by
  intro other found
  cases found
  exact ⟨mark, kind, Or.inl member⟩

theorem ends_separator {token : Token} {mark : Char} (kind : token.kind = .punctuation mark)
    (member : mark ∈ [',', '|']) (rest : List Token) : Ends argumentBound (token :: rest) := by
  intro other found
  cases found
  exact ⟨mark, kind, Or.inr ⟨member, Nat.le_refl _⟩⟩

theorem Ends.mono {bound narrower : Nat} {rest : List Token} (ends : Ends bound rest)
    (fits : narrower ≤ bound) : Ends narrower rest := by
  intro token found
  obtain ⟨mark, kind, listed⟩ := ends token found
  exact ⟨mark, kind, listed.imp_right fun ⟨separator, small⟩ =>
    ⟨separator, Nat.le_trans fits small⟩⟩

/-- Nothing follows that a reader with the bound would take in: no argument list and no infix
operator that binds as strongly. -/
structure Stops (bound : Nat) (rest : List Token) : Prop where
  noArguments : argumentsFollow rest = false
  weaker : ∀ token ∈ rest.head?, ∀ name operator, infixName? token = some name →
    infixOperator? name = some operator → bound < operator.priority

theorem Stops.mono {bound narrower : Nat} {rest : List Token} (stops : Stops bound rest)
    (fits : narrower ≤ bound) : Stops narrower rest :=
  ⟨stops.noArguments, fun token found name operator named listed =>
    Nat.lt_of_le_of_lt fits (stops.weaker token found name operator named listed)⟩

section

variable {bound : Nat} {rest : List Token} (ends : Ends bound rest)
include ends

theorem argumentsFollow_of_ends : argumentsFollow rest = false := by
  cases rest with
  | nil => rfl
  | cons token more =>
      obtain ⟨mark, kind, listed⟩ := ends token rfl
      have other : mark ≠ '(' := by
        rintro rfl
        simp at listed
      simp [argumentsFollow, isMark_of_kind kind, other]

theorem operandFollows_of_ends : operandFollows rest = false := by
  cases rest with
  | nil => rfl
  | cons token more =>
      obtain ⟨mark, kind, listed⟩ := ends token rfl
      have other : mark ≠ '(' ∧ mark ≠ '[' ∧ mark ≠ '\x7b' := by
        refine ⟨?_, ?_, ?_⟩ <;> rintro rfl <;> simp at listed
      simp [operandFollows, kind, other]

theorem stops_of_ends : Stops bound rest := by
  refine ⟨argumentsFollow_of_ends ends, ?_⟩
  intro token found name operator named listed
  obtain ⟨mark, kind, closing | ⟨separator, small⟩⟩ := ends token found
  · have noName : infixName? token = none := by
      have other : mark ≠ ',' ∧ mark ≠ '|' := by
        constructor <;> rintro rfl <;> simp at closing
      simp [infixName?, kind, other]
    rw [noName] at named
    cases named
  · have limit : bound ≤ 999 := small
    simp only [List.mem_cons, List.not_mem_nil, or_false] at separator
    rcases separator with comma | bar
    · have same : "," = name := by simpa [infixName?, kind, comma] using named
      have comma : infixOperator? "," = some ⟨1000, .xfy⟩ := by decide
      rw [← same, comma] at listed
      cases listed
      exact Nat.lt_of_le_of_lt limit (by decide)
    · have same : "|" = name := by simpa [infixName?, kind, bar] using named
      have bar : infixOperator? "|" = some ⟨1100, .xfy⟩ := by decide
      rw [← same, bar] at listed
      cases listed
      exact Nat.lt_of_le_of_lt limit (by decide)

end

/-- The operator with which a token goes on from the term before it, if it fits there. -/
def joining? (bound : Nat) (left : Operand) (token : Token) : Option (String × InfixOperator) := do
  let name ← infixName? token
  let operator ← infixOperator? name
  if bound < operator.priority || operator.leftBound < left.priority then none
  else some (name, operator)

theorem readInfix_cons (operand : OperandReader) (bound : Nat) (left : Operand) (token : Token)
    (rest : List Token) :
    readInfix operand bound left (token :: rest) =
      match joining? bound left token with
      | none => .ok (left, 0)
      | some (name, operator) => (do
          let (right, taken) ← operand operator.rightBound rest
          let (result, more) ← readInfix operand bound
            ⟨.compound name [left.term, right.term], operator.priority⟩ (rest.drop taken)
          .ok (result, 1 + taken + more)) := by
  rw [readInfix.eq_def, joining?]
  cases named : infixName? token with
  | none => simp [named]
  | some name =>
      cases listed : infixOperator? name with
      | none => simp [named, listed]
      | some operator =>
          by_cases weak : (bound < operator.priority || operator.leftBound < left.priority) = true
          · simp only [named, listed, Option.bind_eq_bind, Option.bind_some, if_pos weak]
          · simp only [named, listed, Option.bind_eq_bind, Option.bind_some, if_neg weak]

theorem readInfix_of_stops {bound : Nat} {rest : List Token} (stops : Stops bound rest)
    (operand : OperandReader) (left : Operand) :
    readInfix operand bound left rest = .ok (left, 0) := by
  cases rest with
  | nil => rw [readInfix]
  | cons token more =>
      have none : joining? bound left token = .none := by
        cases named : infixName? token with
        | none => simp [joining?, named]
        | some name =>
            cases listed : infixOperator? name with
            | none => simp [joining?, named, listed]
            | some operator =>
                have weak := stops.weaker token rfl name operator named listed
                simp [joining?, named, listed, weak]
      rw [readInfix_cons, none]

/-- What is read after a compound has that compound at its left end. -/
theorem readInfix_of_compound {reader : OperandReader} {bound taken : Nat} {left result : Operand}
    {tokens : List Token} (isCompound : left.term.isCompound = true)
    (read : readInfix reader bound left tokens = .ok (result, taken)) :
    result.term = left.term ∨
      ∃ name former latter, result.term = .compound name [former, latter] ∧
        former.isCompound = true := by
  fun_induction readInfix reader bound left tokens generalizing result taken with
  | case1 => cases read; exact .inl rfl
  | case2 => cases read; exact .inl rfl
  | case3 => cases read; exact .inl rfl
  | case4 => cases read; exact .inl rfl
  | case5 left token rest name named operator listed fits induction =>
      obtain ⟨⟨right, count⟩, _, continued⟩ := bind_eq_ok.mp read
      obtain ⟨⟨last, more⟩, readMore, done⟩ := bind_eq_ok.mp continued
      cases done
      right
      rcases induction right count rfl readMore with same | deeper
      · exact ⟨name, left.term, right.term, same, isCompound⟩
      · exact deeper

/-! Arguments and lists, given a reader of the terms in them. -/

def ReadsTerms (levels : Nat) (operand : OperandReader) : Prop :=
  ∀ {tokens term rest bound}, Spells tokens term → Ends bound rest →
    ReadsIf (term.height ≤ levels) (operand bound (tokens ++ rest)) (⟨term, 0⟩, tokens.length)

section

variable {operand : OperandReader} {tokens rest : List Token}

theorem readArguments_error {cause : ReadError}
    (failed : operand argumentBound tokens = .error cause) :
    readArguments operand tokens = .error cause := by
  rw [readArguments, failed]
  rfl

theorem readArguments_last {first : Operand} {taken : Nat}
    (found : operand argumentBound tokens = .ok (first, taken))
    (last : startsWithMark ',' (tokens.drop taken) = false) :
    readArguments operand tokens = .ok ([first.term], taken) := by
  rw [readArguments, found]
  simp only [bind, Except.bind]
  split
  case h_1 comma rest same =>
    rw [same, startsWithMark] at last
    simp [last]
  case h_2 => rfl

theorem readArguments_more {first : Operand} {taken : Nat} {comma : Token}
    (found : operand argumentBound tokens = .ok (first, taken))
    (separated : tokens.drop taken = comma :: rest) (isComma : comma.isMark ',' = true) :
    readArguments operand tokens = (do
      let (others, more) ← readArguments operand rest
      .ok (first.term :: others, taken + 1 + more)) := by
  rw [readArguments, found]
  simp only [bind, Except.bind]
  split
  case h_1 other others same =>
    rw [separated] at same
    cases same
    simp [isComma]
  case h_2 none =>
    rw [separated] at none
    cases none

theorem readsIf_arguments_last {fits : Prop} {first : Operand} {taken : Nat}
    (reads : ReadsIf fits (operand argumentBound tokens) (first, taken))
    (last : startsWithMark ',' (tokens.drop taken) = false) :
    ReadsIf fits (readArguments operand tokens) ([first.term], taken) := by
  constructor
  · intro holds
    exact readArguments_last (reads.same holds) last
  · intro deep
    obtain ⟨position, refused⟩ := reads.deep deep
    exact ⟨position, readArguments_error refused⟩

theorem readsIf_arguments_more {fits others : Prop} {first : Operand} {taken more : Nat}
    {comma : Token} {terms : List Term}
    (reads : ReadsIf fits (operand argumentBound tokens) (first, taken))
    (separated : tokens.drop taken = comma :: rest) (isComma : comma.isMark ',' = true)
    (remaining : ReadsIf others (readArguments operand rest) (terms, more)) :
    ReadsIf (fits ∧ others) (readArguments operand tokens)
      (first.term :: terms, taken + 1 + more) := by
  constructor
  · rintro ⟨holds, alsoHolds⟩
    rw [readArguments_more (reads.same holds) separated isComma, remaining.same alsoHolds]
    rfl
  · intro deep
    by_cases holds : fits
    · obtain ⟨position, refused⟩ := remaining.deep fun alsoHolds => deep ⟨holds, alsoHolds⟩
      refine ⟨position, ?_⟩
      rw [readArguments_more (reads.same holds) separated isComma, refused]
      rfl
    · obtain ⟨position, refused⟩ := reads.deep holds
      exact ⟨position, readArguments_error refused⟩

theorem readArguments_spelled {levels : Nat} {terms : List Term}
    (reads : ReadsTerms levels operand) (spelled : SpellsAll Spells tokens terms)
    (ends : Ends argumentBound rest) (last : startsWithMark ',' rest = false) :
    ReadsIf (∀ term ∈ terms, term.height ≤ levels) (readArguments operand (tokens ++ rest))
      (terms, tokens.length) := by
  induction spelled with
  | one only =>
      refine ReadsAs.congr (readsIf_arguments_last (reads only ends) ?_) (by simp)
      rw [List.drop_left]
      exact last
  | @more tokens others comma term terms first separates remaining induction =>
      have read := reads first (ends_separator separates (by decide) (others ++ rest))
      have whole : tokens ++ comma :: others ++ rest = tokens ++ comma :: (others ++ rest) := by
        simp
      have length : (tokens ++ comma :: others).length = tokens.length + 1 + others.length := by
        rw [List.length_append, List.length_cons]
        omega
      rw [whole, length]
      exact ReadsAs.congr (readsIf_arguments_more read List.drop_left
        (by simp [isMark_of_kind separates]) induction) (by simp)

/-- A chain of cells is its items and a last tail, and nests as deep as these do. -/
theorem SpellsTail.split {first others : List Token} {item tail : Term}
    (spelled : Spells first item) (continued : SpellsTail Spells others tail) :
    ∃ (inside : List Token) (items : List Term) (bar : Token) (final : List Token) (last : Term),
      SpellsAll Spells inside (item :: items) ∧ bar.kind = .punctuation '|' ∧
      Spells final last ∧ (∀ items, last ≠ .list items) ∧
      first ++ others = inside ++ bar :: final ∧
      tail = items.foldr (fun item rest => .compound listCell [item, rest]) last ∧
      ∀ levels, tail.tailHeight ≤ levels ↔
        (∀ item ∈ items, item.height ≤ levels) ∧ last.height ≤ levels := by
  induction continued generalizing first item with
  | @last bar tokens term noList noCell separates only =>
      refine ⟨first, [], bar, tokens, term, .one spelled, separates, only, noList, rfl, rfl, ?_⟩
      intro levels
      rw [tailHeight_eq_height noList noCell]
      simp
  | @more comma former others next tail separates second _ induction =>
      obtain ⟨inside, items, bar, final, last, all, isBar, only, noList, tokens, chain, heights⟩ :=
        induction second
      refine ⟨first ++ comma :: inside, next :: items, bar, final, last,
        .more spelled separates all, isBar, only, noList, ?_, ?_, ?_⟩
      · simp [tokens]
      · simp [chain]
      · intro levels
        rw [tailHeight_cell, Nat.max_le, heights levels]
        simp [and_assoc]

theorem listWithTail_of_noList {items : List Term} {last : Term}
    (noList : ∀ items, last ≠ .list items) :
    listWithTail items (some last) =
      items.foldr (fun item rest => .compound listCell [item, rest]) last := by
  unfold listWithTail
  split
  case h_1 same => cases same
  case h_2 items same => exact absurd (Option.some.inj same) (noList items)
  case h_3 tail same =>
    cases same
    rfl

theorem expectMark_of_kind {token : Token} {mark : Char} (size : Nat)
    (kind : token.kind = .punctuation mark) (rest : List Token) :
    expectMark size mark (token :: rest) = .ok () := by
  simp [expectMark, isMark_of_kind kind]

theorem startsWithMark_of_kind {token : Token} {mark : Char}
    (kind : token.kind = .punctuation mark) (other : Char) (rest : List Token) :
    startsWithMark other (token :: rest) = decide (mark = other) :=
  isMark_of_kind kind other

theorem Spells.startsWithMark_eq_false {term : Term} (spelled : Spells tokens term) {mark : Char}
    (closing : mark ∈ [')', ']', '\x7d']) (rest : List Token) :
    startsWithMark mark (tokens ++ rest) = false := by
  have other : mark ≠ '[' ∧ mark ≠ '\x7b' := by
    constructor <;> rintro rfl <;> simp at closing
  cases spelled with
  | functional plain kind =>
      rcases kind with named | quoted
      · simp [startsWithMark, Token.isMark, named]
      · simp [startsWithMark, Token.isMark, quoted]
  | noItems opens => simp [startsWithMark, Token.isMark, opens, other.1.symm]
  | list opens => simp [startsWithMark, Token.isMark, opens, other.1.symm]
  | cells opens => simp [startsWithMark, Token.isMark, opens, other.1.symm]
  | noBraces opens => simp [startsWithMark, Token.isMark, opens, other.2.symm]
  | braces opens => simp [startsWithMark, Token.isMark, opens, other.2.symm]
  | negativeInteger minus => simp [startsWithMark, Token.isMark, minus]
  | negativeFloat minus => simp [startsWithMark, Token.isMark, minus]
  | name kind => simp [startsWithMark, Token.isMark, kind]
  | quoted kind => simp [startsWithMark, Token.isMark, kind]
  | integer kind => simp [startsWithMark, Token.isMark, kind]
  | float kind => simp [startsWithMark, Token.isMark, kind]
  | var kind => simp [startsWithMark, Token.isMark, kind]

theorem SpellsAll.startsWithMark_eq_false {terms : List Term}
    (spelled : SpellsAll Spells tokens terms) {mark : Char}
    (closing : mark ∈ [')', ']', '\x7d']) (rest : List Token) :
    startsWithMark mark (tokens ++ rest) = false := by
  cases spelled with
  | one only => exact only.startsWithMark_eq_false closing rest
  | more first separates remaining =>
      rw [List.append_assoc]
      exact first.startsWithMark_eq_false closing _

theorem readList_spelled {levels : Nat} {items : List Term} {closing : Token} (size : Nat)
    (reads : ReadsTerms levels operand) (spelled : SpellsAll Spells tokens items)
    (closes : closing.kind = .punctuation ']') :
    ReadsIf (∀ item ∈ items, item.height ≤ levels)
      (readList size operand (tokens ++ closing :: rest)) (.list items, tokens.length + 1) := by
  have inside := readArguments_spelled reads spelled
    (ends_closing closes (by decide) argumentBound rest)
    (by simp [startsWithMark_of_kind closes])
  unfold readList
  rw [spelled.startsWithMark_eq_false (by decide)]
  simp only [Bool.false_eq_true, if_false]
  apply inside.bind_ok
  simp [startsWithMark_of_kind closes, expectMark_of_kind size closes, listWithTail, bind,
    Except.bind]

theorem readList_chain {levels : Nat} {first others : List Token} {item tail : Term}
    {closing : Token} (size : Nat) (reads : ReadsTerms levels operand)
    (spelled : Spells first item) (continued : SpellsTail Spells others tail)
    (closes : closing.kind = .punctuation ']') :
    ReadsIf (item.height ≤ levels ∧ tail.tailHeight ≤ levels)
      (readList size operand (first ++ (others ++ closing :: rest)))
      (.compound listCell [item, tail], (first ++ others).length + 1) := by
  obtain ⟨inside, items, bar, final, last, all, isBar, only, noList, tokens, chain, heights⟩ :=
    continued.split spelled
  have whole : first ++ (others ++ closing :: rest) =
      inside ++ bar :: (final ++ closing :: rest) := by
    rw [← List.append_assoc, tokens]
    simp
  have before := readArguments_spelled reads all
    (ends_separator isBar (by decide) (final ++ closing :: rest))
    (by simp [startsWithMark_of_kind isBar])
  have after := reads only (ends_closing closes (by decide) argumentBound rest)
  have closed : ReadsIf (last.height ≤ levels)
      (do
        let found ← operand argumentBound (final ++ closing :: rest)
        expectMark size ']' ((bar :: (final ++ closing :: rest)).drop (1 + found.2))
        .ok (listWithTail (item :: items) (some found.1.term), inside.length + 1 + found.2 + 1))
      (.compound listCell [item, tail], (first ++ others).length + 1) := by
    apply after.bind_ok
    simp only
    rw [Nat.add_comm 1, List.drop_succ_cons, List.drop_left, expectMark_of_kind size closes,
      listWithTail_of_noList noList, tokens, chain]
    simp only [bind, Except.bind, List.foldr_cons, List.length_append, List.length_cons]
    congr 2
    omega
  unfold readList
  rw [whole, all.startsWithMark_eq_false (by decide)]
  simp only [Bool.false_eq_true, if_false]
  have both : (∀ term ∈ item :: items, term.height ≤ levels) ∧ last.height ≤ levels ↔
      item.height ≤ levels ∧ tail.tailHeight ≤ levels := by
    rw [heights levels]
    simp [and_assoc]
  refine ReadsAs.congr ((before.bind _).trans fun _ => ?_) both
  simp only [List.drop_left, startsWithMark_of_kind isBar, decide_true, if_true,
    List.drop_succ_cons, List.drop_zero]
  exact closed

theorem readBracketed_spelled {levels : Nat} {inner : Term} {closing : Token} {mark : Char}
    (size : Nat) (reads : ReadsTerms levels operand) (spelled : Spells tokens inner)
    (closes : closing.kind = .punctuation mark) (member : mark ∈ [')', ']', '\x7d']) :
    ReadsIf (inner.height ≤ levels) (readBracketed size mark operand (tokens ++ closing :: rest))
      (inner, tokens.length + 1) := by
  apply (reads spelled (ends_closing closes member clauseBound rest)).bind_ok
  simp [expectMark_of_kind size closes, bind, Except.bind]

/-! What a name begins. -/

theorem readName_arguments {levels : Nat} {args : List Term} {opening closing : Token}
    (size : Nat) (reads : ReadsTerms levels operand) (name : String) (isQuoted : Bool)
    (bound : Nat) (opens : opening.kind = .punctuation '(')
    (touches : opening.layoutBefore = false) (spelled : SpellsAll Spells tokens args)
    (closes : closing.kind = .punctuation ')') :
    ReadsIf (∀ arg ∈ args, arg.height ≤ levels)
      (readName size operand name isQuoted bound (opening :: (tokens ++ closing :: rest)))
      (⟨.compound name args, 0⟩, 1 + tokens.length + 1) := by
  have inside := readArguments_spelled reads spelled
    (ends_closing closes (by decide) argumentBound rest)
    (by simp [startsWithMark_of_kind closes])
  have follow : argumentsFollow (opening :: (tokens ++ closing :: rest)) = true := by
    simp [argumentsFollow, isMark_of_kind opens, touches]
  rw [readName, if_pos follow]
  apply inside.bind_ok
  simp [Nat.add_comm 1, expectMark_of_kind size closes, bind, Except.bind]

theorem readNegative?_of_operandFollows (none : operandFollows rest = false) :
    readNegative? rest = .none := by
  cases rest with
  | nil => rfl
  | cons token more =>
      cases kind : token.kind with
      | integer magnitude => simp [operandFollows, kind] at none
      | float value => simp [operandFollows, kind] at none
      | name text => simp [readNegative?, kind]
      | quoted text => simp [readNegative?, kind]
      | var name => simp [readNegative?, kind]
      | string text => simp [readNegative?, kind]
      | punctuation mark => simp [readNegative?, kind]
      | clauseEnd => simp [readNegative?, kind]

theorem readName_atom (size : Nat) {name : String} (bound : Nat)
    (noArguments : argumentsFollow rest = false)
    (noOperand : prefixOperator? name = none ∨ operandFollows rest = false) :
    readName size operand name false bound rest = .ok (⟨.atom name, 0⟩, 0) := by
  have noNegative : (if name = "-" then readNegative? rest else none) = none := by
    split
    case isTrue minus =>
      rcases noOperand with noPrefix | none
      · rw [minus] at noPrefix
        exact absurd noPrefix (by decide)
      · exact readNegative?_of_operandFollows none
    case isFalse => rfl
  have noPrefix : (if operandFollows rest then prefixOperator? name else none) = none := by
    rcases noOperand with noPrefix | none
    · simp [noPrefix]
    · simp [none]
  rw [readName, noNegative, noPrefix]
  simp [noArguments]

theorem readName_quoted (size : Nat) (name : String) (bound : Nat)
    (noArguments : argumentsFollow rest = false) :
    readName size operand name true bound rest = .ok (⟨.atom name, 0⟩, 0) := by
  simp [readName, noArguments]

theorem readName_negative (size bound : Nat) {token : Token} {term : Term}
    (negative : readNegative? (token :: rest) = some (.ok term))
    (noMark : token.isMark '(' = false) :
    readName size operand "-" false bound (token :: rest) = .ok (⟨term, 0⟩, 1) := by
  simp [readName, argumentsFollow, noMark, negative, bind, Except.bind]

/-- A term is read from its first token on, unless what follows could be taken for its
arguments or its operand. -/
theorem readPrimary_spelled {levels : Nat} {first : Token} {term : Term} (size bound : Nat)
    (reads : ReadsTerms levels operand) (spelled : Spells (first :: tokens) term)
    (noArguments : argumentsFollow rest = false)
    (noOperand : ∀ name, term = .atom name →
      prefixOperator? name = none ∨ operandFollows rest = false) :
    ReadsIf (term.height ≤ levels + 1) (readPrimary size operand bound first (tokens ++ rest))
      (⟨term, 0⟩, tokens.length) := by
  unfold readPrimary
  cases spelled with
  | name kind =>
      simp only [kind, List.nil_append, List.length_nil]
      exact .of_eq (Nat.le_add_left 1 levels)
        (readName_atom size bound noArguments (noOperand _ rfl))
  | quoted kind =>
      simp only [kind, List.nil_append, List.length_nil]
      exact .of_eq (Nat.le_add_left 1 levels) (readName_quoted size _ bound noArguments)
  | noBraces opens closes =>
      simp only [opens]
      exact .of_eq (Nat.le_add_left 1 levels) (by simp [startsWithMark_of_kind closes])
  | integer kind small =>
      simp only [kind, small, if_true]
      exact .of_eq (Nat.le_add_left 1 levels) rfl
  | @negativeInteger sign token n minus kind touches small =>
      have negative : readNegative? (token :: rest) =
          some (.ok (.integer (Int64.ofInt (-(n : Int))))) := by
        simp [readNegative?, kind, touches, small]
      have noMark : token.isMark '(' = false := by
        rw [Token.isMark, kind]
      simp only [minus, List.singleton_append, List.length_singleton]
      exact .of_eq (Nat.le_add_left 1 levels) (readName_negative size bound negative noMark)
  | float kind =>
      simp only [kind]
      exact .of_eq (Nat.le_add_left 1 levels) rfl
  | @negativeFloat sign token value minus kind touches =>
      have negative : readNegative? (token :: rest) =
          some (.ok (.float (Number.negate value))) := by
        simp [readNegative?, kind, touches]
      have noMark : token.isMark '(' = false := by
        rw [Token.isMark, kind]
      simp only [minus, List.singleton_append, List.length_singleton]
      exact .of_eq (Nat.le_add_left 1 levels) (readName_negative size bound negative noMark)
  | var kind =>
      simp only [kind]
      exact .of_eq (Nat.le_add_left 1 levels) rfl
  | @functional head opening closing inside functor args plain kind opens touches all closes =>
      have fits := @height_functional_le_iff functor args levels plain.noCell
      have whole : opening :: (inside ++ [closing]) ++ rest =
          opening :: (inside ++ closing :: rest) := by
        simp
      have length : (opening :: (inside ++ [closing])).length = 1 + inside.length + 1 := by
        simp [Nat.add_comm 1]
      rw [whole, length]
      rcases kind with named | quoted
      · simp only [named]
        exact (readName_arguments size reads functor false bound opens touches all closes).congr
          fits.symm
      · simp only [quoted]
        exact (readName_arguments size reads functor true bound opens touches all closes).congr
          fits.symm
  | noItems opens closes =>
      simp only [opens]
      exact .of_eq (Nat.le_add_left 1 levels)
        (by simp [readList, startsWithMark_of_kind closes, bind, Except.bind])
  | @list opening closing inside items opens all closes =>
      have read : ReadsIf _ (readList size operand (inside ++ closing :: rest)) _ :=
        readList_spelled size reads all closes
      have whole : inside ++ [closing] ++ rest = inside ++ closing :: rest := by simp
      simp only [opens, whole, List.length_append, List.length_singleton]
      rw [if_neg (by decide), if_pos trivial]
      refine ReadsAs.congr (read.bind_ok ?_) height_list_le_iff.symm
      rfl
  | @cells opening closing former latter item tail opens only continued closes =>
      have read : ReadsIf _ (readList size operand (former ++ (latter ++ closing :: rest))) _ :=
        readList_chain size reads only continued closes
      have whole : former ++ (latter ++ [closing]) ++ rest =
          former ++ (latter ++ closing :: rest) := by
        simp
      have length : (former ++ (latter ++ [closing])).length = (former ++ latter).length + 1 := by
        simp [Nat.add_assoc]
      have fits : item.height ≤ levels ∧ tail.tailHeight ≤ levels ↔
          (Term.compound listCell [item, tail]).height ≤ levels + 1 := by
        rw [height_cell, Nat.add_comm 1, Nat.add_le_add_iff_right, Nat.max_le]
      simp only [opens, whole, length]
      rw [if_neg (by decide), if_pos trivial]
      refine ReadsAs.congr (read.bind_ok ?_) fits
      rfl
  | @braces opening closing inside inner opens only closes =>
      have read : ReadsIf _ (readBracketed size '\x7d' operand (inside ++ closing :: rest)) _ :=
        readBracketed_spelled size reads only closes (by decide)
      have whole : inside ++ [closing] ++ rest = inside ++ closing :: rest := by simp
      have noCell : ∀ item tail, "\x7b\x7d" = listCell → [inner] ≠ [item, tail] := by
        simp
      have fits : inner.height ≤ levels ↔
          (Term.compound "\x7b\x7d" [inner]).height ≤ levels + 1 := by
        rw [height_functional_le_iff noCell]
        simp
      simp only [opens, whole, List.length_append, List.length_singleton]
      rw [if_neg (by decide), if_neg (by decide), if_pos trivial,
        only.startsWithMark_eq_false (by decide), if_neg Bool.false_ne_true]
      refine ReadsAs.congr (read.bind_ok ?_) fits
      rfl

end

/-! Levels. -/

theorem Spells.ne_nil {tokens : List Token} {term : Term} (spelled : Spells tokens term) :
    tokens ≠ [] := by
  cases spelled <;> simp

theorem readOperand_afterLayout (size levels bound : Nat) (tokens : List Token) :
    readOperand size levels bound (Token.afterLayout tokens) =
      readOperand size levels bound tokens := by
  cases tokens with
  | nil => rfl
  | cons token others => cases levels <;> rfl

/-- The reader with some levels left reads exactly the terms that nest as deep. -/
theorem readsTerms_readOperand (size levels : Nat) :
    ReadsTerms levels (readOperand size levels) := by
  -- On the levels alone: the term, the bound and what follows vary from read to read.
  induction levels with
  | zero =>
      intro tokens term rest bound spelled ends
      constructor
      · intro fits
        exact absurd fits (Nat.not_le.mpr term.height_pos)
      · intro _
        exact ⟨_, rfl⟩
  | succ levels induction =>
      intro tokens term rest bound spelled ends
      obtain ⟨first, others, nonempty⟩ := List.exists_cons_of_ne_nil spelled.ne_nil
      subst nonempty
      have read := readPrimary_spelled size bound induction spelled
        (stops_of_ends ends).noArguments (fun _ _ => Or.inr (operandFollows_of_ends ends))
      rw [readOperand, List.cons_append, readLevel]
      apply read.bind_ok
      simp only [List.drop_left]
      rw [readInfix_of_stops (stops_of_ends ends)]
      simp [bind, Except.bind, Nat.add_comm]

theorem ofTokens_eq_ok {size : Nat} {tokens : List Token} {term : Term}
    (read : ofTokens size tokens = .ok term) :
    ∃ result taken, readOperand size maxDepth clauseBound tokens = .ok (result, taken) ∧
      result.term = term ∧ (tokens.drop taken = [] ∨
        ∃ token, tokens.drop taken = [token] ∧ token.kind = .clauseEnd) := by
  unfold ofTokens at read
  split at read
  case isTrue => cases read
  case isFalse =>
    obtain ⟨⟨result, taken⟩, found, continued⟩ := bind_eq_ok.mp read
    simp only at continued
    split at continued
    case h_1 none =>
      cases continued
      refine ⟨result, taken, found, rfl, ?_⟩
      split at none
      case h_1 start stop layout more remains =>
        subst none
        exact .inr ⟨_, remains, rfl⟩
      case h_2 => exact .inl none
    case h_2 => cases continued

end HornQuery.Term
