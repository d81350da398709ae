import HornQuery.Engine.Dialect
import HornQuery.Proofs.Goal.Brackets
import HornQuery.Proofs.Operator.Combining
import HornQuery.Proofs.Term.Equality
import HornQuery.Proofs.Term.Nesting

namespace HornQuery

open Term Token

/-! The directive as a term. -/

namespace Goal

def print (text : String) : Term :=
  .compound "write" [.atom text]

def fieldGoals (name : String) : List Term :=
  [print "\t", .compound "write_canonical" [.var name]]

def recordGoal (columns : List String) : Term :=
  conjunction ([.atom "nl", print "$sol"] ++ columns.flatMap fieldGoals) (.atom "nl")

/-- The directive that calls a goal for all its solutions, with a record for each of them. -/
def enumeration (goal : Term) (columns : List String) : Term :=
  .compound ":-" [conjunction
    [.compound "forall" [.compound "call" [goal], recordGoal columns], .atom "nl", print "$end"]
    (.atom "nl")]

end Goal

/-! The directive as text. -/

namespace Dialect

open Goal

def callText (goal : String) : List Char :=
  "call".toList ++ '(' :: ('(' :: ((withoutClauseEnd goal).toList ++ [')']) ++ [')'])

def recordText (columns : List String) : List Char :=
  conjunctionText ([.atom "nl", print "$sol"] ++ columns.flatMap fieldGoals) "nl".toList

def directiveText (goal : String) (columns : List String) : List Char :=
  let arguments := callText goal ++ ',' :: ' ' :: ('(' :: (recordText columns ++ [')']))
  ":-".toList ++ ' ' :: (("forall".toList ++ '(' :: (arguments ++ [')'])) ++
    ',' :: ' ' :: conjunctionText [.atom "nl", print "$end"] "nl".toList)

theorem separated_conjunctionText (goals : List Term) (last : List Char) :
    ',' :: ' ' :: conjunctionText goals last =
      (goals.flatMap fun goal => ',' :: ' ' :: goal.write) ++ ',' :: ' ' :: last := by
  induction goals with
  | nil => rfl
  | cons goal goals induction =>
      rw [conjunctionText, List.foldr_cons, ← conjunctionText, induction, List.flatMap_cons]
      simp

theorem write_fields : (Term.atom "nl").write = "nl".toList ∧
    (print "$sol").write = "write('$sol')".toList ∧ (print "$end").write = "write('$end')".toList ∧
    (print "\t").write = "write('\\t')".toList := by
  decide +kernel

theorem bare_functors : IsBare "call" = true ∧ IsBare "forall" = true ∧
    writeFunctor "write_canonical" = "write_canonical".toList := by
  decide +kernel

theorem write_canonical (name : String) :
    (Term.compound "write_canonical" [.var name]).write =
      "write_canonical(".toList ++ (name.toList ++ [')']) := by
  have functor := bare_functors.2.2
  have noBraces : ("write_canonical" = "\x7b\x7d") = False := by decide
  have opened : "write_canonical(".toList = "write_canonical".toList ++ ['('] := by decide
  simp [write, written, writtenAll, Written.ofCompound, Written.functional, Written.leaf,
    Written.items, Text.joinWith, functor, noBraces, opened]

theorem toList_field (name : String) :
    (", write('\\t'), write_canonical(" ++ name ++ ")").toList =
      (fieldGoals name).flatMap fun goal => ',' :: ' ' :: goal.write := by
  have pieces : ", write('\\t'), write_canonical(".toList =
      ',' :: ' ' :: "write('\\t')".toList ++ ',' :: ' ' :: "write_canonical(".toList := by
    decide
  have closing : ")".toList = [')'] := by decide
  rw [String.toList_append, String.toList_append, pieces, closing]
  simp only [fieldGoals, List.flatMap_cons, List.flatMap_nil, write_canonical, write_fields.2.2.2]
  simp

theorem toList_record (columns : List String) :
    ("nl, write('$sol')" ++
      String.join (columns.map fun name => ", write('\\t'), write_canonical(" ++ name ++ ")") ++
      ", nl").toList = recordText columns := by
  have opening : "nl, write('$sol')".toList =
      (Term.atom "nl").write ++ ',' :: ' ' :: (print "$sol").write := by
    rw [write_fields.1, write_fields.2.1]
    decide
  have last : ", nl".toList = ',' :: ' ' :: "nl".toList := by decide
  have unfolded : recordText columns = (Term.atom "nl").write ++
      ',' :: ' ' :: conjunctionText (print "$sol" :: columns.flatMap fieldGoals) "nl".toList := rfl
  rw [unfolded, separated_conjunctionText, String.toList_append, String.toList_append,
    String.toList_join, List.flatMap_map, opening, last, List.flatMap_cons, List.flatMap_assoc]
  simp only [toList_field]
  simp

theorem toList_swiGoal (goal : String) (columns : List String) :
    (swiGoal goal columns).toList = directiveText goal columns ++ ['.', '\n'] := by
  unfold swiGoal
  extract_lets fields record
  have same : record.toList = recordText columns := toList_record columns
  have opening : ":- forall(call((".toList =
      ":-".toList ++ ' ' :: ("forall".toList ++ '(' :: ("call".toList ++ ['(', '('])) := by
    decide
  have middle : ")), (".toList = [')', ')', ',', ' ', '('] := by decide
  have closing : ")), nl, write('$end'), nl.\n".toList = [')', ')'] ++
      ',' :: ' ' :: conjunctionText [.atom "nl", print "$end"] "nl".toList ++ ['.', '\n'] := by
    rw [separated_conjunctionText, List.flatMap_cons, List.flatMap_singleton, write_fields.1,
      write_fields.2.2.1]
    decide
  simp only [toString, String.toList_append, opening, middle, closing, same, directiveText,
    callText]
  simp

/-! The directive scanned and read. -/

theorem operandTerm_atom {name : String} (proper : name ≠ "[]")
    (noInfix : infixOperator? name = none) (noPrefix : prefixOperator? name = none) :
    OperandTerm (.atom name) := by
  refine ⟨.atom proper, ?_, ?_⟩
  · intro other same
    cases same
    exact noInfix
  · intro other same
    cases same
    exact noPrefix

theorem operandTerm_call {functor : String} {arg : Term} (readable : Readable arg)
    (noInfix : infixOperator? functor = none) (noPrefix : prefixOperator? functor = none) :
    OperandTerm (.compound functor [arg]) := by
  refine ⟨.compound (by simp) (by simp) (by simpa using readable), ?_, ?_⟩
  · intro other same
    cases same
    exact noInfix
  · intro other same
    cases same
    exact noPrefix

/-- A goal with nothing to nest but its arguments. -/
def PlainGoal (goal : Term) : Prop :=
  OperandTerm goal ∧ goal.height ≤ 2

theorem plainGoal_newline : PlainGoal (.atom "nl") :=
  ⟨operandTerm_atom (by decide) (by decide) (by decide), Nat.le_succ 1⟩

theorem plainGoal_print {text : String} (proper : text ≠ "[]") : PlainGoal (print text) :=
  ⟨operandTerm_call (.atom proper) (by decide) (by decide), Nat.le_refl 2⟩

theorem plainGoal_field {name : String} (spelled : IsVariableName name) :
    ∀ goal ∈ fieldGoals name, PlainGoal goal := by
  intro goal member
  rcases List.mem_pair.mp member with rfl | rfl
  · exact plainGoal_print (by decide)
  · exact ⟨operandTerm_call (.var spelled) (by decide) (by decide), Nat.le_refl 2⟩

theorem scans_newline (rest : List Char) :
    Scans "nl".toList ('.' :: rest) (Reads 1 1000 (.atom "nl")) := by
  have continues : ∀ c ∈ ['l'], Text.isNameCharacter c = true :=
    Text.forall_mem_of_all (by decide +kernel)
  have stops : ∀ c ∈ ('.' :: rest).head?, Text.isNameCharacter c = false := by
    intro c found
    cases found
    decide
  apply (@scans_word "nl" 'n' ['l'] _ rfl (by decide +kernel) continues stops).imp
  rintro _ ⟨token, kind, _, rfl⟩
  exact (reads_leaf plainGoal_newline.1 (.name kind)).mono (Nat.zero_le 1000)

theorem writes_record {columns : List String} (spelled : ∀ name ∈ columns, IsVariableName name) :
    Writes (2 * columns.length + 3) 1000 (recordGoal columns) (recordText columns) := by
  intro rest delimited
  have last : Scans "nl".toList rest (Reads 1 1000 (.atom "nl")) := by
    rw [← write_fields.1]
    exact (writes_leaf plainGoal_newline.1).mono (Nat.zero_le 1000) rest delimited
  have plain : ∀ goal ∈ [.atom "nl", print "$sol"] ++ columns.flatMap fieldGoals,
      PlainGoal goal := by
    intro goal member
    rcases List.mem_append.mp member with first | field
    · rcases List.mem_pair.mp first with rfl | rfl
      · exact plainGoal_newline
      · exact plainGoal_print (by decide)
    · obtain ⟨name, isColumn, isField⟩ := List.mem_flatMap.mp field
      exact plainGoal_field (spelled name isColumn) goal isField
  have count : 1 + ([.atom "nl", print "$sol"] ++ columns.flatMap fieldGoals).length =
      2 * columns.length + 3 := by
    simp [fieldGoals]
    omega
  rw [← count]
  exact scans_conjunction plain last

theorem writes_call {goal : String} {term : Term} {depth : Nat}
    (goalWrites : Writes (depth + 1) 0 term ('(' :: ((withoutClauseEnd goal).toList ++ [')']))) :
    Writes (depth + 2) 0 (.compound "call" [term]) (callText goal) :=
  writes_functional bare_functors.1 (by decide)
    (scans_argument (goalWrites.mono (Nat.zero_le argumentBound)))

/-- The depth of the directive: brackets and the two calls around the goal, brackets and one call
around what prints a record, and the directive itself. -/
theorem scans_directive {goal : String} {term : Term} {columns : List String} {depth : Nat}
    (goalWrites : Writes (depth + 1) 0 term ('(' :: ((withoutClauseEnd goal).toList ++ [')'])))
    (spelled : ∀ name ∈ columns, IsVariableName name) (rest : List Char) :
    Scans (directiveText goal columns) ('.' :: rest)
      (Reads (max (depth + 4) (2 * columns.length + 6)) 1200 (enumeration term columns)) := by
  have record := ((writes_record spelled).mono (by decide : 1000 ≤ clauseBound)).bracketed
  have arguments := scans_arguments ((writes_call goalWrites).mono (Nat.zero_le argumentBound))
    (record.mono (Nat.zero_le argumentBound))
  have loop := writes_functional bare_functors.2.1 (by decide) arguments
  have plain : ∀ goal ∈ [.atom "nl", print "$end"], PlainGoal goal := by
    intro goal member
    rcases List.mem_pair.mp member with rfl | rfl
    · exact plainGoal_newline
    · exact plainGoal_print (by decide)
  have marker := scans_conjunction plain (scans_newline rest)
  have body := scans_comma (loop.mono (Nat.zero_le argumentBound)) marker
  have arrow : prefixOperator? ":-" = some ⟨1200, .fx⟩ := by decide
  have directive := scans_prefixed arrow
    (body.imp fun _ reads => reads.mono (by decide : 1000 ≤ PrefixFixity.fx.bound 1200))
  have deepest : max (max (depth + 2) (2 * columns.length + 3 + 1) + 1) (1 + 2 + 1) + 1 =
      max (depth + 4) (2 * columns.length + 6) := by
    omega
  rw [← deepest]
  exact directive

/-! Any goal that fits between brackets. -/

def ReadsWithin (levels : Nat) (text : String) : Prop :=
  ((scan text.toList).bind
    (readOperand (Text.byteLength text.toList) levels clauseBound)).isOk = true

instance (levels : Nat) (text : String) : Decidable (ReadsWithin levels text) :=
  inferInstanceAs (Decidable (_ = true))

theorem exists_goalDepth {goal : String} {term : Term} (fits : FitsBrackets goal)
    (read : parse goal = .ok term) :
    ∃ depth, (∀ levels, ReadsWithin levels goal ↔ depth ≤ levels) ∧
      Writes (depth + 1) 0 term ('(' :: ((withoutClauseEnd goal).toList ++ [')'])) := by
  obtain ⟨all, scanned, readTokens⟩ := bind_eq_ok.mp read
  obtain ⟨inside, ends, same, onlyEnds, last, scans⟩ := fits.exists_inside scanned
  rw [ofTokens_spaced same] at readTokens
  obtain ⟨single, depth, _, priority, reads⟩ := exists_depth onlyEnds last readTokens
  refine ⟨depth, ?_, ?_⟩
  · intro levels
    have again := reads.again (Text.byteLength goal.toList) levels inside ends rfl
      (final_of_onlyEnds onlyEnds).quiet
    rw [ReadsWithin, scanned, Except.bind, readOperand_spaced same]
    exact again.isOk_iff
  · exact writes_between reads (scans single)

theorem readsIf_parse_clause {text : List Char} {term : Term} {depth : Nat}
    (scans : Scans text ['.', '\n'] (Reads depth clauseBound term)) :
    ReadsIf (depth ≤ maxDepth) (parse (String.ofList (text ++ ['.', '\n']))) term :=
  readsIf_clause (Text.forall_mem_of_all (by decide)) scans

theorem isVariableName_of_mem_freeVariables {goal : String} {term : Term}
    (accepted : parseGoal goal = .ok term) :
    ∀ name ∈ Goal.freeVariables goal, IsVariableName name := by
  intro name member
  obtain ⟨tokens, scanned, occurrences⟩ := parseGoal_occurrences accepted
  rw [Goal.freeVariables, accepted] at member
  have named := mem_of_mem_reportedNames member
  rw [occurrences] at named
  obtain ⟨token, isToken, isVariable⟩ := List.mem_filterMap.mp named
  cases kind : token.kind with
  | var other =>
      rw [kind] at isVariable
      cases isVariable
      exact isVariableName_of_mem scanned isToken kind
  | _ =>
      rw [kind] at isVariable
      cases isVariable

theorem exists_written {goal : String} {term : Term} (accepted : parseGoal goal = .ok term) :
    ∃ written, parse goal = .ok written ∧ (written = term ∨ written = .compound "?-" [term]) := by
  obtain ⟨written, read, continued⟩ := bind_eq_ok.mp accepted
  refine ⟨written, read, ?_⟩
  split at continued
  case h_1 functor goal =>
    split at continued
    case isTrue arrow =>
      cases continued
      exact .inr (by rw [arrow])
    case isFalse =>
      cases continued
      exact .inl rfl
  case h_2 =>
    cases continued
    exact .inl rfl

/-- A goal that leaves the directive around it within the levels of the reader. -/
def LeavesLevels (goal : String) : Prop :=
  ReadsWithin (maxDepth - 4) goal ∧ 2 * (Goal.freeVariables goal).length + 6 ≤ maxDepth

instance (goal : String) : Decidable (LeavesLevels goal) :=
  inferInstanceAs (Decidable (_ ∧ _))

/-- The wrapped goal is read as the directive that calls the term the goal spells and prints its
variables, unless it nests too deep. Where an arrow was dropped from the goal that was read, the
arrow is still there in the call. -/
theorem parse_wrapGoal {dialect : Dialect} {goal : String} {term : Term}
    (swi : dialect.kind = .swi) (fits : FitsBrackets goal) (accepted : parseGoal goal = .ok term) :
    ∃ written, parse goal = .ok written ∧ (written = term ∨ written = .compound "?-" [term]) ∧
      (LeavesLevels goal → parse (dialect.wrapGoal goal (Goal.freeVariables goal)) =
        .ok (enumeration written (Goal.freeVariables goal))) ∧
      (¬LeavesLevels goal →
        ∃ position, parse (dialect.wrapGoal goal (Goal.freeVariables goal)) =
          .error (.syntaxFault (SyntaxFault.nestedTooDeep maxDepth).reason position)) := by
  obtain ⟨written, read, arrow⟩ := exists_written accepted
  obtain ⟨depth, within, writes⟩ := exists_goalDepth fits read
  have reads := readsIf_parse_clause
    (scans_directive writes (isVariableName_of_mem_freeVariables accepted) ['\n'])
  have text : String.ofList (directiveText goal (Goal.freeVariables goal) ++ ['.', '\n']) =
      dialect.wrapGoal goal (Goal.freeVariables goal) := by
    rw [← toList_swiGoal, String.ofList_toList, wrapGoal, swi]
  rw [text] at reads
  have shallow : max (depth + 4) (2 * (Goal.freeVariables goal).length + 6) ≤ maxDepth ↔
      LeavesLevels goal := by
    have limit : maxDepth = 256 := rfl
    rw [LeavesLevels, within, Nat.max_le]
    omega
  have wrapped := reads.congr shallow
  exact ⟨written, read, arrow, wrapped.same, wrapped.deep⟩

theorem parse_wrapGoal_member :
    let goal := " member(X, [a|T]), /* not a */ X \\= 'a.' .\n"
    let term : Term := .compound "," [
      .compound "member" [.var "X", .compound listCell [.atom "a", .var "T"]],
      .compound "\\=" [.var "X", .atom "a."]]
    FitsBrackets goal ∧ parseGoal goal = .ok term ∧
      parse ((ofEngine .swi).wrapGoal goal ["X", "T"]) = .ok (enumeration term ["X", "T"]) := by
  intro goal term
  have fits : FitsBrackets goal := ⟨by decide +kernel, by decide +kernel⟩
  have read : parse goal = .ok term := (givesTerm_iff (by decide) _).mp (by decide +kernel)
  have accepted : parseGoal goal = .ok term := by
    rw [parseGoal, read]
    rfl
  have columns : Goal.freeVariables goal = ["X", "T"] := by decide +kernel
  have shallow : LeavesLevels goal := by decide +kernel
  obtain ⟨written, isWritten, _, wrapped, _⟩ :=
    parse_wrapGoal (rfl : (ofEngine .swi).kind = .swi) fits accepted
  have same : written = term := Except.ok.inj (isWritten.symm.trans read)
  rw [columns, same] at wrapped
  exact ⟨fits, accepted, wrapped shallow⟩

/-- The term that a goal is read as is what the directive calls. -/
def CallsTerm (goal : String) : Prop :=
  ∀ term, parseGoal goal = .ok term → LeavesLevels goal →
    parse ((ofEngine .swi).wrapGoal goal (Goal.freeVariables goal)) =
      .ok (enumeration term (Goal.freeVariables goal))

theorem not_callsTerm {goal : String} {term : Term} (accepted : parseGoal goal = .ok term)
    (shallow : LeavesLevels goal)
    (differs : parse ((ofEngine .swi).wrapGoal goal (Goal.freeVariables goal)) ≠
      .ok (enumeration term (Goal.freeVariables goal))) : ¬CallsTerm goal :=
  fun calls => differs (calls term accepted shallow)

/-- An arrow before the goal is called with it, a comment after the goal takes in the rest of the
directive, and a point that belongs to the last name is cut off. -/
theorem not_callsTerm_all :
    ¬CallsTerm "?- true." ∧ ¬CallsTerm "true % done" ∧ ¬CallsTerm "X = =." := by
  refine ⟨?_, ?_, ?_⟩
  · have accepted : parseGoal "?- true." = .ok (.atom "true") :=
      (givesTerm_iff (by decide) _).mp (by decide +kernel)
    exact not_callsTerm accepted (by decide +kernel)
      (mt (givesTerm_iff (by decide +kernel) _).mpr (by decide +kernel))
  · have accepted : parseGoal "true % done" = .ok (.atom "true") :=
      (givesTerm_iff (by decide) _).mp (by decide +kernel)
    exact not_callsTerm accepted (by decide +kernel)
      (mt (givesTerm_iff (by decide +kernel) _).mpr (by decide +kernel))
  · have accepted : parseGoal "X = =." = .ok (.compound "=" [.var "X", .atom "=."]) :=
      (givesTerm_iff (by decide) _).mp (by decide +kernel)
    exact not_callsTerm accepted (by decide +kernel)
      (mt (givesTerm_iff (by decide +kernel) _).mpr (by decide +kernel))

end Dialect

end HornQuery
