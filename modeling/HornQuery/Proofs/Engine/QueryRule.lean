import HornQuery.Proofs.Answer.Weighted
import HornQuery.Proofs.Engine.Enumeration
import HornQuery.Proofs.Goal.Operands
import HornQuery.Proofs.Goal.Point
import HornQuery.Proofs.Operator.Priority

namespace HornQuery

open Term Token

namespace Dialect

/-! The wrapped goal as text. -/

/-- The head of the rule: an instance of it is reported for each solution. -/
def queryTerm (columns : List String) : Term :=
  Weighted.headTerm (columns.map .var)

def ruleText (goal : String) (columns : List String) : String :=
  problogHead columns ++ " :- " ++ withoutClauseEnd goal ++ "."

def requestText (columns : List String) : String :=
  "query(" ++ problogHead columns ++ ")."

theorem problogGoal_eq (goal : String) (columns : List String) :
    problogGoal goal columns = Theory.ofLines [ruleText goal columns, requestText columns] := by
  apply String.toList_injective
  have ending : ".\nquery(".toList = ['.', '\n'] ++ "query(".toList := by decide
  have last : ").\n".toList = ").".toList ++ ['\n'] := by decide
  have feed : "\n".toList = ['\n'] := by decide
  have point : ".".toList = ['.'] := by decide
  simp only [problogGoal, Theory.ofLines, ruleText, requestText, toString, String.toList_append,
    String.toList_join, List.map_cons, List.map_nil, List.flatMap_cons, List.flatMap_nil, ending,
    last, feed, point]
  simp

theorem toList_problogHead (columns : List String) :
    (problogHead columns).toList = (queryTerm columns).write := by
  have written := Weighted.write_headTerm ⟨columns.map .var, [], 0⟩
  rw [Weighted.Answer.head] at written
  rw [queryTerm, written, problogHead]
  cases columns with
  | nil => rfl
  | cons name names =>
      have texts : (names.map Term.var).map Term.write = names.map String.toList := by
        rw [List.map_map]
        rfl
      have first : (Term.var name).write = name.toList := rfl
      have comma : ",".toList = [','] := by decide
      have opening : "(".toList = ['('] := by decide
      have closing : ")".toList = [')'] := by decide
      simp only [List.map_cons, List.isEmpty_cons, Bool.false_eq_true, if_false,
        String.toList_append, String.toList_intercalate, comma, opening, closing]
      rw [texts, first, Text.joinWith_eq_intercalate]
      simp

theorem toList_ruleText (goal : String) (columns : List String) :
    (ruleText goal columns).toList = (queryTerm columns).write ++
      (' ' :: (":-".toList ++ ' ' :: ((withoutClauseEnd goal).toList ++ ['.']))) := by
  have arrow : " :- ".toList = ' ' :: (":-".toList ++ [' ']) := by decide
  have point : ".".toList = ['.'] := by decide
  simp only [ruleText, String.toList_append, toList_problogHead, arrow, point]
  simp

theorem toList_requestText (columns : List String) :
    (requestText columns).toList =
      ("query".toList ++ '(' :: ((queryTerm columns).write ++ [')'])) ++ ['.'] := by
  have opening : "query(".toList = "query".toList ++ ['('] := by decide
  have closing : ").".toList = [')', '.'] := by decide
  simp only [requestText, String.toList_append, toList_problogHead, opening, closing]
  simp

/-! The head. -/

variable {columns : List String}

theorem operandTerm_queryTerm (spelled : ∀ name ∈ columns, IsVariableName name) :
    OperandTerm (queryTerm columns) := by
  have readable : ∀ term ∈ columns.map Term.var, term.Readable := by
    intro term member
    obtain ⟨name, isColumn, rfl⟩ := List.mem_map.mp member
    exact .var (spelled name isColumn)
  have functor : (queryTerm columns).functor? = some Weighted.queryHead := by
    cases columns <;> rfl
  refine ⟨Weighted.readable_headTerm readable, ?_, ?_⟩
  · intro name same
    cases functor.symm.trans same
    decide
  · intro name same
    cases functor.symm.trans same
    decide

theorem height_queryTerm : (queryTerm columns).height ≤ 2 := by
  cases columns with
  | nil => decide
  | cons name names =>
      apply (height_functional_le_iff (Weighted.functional_queryHead _).noCell).mpr
      intro term member
      obtain ⟨other, _, rfl⟩ := List.mem_map.mp member
      exact Nat.le_refl 1

theorem parse_requestText (spelled : ∀ name ∈ columns, IsVariableName name) :
    parse (requestText columns) = .ok (.compound "query" [queryTerm columns]) := by
  have bare : IsBare "query" = true := by decide +kernel
  have head := (writes_leaf (operandTerm_queryTerm spelled)).mono (Nat.zero_le argumentBound)
  have call := scans_applied bare (by decide) (scans_argument head ['.'])
  have reads := readsIf_clause (List.forall_mem_nil _)
    (call.imp fun _ reads => reads.mono (Nat.zero_le clauseBound))
  rw [← toList_requestText, String.ofList_toList] at reads
  have low := @height_queryTerm columns
  exact reads.same (by rw [maxDepth]; omega)

/-! The body. -/

def bodyBound : Nat := 1199

/-- The priority of the operator that a goal has outside of all brackets, if there is one. -/
def outermost (goal : String) : Nat :=
  match (scan goal.toList).bind
      (readOperand (Text.byteLength goal.toList) maxDepth clauseBound) with
  | .ok (result, _) => result.priority
  | .error _ => 0

def ReadsBody (levels : Nat) (text : String) : Prop :=
  ((scan text.toList).bind
    (readOperand (Text.byteLength text.toList) levels bodyBound)).isOk = true

instance (levels : Nat) (text : String) : Decidable (ReadsBody levels text) :=
  inferInstanceAs (Decidable (_ = true))

/-- The tokens of a goal that can stand in front of a point, with what they are read as there. -/
structure IsBody (goal : String) (depth : Nat) (inside : List Token) (body : Operand) : Prop where
  within : ∀ levels, ReadsBody levels goal ↔ depth ≤ levels
  scans : Scans ((withoutClauseEnd goal).toList ++ ['.']) [] (Goal.Ended inside)
  reads : ReadsFrom (fun size levels => readOperand size levels bodyBound) depth inside body
    inside.length

theorem exists_body {goal : String} {term : Term} (fits : Goal.FitsPoint goal)
    (inner : outermost goal < clauseBound) (read : parse goal = .ok term) :
    ∃ depth inside priority, IsBody goal depth inside ⟨term, priority⟩ := by
  obtain ⟨all, scanned, readTokens⟩ := bind_eq_ok.mp read
  obtain ⟨inside, ends, same, onlyEnds, last, scans⟩ := fits.exists_inside scanned
  have final := final_of_onlyEnds onlyEnds
  rw [ofTokens_spaced same] at readTokens
  obtain ⟨_, wideDepth, wideShallow, priority, wide⟩ := exists_depth onlyEnds last readTokens
  have wideRead := (wide.again (Text.byteLength goal.toList) maxDepth inside ends rfl
    final.quiet).same wideShallow
  have strong : priority < clauseBound := by
    rw [outermost, scanned, Except.bind, readOperand_spaced same, wideRead] at inner
    exact inner
  have narrowRead := readOperand_narrower wideRead (Nat.le_of_lt_succ strong) (by decide)
  obtain ⟨depth, _, reads⟩ := nests_readOperand maxDepth bodyBound final narrowRead
  refine ⟨depth, inside, priority, ?_, scans, reads⟩
  intro levels
  have again := reads.again (Text.byteLength goal.toList) levels inside ends rfl final.quiet
  rw [ReadsBody, scanned, Except.bind, readOperand_spaced same]
  exact again.isOk_iff

theorem IsBody.ne_nil {goal : String} {depth : Nat} {inside : List Token} {body : Operand}
    (isBody : IsBody goal depth inside body) : inside ≠ [] := by
  rintro rfl
  have quiet : Quiet [] := nofun
  exact absurd (taken_pos ((isBody.reads.again 0 depth [] [] rfl quiet).same (Nat.le_refl depth)))
    (Nat.lt_irrefl 0)

theorem scan_ruleText {goal : String} {depth : Nat} {inside : List Token} {body : Operand}
    (readable : (queryTerm columns).Readable) (isBody : IsBody goal depth inside body) :
    ∃ former sign latter ends, Spells former (queryTerm columns) ∧ sign.kind = .name ":-" ∧
      Alike inside latter ∧ OnlyEnds ends ∧ ends.length ≤ 1 ∧
        scan (ruleText goal columns).toList =
          .ok (former ++ sign :: afterLayout (latter ++ ends)) := by
  have notEmpty : ∀ tokens, Goal.Ended inside tokens → tokens ≠ [] := by
    rintro _ ⟨latter, ends, shaped, _, _, rfl⟩ none
    rw [(List.append_eq_nil_iff.mp none).1] at shaped
    exact isBody.ne_nil (List.map_eq_nil_iff.mp shaped.symm)
  have whole : Scans ((queryTerm columns).write ++
      (' ' :: (":-".toList ++ ' ' :: ((withoutClauseEnd goal).toList ++ ['.'])))) [] fun tokens =>
        ∃ former sign latter ends, Spells former (queryTerm columns) ∧ sign.kind = .name ":-" ∧
          Alike inside latter ∧ OnlyEnds ends ∧ ends.length ≤ 1 ∧
            tokens = former ++ sign :: afterLayout (latter ++ ends) := by
    apply ((scans_written readable).1 _ (delimited_cons (by decide) _)).append
      (scans_arrowed isBody.scans notEmpty)
    rintro former _ isHead ⟨sign, _, kind, ⟨latter, ends, alike, onlyEnds, single, rfl⟩, rfl⟩
    exact ⟨former, sign, latter, ends, isHead, kind, alike, onlyEnds, single, rfl⟩
  obtain ⟨_, ⟨former, sign, latter, ends, isHead, kind, alike, onlyEnds, single, rfl⟩, scanned⟩ :=
    whole.scan_eq
  rw [toList_ruleText]
  exact ⟨former, sign, latter, ends, isHead, kind, alike, onlyEnds, single, scanned⟩

theorem readsIf_ruleText {goal : String} {depth : Nat} {inside : List Token} {body : Operand}
    (spelled : ∀ name ∈ columns, IsVariableName name) (isBody : IsBody goal depth inside body) :
    ReadsIf (depth ≤ maxDepth - 1) (parse (ruleText goal columns))
      (.compound ":-" [queryTerm columns, body.term]) := by
  have plain := operandTerm_queryTerm spelled
  obtain ⟨former, sign, latter, ends, isHead, kind, alike, onlyEnds, single, scanned⟩ :=
    scan_ruleText plain.readable isBody
  have notEmpty : latter ≠ [] := by
    rintro rfl
    exact isBody.ne_nil (List.map_eq_nil_iff.mp alike.symm)
  obtain ⟨first, others, rfl⟩ := List.exists_cons_of_ne_nil notEmpty
  rw [parse_eq_ofTokens scanned]
  generalize Text.byteLength _ = size
  have listed : infixOperator? ":-" = some ⟨1200, .xfx⟩ := by decide
  have isInfix : IsInfix ":-" sign := by simp [IsInfix, infixName?, Token.isMark, kind]
  have quiet := (final_of_onlyEnds onlyEnds).quiet
  have readBody : ReadsIf (depth ≤ 255)
      (readOperand size 255 bodyBound (afterLayout (first :: others) ++ ends))
      (body, (afterLayout (first :: others)).length) := by
    have read := isBody.reads.again size 255 (first :: others) ends alike quiet
    rw [← readOperand_afterLayout, ← alike.length_eq] at read
    exact read
  have rule := readsIf_joined size listed isInfix isHead (Nat.le_refl 1200)
    (stops_of_quiet quiet clauseBound)
    (fun text isAtom => .inl (plain.noPrefix text (by rw [isAtom]; rfl))) readBody
  have low := @height_queryTerm columns
  have shallow : (queryTerm columns).height ≤ 255 + 1 ∧ depth ≤ 255 ↔ depth ≤ maxDepth - 1 := by
    rw [maxDepth]
    omega
  have tokens : former ++ sign :: afterLayout (first :: others ++ ends) =
      (former ++ sign :: afterLayout (first :: others)) ++ ends := by
    simp [afterLayout]
  have readRule : ReadsIf _ (readOperand size maxDepth clauseBound _) _ := rule.congr shallow
  rw [List.append_cons, ← List.append_assoc, ← List.append_cons] at readRule
  rw [tokens]
  cases ends with
  | nil =>
      rw [List.append_nil] at readRule ⊢
      exact readsIf_ofTokens (by simp) readRule
  | cons token more =>
      obtain rfl : more = [] := by simpa using single
      exact readsIf_ofTokens_end (onlyEnds token List.mem_cons_self) readRule

/-- The wrapped goal is a rule and a request for its head. The rule is read as the one from the term
that the goal spells to an instance of its variables, unless it nests too deep. Where an arrow was
dropped from the goal that was read, the arrow is still there in the rule. -/
theorem parse_queryRule {dialect : Dialect} {goal : String} {term : Term}
    (problog : dialect.kind = .problog) (fits : Goal.FitsPoint goal)
    (inner : outermost goal < clauseBound) (accepted : parseGoal goal = .ok term) :
    let columns := Goal.freeVariables goal
    dialect.wrapGoal goal columns = Theory.ofLines [ruleText goal columns, requestText columns] ∧
      parse (requestText columns) = .ok (.compound "query" [queryTerm columns]) ∧
      ∃ written, parse goal = .ok written ∧
        (written = term ∨ written = .compound "?-" [term]) ∧
        (ReadsBody (maxDepth - 1) goal → parse (ruleText goal columns) =
          .ok (.compound ":-" [queryTerm columns, written])) ∧
        (¬ReadsBody (maxDepth - 1) goal → ∃ position, parse (ruleText goal columns) =
          .error (.syntaxFault (SyntaxFault.nestedTooDeep maxDepth).reason position)) := by
  intro columns
  have spelled : ∀ name ∈ columns, IsVariableName name :=
    isVariableName_of_mem_freeVariables accepted
  obtain ⟨written, read, arrow⟩ := exists_written accepted
  obtain ⟨depth, inside, priority, isBody⟩ := exists_body fits inner read
  have reads := (readsIf_ruleText spelled isBody).congr (isBody.within _).symm
  have wrapped : dialect.wrapGoal goal columns = problogGoal goal columns := by
    rw [wrapGoal, problog]
  rw [wrapped, problogGoal_eq]
  exact ⟨rfl, parse_requestText spelled, written, read, arrow, reads.same, reads.deep⟩

theorem parse_queryRule_member :
    let goal := " member(X, [a|T]), \\+ X = 'a.' .\n"
    let term : Term := .compound "," [
      .compound "member" [.var "X", .compound listCell [.atom "a", .var "T"]],
      .compound "\\+" [.compound "=" [.var "X", .atom "a."]]]
    Goal.FitsPoint goal ∧ outermost goal < clauseBound ∧ parseGoal goal = .ok term ∧
      parse (ruleText goal ["X", "T"]) = .ok (.compound ":-" [queryTerm ["X", "T"], term]) ∧
      parse (requestText ["X", "T"]) = .ok (.compound "query" [queryTerm ["X", "T"]]) := by
  intro goal term
  have fits : Goal.FitsPoint goal := .parted (by decide +kernel) (by decide +kernel)
  have inner : outermost goal < clauseBound := by decide +kernel
  have read : parse goal = .ok term := (givesTerm_iff (by decide) _).mp (by decide +kernel)
  have accepted : parseGoal goal = .ok term := by
    rw [parseGoal, read]
    rfl
  have columns : Goal.freeVariables goal = ["X", "T"] := by decide +kernel
  have shallow : ReadsBody (maxDepth - 1) goal := by decide +kernel
  obtain ⟨_, request, written, isWritten, _, rule, _⟩ :=
    parse_queryRule (rfl : (ofEngine .problog).kind = .problog) fits inner accepted
  have same : written = term := Except.ok.inj (isWritten.symm.trans read)
  rw [columns, same] at rule
  rw [columns] at request
  exact ⟨fits, inner, accepted, rule shallow, request⟩

/-- The term that a goal is read as is the body of the rule. -/
def KeepsGoal (goal : String) : Prop :=
  ∀ term, parseGoal goal = .ok term → parse (ruleText goal (Goal.freeVariables goal)) =
    .ok (.compound ":-" [queryTerm (Goal.freeVariables goal), term])

theorem not_keepsGoal {goal : String} {term : Term} (accepted : parseGoal goal = .ok term)
    (differs : parse (ruleText goal (Goal.freeVariables goal)) ≠
      .ok (.compound ":-" [queryTerm (Goal.freeVariables goal), term])) : ¬KeepsGoal goal :=
  fun keeps => differs (keeps term accepted)

/-- The point goes on with a name of symbols, it becomes the character of a code whose own one was
cut off as white space, and an arrow between brackets stays in the body. -/
theorem not_keepsGoal_all :
    ¬KeepsGoal "X = =" ∧ ¬KeepsGoal "X = 0' " ∧ ¬KeepsGoal "(?- true)" := by
  refine ⟨?_, ?_, ?_⟩
  · have accepted : parseGoal "X = =" = .ok (.compound "=" [.var "X", .atom "="]) :=
      (givesTerm_iff (by decide) _).mp (by decide +kernel)
    exact not_keepsGoal accepted
      (mt (givesTerm_iff (by decide +kernel) _).mpr (by decide +kernel))
  · have accepted : parseGoal "X = 0' " = .ok (.compound "=" [.var "X", .integer 32]) :=
      (givesTerm_iff (by decide) _).mp (by decide +kernel)
    exact not_keepsGoal accepted
      (mt (givesTerm_iff (by decide +kernel) _).mpr (by decide +kernel))
  · have accepted : parseGoal "(?- true)" = .ok (.atom "true") :=
      (givesTerm_iff (by decide) _).mp (by decide +kernel)
    exact not_keepsGoal accepted
      (mt (givesTerm_iff (by decide +kernel) _).mpr (by decide +kernel))

end Dialect

end HornQuery
