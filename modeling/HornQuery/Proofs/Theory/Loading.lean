import HornQuery.Proofs.Theory.Declaration
import Mathlib.Data.List.Forall2

namespace HornQuery

open Term Token

namespace Theory

/-! The clauses of a script. -/

/-- The tokens of each clause without the point that ends it. What comes after the last point is
no clause. -/
def clauses (tokens : List Token) : List (List Token) :=
  (tokens.splitOnP Token.isEnd).dropLast

/-- Tokens that are one term, however deep it nests. -/
def ReadWhole (tokens : List Token) (term : Term) : Prop :=
  ∃ size levels priority,
    readOperand size levels clauseBound tokens = .ok (⟨term, priority⟩, tokens.length)

/-- The term that a clause is read as, if there is one. -/
def ClauseReads (tokens : List Token) (term? : Option Term) : Prop :=
  ∀ term, ReadWhole tokens term ↔ term? = some term

def ScriptReads (script : String) (terms : List (Option Term)) : Prop :=
  ∃ tokens, scan script.toList = .ok tokens ∧ List.Forall₂ ClauseReads (clauses tokens) terms

theorem ScriptReads.unique {script : String} {terms others : List (Option Term)}
    (reads : ScriptReads script terms) (also : ScriptReads script others) : terms = others := by
  obtain ⟨tokens, scanned, first⟩ := reads
  obtain ⟨same, scannedAgain, second⟩ := also
  cases scanned.symm.trans scannedAgain
  have unique : Relator.RightUnique ClauseReads := fun _ _ _ one other =>
    Option.ext fun term => (one term).symm.trans (other term)
  exact List.right_unique_forall₂' unique first second

/-! Execution. -/

/-- What a clause does to the facts that are there. A directive that asserts adds its fact at the
end, and one that retracts takes away the earliest fact that may be removed for its pattern, if any.
A clause that is no directive states itself. -/
inductive Executes (removable : Term → Term → Prop) : Option Term → List Term → List Term → Prop
  | asserted {facts : List Term} {arrow : String} {fact : Term} (isArrow : arrow ∈ directiveNames) :
      Executes removable (some (.compound arrow [.compound "assertz" [fact]])) facts
        (facts ++ [fact])
  | retracted {former latter : List Term} {arrow : String} {fact pattern : Term}
      (isArrow : arrow ∈ directiveNames) (found : removable pattern fact)
      (first : ∀ earlier ∈ former, ¬removable pattern earlier) :
      Executes removable (some (.compound arrow [.compound "retract" [pattern]]))
        (former ++ fact :: latter) (former ++ latter)
  | missed {facts : List Term} {arrow : String} {pattern : Term}
      (isArrow : arrow ∈ directiveNames) (none : ∀ fact ∈ facts, ¬removable pattern fact) :
      Executes removable (some (.compound arrow [.compound "retract" [pattern]])) facts facts
  | called {facts : List Term} {arrow : String} {goal : Term} (isArrow : arrow ∈ directiveNames)
      (noAssertion : ∀ fact, goal ≠ .compound "assertz" [fact])
      (noRetraction : ∀ pattern, goal ≠ .compound "retract" [pattern]) :
      Executes removable (some (.compound arrow [goal])) facts facts
  | stated {facts : List Term} {term : Term}
      (noDirective : ∀ arrow ∈ directiveNames, ∀ goal, term ≠ .compound arrow [goal]) :
      Executes removable (some term) facts (facts ++ [term])
  | unreadable {facts : List Term} : Executes removable none facts facts

inductive Executed (removable : Term → Term → Prop) :
    List (Option Term) → List Term → List Term → Prop
  | nil {facts : List Term} : Executed removable [] facts facts
  | cons {clause : Option Term} {clauses : List (Option Term)} {before between after : List Term}
      (step : Executes removable clause before between)
      (rest : Executed removable clauses between after) :
      Executed removable (clause :: clauses) before after

/-- The facts that are there after a script has been loaded. -/
def Leaves (removable : Term → Term → Prop) (script : String) (facts : List Term) : Prop :=
  ∃ terms, ScriptReads script terms ∧ Executed removable terms [] facts

theorem ScriptReads.leaves_iff {removable : Term → Term → Prop} {script : String}
    {terms : List (Option Term)} {facts : List Term} (reads : ScriptReads script terms) :
    Leaves removable script facts ↔ Executed removable terms [] facts := by
  constructor
  · rintro ⟨others, also, executed⟩
    rwa [reads.unique also]
  · intro executed
    exact ⟨terms, reads, executed⟩

def command (predicate : String) (argument : Term) : Term :=
  .compound ":-" [.compound predicate [argument]]

section

variable {removable : Term → Term → Prop} {facts after : List Term} {fact pattern : Term}

theorem arrow_mem_directiveNames : ":-" ∈ directiveNames :=
  List.mem_cons_self

theorem executes_assertion_iff :
    Executes removable (some (command "assertz" fact)) facts after ↔ after = facts ++ [fact] := by
  constructor
  · intro executes
    generalize same : some (command "assertz" fact) = clause at executes
    cases executes with
    | asserted =>
        cases same
        rfl
    | retracted | missed => simp [command] at same
    | called _ noAssertion =>
        cases same
        exact absurd rfl (noAssertion fact)
    | stated noDirective =>
        cases same
        exact absurd rfl (noDirective ":-" arrow_mem_directiveNames _)
    | unreadable => cases same
  · rintro rfl
    exact .asserted arrow_mem_directiveNames

theorem executes_retraction_cases
    (executes : Executes removable (some (command "retract" pattern)) facts after) :
    (∃ former fact latter, facts = former ++ fact :: latter ∧ after = former ++ latter ∧
        removable pattern fact ∧ ∀ earlier ∈ former, ¬removable pattern earlier) ∨
      after = facts ∧ ∀ fact ∈ facts, ¬removable pattern fact := by
  generalize same : some (command "retract" pattern) = clause at executes
  cases executes with
  | asserted => simp [command] at same
  | retracted _ found first =>
      cases same
      exact .inl ⟨_, _, _, rfl, rfl, found, first⟩
  | missed _ none =>
      cases same
      exact .inr ⟨rfl, none⟩
  | called _ _ noRetraction =>
      cases same
      exact absurd rfl (noRetraction pattern)
  | stated noDirective =>
      cases same
      exact absurd rfl (noDirective ":-" arrow_mem_directiveNames _)
  | unreadable => cases same

def IsIdle (clause : Option Term) : Prop :=
  clause = none ∨ ∃ name arity, clause = some (declaration name arity)

theorem IsIdle.executes_iff {clause : Option Term} (idle : IsIdle clause) :
    Executes removable clause facts after ↔ after = facts := by
  constructor
  · intro executes
    rcases idle with rfl | ⟨name, arity, rfl⟩
    · cases executes
      rfl
    · generalize same : some (declaration name arity) = clause at executes
      cases executes with
      | asserted | retracted => simp [declaration] at same
      | stated noDirective =>
          cases same
          exact absurd rfl (noDirective ":-" arrow_mem_directiveNames _)
      | missed | called | unreadable => rfl
  · rintro rfl
    rcases idle with rfl | ⟨name, arity, rfl⟩
    · exact .unreadable
    · exact .called arrow_mem_directiveNames (by simp) (by simp)

theorem executed_idle_iff {idle clauses : List (Option Term)}
    (all : ∀ clause ∈ idle, IsIdle clause) :
    Executed removable (idle ++ clauses) facts after ↔ Executed removable clauses facts after := by
  induction idle with
  | nil => rfl
  | cons clause idle induction =>
      obtain ⟨first, others⟩ := List.forall_mem_cons.mp all
      rw [← induction others]
      constructor
      · rintro (_ | ⟨step, rest⟩)
        rwa [first.executes_iff.mp step] at rest
      · exact .cons (first.executes_iff.mpr rfl)

end

/-! One clause. -/

structure IsClause (term? : Option Term) (tokens : List Token) : Prop where
  some : tokens ≠ []
  noEnd : ∀ token ∈ tokens, token.kind ≠ .clauseEnd
  reads : ClauseReads tokens term?

section

variable {term? : Option Term} {term : Term} {tokens : List Token} {depth : Nat}

theorem IsClause.afterLayout (isClause : IsClause term? tokens) :
    IsClause term? (afterLayout tokens) := by
  obtain ⟨token, others, rfl⟩ := List.exists_cons_of_ne_nil isClause.some
  refine ⟨List.cons_ne_nil _ _, ?_, fun term => ?_⟩
  · simpa [Token.afterLayout] using isClause.noEnd
  · rw [← isClause.reads term]
    simp only [ReadWhole, readOperand_afterLayout]
    rfl

theorem Reads.isClause (reads : Reads depth clauseBound term tokens) :
    IsClause (some term) tokens := by
  obtain ⟨priority, readsIf⟩ := reads.readsIf
  have whole : ∀ size levels, ReadsIf (depth ≤ levels) (readOperand size levels clauseBound tokens)
      (⟨term, priority⟩, tokens.length) := by
    intro size levels
    have read := readsIf size levels [] (stops_of_ends (ends_nil clauseBound))
    rwa [List.append_nil] at read
  have read := (whole 0 depth).same (Nat.le_refl depth)
  refine ⟨reads.ne_nil, ?_, fun other => ⟨?_, ?_⟩⟩
  · have noEnd := noEnd_of_readOperand read
    rwa [List.take_length] at noEnd
  · rintro ⟨size, levels, otherPriority, found⟩
    by_cases deep : depth ≤ levels
    · cases ((whole size levels).same deep).symm.trans found
      rfl
    · obtain ⟨position, refused⟩ := (whole size levels).deep deep
      cases refused.symm.trans found
  · rintro ⟨⟩
    exact ⟨0, depth, priority, read⟩

theorem Refused.isClause (refused : Refused tokens) (some : tokens ≠ [])
    (noEnd : ∀ token ∈ tokens, token.kind ≠ .clauseEnd) : IsClause none tokens := by
  refine ⟨some, noEnd, fun term => iff_of_false ?_ nofun⟩
  rintro ⟨size, levels, priority, read⟩
  obtain ⟨cause, failed⟩ := refused size levels clauseBound []
  rw [List.append_nil, read] at failed
  cases failed

end

/-! Lines. -/

/-- Text that is cut into clauses which are read as the terms, whatever white space is before it. -/
def TextReads (text : List Char) (terms : List (Option Term)) : Prop :=
  ∀ gap, Skips gap → ∀ position, ∃ tokens, scanFrom position (gap ++ text) = .ok tokens ∧
    List.Forall₂ ClauseReads (clauses tokens) terms

/-- A line that ends in the point of the one clause in it. -/
def IsLine (line : String) (term? : Option Term) : Prop :=
  ∃ text, line.toList = text ++ ['.'] ∧ ∀ rest, Scans text ('.' :: rest) (IsClause term?)

section

variable {term? : Option Term} {terms others : List (Option Term)} {line rest text : List Char}

theorem isEnd_eq_false {tokens : List Token} (noEnd : ∀ token ∈ tokens, token.kind ≠ .clauseEnd) :
    ∀ token ∈ tokens, token.isEnd = false := by
  intro token member
  unfold Token.isEnd
  split
  case h_1 ends => exact absurd ends (noEnd token member)
  case h_2 => rfl

theorem clauses_append {inside tokens : List Token} {ending : Token}
    (noEnd : ∀ token ∈ inside, token.kind ≠ .clauseEnd) (isEnd : ending.kind = .clauseEnd) :
    clauses (inside ++ ending :: tokens) = inside :: clauses tokens := by
  have ends : ending.isEnd = true := by simp [Token.isEnd, isEnd]
  rw [clauses, List.splitOnP_append_cons_of_forall_mem (isEnd_eq_false noEnd) _ ends,
    List.dropLast_cons_of_ne_nil (List.splitOnP_ne_nil _ _), clauses]

theorem clauses_of_noEnd {tokens : List Token} (noEnd : ∀ token ∈ tokens, token.kind ≠ .clauseEnd) :
    clauses tokens = [] := by
  rw [clauses, List.splitOnP_eq_singleton (isEnd_eq_false noEnd)]
  rfl

theorem textReads_unfinished
    (scans : ∀ position, ∃ tokens, scanFrom position text = .ok tokens ∧
      ∀ token ∈ tokens, token.kind ≠ .clauseEnd) : TextReads text [] := by
  intro gap skips position
  obtain ⟨tokens, scanned, noEnd⟩ := scans (position + Text.byteLength gap)
  cases gap with
  | nil => exact ⟨tokens, scanned, clauses_of_noEnd noEnd ▸ .nil⟩
  | cons c gap =>
      have spaced : ∀ token ∈ afterLayout tokens, token.kind ≠ .clauseEnd := by
        cases tokens with
        | nil => exact noEnd
        | cons token tokens => simpa [Token.afterLayout] using noEnd
      refine ⟨afterLayout tokens, ?_, clauses_of_noEnd spaced ▸ .nil⟩
      rw [scanFrom_skips skips (List.cons_ne_nil c gap), scanned]
      rfl

theorem textReads_nil : TextReads [] [] :=
  textReads_unfinished fun position => ⟨[], scanFrom_nil position, List.forall_mem_nil _⟩

theorem TextReads.cons (later : TextReads rest terms)
    (scans : Scans line ('.' :: '\n' :: rest) (IsClause term?)) :
    TextReads (line ++ '.' :: '\n' :: rest) (term? :: terms) := by
  intro gap skips position
  have point : Scans ['.'] ('\n' :: rest) (Shaped [(.clauseEnd, false)]) :=
    (lexeme_clauseEnd rfl).scans skips_nil (.refl _) (.inl rfl)
  have spaced : Scans (gap ++ line) ('.' :: '\n' :: rest) (IsClause term?) := by
    cases gap with
    | nil => exact scans
    | cons c gap =>
        apply (scans.skips skips (List.cons_ne_nil c gap) fun _ isClause => isClause.some).imp
        rintro _ ⟨tokens, isClause, rfl⟩
        exact isClause.afterLayout
  obtain ⟨_, ⟨inside, ending, isClause, isEnd, rfl⟩, scanned⟩ :=
    Goal.scans_followed spaced point position
  obtain ⟨tokens, scannedLater, reads⟩ := later ['\n'] (skips_blank (by decide))
    (position + Text.byteLength (gap ++ line ++ ['.']))
  refine ⟨inside ++ ending :: tokens, ?_, ?_⟩
  · have whole : gap ++ (line ++ '.' :: '\n' :: rest) =
        gap ++ line ++ ['.'] ++ '\n' :: rest := by
      simp
    rw [List.singleton_append] at scannedLater
    rw [whole, scanned, scannedLater]
    simp [Except.map]
  · rw [clauses_append isClause.noEnd isEnd]
    exact .cons isClause.reads reads

theorem TextReads.lines (later : TextReads text others) {lines : List String}
    (each : List.Forall₂ IsLine lines terms) :
    TextReads ((ofLines lines).toList ++ text) (terms ++ others) := by
  induction each with
  | nil => exact later
  | @cons line term? lines terms isLine _ induction =>
      obtain ⟨front, isText, scans⟩ := isLine
      have whole : (ofLines (line :: lines)).toList ++ text =
          front ++ '.' :: '\n' :: ((ofLines lines).toList ++ text) := by
        simp [ofLines, String.toList_join, isText]
      rw [whole]
      exact induction.cons (scans _)

theorem TextReads.scriptReads {script : String} (reads : TextReads script.toList terms) :
    ScriptReads script terms :=
  reads [] skips_nil 0

end

/-! The lines of a script for SWI-Prolog. -/

section

variable {term fact pattern : Term} {text : List Char} {depth : Nat}

def commandText (predicate : String) (argument : List Char) : List Char :=
  ":-".toList ++ ' ' :: (predicate.toList ++ '(' :: (argument ++ [')']))

theorem isLine_command {predicate line : String} (bare : IsBare predicate = true)
    (noInfix : infixOperator? predicate = none)
    (isText : line.toList = commandText predicate text ++ ['.'])
    (writes : Writes depth 0 term text) : IsLine line (some (command predicate term)) := by
  have arrow : prefixOperator? ":-" = some ⟨1200, .fx⟩ := by decide
  refine ⟨commandText predicate text, isText, fun rest => ?_⟩
  have call := scans_applied bare noInfix
    (scans_argument (writes.mono (Nat.zero_le argumentBound)) ('.' :: rest))
  have directive := scans_prefixed arrow (call.imp fun _ reads => reads.mono (Nat.zero_le _))
  exact directive.imp fun _ reads => Reads.isClause reads

/-- A text that stands between brackets is read there as it is read alone. -/
theorem exists_writes {text : String} (stands : Goal.StandsBetween text)
    (read : Term.parse text = .ok term) :
    ∃ depth, Writes depth 0 term ('(' :: (text.toList ++ [')'])) := by
  obtain ⟨tokens, scanned, readTokens⟩ := bind_eq_ok.mp read
  obtain ⟨unended, scans⟩ := stands.scans scanned
  rw [← List.append_nil tokens] at readTokens
  have last : tokens.getLast?.any Token.isEnd = true → ([] : List Token) ≠ [] := by
    intro ended
    rw [unended] at ended
    cases ended
  obtain ⟨_, depth, _, priority, reads⟩ := exists_depth (List.forall_mem_nil _) last readTokens
  exact ⟨depth + 1, writes_between reads scans⟩

theorem isLine_enclosed {predicate line : String} (bare : IsBare predicate = true)
    (noInfix : infixOperator? predicate = none)
    (isText : line.toList = (":- " ++ predicate ++ "((").toList ++ text ++ ")).".toList)
    (writes : Writes depth 0 term ('(' :: (text ++ [')']))) :
    IsLine line (some (command predicate term)) := by
  have opening : ":- ".toList = ":-".toList ++ [' '] := by decide
  have brackets : "((".toList = ['(', '('] := by decide
  have closing : ")).".toList = [')', ')', '.'] := by decide
  refine isLine_command bare noInfix ?_ writes
  rw [isText, String.toList_append, String.toList_append, opening, brackets, closing, commandText]
  simp

theorem isLine_assertion
    (writes : Writes depth 0 term ('(' :: (fact.clauseText.toList ++ [')']))) :
    IsLine (swiLine (.asserted fact)) (some (command "assertz" term)) :=
  isLine_enclosed (by decide +kernel) (by decide) (by simp [swiLine, toString]) writes

theorem isLine_retraction {text : String} (stands : Goal.StandsBetween text)
    (read : Term.parse text = .ok pattern) :
    IsLine (swiLine (.retracted text)) (some (command "retract" pattern)) := by
  obtain ⟨depth, writes⟩ := exists_writes stands read
  exact isLine_enclosed (by decide +kernel) (by decide) (by simp [swiLine, toString]) writes

/-- Between brackets the name of an operator is an atom. -/
theorem writes_enclosed (readable : Readable term) :
    Writes (term.height + 1) 0 term ('(' :: (term.write ++ [')'])) := by
  intro rest _
  have written := (scans_written readable).1 (')' :: rest) (delimited_cons (by decide) rest)
  apply (scans_enclosed written).imp
  rintro tokens ⟨opening, inner, closing, opens, _, spelled, closes, rfl⟩
  exact reads_enclosed (fun size levels rest => readsTerms_readOperand size levels spelled
    (ends_closing closes (by decide) clauseBound rest)) opens closes

theorem isLine_fact (readable : Readable fact) (noRule : fact.rule? = none) :
    IsLine (swiLine (.asserted fact)) (some (command "assertz" fact)) := by
  have plain : fact.clauseText.toList = fact.write := by
    rw [Term.clauseText, noRule, toList_text]
  have writes := writes_enclosed readable
  rw [← plain] at writes
  exact isLine_assertion writes

end

theorem exists_isLine_dynamicDirective (indicator : Indicator)
    (small : indicator.arity ≤ integerMax) :
    ∃ clause, IsIdle clause ∧ IsLine (dynamicDirective indicator) clause := by
  obtain ⟨value, digits⟩ := writeInteger_ofNat small
  have isText := toList_dynamicDirective indicator
  rw [toList_indicator] at isText
  by_cases joins : (writeName indicator.name).getLast?.any Text.isSymbol = true
  · refine ⟨none, .inl rfl, _, isText, fun rest => ?_⟩
    apply (scans_joinedDeclaration (scans_joined joins small) ('.' :: rest)).imp
    rintro tokens ⟨refused, some, noEnd⟩
    exact refused.isClause some noEnd
  · obtain ⟨name, low, written, before⟩ : ∃ name : Term, name.height = 1 ∧
        name.write = writeName indicator.name ∧
          ∀ rest, Scans name.write ('/' :: rest) (Spells · name) := by
      by_cases empty : indicator.name = "[]"
      · exact ⟨.list [], rfl, by rw [empty, writeName_emptyList],
          fun rest => scans_emptyList ('/' :: rest)⟩
      · exact ⟨.atom indicator.name, rfl, rfl, scans_apart empty (Bool.not_eq_true _ ▸ joins)⟩
    refine ⟨_, .inr ⟨name, Int64.ofNat indicator.arity, rfl⟩, _, isText, fun rest => ?_⟩
    rw [← written, ← digits]
    exact (scans_declaration (Int64.ofNat indicator.arity) low (by omega) before ('.' :: rest)).imp
      fun _ reads => Reads.isClause reads

theorem exists_idle {indicators : List Indicator}
    (small : ∀ indicator ∈ indicators, indicator.arity ≤ integerMax) :
    ∃ idle, (∀ clause ∈ idle, IsIdle clause) ∧
      List.Forall₂ IsLine (indicators.map dynamicDirective) idle := by
  induction indicators with
  | nil => exact ⟨[], List.forall_mem_nil _, .nil⟩
  | cons indicator indicators induction =>
      obtain ⟨first, others⟩ := List.forall_mem_cons.mp small
      obtain ⟨clause, isIdle, isLine⟩ := exists_isLine_dynamicDirective indicator first
      obtain ⟨idle, areIdle, areLines⟩ := induction others
      exact ⟨clause :: idle, List.forall_mem_cons.mpr ⟨isIdle, areIdle⟩, .cons isLine areLines⟩

/-- Loading the script comes to executing what the lines of the log are read as. -/
theorem leaves_swiScript_iff {removable : Term → Term → Prop} {theory : Theory}
    {commands : List (Option Term)} {facts : List Term}
    (small : ∀ indicator ∈ theory.dynamic, indicator.arity ≤ integerMax)
    (lines : List.Forall₂ IsLine (theory.entries.map swiLine) commands) :
    Leaves removable theory.swiScript facts ↔ Executed removable commands [] facts := by
  obtain ⟨idle, areIdle, declared⟩ := exists_idle small
  have whole := textReads_nil.lines (List.rel_append declared lines)
  rw [List.append_nil, List.append_nil] at whole
  exact whole.scriptReads.leaves_iff.trans (executed_idle_iff areIdle)

end Theory

end HornQuery
