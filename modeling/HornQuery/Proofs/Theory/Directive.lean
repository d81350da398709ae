import HornQuery.Proofs.Term.Equality
import HornQuery.Proofs.Theory.Log
import HornQuery.Theory.Script
import Mathlib.Data.List.Induction

namespace HornQuery

namespace Term

theorem functor?_of_indicator? {term : Term} {indicator : Indicator}
    (found : term.indicator? = some indicator) : term.functor? = some indicator.name := by
  cases term <;> cases found <;> rfl

theorem assertedPredicate_rule (head body : Term) {indicator : Indicator}
    (found : head.indicator? = some indicator) :
    (Term.compound ":-" [head, body]).assertedPredicate = .ok indicator := by
  simp [assertedPredicate, rule?, found]

/-- A directive's name comes from the head of a rule, for everything else is refused. -/
theorem assertedPredicate_directive_iff {term : Term} {indicator : Indicator}
    (directive : indicator.name ∈ directiveNames) :
    term.assertedPredicate = .ok indicator ↔
      ∃ head body, term = .compound ":-" [head, body] ∧ head.indicator? = some indicator := by
  constructor
  · intro asserted
    have found := indicator?_of_assertedPredicate asserted
    cases rule : term.rule? with
    | some parts =>
        obtain ⟨head, body⟩ := parts
        rw [clauseHead_of_rule? rule] at found
        exact ⟨head, body, eq_of_rule? rule, found⟩
    | none =>
        rw [clauseHead_of_no_rule rule] at found
        have guarded := List.contains_iff_mem.mpr directive
        rw [assertedPredicate, rule, functor?_of_indicator? found] at asserted
        simp only [guarded, if_true] at asserted
        cases asserted
  · rintro ⟨head, body, rfl, found⟩
    exact assertedPredicate_rule head body found

end Term

namespace Theory

/-- A text asserts for a predicate if it is read as a term that is not refused. -/
def Operation.AssertsFor (indicator : Indicator) : Operation → Prop
  | .assertFact fact => ∃ term, Term.parse (withoutClauseEnd fact) = .ok term
      ∧ term.assertedPredicate = .ok indicator
  | _ => False

variable {theory : Theory}

theorem assertFact_of_read {fact : String} {term : Term} {indicator : Indicator}
    (theory : Theory) (read : Term.parse (withoutClauseEnd fact) = .ok term)
    (asserted : term.assertedPredicate = .ok indicator) :
    assertFact fact theory = .ok () ((theory.declareDynamic indicator).append (.asserted term)) := by
  rcases assertFact_cases theory fact with ⟨cause, refused⟩ | ⟨other, found, again, also, done⟩
  · simp only [assertFact, read, asserted] at refused
    cases refused
  · cases read.symm.trans again
    cases asserted.symm.trans also
    exact done

theorem mem_declared_perform {operation : Operation} {indicator : Indicator} :
    indicator ∈ (theory.perform operation).declared ↔
      indicator ∈ theory.declared ∨ operation.AssertsFor indicator := by
  cases operation with
  | addClause text => exact (or_false _).symm.to_iff
  | addClauses texts =>
      rw [perform, entries_addClauses]
      exact (or_false _).symm.to_iff
  | load text =>
      rw [perform, load, entries_addClauses]
      exact (or_false _).symm.to_iff
  | addLibrary name => exact (or_false _).symm.to_iff
  | retractFact fact => exact (or_false _).symm.to_iff
  | assertFact fact =>
      rcases assertFact_cases theory fact with
        ⟨cause, refused⟩ | ⟨term, found, read, asserted, done⟩
      · rw [perform, refused]
        refine ⟨.inl, Or.rec id ?_⟩
        rintro ⟨term, read, asserted⟩
        rw [assertFact_of_read theory read asserted] at refused
        cases refused
      · rw [perform, done, declared_append, mem_declared_declareDynamic]
        refine or_congr_right ⟨?_, ?_⟩
        · rintro rfl
          exact ⟨term, read, asserted⟩
        · rintro ⟨other, again, also⟩
          cases read.symm.trans again
          exact (Except.ok.inj (asserted.symm.trans also)).symm

/-- The dynamic predicates are those for which a text was asserted, whatever else was done. -/
theorem mem_dynamic_run (operations : List Operation) (indicator : Indicator) :
    indicator ∈ (run operations).dynamic ↔
      ∃ operation ∈ operations, operation.AssertsFor indicator := by
  rw [run, ← (coherent_foldl coherent_empty operations).mem_declared]
  induction operations using List.reverseRecOn with
  | nil => simp [empty]
  | append_singleton earlier operation induction =>
      rw [List.foldl_append, List.foldl_cons, List.foldl_nil, mem_declared_perform, induction]
      simp only [List.mem_append, List.mem_singleton, or_and_right, exists_or, exists_eq_left]

def IsRuleFor (indicator : Indicator) (fact : String) : Prop :=
  ∃ head body, Term.parse (withoutClauseEnd fact) = .ok (.compound ":-" [head, body])
    ∧ head.indicator? = some indicator

/-- A directive is declared dynamic exactly if a rule was asserted that has one as its head. -/
theorem mem_dynamic_directive_iff (operations : List Operation) {indicator : Indicator}
    (directive : indicator.name ∈ directiveNames) :
    indicator ∈ (run operations).dynamic ↔
      ∃ fact, .assertFact fact ∈ operations ∧ IsRuleFor indicator fact := by
  rw [mem_dynamic_run]
  constructor
  · rintro ⟨operation, member, asserts⟩
    cases operation with
    | assertFact fact =>
        obtain ⟨term, read, asserted⟩ := asserts
        obtain ⟨head, body, rfl, found⟩ :=
          (Term.assertedPredicate_directive_iff directive).mp asserted
        exact ⟨fact, member, head, body, read, found⟩
    | _ => exact asserts.elim
  · rintro ⟨fact, member, head, body, read, found⟩
    exact ⟨_, member, _, read, Term.assertedPredicate_rule head body found⟩

/-- The rule counts for its head, and the directive is refused. -/
theorem mem_dynamic_directive_iff_path :
    let operations : List Operation :=
      [.assertFact "path(X) :- edge(X, Y).", .assertFact ":- edge(a, b)", .load ":- edge(a, b)."]
    ":-" ∈ directiveNames ∧ ⟨":-", 1⟩ ∉ (run operations).dynamic := by
  intro operations
  refine ⟨by decide, ?_⟩
  rw [mem_dynamic_directive_iff operations (by decide)]
  have rule : Term.parse (withoutClauseEnd "path(X) :- edge(X, Y).") =
      .ok (.compound ":-" [.compound "path" [.var "X"], .compound "edge" [.var "X", .var "Y"]]) :=
    (Term.givesTerm_iff (by decide) _).mp (by decide +kernel)
  have directive : Term.parse (withoutClauseEnd ":- edge(a, b)") =
      .ok (.compound ":-" [.compound "edge" [.atom "a", .atom "b"]]) :=
    (Term.givesTerm_iff (by decide) _).mp (by decide +kernel)
  rintro ⟨fact, member, head, body, read, found⟩
  simp only [operations, List.mem_cons, Operation.assertFact.injEq, reduceCtorEq, List.not_mem_nil,
    or_false] at member
  rcases member with rfl | rfl
  · cases rule.symm.trans read
    exact absurd found (by decide)
  · cases directive.symm.trans read

/-- The directive in brackets passes as a head, and the script declares it. -/
theorem not_directive_undeclared :
    (¬ ∀ facts : List String, ∀ indicator ∈ (run (facts.map .assertFact)).dynamic,
        indicator.name ∉ directiveNames)
      ∧ (run [.assertFact "(:- a) :- b"]).swiScript
        = ":- dynamic(:-/1).\n:- assertz((:-(a) :- b)).\n" := by
  have read : Term.parse (withoutClauseEnd "(:- a) :- b") =
      .ok (.compound ":-" [.compound ":-" [.atom "a"], .atom "b"]) :=
    (Term.givesTerm_iff (by decide) _).mp (by decide +kernel)
  have after := assertFact_of_read empty read
    (Term.assertedPredicate_rule (.compound ":-" [.atom "a"]) (.atom "b") rfl)
  have whole : run [.assertFact "(:- a) :- b"] =
      (empty.declareDynamic ⟨":-", 1⟩).append
        (.asserted (.compound ":-" [.compound ":-" [.atom "a"], .atom "b"])) := by
    rw [run, List.foldl_cons, List.foldl_nil, perform, after]
    rfl
  constructor
  · intro free
    refine free ["(:- a) :- b"] ⟨":-", 1⟩ ?_ (by decide)
    rw [List.map_singleton, whole]
    decide
  · rw [whole]
    decide +kernel

end Theory

end HornQuery
