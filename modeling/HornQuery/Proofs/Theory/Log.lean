import HornQuery.Proofs.Distinct
import HornQuery.Theory.Basic

namespace HornQuery

namespace Term

def clauseHead : Term → Term
  | .compound ":-" [head, _] => head
  | term => term

theorem eq_of_rule? {term head body : Term} (rule : term.rule? = some (head, body)) :
    term = .compound ":-" [head, body] := by
  unfold rule? at rule
  split at rule
  case h_1 functor left right =>
    split at rule
    case isTrue isRule =>
      cases rule
      rw [isRule]
    case isFalse => cases rule
  case h_2 => cases rule

theorem clauseHead_of_rule? {term head body : Term} (rule : term.rule? = some (head, body)) :
    term.clauseHead = head := by
  rw [eq_of_rule? rule]
  rfl

theorem clauseHead_of_no_rule {term : Term} (noRule : term.rule? = none) :
    term.clauseHead = term := by
  unfold clauseHead
  split
  case h_1 => cases noRule
  case h_2 => rfl

theorem isCallable_iff_indicator? (term : Term) :
    term.isCallable = true ↔ ∃ indicator, term.indicator? = some indicator := by
  cases term <;> simp [isCallable, isAtom, isCompound, indicator?]

theorem indicator?_of_assertedPredicate {term : Term} {indicator : Indicator}
    (asserted : term.assertedPredicate = .ok indicator) :
    term.clauseHead.indicator? = some indicator := by
  unfold assertedPredicate at asserted
  cases rule : term.rule? with
  | some parts =>
      simp only [rule] at asserted
      rw [clauseHead_of_rule? rule]
      split at asserted
      case h_1 found =>
        cases asserted
        exact found
      case h_2 => cases asserted
  | none =>
      rw [clauseHead_of_no_rule rule]
      cases found : term.indicator? with
      | some other =>
          simp only [rule, found] at asserted
          split at asserted
          case h_1 =>
            split at asserted
            case isTrue => cases asserted
            case isFalse => exact congrArg some (Except.ok.inj asserted)
          case h_2 => exact congrArg some (Except.ok.inj asserted)
      | none =>
          simp only [rule, found] at asserted
          split at asserted
          case h_1 => split at asserted <;> cases asserted
          case h_2 => cases asserted

end Term

namespace Entry

/-- The predicate that an entry adds a clause to, if it is asserted. -/
def predicate? : Entry → Option Indicator
  | .asserted fact => fact.clauseHead.indicator?
  | _ => none

def IsAssertion : Entry → Prop
  | .asserted _ => True
  | _ => False

theorem predicate?_of_no_assertion {entry : Entry} (other : ¬ entry.IsAssertion) :
    entry.predicate? = none := by
  cases entry with
  | asserted fact => exact absurd trivial other
  | _ => rfl

end Entry

namespace Theory

inductive Operation where
  | addClause (text : String)
  | addClauses (texts : List String)
  | load (text : String)
  | addLibrary (name : String)
  | assertFact (fact : String)
  | retractFact (fact : String)

def perform (theory : Theory) : Operation → Theory
  | .addClause text => theory.addClause text
  | .addClauses texts => theory.addClauses texts
  | .load text => theory.load text
  | .addLibrary name => theory.addLibrary name
  | .assertFact fact =>
      match assertFact fact theory with
      | .ok _ after => after
      | .error _ after => after
  | .retractFact fact => theory.retractFact fact

def run (operations : List Operation) : Theory :=
  operations.foldl perform .empty

variable {theory : Theory}

theorem entries_addClauses (texts : List String) :
    theory.addClauses texts =
      { theory with entries := theory.entries ++ texts.map .clause } := by
  induction texts generalizing theory with
  | nil => simp [addClauses]
  | cons text texts induction =>
      rw [addClauses, List.foldl_cons]
      refine induction.trans ?_
      simp [addClause, append]

/-- Asserting a fact is refused before anything is changed, or goes through. -/
theorem assertFact_cases (theory : Theory) (fact : String) :
    (∃ cause, assertFact fact theory = .error cause theory) ∨
      ∃ term indicator, Term.parse (withoutClauseEnd fact) = .ok term ∧
        term.assertedPredicate = .ok indicator ∧
        assertFact fact theory =
          .ok () ((theory.declareDynamic indicator).append (.asserted term)) := by
  unfold assertFact
  cases parsed : Term.parse (withoutClauseEnd fact) with
  | error cause => exact .inl ⟨_, rfl⟩
  | ok term =>
      cases asserted : term.assertedPredicate with
      | error reason =>
          exact .inl ⟨.invalidFact (withoutClauseEnd fact) reason, by simp only [asserted]; rfl⟩
      | ok indicator =>
          exact .inr ⟨term, indicator, rfl, asserted, by simp only [asserted]; rfl⟩

/-- An operation adds entries that assert nothing, or declares the predicate of one term and
asserts the term. -/
theorem perform_cases (theory : Theory) (operation : Operation) :
    (∃ added, (∀ entry ∈ added, ¬ entry.IsAssertion) ∧
        theory.perform operation = { theory with entries := theory.entries ++ added }) ∨
      ∃ term indicator, term.clauseHead.indicator? = some indicator ∧
        theory.perform operation = (theory.declareDynamic indicator).append (.asserted term) := by
  have clauses : ∀ texts : List String, ∀ entry ∈ texts.map Entry.clause,
      ¬ entry.IsAssertion := by
    intro texts entry member
    obtain ⟨text, _, rfl⟩ := List.mem_map.mp member
    exact id
  cases operation with
  | addClause text => exact .inl ⟨[.clause text], clauses [text], rfl⟩
  | addClauses texts => exact .inl ⟨_, clauses texts, entries_addClauses texts⟩
  | load text => exact .inl ⟨_, clauses _, entries_addClauses _⟩
  | addLibrary name => exact .inl ⟨[.library name], List.forall_mem_singleton.mpr id, rfl⟩
  | retractFact fact => exact .inl ⟨[.retracted _], List.forall_mem_singleton.mpr id, rfl⟩
  | assertFact fact =>
      rcases assertFact_cases theory fact with
        ⟨cause, refused⟩ | ⟨term, indicator, _, asserted, done⟩
      · refine .inl ⟨[], List.forall_mem_nil _, ?_⟩
        rw [perform, refused, List.append_nil]
      · refine .inr ⟨term, indicator, Term.indicator?_of_assertedPredicate asserted, ?_⟩
        rw [perform, done]

/-- The three parts of a theory agree. -/
structure Coherent (theory : Theory) : Prop where
  dynamic_eq : theory.dynamic = (theory.entries.filterMap Entry.predicate?).eraseDups
  mem_declared : ∀ indicator, indicator ∈ theory.declared ↔ indicator ∈ theory.dynamic
  callable : ∀ term, .asserted term ∈ theory.entries → term.clauseHead.isCallable = true

theorem coherent_empty : Coherent .empty where
  dynamic_eq := rfl
  mem_declared := fun _ => Iff.rfl
  callable := nofun

theorem entries_prefix_perform (theory : Theory) (operation : Operation) :
    theory.entries <+: (theory.perform operation).entries := by
  rcases perform_cases theory operation with ⟨added, _, after⟩ | ⟨term, indicator, _, after⟩
  · rw [after]
    exact List.prefix_append _ _
  · rw [after, entries_append, entries_declareDynamic]
    exact List.prefix_append _ _

theorem dynamic_declareDynamic (coherent : Coherent theory) (indicator : Indicator) :
    (theory.declareDynamic indicator).dynamic =
      (theory.entries.filterMap Entry.predicate? ++ [indicator]).eraseDups := by
  have known : indicator ∈ theory.declared ↔
      indicator ∈ theory.entries.filterMap Entry.predicate? := by
    rw [coherent.mem_declared, coherent.dynamic_eq, List.mem_eraseDups]
  rw [eraseDups_concat, ← coherent.dynamic_eq, declareDynamic]
  simp only [List.contains_iff_mem, known]
  split
  case isTrue => rw [List.append_nil]
  case isFalse => rfl

theorem coherent_perform (coherent : Coherent theory) (operation : Operation) :
    Coherent (theory.perform operation) := by
  rcases perform_cases theory operation with
    ⟨added, others, after⟩ | ⟨term, indicator, head, after⟩
  · have silent : added.filterMap Entry.predicate? = [] :=
      List.filterMap_eq_nil_iff.mpr fun entry member =>
        Entry.predicate?_of_no_assertion (others entry member)
    rw [after]
    refine ⟨?_, coherent.mem_declared, ?_⟩
    · rw [List.filterMap_append, silent, List.append_nil]
      exact coherent.dynamic_eq
    · intro fact member
      rcases List.mem_append.mp member with old | new
      · exact coherent.callable fact old
      · exact absurd trivial (others _ new)
  · rw [after]
    refine ⟨?_, ?_, ?_⟩
    · rw [dynamic_append, entries_append, entries_declareDynamic, List.filterMap_append,
        dynamic_declareDynamic coherent]
      simp [Entry.predicate?, head]
    · intro other
      rw [declared_append, dynamic_append, mem_declared_declareDynamic, coherent.mem_declared,
        dynamic_declareDynamic coherent, List.mem_eraseDups, List.mem_append, List.mem_singleton,
        coherent.dynamic_eq, List.mem_eraseDups]
    · intro fact member
      rw [entries_append, entries_declareDynamic, List.mem_append, List.mem_singleton] at member
      rcases member with old | new
      · exact coherent.callable fact old
      · cases new
        exact (Term.isCallable_iff_indicator? _).mpr ⟨indicator, head⟩

theorem coherent_foldl (coherent : Coherent theory) (operations : List Operation) :
    Coherent (operations.foldl perform theory) := by
  induction operations generalizing theory with
  | nil => exact coherent
  | cons operation operations induction => exact induction (coherent_perform coherent operation)

/-- Whatever has been done to a theory, its parts agree, the next operation only adds to its
entries, and a fact that is refused leaves it as it is. -/
theorem coherent_run (operations : List Operation) :
    Coherent (run operations) ∧
      (∀ operation, (run operations).entries <+: ((run operations).perform operation).entries) ∧
      ∀ fact cause after, assertFact fact (run operations) = .error cause after →
        after = run operations := by
  refine ⟨coherent_foldl coherent_empty operations, entries_prefix_perform _, ?_⟩
  intro fact cause after refused
  rcases assertFact_cases (run operations) fact with ⟨found, same⟩ | ⟨_, _, _, _, done⟩
  · rw [same] at refused
    cases refused
    rfl
  · rw [done] at refused
    cases refused

end Theory

end HornQuery
