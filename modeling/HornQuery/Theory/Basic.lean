import HornQuery.Term.Reader
import HornQuery.Term.Writer

/-! Theories: an append-only log of clauses, libraries, asserted and retracted facts, and the
predicates that have to be declared dynamic because something was asserted for them. -/

namespace HornQuery

structure Indicator where
  name : String
  arity : Nat
deriving DecidableEq, Inhabited, Repr

def Indicator.text (indicator : Indicator) : String :=
  (Term.atom indicator.name).text ++ "/" ++ toString indicator.arity

inductive Entry where
  /-- Theory text, handed to the engine as it is. -/
  | clause (text : String)
  | library (name : String)
  | asserted (fact : Term)
  /-- Text of a fact that is removed when the theory is loaded. -/
  | retracted (fact : String)
deriving Inhabited

structure Theory where
  entries : List Entry
  dynamic : List Indicator
  /-- The set of the same predicates, which is asked whether one of them is new. Its order is of
  no account. -/
  declared : List Indicator
deriving Inhabited

/-- The text without white space around it and without one point that ends a clause. -/
def withoutClauseEnd (text : String) : String :=
  let trimmed := Text.trim text.toList
  if trimmed.getLast? = some '.' then String.ofList (Text.trimEnd trimmed.dropLast)
  else String.ofList trimmed

def Term.indicator? : Term → Option Indicator
  | .atom name => some ⟨name, 0⟩
  | .compound functor args => some ⟨functor, args.length⟩
  | _ => none

/-- The names under which a term that is no rule is a directive. -/
def directiveNames : List String := [":-", "?-"]

/-- The predicate that asserting a term adds to, or why the term cannot be asserted. -/
def Term.assertedPredicate (term : Term) : Except String Indicator :=
  let ofHead := fun (head : Term) =>
    match head.indicator? with
    | some indicator => .ok indicator
    | none => .error s!"`{head.text}` is not callable"
  match term.rule? with
  | some (head, _) => ofHead head
  | none =>
      match term.functor? with
      | some functor =>
          if directiveNames.contains functor then .error "directives cannot be asserted"
          else ofHead term
      | none => ofHead term

namespace Theory

def empty : Theory := ⟨[], [], []⟩

def append (theory : Theory) (entry : Entry) : Theory :=
  { theory with entries := theory.entries ++ [entry] }

@[simp] theorem entries_append (theory : Theory) (entry : Entry) :
    (theory.append entry).entries = theory.entries ++ [entry] := rfl

@[simp] theorem dynamic_append (theory : Theory) (entry : Entry) :
    (theory.append entry).dynamic = theory.dynamic := rfl

@[simp] theorem declared_append (theory : Theory) (entry : Entry) :
    (theory.append entry).declared = theory.declared := rfl

def size (theory : Theory) : Nat :=
  theory.entries.length

def isEmpty (theory : Theory) : Bool :=
  theory.entries.isEmpty

def addClause (theory : Theory) (text : String) : Theory :=
  theory.append (.clause text)

def addClauses (theory : Theory) (texts : List String) : Theory :=
  texts.foldl addClause theory

/-- Adds a text of several lines, an entry for each line; blank lines count, so that line
numbers in messages of the engine stay meaningful. -/
def load (theory : Theory) (text : String) : Theory :=
  theory.addClauses ((Text.lines text.toList).map String.ofList)

def addLibrary (theory : Theory) (name : String) : Theory :=
  theory.append (.library name)

def declareDynamic (theory : Theory) (indicator : Indicator) : Theory :=
  if theory.declared.contains indicator then theory
  else { theory with
    dynamic := theory.dynamic ++ [indicator]
    declared := indicator :: theory.declared }

@[simp] theorem entries_declareDynamic (theory : Theory) (indicator : Indicator) :
    (theory.declareDynamic indicator).entries = theory.entries := by
  unfold declareDynamic
  split <;> rfl

@[simp] theorem mem_declared_declareDynamic {theory : Theory} {indicator other : Indicator} :
    other ∈ (theory.declareDynamic indicator).declared
      ↔ other ∈ theory.declared ∨ other = indicator := by
  unfold declareDynamic
  split
  case isTrue declared =>
    have member := List.contains_iff_mem.mp declared
    constructor
    · exact Or.inl
    · rintro (old | rfl)
      · exact old
      · exact member
  case isFalse => rw [List.mem_cons, or_comm]

/-- Adds a fact or rule; a rule counts for the predicate of its head. -/
def assertFact (fact : String) : EStateM QueryError Theory Unit := do
  let text := withoutClauseEnd fact
  match Term.parse text with
  | .error cause => throw (.invalidFact text cause.message)
  | .ok term =>
      match term.assertedPredicate with
      | .error reason => throw (.invalidFact text reason)
      | .ok indicator =>
          modify fun theory => theory.declareDynamic indicator
          modify fun theory => theory.append (.asserted term)

def retractFact (theory : Theory) (fact : String) : Theory :=
  theory.append (.retracted (withoutClauseEnd fact))

end Theory

end HornQuery
