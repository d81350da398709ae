namespace HornQuery

inductive Term where
  | atom (name : String)
  | integer (value : Int64)
  | float (value : Float)
  | compound (functor : String) (args : List Term)
  | list (items : List Term)
  | var (name : String)
deriving Inhabited

theorem Term.induction {motive : Term → Prop}
    (atom : ∀ name, motive (.atom name))
    (integer : ∀ value, motive (.integer value))
    (float : ∀ value, motive (.float value))
    (var : ∀ name, motive (.var name))
    (compound : ∀ functor args, (∀ arg ∈ args, motive arg) → motive (.compound functor args))
    (list : ∀ items, (∀ item ∈ items, motive item) → motive (.list items)) :
    ∀ term, motive term
  | .atom name => atom name
  | .integer value => integer value
  | .float value => float value
  | .var name => var name
  | .compound functor args =>
      compound functor args fun arg _ =>
        Term.induction atom integer float var compound list arg
  | .list items =>
      list items fun item _ => Term.induction atom integer float var compound list item

inductive Connective where
  | conjunction
  | disjunction
  | unification
deriving DecidableEq

def Connective.functor : Connective → String
  | .conjunction => ","
  | .disjunction => ";"
  | .unification => "="

namespace Term

/-- The functor of a list cell whose tail is not a list. -/
def listCell : String := "[|]"

def anonymous : Term := .var "_"

/-- A functor applied to arguments; applied to none it is an atom. -/
def apply (functor : String) (args : List Term) : Term :=
  if args.isEmpty then .atom functor else .compound functor args

@[simp] theorem apply_nil (functor : String) : apply functor [] = .atom functor := rfl

@[simp] theorem apply_cons (functor : String) (arg : Term) (args : List Term) :
    apply functor (arg :: args) = .compound functor (arg :: args) := rfl

def isAtom : Term → Bool
  | .atom _ => true
  | _ => false

def isInteger : Term → Bool
  | .integer _ => true
  | _ => false

def isFloat : Term → Bool
  | .float _ => true
  | _ => false

def isCompound : Term → Bool
  | .compound _ _ => true
  | _ => false

def isVariable : Term → Bool
  | .var _ => true
  | _ => false

def isNumber (term : Term) : Bool :=
  term.isInteger || term.isFloat

def isCallable (term : Term) : Bool :=
  term.isAtom || term.isCompound

def functor? : Term → Option String
  | .atom name => some name
  | .compound functor _ => some functor
  | _ => none

def arity? : Term → Option Nat
  | .atom _ => some 0
  | .compound _ args => some args.length
  | _ => none

def args : Term → List Term
  | .compound _ args => args
  | _ => []

def parts : Term → List Term
  | .compound _ args => args
  | .list items => items
  | _ => []

def connective? : Term → Option Connective
  | .compound functor [_, _] =>
      if functor = "," then some .conjunction
      else if functor = ";" then some .disjunction
      else if functor = "=" then some .unification
      else none
  | _ => none

/-- The operands of a right-nested chain of one connective; any other term is its own only
operand. -/
def operands (connective : Connective) : Term → List Term
  | .compound functor [left, right] =>
      if functor = connective.functor then left :: right.operands connective
      else [.compound functor [left, right]]
  | term => [term]

def rule? : Term → Option (Term × Term)
  | .compound functor [head, body] => if functor = ":-" then some (head, body) else none
  | _ => none

end Term

mutual
def Term.beq : Term → Term → Bool
  | .atom left, .atom right => left == right
  | .integer left, .integer right => left == right
  | .float left, .float right => left == right
  | .compound left leftArgs, .compound right rightArgs =>
      left == right && Term.beqAll leftArgs rightArgs
  | .list left, .list right => Term.beqAll left right
  | .var left, .var right => left == right
  | _, _ => false

def Term.beqAll : List Term → List Term → Bool
  | [], [] => true
  | left :: lefts, right :: rights => Term.beq left right && Term.beqAll lefts rights
  | _, _ => false
end

instance : BEq Term := ⟨Term.beq⟩

end HornQuery
