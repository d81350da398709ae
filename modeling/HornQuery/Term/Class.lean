import HornQuery.Term.Basic

namespace HornQuery

inductive TermClass where
  | integer
  | float
  | number
  | atom
  | compound
  | callable
  | list
  | var
  | any
deriving DecidableEq

def Term.termClass : Term → TermClass
  | .atom _ => .atom
  | .integer _ => .integer
  | .float _ => .float
  | .compound _ _ => .compound
  | .list _ => .list
  | .var _ => .var

namespace TermClass

def lineage : TermClass → List TermClass
  | .integer => [.integer, .number, .any]
  | .float => [.float, .number, .any]
  | .number => [.number, .any]
  | .atom => [.atom, .callable, .any]
  | .compound => [.compound, .callable, .any]
  | .callable => [.callable, .any]
  | .list => [.list, .any]
  | .var => [.var, .any]
  | .any => [.any]

def label : TermClass → String
  | .integer => "integer"
  | .float => "float"
  | .number => "number"
  | .atom => "atom"
  | .compound => "compound"
  | .callable => "callable"
  | .list => "list"
  | .var => "variable"
  | .any => "any"

end TermClass

end HornQuery
