namespace HornQuery

inductive InfixFixity where
  | xfx
  | xfy
  | yfx
deriving DecidableEq

inductive PrefixFixity where
  | fx
  | fy
deriving DecidableEq

structure InfixOperator where
  priority : Nat
  fixity : InfixFixity
deriving DecidableEq

structure PrefixOperator where
  priority : Nat
  fixity : PrefixFixity
deriving DecidableEq

namespace InfixOperator

def leftBound (operator : InfixOperator) : Nat :=
  match operator.fixity with
  | .yfx => operator.priority
  | _ => operator.priority - 1

def rightBound (operator : InfixOperator) : Nat :=
  match operator.fixity with
  | .xfy => operator.priority
  | _ => operator.priority - 1

end InfixOperator

/-- The greatest priority of the operand of a prefix operator that is used at a priority. -/
def PrefixFixity.bound (fixity : PrefixFixity) (priority : Nat) : Nat :=
  match fixity with
  | .fx => priority - 1
  | .fy => priority

def infixGroups : List (InfixOperator × List String) := [
  (⟨1200, .xfx⟩, [":-", "-->"]),
  (⟨1100, .xfy⟩, [";", "|"]),
  (⟨1050, .xfy⟩, ["->", "*->"]),
  (⟨1000, .xfy⟩, [","]),
  (⟨990, .xfx⟩, ["::"]),
  (⟨700, .xfx⟩, ["=", "\\=", "==", "\\==", "@<", "@>", "@=<", "@>=", "=..", "is", "=:=",
    "=\\=", "<", ">", "=<", ">=", ">:<", ":<", "as"]),
  (⟨500, .yfx⟩, ["+", "-", "/\\", "\\/", "xor"]),
  (⟨400, .yfx⟩, ["*", "/", "//", "rem", "mod", "div", "<<", ">>", "rdiv"]),
  (⟨200, .xfx⟩, ["**"]),
  (⟨200, .xfy⟩, ["^", ":"])]

def prefixGroups : List (PrefixOperator × List String) := [
  (⟨1200, .fx⟩, [":-", "?-"]),
  (⟨1150, .fx⟩, ["dynamic", "discontiguous", "initialization", "table"]),
  (⟨900, .fy⟩, ["\\+"]),
  (⟨200, .fy⟩, ["-", "+", "\\"])]

def infixOperator? (name : String) : Option InfixOperator :=
  (infixGroups.find? fun group => group.2.contains name).map Prod.fst

def prefixOperator? (name : String) : Option PrefixOperator :=
  (prefixGroups.find? fun group => group.2.contains name).map Prod.fst

end HornQuery
