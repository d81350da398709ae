import HornQuery.Term.Basic

/-! The named variables of a term, in depth-first order of first occurrence. -/

namespace HornQuery

def reportedNames (names : List String) : List String :=
  names.foldl
    (fun found name =>
      if name.toList.head? = some '_' || found.contains name then found
      else found ++ [name])
    []

mutual
/-- The names of all variable occurrences from left to right. -/
def Term.occurrences : Term → List String
  | .var name => [name]
  | .compound _ args => Term.occurrencesAll args
  | .list items => Term.occurrencesAll items
  | _ => []

def Term.occurrencesAll : List Term → List String
  | [] => []
  | term :: terms => term.occurrences ++ Term.occurrencesAll terms
end

def Term.freeVariables (term : Term) : List String :=
  reportedNames term.occurrences

end HornQuery
