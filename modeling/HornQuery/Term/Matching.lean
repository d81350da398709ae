import HornQuery.Term.Basic

/-! Matching without bindings: a variable on either side matches anything, and otherwise the two
terms must be built alike. -/

namespace HornQuery

mutual
def Term.matches : Term → Term → Bool
  | .var _, _ => true
  | _, .var _ => true
  | .atom left, .atom right => left == right
  | .integer left, .integer right => left == right
  | .float left, .float right => left == right
  | .compound left leftArgs, .compound right rightArgs =>
      left == right && Term.matchesAll leftArgs rightArgs
  | .list left, .list right => Term.matchesAll left right
  | _, _ => false

def Term.matchesAll : List Term → List Term → Bool
  | [], [] => true
  | left :: lefts, right :: rights => Term.matches left right && Term.matchesAll lefts rights
  | _, _ => false
end

end HornQuery
