import HornQuery.Term.Reader

namespace HornQuery.Goal

def freeVariables (goal : String) : List String :=
  match Term.parseGoal goal with
  | .ok term => term.freeVariables
  | .error _ =>
      match Token.scanVariables goal with
      | .ok names => names
      | .error _ => []

end HornQuery.Goal
