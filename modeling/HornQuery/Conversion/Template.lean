import HornQuery.Conversion.Policy
import HornQuery.Goal.Pattern
import HornQuery.Term.Reader

namespace HornQuery.Policy

def replacements (policy : Policy) :
    List String → List Value → Except ConversionError (List (String × String))
  | name :: names, value :: values => do
      let term ← policy.toTerm value
      let others ← policy.replacements names values
      .ok ((name, term.text) :: others)
  | _, _ => .ok []

def termPattern (policy : Policy) (pattern : String) (args : List Value) :
    Except ConversionError Term := do
  let compiled := GoalPattern.compile pattern
  let names := compiled.placeholders
  if names.length ≠ args.length then
    .error (.patternArity names.length args.length)
  else
    let filled ← policy.replacements names args
    match Term.parse (compiled.render filled) with
    | .ok term => .ok term
    | .error cause => .error (.unreadable cause)

end HornQuery.Policy
