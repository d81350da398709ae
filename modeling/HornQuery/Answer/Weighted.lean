import HornQuery.Answer.Solution
import HornQuery.Engine.Diagnostics
import HornQuery.Number.Numeral
import HornQuery.Term.Reader

/-! The weighted protocol: each line gives a ground instance of the query head and, after the last
colon, its probability. -/

namespace HornQuery.Weighted

open Text

/-- The name of the query rule that engines report instances of. -/
def queryHead : String := "pb_query"

def splitLast? (separator : Char) (text : List Char) : Option (List Char × List Char) :=
  let after := (text.reverse.takeWhile (· ≠ separator)).reverse
  if after.length = text.length then none
  else some (text.take (text.length - after.length - 1), after)

def probability? (text : List Char) : Option Float :=
  (Number.parse? (trim text)).filter fun p => (0.0 : Float) ≤ p && p ≤ (1.0 : Float)

/-- The arguments of a query head of an arity; without arguments it is an atom. -/
def queryArgs? (head : Term) (arity : Nat) : Option (List Term) :=
  match head with
  | .atom name => if arity = 0 && name = queryHead then some [] else none
  | .compound functor args =>
      if functor = queryHead && args.length = arity then some args else none
  | _ => none

def row (columns : List String) (line : List Char) : Except String Row :=
  match splitLast? ':' line with
  | none => .error ("malformed result line: " ++ String.ofList line)
  | some (head, weight) =>
      match probability? weight with
      | none => .error ("invalid probability in: " ++ String.ofList line)
      | some p =>
          let head := trim head
          match Term.ofText head with
          | .error cause =>
              .error s!"unreadable result head `{String.ofList head}`: {cause.message}"
          | .ok term =>
              match queryArgs? term columns.length with
              | none => .error ("unexpected result head: " ++ term.text)
              | some args => .ok ⟨columns.zip args, some p⟩

def rows (diagnostics : Diagnostics) (columns : List String) :
    List (List Char) → Except String (List Row)
  | [] => .ok []
  | untrimmed :: rest =>
      let line := trim untrimmed
      if line.isEmpty || diagnostics.isWarning line then rows diagnostics columns rest
      else if diagnostics.isError line then
        .error ("engine error: " ++ String.ofList line)
      else do
        let found ← row columns line
        let others ← rows diagnostics columns rest
        .ok (found :: others)

def decode (output : String) (columns : List String) (diagnostics : Diagnostics)
    (policy : Policy) : Solution :=
  match rows diagnostics columns (lines output.toList) with
  | .ok found => .ofRows columns found .meanProbabilityOne policy
  | .error reason => .failed columns reason .meanProbabilityOne policy

end HornQuery.Weighted
