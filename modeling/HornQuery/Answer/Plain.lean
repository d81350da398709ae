import HornQuery.Answer.Solution
import HornQuery.Engine.Diagnostics
import HornQuery.Term.Reader

/-! The plain protocol: one record a line, made of a marker and the bindings of the variables, each
after a tab; an end marker after the last record. -/

namespace HornQuery.Plain

open Text

def recordMarker : List Char := "$sol".toList

def endMarker : List Char := "$end".toList

def trimReturns (line : List Char) : List Char :=
  (line.reverse.dropWhile (· = '\r')).reverse

def fields? (line : List Char) : Option (List (List Char)) :=
  if recordMarker.isPrefixOf line then
    match line.drop recordMarker.length with
    | [] => some []
    | '\t' :: rest => some (pieces '\t' rest)
    | _ => none
  else none

/-- What a line of output is; an error counts before an end, and an end before a record. -/
inductive Line where
  | error (text : List Char)
  | finish
  | record (fields : List (List Char))
  | stray

def classify (diagnostics : Diagnostics) (line : List Char) : Line :=
  if diagnostics.isError line then .error line
  else if trim line = endMarker then .finish
  else
    match fields? line with
    | some fields => .record fields
    | none => .stray

def bindings : List String → List (List Char) → Except String (List (String × Term))
  | name :: names, field :: fields =>
      match Term.ofText field with
      | .ok term => (bindings names fields).map ((name, term) :: ·)
      | .error cause => .error s!"unreadable binding for {name}: {cause.message}"
  | _, _ => .ok []

def row (columns : List String) (fields : List (List Char)) : Except String Row :=
  if fields.length = columns.length then
    (bindings columns fields).map fun found => ⟨found, none⟩
  else
    .error
      s!"record has {fields.length} field(s) for {columns.length} variable(s)"

/-- The rows of the lines up to the end marker, or the reason why there are none. -/
def rows (diagnostics : Diagnostics) (columns : List String) :
    List (List Char) → Except String (List Row)
  | [] => .error "output ended before the end marker"
  | line :: rest =>
      match classify diagnostics (trimReturns line) with
      | .error text => .error ("engine error: " ++ String.ofList (trim text))
      | .finish => .ok []
      | .stray => rows diagnostics columns rest
      | .record fields => do
          let found ← row columns fields
          let others ← rows diagnostics columns rest
          .ok (found :: others)

def decode (output : String) (columns : List String) (diagnostics : Diagnostics)
    (policy : Policy) : Solution :=
  match rows diagnostics columns (lines output.toList) with
  | .ok found => .ofRows columns found .anyRow policy
  | .error reason => .failed columns reason .anyRow policy

end HornQuery.Plain
