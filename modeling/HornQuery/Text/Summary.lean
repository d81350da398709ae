import HornQuery.Text.Quoted

namespace HornQuery.Text.Summary

def braced (content : String) : String :=
  "\x7b" ++ content ++ "\x7d"

/-- `Name { field: value, … }`; a record that keeps fields back ends in two points. -/
def record (name : String) (fields : List (String × String)) (keepsBack : Bool) :
    String :=
  let shown := fields.map fun field => field.1 ++ ": " ++ field.2
  let shown := if keepsBack then shown ++ [".."] else shown
  name ++ " " ++ braced (" " ++ ", ".intercalate shown ++ " ")

def list (items : List String) : String :=
  "[" ++ ", ".intercalate items ++ "]"

def texts (items : List String) : String :=
  list (items.map quoted)

def table (entries : List (String × String)) : String :=
  braced (", ".intercalate (entries.map fun entry => entry.1 ++ ": " ++ entry.2))

def optional (shown? : Option String) : String :=
  match shown? with
  | none => "None"
  | some shown => "Some(" ++ shown ++ ")"

end HornQuery.Text.Summary
