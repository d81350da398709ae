import HornQuery.Answer.Solution
import HornQuery.Term.Writer
import HornQuery.Value.Json

namespace HornQuery.CommandLine.Report

def plainNumber (number : Float) : String :=
  String.ofList (Number.plain.write number)

def rowLine (row : Row) : String :=
  let equations := row.bindings.map fun binding => s!"{binding.1} = {binding.2.text}"
  let shown := if equations.isEmpty then "true" else ", ".intercalate equations
  match row.probability? with
  | some probability => s!"{shown}  (p = {plainNumber probability})"
  | none => shown

def verdictLines (solution : Solution) : List String :=
  let verdict := if solution.isSuccess then "true." else "false."
  match solution.meanProbability? with
  | some mean => [s!"mean probability: {plainNumber mean}", verdict]
  | none => [verdict]

def tableLines (solution : Solution) : List String :=
  match solution.failure? with
  | some reason => [s!"failed: {reason}"]
  | none => solution.rows.map rowLine ++ verdictLines solution

def table (solution : Solution) : String :=
  String.join ((tableLines solution).map fun line => line ++ "\n")

def optionalText (text? : Option String) : Json :=
  match text? with
  | some text => .string text
  | none => .null

def rowJson (solution : Solution) (row : Row) : Except SolutionError Json := do
  let bindings ← solution.columns.mapM fun name => do
    let value ← Solution.rowValue solution.policy row name
    Except.ok (name, value.toJson)
  let probability :=
    match row.probability? with
    | some probability => Json.number probability
    | none => .null
  .ok (.ofEntries [("bindings", .ofEntries bindings), ("probability", probability)])

def json (solution : Solution) : Except SolutionError Json := do
  let rows ← solution.rows.mapM (rowJson solution)
  .ok (.ofEntries [
    ("success", .bool solution.isSuccess),
    ("failure", optionalText solution.failure?),
    ("variables", .array (solution.columns.map Json.string)),
    ("rows", .array rows)])

def jsonText (solution : Solution) : Except SolutionError String := do
  let document ← json solution
  .ok (String.ofList (document.pretty 0) ++ "\n")

end HornQuery.CommandLine.Report
