import HornQuery.Answer.Row
import HornQuery.Conversion.Policy

namespace HornQuery

/-- When rows count as success: if there is one, or if their mean probability is one. -/
inductive Criterion where
  | anyRow
  | meanProbabilityOne
deriving DecidableEq, Inhabited

structure Solution where
  /-- The variables of the goal, which every row binds in this order. -/
  columns : List String
  rows : List Row
  cursor? : Option Nat
  defaultVariable? : Option String
  criterion : Criterion
  failure? : Option String
  policy : Policy

namespace Solution

def ofRows (columns : List String) (rows : List Row) (criterion : Criterion)
    (policy : Policy) : Solution where
  columns := columns
  rows := rows
  cursor? := none
  defaultVariable? := columns.getLast?
  criterion := criterion
  failure? := none
  policy := policy

def failed (columns : List String) (reason : String) (criterion : Criterion)
    (policy : Policy) : Solution :=
  { ofRows columns [] criterion policy with failure? := some reason }

def meanProbability? (solution : Solution) : Option Float :=
  let probabilities := solution.rows.filterMap Row.probability?
  if probabilities.isEmpty then none
  else
    let sum := probabilities.foldl (· + ·) (0.0 : Float)
    some (sum / Number.ofInteger probabilities.length)

def isSuccess (solution : Solution) : Bool :=
  if solution.failure?.isSome then false
  else
    match solution.criterion with
    | .anyRow => !solution.rows.isEmpty
    | .meanProbabilityOne =>
        match solution.meanProbability? with
        | some mean => mean == (1.0 : Float)
        | none => false

def next (solution : Solution) : Nat :=
  match solution.cursor? with
  | some index => index + 1
  | none => 0

/-- Moves the cursor to the next row. When the rows are used up it stays where it is. -/
def fetch (solution : Solution) : Bool × Solution :=
  if solution.next < solution.rows.length then
    (true, { solution with cursor? := some solution.next })
  else (false, solution)

theorem fetch_eq_true_iff (solution : Solution) :
    solution.fetch.1 = true ↔ solution.next < solution.rows.length := by
  unfold fetch
  split <;> simp_all

@[simp] theorem rows_fetch (solution : Solution) : solution.fetch.2.rows = solution.rows := by
  unfold fetch
  split <;> rfl

def position (solution : Solution) : Nat :=
  solution.cursor?.getD 0

def current? (solution : Solution) : Option Row :=
  solution.rows[solution.position]?

def probability? (solution : Solution) : Option Float :=
  solution.current?.bind Row.probability?

/-- Chooses the variable that is read when none is named. -/
def on (solution : Solution) (name : String) : Solution :=
  { solution with defaultVariable? := some name }

def term (solution : Solution) (name : String) : Except SolutionError Term :=
  match solution.current?.bind fun row => row.get? name with
  | some term => .ok term
  | none => .error (.unknownVariable name)

def converted (result : Except ConversionError α) : Except SolutionError α :=
  match result with
  | .ok value => .ok value
  | .error cause => .error (.conversion cause)

def get (solution : Solution) (name : String) : Except SolutionError Value := do
  let term ← solution.term name
  converted (solution.policy.toHost term)

def getAs (solution : Solution) (type : HostType) (name : String) :
    Except SolutionError type.Carrier := do
  let term ← solution.term name
  converted (solution.policy.toHostAs type term)

def defaultName (solution : Solution) : Except SolutionError String :=
  match solution.defaultVariable? with
  | some name => .ok name
  | none => .error .noDefaultVariable

def value (solution : Solution) : Except SolutionError Value := do
  solution.get (← solution.defaultName)

def valueAs (solution : Solution) (type : HostType) : Except SolutionError type.Carrier := do
  solution.getAs type (← solution.defaultName)

def rowValue (policy : Policy) (row : Row) (name : String) : Except SolutionError Value :=
  match row.get? name with
  | some term => converted (policy.toHost term)
  | none => .error (.unknownVariable name)

/-- Appends the values of one row to the collections, one variable to each, up to the first
value that cannot be had. -/
def fillRow (policy : Policy) (row : Row) :
    List String → List (List Value) → List (List Value) × Except SolutionError Unit
  | name :: names, out :: outs =>
      match rowValue policy row name with
      | .ok value =>
          let (filled, result) := fillRow policy row names outs
          ((out ++ [value]) :: filled, result)
      | .error cause => (out :: outs, .error cause)
  | _, outs => (outs, .ok ())

def fillRows (policy : Policy) (names : List String) :
    List Row → List (List Value) → List (List Value) × Except SolutionError Unit
  | [], outs => (outs, .ok ())
  | row :: rows, outs =>
      match fillRow policy row names outs with
      | (filled, .ok ()) => fillRows policy names rows filled
      | (filled, .error cause) => (filled, .error cause)

structure Collected where
  result : Except SolutionError Unit
  outs : List (List Value)
  solution : Solution

/-- Appends the values of the first variables, from the current row to the last one, to as
many collections. -/
def collect (solution : Solution) (outs : List (List Value)) : Collected :=
  if solution.columns.length < outs.length then
    ⟨.error (.collectionCount outs.length solution.columns.length), outs, solution⟩
  else
    let rows := solution.rows.drop solution.position
    match fillRows solution.policy solution.columns rows outs with
    | (filled, .error cause) => ⟨.error cause, filled, solution⟩
    | (filled, .ok ()) =>
        let moved :=
          if solution.rows.isEmpty then solution
          else { solution with cursor? := some (solution.rows.length - 1) }
        ⟨.ok (), filled, moved⟩

def toLists (solution : Solution) : Except SolutionError (List (List Value)) × Solution :=
  let collected := solution.collect (solution.columns.map fun _ => [])
  (collected.result.map fun _ => collected.outs, collected.solution)

def collectAs (solution : Solution) (type : HostType) (name : String) :
    Except SolutionError (List type.Carrier) :=
  solution.rows.mapM fun row =>
    match row.get? name with
    | some term => converted (solution.policy.toHostAs type term)
    | none => .error (.unknownVariable name)

def remaining (solution : Solution) : List Row :=
  solution.rows.drop solution.next

end Solution

end HornQuery
