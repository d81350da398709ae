import HornQuery.Engine.Backend
import HornQuery.Goal.Binding
import HornQuery.Goal.Variables

namespace HornQuery

structure Session where
  dialect : Dialect
  policy : Policy
  theory : Theory
  backend : Backend

namespace Session

def kind (session : Session) : EngineKind :=
  session.dialect.kind

/-! The theory -/

def changeTheory (session : Session) (change : Theory → Theory) : Session :=
  { session with theory := change session.theory }

def loadFile (session : Session) (tree : FileTree) (path : String) :
    Except EngineError Session :=
  match tree.read? path with
  | some text => .ok (session.changeTheory fun theory => theory.load text)
  | none => .error (.theoryUnreadable path)

/-- Adds a fact or rule that a pattern and values for its placeholders make. -/
def assertFact (pattern : String) (args : List Value) : EStateM QueryError Session Unit := do
  let session ← get
  match (Binding.ofPattern pattern).goalText session.policy args with
  | .error cause => throw cause
  | .ok fact =>
      match Theory.assertFact fact session.theory with
      | .ok _ theory => set { session with theory := theory }
      | .error cause theory =>
          set { session with theory := theory }
          throw cause

/-! Solving -/

def script (session : Session) (goal : String) : String :=
  session.dialect.script session.theory goal (Goal.freeVariables goal)

def interpret (session : Session) (goal : String) (output : EngineOutput) :
    Except EngineError Solution :=
  match session.dialect.diagnostics.firstError? output.text.toList with
  | some found => .error (.reported goal (String.ofList found))
  | none =>
      if output.isSuccess then
        .ok (session.dialect.decode output.text (Goal.freeVariables goal) session.policy)
      else
        .error (.exitStatus session.backend.description (output.status?.getD (-1)) output.text)

def solveGoal (session : Session) (goal : String) : Except EngineError Solution := do
  let output ← session.backend.run session.dialect (session.script goal)
  session.interpret goal output

/-- Fills the remaining placeholders of a binding and solves the goal. -/
def solveBinding (session : Session) (binding : Binding) (args : List Value) :
    Except Failure Solution :=
  match binding.goalText session.policy args with
  | .error cause => .error (.query cause)
  | .ok goal =>
      match session.solveGoal goal with
      | .ok solution => .ok solution
      | .error cause => .error (.engine cause)

def solve (session : Session) (pattern : String) (args : List Value) :
    Except Failure Solution :=
  session.solveBinding (.ofPattern pattern) args

def summary (session : Session) : String :=
  Text.Summary.record "Prover" [
    ("kind", session.kind.title),
    ("backend", Text.quoted session.backend.description),
    ("knowledge_entries", toString session.theory.size)] false

end Session

end HornQuery
