import HornQuery.Theory.Script

namespace HornQuery

structure Dialect where
  kind : EngineKind
  diagnostics : Diagnostics

namespace Dialect

def ofEngine (kind : EngineKind) : Dialect :=
  ⟨kind, .ofEngine kind⟩

def scriptSuffix (_dialect : Dialect) : String := ".pl"

def arguments (dialect : Dialect) (script : String) : List String :=
  match dialect.kind with
  | .swi => ["-q", "-f", script, "-g", "halt"]
  | .problog => [script]

def theoryScript (dialect : Dialect) (theory : Theory) : String :=
  match dialect.kind with
  | .swi => theory.swiScript
  | .problog => theory.problogScript

/-- A directive that prints a record for each solution and the end marker after the last. -/
def swiGoal (goal : String) (columns : List String) : String :=
  let fields := columns.map fun name => s!", write('\\t'), write_canonical({name})"
  let record := "nl, write('$sol')" ++ String.join fields ++ ", nl"
  s!":- forall(call(({withoutClauseEnd goal})), ({record})), nl, write('$end'), nl.\n"

def problogHead (columns : List String) : String :=
  if columns.isEmpty then Weighted.queryHead
  else Weighted.queryHead ++ "(" ++ ",".intercalate columns ++ ")"

/-- A rule with the goal as its body, and the request for its head. -/
def problogGoal (goal : String) (columns : List String) : String :=
  let head := problogHead columns
  s!"{head} :- {withoutClauseEnd goal}.\nquery({head}).\n"

def wrapGoal (dialect : Dialect) (goal : String) (columns : List String) : String :=
  match dialect.kind with
  | .swi => swiGoal goal columns
  | .problog => problogGoal goal columns

def script (dialect : Dialect) (theory : Theory) (goal : String) (columns : List String) :
    String :=
  dialect.theoryScript theory ++ dialect.wrapGoal goal columns

def decode (dialect : Dialect) (output : String) (columns : List String)
    (policy : Policy) : Solution :=
  match dialect.kind with
  | .swi => Plain.decode output columns dialect.diagnostics policy
  | .problog => Weighted.decode output columns dialect.diagnostics policy

end Dialect

end HornQuery
