import HornQuery.CommandLine.Invocation
import HornQuery.CommandLine.Report
import HornQuery.Config.Store
import HornQuery.Session.Plan

namespace HornQuery.CommandLine

inductive Fault where
  | usage (cause : UsageFault)
  | failure (cause : Failure)
  | configExists (path : String)
deriving DecidableEq, Inhabited, Repr

namespace Fault

def status : Fault → Nat
  | .usage _ => 2
  | .failure _ => 1
  | .configExists _ => 1

def code? : Fault → Option String
  | .failure cause => some cause.code
  | _ => none

def message : Fault → String
  | .usage cause => cause.message
  | .failure cause => cause.message
  | .configExists path => s!"config already exists at {path}"

def advice? : Fault → Option String
  | .usage _ => none
  | .failure cause => cause.advice?
  | .configExists _ => some "Pass --force to overwrite it."

end Fault

structure Outcome where
  /-- The text that is printed, or why there is none. -/
  printed : Except Fault String
  tree : FileTree
  /-- The programs to be started on the way, in order. -/
  launches : List Launch

namespace Outcome

def ofPrinted (host : Host) (printed : Except Failure String) : Outcome :=
  ⟨printed.mapError Fault.failure, host.tree, []⟩

end Outcome

/-! Commands -/

def readArguments (args : List String) : Except Failure (List Value) :=
  args.mapM fun arg =>
    match Term.parse arg with
    | .ok term => .ok (.term term)
    | .error cause => .error (.reading cause)

def loadTheories (host : Host) (session : Session) (paths : List String) :
    Except Failure Session :=
  (paths.foldlM (fun session path => Session.loadFile session host.tree path) session).mapError
    Failure.engine

/-- A session with the theories of a request, and the goal that the request makes. -/
def prepare (host : Host) (session : Session) (request : GoalRequest) :
    Except Failure (Session × String) := do
  let session ← loadTheories host session request.theories
  let args ← readArguments request.args
  let goal ← ((Binding.ofPattern request.pattern).goalText session.policy args).mapError
    Failure.query
  .ok (session, goal)

def solutionText (session : Session) (goal : String) (json : Bool) : Except Failure String := do
  let solution ← (session.solveGoal goal).mapError Failure.engine
  if json then (Report.jsonText solution).mapError Failure.solution
  else .ok (Report.table solution)

def runSolve (host : Host) (config : Config) (request : GoalRequest) (json : Bool) : Outcome :=
  let plan := SessionPlan.ofConfig config
  let asked := (plan.resolution host).asked.filterMap Provider.launch?
  match plan.start host with
  | .error cause => ⟨.error (.failure (.engine cause)), host.tree, asked⟩
  | .ok session =>
      match prepare host session request with
      | .error cause => ⟨.error (.failure cause), host.tree, asked⟩
      | .ok (session, goal) =>
          let launch? := session.backend.launch? session.dialect (session.script goal)
          ⟨(solutionText session goal json).mapError Fault.failure, host.tree,
            asked ++ launch?.toList⟩

/-- The backend of a session whose scripts are only looked at. -/
def scriptOnly : Backend :=
  .inProcess "script-only" fun _ => .error (.inProcess "scripts are printed, not run")

def scriptText (host : Host) (config : Config) (request : GoalRequest) :
    Except Failure String := do
  let plan := { SessionPlan.ofConfig config with backend? := some scriptOnly }
  let session ← (plan.start host).mapError Failure.engine
  let (session, goal) ← prepare host session request
  .ok (session.script goal)

def probeLines (engine : EngineKind) (executable : Executable) : List String :=
  let assignments := executable.assignments.map fun entry => s!"  env {entry.1}={entry.2}"
  let searchPaths := executable.searchPaths.flatMap fun entry =>
    entry.2.map fun directory => s!"  {entry.1} += {directory}"
  s!"engine:     {engine.label}" :: s!"executable: {executable.text}"
    :: (assignments ++ searchPaths)

def runProbe (host : Host) (config : Config) : Outcome :=
  let resolution := (SessionPlan.ofConfig config).resolution host
  let asked := resolution.asked.filterMap Provider.launch?
  match resolution.executable? with
  | some executable =>
      let lines := probeLines config.engine executable
      ⟨.ok (String.join (lines.map fun line => line ++ "\n")), host.tree, asked⟩
  | none => ⟨.error (.failure (.engine (.noExecutable config.engine.label))), host.tree, asked⟩

def runWriteConfig (host : Host) (path : String) (engine : EngineKind) (force : Bool) :
    Outcome :=
  if host.tree.has path && !force then ⟨.error (.configExists path), host.tree, []⟩
  else
    match (Config.ofEngine engine).save host.tree path with
    | .ok tree => ⟨.ok s!"Wrote {path}\n", tree, []⟩
    | .error cause => ⟨.error (.failure (.config cause)), host.tree, []⟩

/-! Invocations -/

/-- Where the configuration is, and what it says with the engine of the invocation. -/
def configured (host : Host) (invocation : Invocation) : Except ConfigError (String × Config) := do
  let path ←
    match invocation.config? with
    | some path => .ok path
    | none => Config.defaultPath host.environment?
  let config ← Config.loadOrDefault host.tree path
  .ok (path, { config with engine := invocation.engine?.getD config.engine })

def runCommand (host : Host) (path : String) (config : Config) : Command → Outcome
  | .solve request json => runSolve host config request json
  | .script request => .ofPrinted host (scriptText host config request)
  | .probe => runProbe host config
  | .writeConfig force => runWriteConfig host path config.engine force
  | .showConfig => .ofPrinted host (.ok s!"# {path}\n{config.write}")

def run (host : Host) (args : List String) : Outcome :=
  match Invocation.ofArguments args with
  | .error cause => ⟨.error (.usage cause), host.tree, []⟩
  | .ok invocation =>
      match configured host invocation with
      | .error cause => ⟨.error (.failure (.config cause)), host.tree, []⟩
      | .ok (path, config) => runCommand host path config invocation.command

end HornQuery.CommandLine
