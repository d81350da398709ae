import HornQuery.Config.Basic
import HornQuery.Engine.Discovery
import HornQuery.Session.Basic

namespace HornQuery

structure SessionPlan where
  kind : EngineKind
  policy? : Option Policy
  providers : ProviderRegistry
  probeCommand? : Option String
  probeArgs : List String
  backend? : Option Backend
  engineArgs : List String
  libraries? : Option (List String)
  diagnostics : Diagnostics

namespace SessionPlan

def ofEngine (kind : EngineKind) : SessionPlan where
  kind := kind
  policy? := none
  providers := .empty
  probeCommand? := none
  probeArgs := Provider.probeArguments
  backend? := none
  engineArgs := []
  libraries? := none
  diagnostics := .ofEngine kind

def configuredExecutable (config : Config) (program : String) : Executable :=
  let withVariables := config.environment.foldl
    (fun executable entry => executable.withVariable entry.1 entry.2)
    (Executable.ofProgram program)
  config.libraryPath.foldl
    (fun executable directory => executable.withSearchPath "LD_LIBRARY_PATH" directory)
    withVariables

def withProvider (plan : SessionPlan) (provider : Provider) : SessionPlan :=
  { plan with providers := plan.providers.register provider }

def ofConfig (config : Config) : SessionPlan :=
  let plan := ofEngine config.engine
  let plan :=
    match config.executable? with
    | some program => plan.withProvider (.fixed (configuredExecutable config program) 0)
    | none => plan
  { plan with
    probeCommand? := config.command?
    probeArgs := config.probeArgs
    engineArgs := config.engineArgs
    libraries? := config.libraries?
    diagnostics :=
      ⟨config.errorMarks?.getD plan.diagnostics.errorMarks,
        config.warningMarks?.getD plan.diagnostics.warningMarks⟩ }

def allProviders (plan : SessionPlan) : ProviderRegistry :=
  let command := plan.probeCommand?.getD plan.kind.command
  plan.providers.register (.probe command plan.probeArgs Provider.lowestPriority)

/-- Looking for an executable; a plan with a backend needs none. -/
def resolution (plan : SessionPlan) (host : Host) : Resolution :=
  plan.allProviders.resolve host

def backend (plan : SessionPlan) (host : Host) : Except EngineError Backend :=
  match plan.backend? with
  | some backend => .ok backend
  | none =>
      match (plan.resolution host).executable? with
      | some executable => .ok (.program host executable plan.engineArgs)
      | none => .error (.noExecutable plan.kind.label)

def start (plan : SessionPlan) (host : Host) : Except EngineError Session := do
  let backend ← plan.backend host
  let libraries := plan.libraries?.getD plan.kind.libraries
  .ok {
    dialect := ⟨plan.kind, plan.diagnostics⟩
    policy := plan.policy?.getD plan.kind.policy
    theory := libraries.foldl Theory.addLibrary .empty
    backend := backend }

def summary (plan : SessionPlan) : String :=
  let backend := plan.backend?.map fun backend => Text.quoted backend.description
  Text.Summary.record "ProverBuilder" [
    ("kind", plan.kind.title),
    ("providers", plan.providers.summary),
    ("backend", Text.Summary.optional backend),
    ("engine_args", Text.Summary.texts plan.engineArgs),
    ("libraries", Text.Summary.optional (plan.libraries?.map Text.Summary.texts))] true

end SessionPlan

end HornQuery
