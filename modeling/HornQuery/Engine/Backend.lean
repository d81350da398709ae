import HornQuery.Engine.Dialect
import HornQuery.Engine.Host

namespace HornQuery

structure Backend where
  description : String
  /-- The program that running a script starts, if it starts one. -/
  launch? : Dialect → String → Option Launch
  run : Dialect → String → Except EngineError EngineOutput

namespace Backend

def command (executable : Executable) (extraArgs : List String) : String :=
  " ".intercalate (executable.text :: extraArgs)

def scriptLaunch (host : Host) (executable : Executable) (extraArgs : List String)
    (dialect : Dialect) (script : String) : Launch :=
  let path := host.scriptPath dialect.scriptSuffix
  executable.launch host (extraArgs ++ dialect.arguments path) (some script)

def program (host : Host) (executable : Executable) (extraArgs : List String) : Backend where
  description := command executable extraArgs
  launch? dialect script := some (scriptLaunch host executable extraArgs dialect script)
  run dialect script :=
    match host.start? (scriptLaunch host executable extraArgs dialect script) with
    | some result => .ok (.ofResult result)
    | none => .error (.cannotStart (command executable extraArgs))

def inProcess (name : String) (run : String → Except EngineError EngineOutput) : Backend where
  description := "in-process:" ++ name
  launch? _ _ := none
  run _ script := run script

def replay (text : String) : Backend :=
  inProcess "replay" fun _ => .ok (.ofText text)

def inProcessSummary (name : String) : String :=
  Text.Summary.record "InProcessBackend" [("name", Text.quoted name)] true

end Backend

end HornQuery
