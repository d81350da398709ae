import HornQuery.CommandLine.Options
import HornQuery.Engine.Kind

namespace HornQuery.CommandLine

structure GoalRequest where
  pattern : String
  args : List String
  theories : List String
deriving DecidableEq, Inhabited, Repr

inductive Command where
  | solve (request : GoalRequest) (json : Bool)
  | script (request : GoalRequest)
  | probe
  | writeConfig (force : Bool)
  | showConfig
deriving DecidableEq, Inhabited, Repr

structure Invocation where
  config? : Option String
  engine? : Option EngineKind
  command : Command
deriving DecidableEq, Inhabited

namespace Invocation

/-! Levels -/

def configOption : OptionRule := ⟨"config", none, true, false, fun path => !path.isEmpty⟩

def engineOption : OptionRule :=
  ⟨"engine", none, true, false, fun name => (EngineKind.ofName? name).isSome⟩

def verboseOption : OptionRule := ⟨"verbose", some 'v', false, false, fun _ => true⟩

def theoryOption : OptionRule := ⟨"theory", some 't', true, true, fun path => !path.isEmpty⟩

def jsonOption : OptionRule := ⟨"json", none, false, false, fun _ => true⟩

def forceOption : OptionRule := ⟨"force", none, false, false, fun _ => true⟩

def levelWith (options : List OptionRule) (commands : List String) : Level :=
  ⟨configOption :: engineOption :: verboseOption :: options, commands⟩

def topLevel : Level := levelWith [] ["solve", "script", "probe", "config"]

def configLevel : Level := levelWith [] ["init", "show"]

/-! Reading -/

def inner (level : Level) (outer : Reading) : Except UsageFault Reading :=
  Reading.ofArguments level outer.rest

def commandName (reading : Reading) : Except UsageFault String :=
  match reading.command? with
  | some name => .ok name
  | none => .error .missingCommand

def goalRequest (reading : Reading) : Except UsageFault GoalRequest :=
  match reading.positionals with
  | pattern :: args => .ok ⟨pattern, args, reading.values "theory"⟩
  | [] => .error (.missingArgument "goal")

def alone (reading : Reading) (command : Command) : Except UsageFault Command :=
  match reading.positionals with
  | [] => .ok command
  | text :: _ => .error (.unexpectedArgument text)

/-- The command that a reading of the top level names, with the readings of the levels inside
it, outermost first. -/
def readCommand (top : Reading) : Except UsageFault (Command × List Reading) := do
  let name ← commandName top
  if name = "solve" then
    let own ← inner (levelWith [theoryOption, jsonOption] []) top
    .ok (.solve (← goalRequest own) (own.isSet "json"), [own])
  else if name = "script" then
    let own ← inner (levelWith [theoryOption] []) top
    .ok (.script (← goalRequest own), [own])
  else if name = "probe" then
    let own ← inner (levelWith [] []) top
    .ok (← alone own .probe, [own])
  else
    let middle ← inner configLevel top
    if (← commandName middle) = "init" then
      let own ← inner (levelWith [forceOption] []) middle
      .ok (← alone own (.writeConfig (own.isSet "force")), [middle, own])
    else
      let own ← inner (levelWith [] []) middle
      .ok (← alone own .showConfig, [middle, own])

def shared? (readings : List Reading) (option : String) : Option String :=
  (readings.filterMap fun reading => reading.value? option).getLast?

def ofArguments (args : List String) : Except UsageFault Invocation := do
  let top ← Reading.ofArguments topLevel args
  let (command, insides) ← readCommand top
  let readings := top :: insides
  .ok {
    config? := shared? readings "config"
    engine? := (shared? readings "engine").bind EngineKind.ofName?
    command := command }

end Invocation

end HornQuery.CommandLine
