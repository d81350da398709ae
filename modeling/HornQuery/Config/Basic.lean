import HornQuery.Engine.Discovery
import HornQuery.Engine.Kind
import HornQuery.Toml.Document

namespace HornQuery

structure Config where
  engine : EngineKind
  /-- A program that is tried before any command is looked up. -/
  executable? : Option String
  /-- The command that is looked up, if it is not the one of the engine. -/
  command? : Option String
  probeArgs : List String
  engineArgs : List String
  libraryPath : List String
  /-- The libraries that sessions load, if they are not the ones of the engine. -/
  libraries? : Option (List String)
  errorMarks? : Option (List String)
  warningMarks? : Option (List String)
  environment : List (String × String)
deriving DecidableEq, Inhabited

namespace Config

def ofEngine (engine : EngineKind) : Config where
  engine := engine
  executable? := none
  command? := none
  probeArgs := Provider.probeArguments
  engineArgs := []
  libraryPath := []
  libraries? := none
  errorMarks? := none
  warningMarks? := none
  environment := []

/-! Reading -/

def asString? : Toml → Option String
  | .string text => some text
  | _ => none

def asStrings? : Toml → Option (List String)
  | .array items => items.mapM asString?
  | _ => none

def engineNamed? (name : String) : Option EngineKind :=
  if name = "swi" then some .swi
  else if name = "problog" then some .problog
  else none

/-- An engine is given by its name, or by a table that holds nothing but an empty entry of that
name. -/
def asEngine? : Toml → Option EngineKind
  | .string name => engineNamed? name
  | .table _ [(name, .table _ [])] => engineNamed? name
  | .table _ [(name, .array [])] => engineNamed? name
  | _ => none

/-- The key under which the text of a moment counts as the one entry of a table. -/
def momentKey : String := "$__toml_private_datetime"

def asEnvironment? : Toml → Option (List (String × String))
  | .table _ entries => do
      let settings ← entries.mapM fun entry => (asString? entry.2).map fun text => (entry.1, text)
      some (settings.foldl (fun table setting => putEntry setting.1 setting.2 table) [])
  | .moment moment => some [(momentKey, String.ofList moment.write)]
  | _ => none

def setting? (entries : Toml.Entries) (key : String) (read : Toml → Option α) (default : α) :
    Option α :=
  match entries.lookup key with
  | some value => read value
  | none => some default

/-- The configuration that a document describes; other keys are passed over. -/
def ofEntries? (entries : Toml.Entries) : Option Config := do
  let text := fun key => setting? entries key (fun value => (asString? value).map some) none
  let texts := fun key => setting? entries key (fun value => (asStrings? value).map some) none
  some {
    engine := ← setting? entries "engine" asEngine? .swi
    executable? := ← text "executable"
    command? := ← text "command"
    probeArgs := ← setting? entries "probe_args" asStrings? Provider.probeArguments
    engineArgs := ← setting? entries "engine_args" asStrings? []
    libraryPath := ← setting? entries "library_path" asStrings? []
    libraries? := ← texts "libraries"
    errorMarks? := ← texts "error_prefixes"
    warningMarks? := ← texts "warning_prefixes"
    environment := ← setting? entries "env" asEnvironment? [] }

def parse? (text : String) : Option Config := do
  ofEntries? (← Toml.parse? text)

end Config

end HornQuery
