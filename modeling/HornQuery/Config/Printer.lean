import HornQuery.Config.Basic
import HornQuery.Toml.Quoted

namespace HornQuery.Config

open Toml (writeKey writeString)

def writeStrings (texts : List String) : String :=
  match texts with
  | [] => "[]"
  | [text] => "[" ++ writeString text ++ "]"
  | several =>
      "[\n" ++ String.join (several.map fun text => "    " ++ writeString text ++ ",\n") ++ "]"

def line (key value : String) : String :=
  key ++ " = " ++ value ++ "\n"

def optionalLine (key : String) (value? : Option String) : String :=
  match value? with
  | some value => line key value
  | none => ""

def write (config : Config) : String :=
  line "engine" (writeString config.engine.label)
    ++ optionalLine "executable" (config.executable?.map writeString)
    ++ optionalLine "command" (config.command?.map writeString)
    ++ line "probe_args" (writeStrings config.probeArgs)
    ++ line "engine_args" (writeStrings config.engineArgs)
    ++ line "library_path" (writeStrings config.libraryPath)
    ++ optionalLine "libraries" (config.libraries?.map writeStrings)
    ++ optionalLine "error_prefixes" (config.errorMarks?.map writeStrings)
    ++ optionalLine "warning_prefixes" (config.warningMarks?.map writeStrings)
    ++ "\n[env]\n"
    ++ String.join
      (config.environment.map fun entry => line (writeKey entry.1) (writeString entry.2))

end HornQuery.Config
