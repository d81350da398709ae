import HornQuery.Config.Printer
import HornQuery.Failure

namespace HornQuery.Config

/-- The place of the configuration when none is named: in the configuration directory of the
user, which lies in the home directory unless it is named. -/
def defaultPath (environment? : String → Option String) : Except ConfigError String :=
  match environment? "HOME" with
  | none => .error .noHome
  | some home =>
      let directory := (environment? "XDG_CONFIG_HOME").getD (Path.join home ".config")
      .ok (Path.join (Path.join directory "prover-bridge") "config.toml")

def load (tree : FileTree) (path : String) : Except ConfigError Config :=
  match tree.read? path with
  | none => .error (.unreadable path)
  | some text =>
      match parse? text with
      | some config => .ok config
      | none => .error (.malformed path "not a configuration")

def loadOrDefault (tree : FileTree) (path : String) : Except ConfigError Config :=
  if tree.has path then load tree path else .ok (ofEngine .swi)

/-- The files after saving; missing directories are made. -/
def save (config : Config) (tree : FileTree) (path : String) : Except ConfigError FileTree := do
  let directory? := Path.parent? path
  let made ←
    match directory? with
    | none => .ok tree
    | some directory =>
        match tree.makeDirectories? directory with
        | some made => .ok made
        | none => .error (.unwritable directory)
  match made.write? path config.write with
  | some written => .ok written
  | none => .error (.unwritable path)

end HornQuery.Config
