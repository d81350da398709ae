import HornQuery.CommandLine.Run

namespace HornQuery.CommandLine

def fileText? (path : String) : IO (Option String) := do
  try
    let text ← IO.FS.readFile path
    return some text
  catch _ => return none

def readFiles (paths : List String) : IO (List (String × String)) := do
  let mut files := []
  for path in paths do
    match ← fileText? path with
    | some text => files := files ++ [(path, text)]
    | none => pure ()
  return files

/-- A file that is there counts as an executable, whatever it holds. -/
def executableFiles (config? : Option Config) : IO (List (String × String)) := do
  match config?.bind Config.executable? with
  | none => return []
  | some path =>
      try
        let _ ← IO.FS.Handle.mk path .read
        return [(path, "")]
      catch _ => return []

/-- Everything on standard input. -/
partial def readAll (input : IO.FS.Stream) (read : ByteArray) : IO ByteArray := do
  let more ← input.read 65536
  if more.isEmpty then return read else readAll input (read ++ more)

def Command.theories : Command → List String
  | .solve request _ => request.theories
  | .script request => request.theories
  | _ => []

/-- The host of an invocation: the files it names, the environment, and an engine whose output
is on standard input. -/
def hostOf (invocation : Invocation) : IO Host := do
  let home? ← IO.getEnv "HOME"
  let configHome? ← IO.getEnv "XDG_CONFIG_HOME"
  let environment? := fun name =>
    if name = "HOME" then home? else if name = "XDG_CONFIG_HOME" then configHome? else none
  let path? := invocation.config?.or (Config.defaultPath environment?).toOption
  let texts ← readFiles (path?.toList ++ invocation.command.theories)
  let config? := path?.bind fun path => (Config.load (.ofFiles texts) path).toOption
  let executables ← executableFiles config?
  let output ←
    match invocation.command with
    | .solve _ _ => readAll (← IO.getStdin) .empty
    | _ => pure .empty
  return {
    tree := .ofFiles (executables ++ texts)
    environment? := environment?
    launch := fun _ => some ⟨output.toList, [], some 0⟩
    scriptPath := fun suffix => "script" ++ suffix }

/-- Writes the configuration file of an invocation if running it has made one. -/
def writeFiles (host : Host) (invocation : Invocation) (outcome : Outcome) : IO Unit := do
  match invocation.command, configured host invocation with
  | .writeConfig _, .ok (path, _) =>
      match outcome.printed, outcome.tree.read? path with
      | .ok _, some text =>
          match Path.parent? path with
          | some directory => if directory.isEmpty then pure () else IO.FS.createDirAll directory
          | none => pure ()
          IO.FS.writeFile path text
      | _, _ => pure ()
  | _, _ => pure ()

def report (fault : Fault) : IO UInt32 := do
  IO.eprintln s!"error: {fault.message}"
  match fault.advice? with
  | some advice => IO.eprintln s!"help: {advice}"
  | none => pure ()
  return UInt32.ofNat fault.status

end HornQuery.CommandLine

open HornQuery HornQuery.CommandLine in
def main (args : List String) : IO UInt32 := do
  match Invocation.ofArguments args with
  | .error cause => report (.usage cause)
  | .ok invocation =>
      let host ← hostOf invocation
      let outcome := run host args
      match outcome.printed with
      | .error fault => report fault
      | .ok text =>
          writeFiles host invocation outcome
          IO.print text
          return 0
