import HornQuery.Engine.Executable
import HornQuery.Text.Utf8

/-! The machine that a session runs on, as a value: its files, its environment, and what happens
when a program is started. -/

namespace HornQuery

structure Launch where
  program : String
  args : List String
  environment : List (String × String)
  /-- The script that the arguments point to, if there is one. -/
  script? : Option String
deriving DecidableEq, Inhabited

structure ProgramResult where
  stdout : List UInt8
  stderr : List UInt8
  status? : Option Int
deriving DecidableEq, Inhabited

/-- A null character would end a word early, so no word that is handed over may hold one. -/
def Launch.isPossible (launch : Launch) : Bool :=
  let settings := launch.environment.flatMap fun setting => [setting.1, setting.2]
  (launch.program :: (launch.args ++ settings)).all fun word => !word.contains '\x00'

structure Host where
  tree : FileTree
  environment? : String → Option String
  launch : Launch → Option ProgramResult
  scriptPath : String → String

def Host.start? (host : Host) (launch : Launch) : Option ProgramResult :=
  if launch.isPossible then host.launch launch else none

structure EngineOutput where
  text : String
  status? : Option Int
deriving DecidableEq, Inhabited

namespace EngineOutput

def ofText (text : String) : EngineOutput := ⟨text, some 0⟩

def isSuccess (output : EngineOutput) : Bool :=
  output.status? = some 0

/-- Standard output, then standard error on a line of its own. -/
def joinStreams (out err : List Char) : List Char :=
  if err.isEmpty then out
  else if out.isEmpty || out.getLast? = some '\n' then out ++ err
  else out ++ '\n' :: err

def ofResult (result : ProgramResult) : EngineOutput :=
  ⟨String.ofList
    (joinStreams (Text.Utf8.decode result.stdout) (Text.Utf8.decode result.stderr)),
    result.status?⟩

end EngineOutput

def Executable.launch (executable : Executable) (host : Host) (args : List String)
    (script? : Option String) : Launch where
  program := executable.program
  args := executable.args ++ args
  environment := executable.environment host.environment?
  script? := script?

end HornQuery
