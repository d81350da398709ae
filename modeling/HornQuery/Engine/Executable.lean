import HornQuery.FileTree
import HornQuery.Text.Summary

namespace HornQuery

def putEntry (key : String) (value : α) : List (String × α) → List (String × α)
  | [] => [(key, value)]
  | entry :: rest =>
      if key < entry.1 then (key, value) :: entry :: rest
      else if key = entry.1 then (key, value) :: rest
      else entry :: putEntry key value rest

structure Executable where
  program : String
  args : List String
  assignments : List (String × String)
  /-- Directories put in front of a variable that lists paths. -/
  searchPaths : List (String × List String)
deriving DecidableEq, Inhabited

namespace Executable

def ofProgram (program : String) : Executable := ⟨program, [], [], []⟩

def withArgs (executable : Executable) (args : List String) : Executable :=
  { executable with args := executable.args ++ args }

def withVariable (executable : Executable) (name value : String) : Executable :=
  { executable with assignments := putEntry name value executable.assignments }

def withSearchPath (executable : Executable) (name directory : String) : Executable :=
  let directories := (executable.searchPaths.lookup name).getD []
  { executable with
    searchPaths := putEntry name (directories ++ [directory]) executable.searchPaths }

/-- Paths in one text, separated by colons; a path that holds a colon cannot be written. -/
def joinPaths? (paths : List String) : Option String :=
  if paths.any fun path => path.toList.contains ':' then none
  else some (":".intercalate paths)

def splitPaths (text : String) : List String :=
  (Text.pieces ':' text.toList).map String.ofList

/-- What is set in the environment, given what is there. A list of paths that cannot be
written is left alone. -/
def environment (executable : Executable) (existing? : String → Option String) :
    List (String × String) :=
  executable.searchPaths.foldl
    (fun settings entry =>
      let before := ((existing? entry.1).map splitPaths).getD []
      match joinPaths? (entry.2 ++ before) with
      | some joined => putEntry entry.1 joined settings
      | none => settings)
    executable.assignments

/-- The program and arguments as they stand in a command that is put together. A placeholder
stands for a word with a null character, which could not be handed over. -/
def words (executable : Executable) : List String :=
  (executable.program :: executable.args).map fun word =>
    if word.contains '\x00' then "<string-with-nul>" else word

def text (executable : Executable) : String :=
  " ".intercalate (executable.program :: executable.args)

def summary (executable : Executable) : String :=
  let assignments := executable.assignments.map fun entry =>
    (Text.quoted entry.1, Text.quoted entry.2)
  let searchPaths := executable.searchPaths.map fun entry =>
    (Text.quoted entry.1, Text.Summary.list (entry.2.map Text.quotedPath))
  Text.Summary.record "Executable" [
    ("program", Text.quotedPath executable.program),
    ("args", Text.Summary.texts executable.args),
    ("env", Text.Summary.table assignments),
    ("path_prepend", Text.Summary.table searchPaths)] false

end Executable

end HornQuery
