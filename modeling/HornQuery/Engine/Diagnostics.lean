import HornQuery.Engine.Kind
import HornQuery.Text.Lines

namespace HornQuery

structure Diagnostics where
  errorMarks : List String
  warningMarks : List String
deriving Inhabited

namespace Diagnostics

def ofEngine : EngineKind → Diagnostics
  | .swi => ⟨["ERROR"], ["Warning:", "WARNING"]⟩
  | .problog =>
      ⟨["Error", "ERROR", "UnknownClause", "ParseError", "NonGroundProbabilisticClause",
        "GroundingError"], ["Warning", "WARNING"]⟩

def startsWithAny (marks : List String) (line : List Char) : Bool :=
  let line := Text.trimStart line
  marks.any fun mark => mark.toList.isPrefixOf line

def isError (diagnostics : Diagnostics) (line : List Char) : Bool :=
  startsWithAny diagnostics.errorMarks line

def isWarning (diagnostics : Diagnostics) (line : List Char) : Bool :=
  startsWithAny diagnostics.warningMarks line

def firstError? (diagnostics : Diagnostics) (output : List Char) : Option (List Char) :=
  match (Text.lines output).dropWhile fun line => !diagnostics.isError line with
  | [] => none
  | found => some (Text.trimEnd (Text.joinWith ['\n'] found))

def warnings (diagnostics : Diagnostics) (output : List Char) : List (List Char) :=
  (Text.lines output).filter diagnostics.isWarning

end Diagnostics

end HornQuery
