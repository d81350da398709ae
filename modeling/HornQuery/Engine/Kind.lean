import HornQuery.Conversion.Standard

namespace HornQuery

inductive EngineKind where
  | swi
  | problog
deriving DecidableEq, Inhabited

namespace EngineKind

def label : EngineKind → String
  | .swi => "swi"
  | .problog => "problog"

def title : EngineKind → String
  | .swi => "Swi"
  | .problog => "Problog"

/-- The engine that a name stands for, in any case of letters. -/
def ofName? (name : String) : Option EngineKind :=
  let lower := name.map Char.toLower
  if ["swi", "swipl", "swi-prolog"].contains lower then some .swi
  else if lower = "problog" then some .problog
  else none

def unknownName (name : String) : String :=
  let lower := name.map Char.toLower
  s!"unknown engine `{lower}` (expected `swi` or `problog`)"

def command : EngineKind → String
  | .swi => "swipl"
  | .problog => "problog"

def libraries : EngineKind → List String
  | .swi => []
  | .problog => ["lists"]

def policy : EngineKind → Policy
  | .swi => Policy.swi
  | .problog => Policy.problog

end EngineKind

end HornQuery
