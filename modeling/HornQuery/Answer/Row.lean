import HornQuery.Term.Basic

namespace HornQuery

structure Row where
  bindings : List (String × Term)
  probability? : Option Float
deriving Inhabited

namespace Row

def get? (row : Row) (name : String) : Option Term :=
  row.bindings.lookup name

def isEmpty (row : Row) : Bool :=
  row.bindings.isEmpty

end Row

end HornQuery
