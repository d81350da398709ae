import HornQuery.Json
import HornQuery.Term.Writer
import HornQuery.Value.Basic

namespace HornQuery

def Json.ofFloat (x : Float) : Json :=
  if Number.magnitudeBits x < Number.binary64.infinityBits then .number x
  else .string (String.ofList (Number.plain.write x))

mutual
def Value.toJson : Value → Json
  | .null => .null
  | .int number => .integer number.toInt
  | .float number => .ofFloat number
  | .string text => .string text
  | .list items => .array (Value.toJsonAll items)
  | .array items => .array (Value.toJsonAll items)
  | .compound functor args =>
      .object [("args", .array (Value.toJsonAll args)), ("functor", .string functor)]
  | .term inner => .string inner.text
  | .object host => .string host.description

def Value.toJsonAll : List Value → List Json
  | [] => []
  | value :: values => value.toJson :: Value.toJsonAll values
end

end HornQuery
