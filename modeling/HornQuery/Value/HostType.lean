import HornQuery.Failure
import HornQuery.Number.Parts
import HornQuery.Value.Basic

namespace HornQuery

inductive HostType where
  | value
  | int64
  | int32
  | float64
  | string
  | compound
  | term
  | object
  | optional (inner : HostType)
  | list (item : HostType)
  | array (item : HostType)
deriving DecidableEq

namespace HostType

def Carrier : HostType → Type
  | .value => Value
  | .int64 => Int64
  | .int32 => Int32
  | .float64 => Float
  | .string => String
  | .compound => String × List Value
  | .term => Term
  | .object => HostObject
  | .optional inner => Option inner.Carrier
  | .list item => List item.Carrier
  | .array item => Array item.Carrier

def expected : HostType → String
  | .value => "value"
  | .int64 => "i64"
  | .int32 => "i32"
  | .float64 => "f64"
  | .string => "string"
  | .compound => "compound"
  | .term => "term"
  | .object => "object"
  | .optional inner => inner.expected
  | .list _ => "list"
  | .array _ => "array"

def mismatch (expected : String) (value : Value) : ConversionError :=
  .typeMismatch expected value.kind

def readItems (item : Value → Except ConversionError α) (value : Value) :
    Except ConversionError (List α) :=
  match value with
  | .list items => items.mapM item
  | .array items => items.mapM item
  | other => .error (mismatch "list" other)

def read : (type : HostType) → Value → Except ConversionError type.Carrier
  | .value, given => .ok given
  | .int64, given =>
      match given with
      | .int number => .ok number
      | other => .error (mismatch "i64" other)
  | .int32, given =>
      match given with
      | .int number =>
          if Int32.minValue.toInt ≤ number.toInt ∧ number.toInt ≤ Int32.maxValue.toInt then
            .ok (Int32.ofInt number.toInt)
          else .error (.typeMismatch "i32" s!"integer {number.toInt}")
      | other => .error (mismatch "i32" other)
  | .float64, given =>
      match given with
      | .float number => .ok number
      | .int number => .ok (Number.ofInteger number.toInt)
      | other => .error (mismatch "f64" other)
  | .string, given =>
      match given with
      | .string text => .ok text
      | other => .error (mismatch "string" other)
  | .compound, given =>
      match given with
      | .compound functor args => .ok (functor, args)
      | other => .error (mismatch "compound" other)
  | .term, given =>
      match given with
      | .term inner => .ok inner
      | other => .error (mismatch "term" other)
  | .object, given =>
      match given with
      | .object host => .ok host
      | other => .error (mismatch "object" other)
  | .optional inner, given =>
      match given with
      | .null => .ok none
      | other => (inner.read other).map some
  | .list item, given => readItems item.read given
  | .array item, given => (readItems item.read given).map List.toArray

end HostType

end HornQuery
