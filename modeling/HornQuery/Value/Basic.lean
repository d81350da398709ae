import HornQuery.Term.Basic

/-! Values of the calling application: what goes into a goal and what comes out of a solution. -/

namespace HornQuery

/-- The name of a host type, under which its converters are found. -/
structure TypeTag where
  name : String
deriving DecidableEq, Inhabited, Repr

namespace TypeTag

def null : TypeTag := ⟨"null"⟩
def int : TypeTag := ⟨"int"⟩
def float : TypeTag := ⟨"float"⟩
def number : TypeTag := ⟨"number"⟩
def string : TypeTag := ⟨"string"⟩
def list : TypeTag := ⟨"list"⟩
def array : TypeTag := ⟨"array"⟩
def compound : TypeTag := ⟨"compound"⟩
def term : TypeTag := ⟨"term"⟩

def atomic : TypeTag := ⟨"atomic"⟩

def sequence : TypeTag := ⟨"sequence"⟩

/-- Belongs to every type and is asked last. -/
def any : TypeTag := ⟨"any"⟩

end TypeTag

structure HostObject where
  identity : Nat
  tag : TypeTag
  description : String
deriving Inhabited, Repr

/-- A fixed-size array differs from a list in how it is converted; a compound has a functor
and values as arguments. -/
inductive Value where
  | null
  | int (number : Int64)
  | float (number : Float)
  | string (text : String)
  | list (items : List Value)
  | array (items : List Value)
  | compound (functor : String) (args : List Value)
  | term (term : Term)
  | object (object : HostObject)
deriving Inhabited

theorem Value.induction {motive : Value → Prop}
    (null : motive .null)
    (int : ∀ number, motive (.int number))
    (float : ∀ number, motive (.float number))
    (string : ∀ text, motive (.string text))
    (term : ∀ inner, motive (.term inner))
    (object : ∀ host, motive (.object host))
    (list : ∀ items, (∀ item ∈ items, motive item) → motive (.list items))
    (array : ∀ items, (∀ item ∈ items, motive item) → motive (.array items))
    (compound : ∀ functor args, (∀ arg ∈ args, motive arg) → motive (.compound functor args)) :
    ∀ value, motive value
  | .null => null
  | .int number => int number
  | .float number => float number
  | .string text => string text
  | .term inner => term inner
  | .object host => object host
  | .list items =>
      list items fun item _ =>
        Value.induction null int float string term object list array compound item
  | .array items =>
      array items fun item _ =>
        Value.induction null int float string term object list array compound item
  | .compound functor args =>
      compound functor args fun arg _ =>
        Value.induction null int float string term object list array compound arg

namespace Value

def typeTag : Value → TypeTag
  | .null => .null
  | .int _ => .int
  | .float _ => .float
  | .string _ => .string
  | .list _ => .list
  | .array _ => .array
  | .compound _ _ => .compound
  | .term _ => .term
  | .object host => host.tag

def kind : Value → String
  | .null => "null"
  | .int _ => "integer"
  | .float _ => "float"
  | .string _ => "string"
  | .list _ => "list"
  | .array _ => "array"
  | .compound _ _ => "compound"
  | .term _ => "term"
  | .object _ => "object"

end Value

mutual
/-- Two objects are equal when they are the same object. -/
def Value.beq : Value → Value → Bool
  | .null, .null => true
  | .int left, .int right => left == right
  | .float left, .float right => left == right
  | .string left, .string right => left == right
  | .list left, .list right => Value.beqAll left right
  | .array left, .array right => Value.beqAll left right
  | .compound left leftArgs, .compound right rightArgs =>
      left == right && Value.beqAll leftArgs rightArgs
  | .term left, .term right => left == right
  | .object left, .object right => left.identity == right.identity
  | _, _ => false

def Value.beqAll : List Value → List Value → Bool
  | [], [] => true
  | left :: lefts, right :: rights => Value.beq left right && Value.beqAll lefts rights
  | _, _ => false
end

instance : BEq Value := ⟨Value.beq⟩

end HornQuery
