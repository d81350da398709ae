import HornQuery.Conversion.TypeHierarchy
import HornQuery.Number.Numeral
import HornQuery.Term.Class
import HornQuery.Term.Writer
import HornQuery.Text.Summary
import HornQuery.Value.HostType

/-! Conversion policies: converters from values to terms by host type, and from terms to values by
functor and by structural class. -/

namespace HornQuery

/-- Converts a whole, of which it sees the conversions of the direct parts in order; declining yields
none. A converter that calls the policy by itself is one of these too: while a policy stays as it is,
what such a converter answers is a function of the whole alone. -/
abbrev Converter (α β : Type) :=
  α → List (Except ConversionError β) → Except ConversionError (Option β)

abbrev ObjectConverter := Converter Value Term

abbrev TermConverter := Converter Term Value

/-- A key that a term converter is registered under: a functor of any arity, or of one. -/
abbrev FunctorKey := String

/-- Every table holds a key at most once, the newest registration first. The keys of functors are
kept in the order of their registration besides, the one to be asked first at the end. -/
structure Policy where
  types : TypeHierarchy
  objectConverters : List (TypeTag × ObjectConverter)
  classConverters : List (TermClass × TermConverter)
  functorConverters : List (FunctorKey × TermConverter)
  functorOrder : List FunctorKey

/-- Puts a converter in front, in place of an earlier one with its key. -/
def registerConverter [DecidableEq κ] (key : κ) (converter : γ) (table : List (κ × γ)) :
    List (κ × γ) :=
  (key, converter) :: table.filter fun entry => entry.1 ≠ key

theorem lookup_registerConverter [DecidableEq κ] (key other : κ) (converter : γ)
    (table : List (κ × γ)) :
    (registerConverter key converter table).lookup other
      = if other = key then some converter else table.lookup other := by
  unfold registerConverter
  by_cases same : other = key
  · subst same
    simp
  · rw [if_neg same, List.lookup_cons, beq_false_of_ne same]
    induction table with
    | nil => rfl
    | cons entry rest induction =>
        by_cases dropped : entry.1 = key
        · rw [List.filter_cons_of_neg (by simp [dropped]), List.lookup_cons, dropped,
            beq_false_of_ne same]
          exact induction
        · rw [List.filter_cons_of_pos (by simp [dropped]), List.lookup_cons, List.lookup_cons]
          cases other == entry.1 with
          | true => rfl
          | false => exact induction

def askConverters (whole : α) (parts : List (Except ConversionError β)) :
    List (Converter α β) → Except ConversionError (Option β)
  | [] => .ok none
  | converter :: others =>
      match converter whole parts with
      | .ok none => askConverters whole parts others
      | answer => answer

/-- The arity that a key names after its last slash, with the functor before it. -/
def keyArity? (key : List Char) : Option (List Char × Nat) :=
  let digits := (key.reverse.takeWhile (· ≠ '/')).reverse
  let name := key.take (key.length - digits.length - 1)
  let unsigned :=
    match digits with
    | '+' :: rest => rest
    | rest => rest
  if digits.length = key.length || name.isEmpty then none
  else if unsigned.isEmpty || !unsigned.all Number.isDigit then none
  else
    let arity := Number.ofDigits unsigned
    if arity < UInt64.size then some (name, arity) else none

def keyMatches (key : FunctorKey) (functor : String) (arity : Nat) : Bool :=
  match keyArity? key.toList with
  | some (name, n) => name = functor.toList && n = arity
  | none => key = functor

namespace Policy

def empty : Policy := ⟨.builtIn, [], [], [], []⟩

def registerObject (policy : Policy) (tag : TypeTag) (converter : ObjectConverter) : Policy :=
  { policy with
    objectConverters := registerConverter tag converter policy.objectConverters }

def registerClass (policy : Policy) (termClass : TermClass) (converter : TermConverter) :
    Policy :=
  { policy with
    classConverters := registerConverter termClass converter policy.classConverters }

def registerFunctor (policy : Policy) (key : FunctorKey) (converter : TermConverter) :
    Policy :=
  { policy with
    functorConverters := registerConverter key converter policy.functorConverters
    functorOrder := policy.functorOrder.filter (· ≠ key) ++ [key] }

def declareType (policy : Policy) (declaration : TypeDeclaration) : Policy :=
  { policy with types := policy.types.declare declaration }

/-- The types whose converters are asked for a value: an array has only its own. -/
def candidates (policy : Policy) (value : Value) : List TypeTag :=
  match value with
  | .array _ => [.array]
  | other => policy.types.precedence other.typeTag

def termOf (policy : Policy) (value : Value) (parts : List (Except ConversionError Term)) :
    Except ConversionError Term :=
  let converters :=
    (policy.candidates value).filterMap fun tag => policy.objectConverters.lookup tag
  match askConverters value parts converters with
  | .error cause => .error cause
  | .ok (some term) => .ok term
  | .ok none => .error (.noConverter s!"value of type `{value.typeTag.name}`")

/-- The converters asked for a term: those of its functor from the newest to the oldest, then
those of its classes. -/
def convertersFor (policy : Policy) (term : Term) : List TermConverter :=
  let keys : List FunctorKey :=
    match term.functor?, term.arity? with
    | some functor, some arity =>
        policy.functorOrder.reverse.filter fun key => keyMatches key functor arity
    | _, _ => []
  (keys.filterMap fun key => policy.functorConverters.lookup key)
    ++ term.termClass.lineage.filterMap fun termClass =>
      policy.classConverters.lookup termClass

/-- Converts a term whose parts have been converted; a variable has no value. -/
def valueOf (policy : Policy) (term : Term) (parts : List (Except ConversionError Value)) :
    Except ConversionError Value :=
  if term.isVariable then .ok .null
  else
    match askConverters term parts (policy.convertersFor term) with
    | .error cause => .error cause
    | .ok (some value) => .ok value
    | .ok none => .error (.noConverter s!"{term.termClass.label} term `{term.text}`")

mutual
/-- The term that stands for a value; without a value it is the anonymous variable. -/
def toTerm (policy : Policy) : Value → Except ConversionError Term
  | .null => .ok .anonymous
  | .int number => policy.termOf (.int number) []
  | .float number => policy.termOf (.float number) []
  | .string text => policy.termOf (.string text) []
  | .term inner => policy.termOf (.term inner) []
  | .object host => policy.termOf (.object host) []
  | .list items => policy.termOf (.list items) (policy.toTerms items)
  | .array items => policy.termOf (.array items) (policy.toTerms items)
  | .compound functor args =>
      policy.termOf (.compound functor args) (policy.toTerms args)

def toTerms (policy : Policy) : List Value → List (Except ConversionError Term)
  | [] => []
  | value :: values => policy.toTerm value :: policy.toTerms values
end

mutual
def toHost (policy : Policy) : Term → Except ConversionError Value
  | .atom name => policy.valueOf (.atom name) []
  | .integer value => policy.valueOf (.integer value) []
  | .float value => policy.valueOf (.float value) []
  | .var name => policy.valueOf (.var name) []
  | .list items => policy.valueOf (.list items) (policy.toHosts items)
  | .compound functor args =>
      policy.valueOf (.compound functor args) (policy.toHosts args)

def toHosts (policy : Policy) : List Term → List (Except ConversionError Value)
  | [] => []
  | term :: terms => policy.toHost term :: policy.toHosts terms
end

def toHostAs (policy : Policy) (type : HostType) (term : Term) :
    Except ConversionError type.Carrier := do
  type.read (← policy.toHost term)

def functor (term : Term) : Except ConversionError String :=
  match term.functor? with
  | some functor => .ok functor
  | none => .error (.notCompound term.text)

def arity (term : Term) : Except ConversionError Nat :=
  match term.arity? with
  | some arity => .ok arity
  | none => .error (.notCompound term.text)

def argument (term : Term) (index : Nat) : Except ConversionError Term := do
  let arity ← arity term
  match term.args[index]? with
  | some arg => .ok arg
  | none => .error (.argumentIndex index arity)

def summary (policy : Policy) : String :=
  let tags := (policy.objectConverters.map fun entry => entry.1.name).mergeSort
  Text.Summary.record "ConversionPolicy" [
    ("object_converters", Text.Summary.texts tags),
    ("term_converters", toString policy.classConverters.length),
    ("functor_converters", Text.Summary.texts policy.functorOrder)] false

end Policy

end HornQuery
