import HornQuery.Conversion.Policy

namespace HornQuery.Policy

def allParts (parts : List (Except ConversionError α)) : Except ConversionError (List α) :=
  parts.mapM id

def convertInt : ObjectConverter := fun value _ =>
  match value with
  | .int number => .ok (some (.integer number))
  | _ => .ok none

def convertFloat : ObjectConverter := fun value _ =>
  match value with
  | .float number => .ok (some (.float number))
  | _ => .ok none

/-- Strings become atoms, named by the string after a change. -/
def convertString (change : String → String) : ObjectConverter := fun value _ =>
  match value with
  | .string text => .ok (some (.atom (change text)))
  | _ => .ok none

def convertSequence : ObjectConverter := fun value parts =>
  match value with
  | .list _ => (allParts parts).map fun terms => some (.list terms)
  | .array _ => (allParts parts).map fun terms => some (.list terms)
  | _ => .ok none

/-- A compound without arguments becomes an atom. -/
def convertCompound : ObjectConverter := fun value parts =>
  match value with
  | .compound functor _ => (allParts parts).map fun terms => some (Term.apply functor terms)
  | _ => .ok none

def convertTerm : ObjectConverter := fun value _ =>
  match value with
  | .term inner => .ok (some inner)
  | _ => .ok none

def hostInteger : TermConverter := fun term _ =>
  match term with
  | .integer value => .ok (some (.int value))
  | _ => .ok none

def hostFloat : TermConverter := fun term _ =>
  match term with
  | .float value => .ok (some (.float value))
  | _ => .ok none

def hostAtom : TermConverter := fun term _ =>
  match term with
  | .atom name => .ok (some (.string name))
  | _ => .ok none

def hostList : TermConverter := fun term parts =>
  match term with
  | .list _ => (allParts parts).map fun values => some (.list values)
  | _ => .ok none

def hostCompound : TermConverter := fun term parts =>
  match term with
  | .compound functor _ => (allParts parts).map fun values => some (.compound functor values)
  | _ => .ok none

def standard : Policy where
  types := .builtIn
  objectConverters := [
    (.term, convertTerm),
    (.compound, convertCompound),
    (.array, convertSequence),
    (.list, convertSequence),
    (.string, convertString id),
    (.float, convertFloat),
    (.int, convertInt)]
  classConverters := [
    (.compound, hostCompound),
    (.list, hostList),
    (.atom, hostAtom),
    (.float, hostFloat),
    (.integer, hostInteger)]
  functorConverters := []
  functorOrder := []

def stripQuoteLayer (text : String) : String :=
  match text.toList with
  | '\x27' :: rest =>
      if rest.getLast? = some '\x27' then String.ofList rest.dropLast else text
  | _ => text

/-- A string already between apostrophes names the same atom as the string without them. -/
def swi : Policy :=
  standard.registerObject .string (convertString stripQuoteLayer)

def problog : Policy := standard

end HornQuery.Policy
