import HornQuery.Toml.Moment

/-! The values of TOML, and the rules by which a document adds to its tables. -/

namespace HornQuery

/-- How a table came about, which decides what may still be added to it. -/
inductive TableOrigin where
  | header
  | path
  | dotted
  | inline
deriving DecidableEq

inductive Toml where
  | string (text : String)
  | integer (value : Int)
  | float (value : Float)
  | bool (value : Bool)
  | moment (value : HornQuery.Toml.Moment)
  | array (items : List Toml)
  | table (origin : TableOrigin) (entries : List (String × Toml))
  /-- The tables that repeated headers of one name have opened, the newest last. -/
  | tables (elements : List (List (String × Toml)))
deriving Inhabited

namespace Toml

abbrev Entries := List (String × Toml)

def replace (name : String) (value : Toml) (entries : Entries) : Entries :=
  entries.map fun entry => if entry.1 = name then (name, value) else entry

/-- Changes the entries that a name leads to: those of a table that headers and dotted keys may
enter, or of the newest of several tables. -/
def changeInside? (change : Entries → Option Entries) : Toml → Option Toml
  | .table origin entries =>
      if origin = .inline then none else (change entries).map (.table origin)
  | .tables elements => do
      let newest ← elements.getLast?
      let changed ← change newest
      pure (.tables (elements.dropLast ++ [changed]))
  | _ => none

/-- Changes the entries at the path of a header, making the tables on the way that there are
not yet. -/
def changeAt? (change : Entries → Option Entries) : List String → Entries → Option Entries
  | [], entries => change entries
  | name :: names, entries =>
      match entries.lookup name with
      | none =>
          (changeAt? change names []).map fun inner => entries ++ [(name, .table .path inner)]
      | some value =>
          (changeInside? (changeAt? change names) value).map fun changed =>
            replace name changed entries

/-- Whether a dotted key may pass a value, as the last before its own name or further up. -/
def admitsDottedKey (isLast : Bool) : Toml → Bool
  | .table .dotted _ => true
  | .table .path _ => !isLast
  | .tables _ => !isLast
  | _ => false

def insert? (value : Toml) : List String → Entries → Option Entries
  | [], _ => none
  | [name], entries =>
      if (entries.lookup name).isSome then none else some (entries ++ [(name, value)])
  | name :: next :: names, entries =>
      match entries.lookup name with
      | none =>
          (insert? value (next :: names) []).map fun inner =>
            entries ++ [(name, .table .dotted inner)]
      | some found =>
          if admitsDottedKey names.isEmpty found then
            (changeInside? (insert? value (next :: names)) found).map fun changed =>
              replace name changed entries
          else none

def openTable? (name : String) (entries : Entries) : Option Entries :=
  match entries.lookup name with
  | none => some (entries ++ [(name, .table .header [])])
  | some (.table .path inner) => some (replace name (.table .header inner) entries)
  | some _ => none

def openElement? (name : String) (entries : Entries) : Option Entries :=
  match entries.lookup name with
  | none => some (entries ++ [(name, .tables [[]])])
  | some (.tables elements) => some (replace name (.tables (elements ++ [[]])) entries)
  | some _ => none

structure Header where
  path : List String
  repeated : Bool

def Header.open? (header : Header) (entries : Entries) : Option Entries := do
  let name ← header.path.getLast?
  changeAt? (if header.repeated then openElement? name else openTable? name)
    header.path.dropLast entries

end Toml

end HornQuery
