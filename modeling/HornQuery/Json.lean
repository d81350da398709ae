import HornQuery.Number.Layout
import HornQuery.Text.Lines

/-! JSON documents and their two written forms: compact, and indented by two blanks a level. -/

namespace HornQuery

inductive Json where
  | null
  | bool (value : Bool)
  | integer (value : Int)
  | number (value : Float)
  | string (value : String)
  | array (items : List Json)
  | object (entries : List (String × Json))
deriving Inhabited

namespace Json

def ofEntries (entries : List (String × Json)) : Json :=
  .object (entries.mergeSort fun left right => left.1 ≤ right.1)

/-- Numbers are positional from `0.00001` up to below `10 ^ 16`; other exponents carry their
sign. -/
def numberLayout : Number.Layout where
  positional exponent := -5 ≤ exponent && exponent < 16
  pointAfterWhole := true
  pointAfterMantissa := false
  plusSign := true
  tie := .even
  infinity := "null"
  notANumber := "null"

def escapeCharacter (c : Char) : List Char :=
  if c = '\x22' then ['\\', '\x22']
  else if c = '\\' then ['\\', '\\']
  else if c = '\n' then ['\\', 'n']
  else if c = '\r' then ['\\', 'r']
  else if c = '\t' then ['\\', 't']
  else if c = '\x08' then ['\\', 'b']
  else if c = '\x0c' then ['\\', 'f']
  else if c.toNat < 0x20 then
    let digits := Nat.toDigits 16 c.toNat
    '\\' :: 'u' :: (List.replicate (4 - digits.length) '0' ++ digits)
  else [c]

def writeString (text : String) : List Char :=
  '\x22' :: (text.toList.flatMap escapeCharacter ++ ['\x22'])

def writeInteger (n : Int) : List Char :=
  (toString n).toList

mutual
def compact : Json → List Char
  | .null => "null".toList
  | .bool value => (if value then "true" else "false").toList
  | .integer value => writeInteger value
  | .number value => numberLayout.write value
  | .string value => writeString value
  | .array items => '[' :: (Text.joinWith [','] (compactItems items) ++ [']'])
  | .object entries =>
      '\x7b' :: (Text.joinWith [','] (compactEntries entries) ++ ['\x7d'])

def compactItems : List Json → List (List Char)
  | [] => []
  | item :: items => item.compact :: compactItems items

def compactEntries : List (String × Json) → List (List Char)
  | [] => []
  | (key, value) :: entries =>
      (writeString key ++ ':' :: value.compact) :: compactEntries entries
end

def newLine (level : Nat) : List Char :=
  '\n' :: List.replicate (2 * level) ' '

def block (level : Nat) (opening closing : Char) (pieces : List (List Char)) : List Char :=
  if pieces.isEmpty then [opening, closing]
  else
    let separator := ',' :: newLine (level + 1)
    opening :: (newLine (level + 1) ++ Text.joinWith separator pieces
      ++ newLine level ++ [closing])

mutual
def pretty (level : Nat) : Json → List Char
  | .array items => block level '[' ']' (prettyItems (level + 1) items)
  | .object entries => block level '\x7b' '\x7d' (prettyEntries (level + 1) entries)
  | .null => "null".toList
  | .bool value => (if value then "true" else "false").toList
  | .integer value => writeInteger value
  | .number value => numberLayout.write value
  | .string value => writeString value

def prettyItems (level : Nat) : List Json → List (List Char)
  | [] => []
  | item :: items => item.pretty level :: prettyItems level items

def prettyEntries (level : Nat) : List (String × Json) → List (List Char)
  | [] => []
  | (key, value) :: entries =>
      (writeString key ++ ':' :: ' ' :: value.pretty level) :: prettyEntries level entries
end

end Json

end HornQuery
