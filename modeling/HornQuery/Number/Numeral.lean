import HornQuery.Number.Parts

namespace HornQuery.Number

def isDigit (c : Char) : Bool :=
  '0' ≤ c && c ≤ '9'

def digitValue (c : Char) : Nat :=
  c.toNat - '0'.toNat

def ofDigits (digits : List Char) : Nat :=
  digits.foldl (fun n c => n * 10 + digitValue c) 0

def exponent? (text : List Char) : Option Int :=
  let (negative, digits) :=
    match text with
    | '-' :: rest => (true, rest)
    | '+' :: rest => (false, rest)
    | rest => (false, rest)
  if digits.isEmpty || !digits.all isDigit then none
  else
    let size : Int := ofDigits digits
    some (if negative then -size else size)

def decimal? (text : List Char) : Option Decimal :=
  let whole := text.takeWhile isDigit
  let afterWhole := text.drop whole.length
  let (places, afterPlaces) :=
    match afterWhole with
    | '.' :: rest =>
        let places := rest.takeWhile isDigit
        (places, rest.drop places.length)
    | rest => ([], rest)
  if whole.isEmpty && places.isEmpty then none
  else
    let digits := ofDigits (whole ++ places)
    let scale : Int := -(places.length : Int)
    match afterPlaces with
    | [] => some ⟨digits, scale⟩
    | mark :: rest =>
        if mark = 'e' || mark = 'E' then
          (exponent? rest).map fun exponent => ⟨digits, scale + exponent⟩
        else none

def unsigned? (round : Decimal → Float) (text : List Char) : Option Float :=
  let name := text.map Char.toLower
  if name = "inf".toList || name = "infinity".toList then some infinity
  else if name = "nan".toList then some notANumber
  else (decimal? text).map round

def signed? (round : Decimal → Float) (text : List Char) : Option Float :=
  match text with
  | '-' :: rest => (unsigned? round rest).map negate
  | '+' :: rest => unsigned? round rest
  | rest => unsigned? round rest

def parse? (text : List Char) : Option Float :=
  signed? (ofDecimal false) text

def parseSingle? (text : List Char) : Option Float :=
  signed? (ofDecimalSingle false) text

end HornQuery.Number
