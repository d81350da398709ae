import HornQuery.Number.Numeral
import HornQuery.Term.Token.Escape
import HornQuery.Text.Lines

namespace HornQuery.Toml

def groupedDigits? (isDigitOf : Char → Bool) (text : List Char) : Option (List Char) :=
  let groups := Text.pieces '_' text
  if groups.all fun group => !group.isEmpty && group.all isDigitOf then some groups.flatten
  else none

def hasLeadingZero (digits : List Char) : Bool :=
  digits.head? = some '0' && 1 < digits.length

def decimalInteger? (text : List Char) : Option Int := do
  let (negative, unsigned) :=
    match text with
    | '-' :: rest => (true, rest)
    | '+' :: rest => (false, rest)
    | rest => (false, rest)
  let digits ← groupedDigits? Number.isDigit unsigned
  guard (!hasLeadingZero digits)
  let size : Int := Number.ofDigits digits
  pure (if negative then -size else size)

def integer? (text : List Char) : Option Int := do
  let value ←
    match text with
    | '0' :: 'x' :: rest =>
        (groupedDigits? Token.isHexDigit rest).map fun digits => (Token.ofRadix 16 digits : Int)
    | '0' :: 'o' :: rest =>
        (groupedDigits? Token.isOctalDigit rest).map fun digits => (Token.ofRadix 8 digits : Int)
    | '0' :: 'b' :: rest =>
        (groupedDigits? Token.isBinaryDigit rest).map fun digits => (Token.ofRadix 2 digits : Int)
    | rest => decimalInteger? rest
  guard (Int64.minValue.toInt ≤ value ∧ value ≤ Int64.maxValue.toInt)
  pure value

/-- A number with a fraction or an exponent; digits stand on both sides of the point. What is
too large has to say so by its word. -/
def float? (text : List Char) : Option Float := do
  let unsigned :=
    match text with
    | '-' :: rest => rest
    | '+' :: rest => rest
    | rest => rest
  if unsigned = "inf".toList || unsigned = "nan".toList then Number.parse? text
  else
    let isMark := fun (c : Char) => c = 'e' || c = 'E'
    let mantissa := unsigned.takeWhile fun c => !isMark c
    let exponent := unsigned.drop mantissa.length
    let parts ← (Text.pieces '.' mantissa).mapM (groupedDigits? Number.isDigit)
    guard (parts.length ≤ 2 && (parts.length = 2 || !exponent.isEmpty))
    guard (!hasLeadingZero (parts.headD []))
    let unsignedExponent :=
      match exponent.drop 1 with
      | '-' :: rest => rest
      | '+' :: rest => rest
      | rest => rest
    guard (exponent.isEmpty || (groupedDigits? Number.isDigit unsignedExponent).isSome)
    (Number.parse? (text.filter (· ≠ '_'))).filter (· != Number.infinity)

end HornQuery.Toml
