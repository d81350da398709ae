import HornQuery.Number.Shortest

namespace HornQuery.Number

structure Layout where
  /-- Whether a number whose first digit has this decimal exponent is written positionally. -/
  positional : Int → Bool
  /-- Whether a whole number in positional notation gets `.0`. -/
  pointAfterWhole : Bool
  /-- Whether a mantissa of one digit gets `.0`. -/
  pointAfterMantissa : Bool
  /-- Whether a positive exponent gets a plus sign. -/
  plusSign : Bool
  tie : Tie
  infinity : String
  notANumber : String

def significantDigits (n : Nat) : List Char :=
  ((Nat.toDigits 10 n).reverse.dropWhile (· = '0')).reverse

namespace Layout

variable (layout : Layout)

def writePositional (digits : List Char) (exponent : Int) : List Char :=
  if exponent < 0 then
    '0' :: '.' :: (List.replicate (-exponent - 1).toNat '0' ++ digits)
  else
    let whole := exponent.toNat + 1
    if digits.length ≤ whole then
      digits ++ List.replicate (whole - digits.length) '0'
        ++ (if layout.pointAfterWhole then ['.', '0'] else [])
    else
      digits.take whole ++ '.' :: digits.drop whole

def writeExponent (digits : List Char) (exponent : Int) : List Char :=
  let mantissa :=
    match digits with
    | [] => []
    | [digit] => if layout.pointAfterMantissa then [digit, '.', '0'] else [digit]
    | digit :: others => digit :: '.' :: others
  let sign := if exponent < 0 then ['-'] else if layout.plusSign then ['+'] else []
  mantissa ++ 'e' :: (sign ++ Nat.toDigits 10 exponent.natAbs)

def writeMagnitude (bits : Nat) : List Char :=
  if bits = 0 then
    if layout.pointAfterWhole then ['0', '.', '0'] else ['0']
  else
    let number := shortest layout.tie bits
    let exponent := (digitCount number.digits : Int) + number.exponent - 1
    let digits := significantDigits number.digits
    if layout.positional exponent then layout.writePositional digits exponent
    else layout.writeExponent digits exponent

def write (x : Float) : List Char :=
  let bits := magnitudeBits x
  if binary64.infinityBits < bits then layout.notANumber.toList
  else
    let magnitude :=
      if bits = binary64.infinityBits then layout.infinity.toList
      else layout.writeMagnitude bits
    if isNegative x then '-' :: magnitude else magnitude

end Layout

/-- A number as a listing of values shows it: the shortest digits, positional from `0.0001` up
to below `10 ^ 16`. -/
def listing : Layout where
  positional exponent := -4 ≤ exponent && exponent < 16
  pointAfterWhole := true
  pointAfterMantissa := false
  plusSign := false
  tie := .up
  infinity := "inf"
  notANumber := "NaN"

/-- A number as a report for people shows it: always positional, whole numbers bare. -/
def plain : Layout where
  positional _ := true
  pointAfterWhole := false
  pointAfterMantissa := false
  plusSign := false
  tie := .up
  infinity := "inf"
  notANumber := "NaN"

end HornQuery.Number
