/-! Binary floating-point formats in exact arithmetic. -/

namespace HornQuery.Number

/-- How many bits the fraction has, how many binary places the unit lies after the point, and
the bit pattern of infinity. -/
structure Format where
  fractionBits : Nat
  unitPlaces : Nat
  infinityBits : Nat

def binary64 : Format := ⟨52, 1074, 0x7ff0000000000000⟩

def binary32 : Format := ⟨23, 149, 0x7f800000⟩

namespace Format

variable (format : Format)

def significand (bits : Nat) : Nat :=
  let hidden := Nat.pow 2 format.fractionBits
  if bits < hidden then bits else hidden + bits % hidden

def shift (bits : Nat) : Nat :=
  bits / Nat.pow 2 format.fractionBits - 1

def units (bits : Nat) : Nat :=
  format.significand bits * Nat.pow 2 (format.shift bits)

end Format

/-- The whole number nearest to a quotient; a tie goes to the even neighbour. -/
def roundHalfEven (numerator denominator : Nat) : Nat :=
  let quotient := numerator / denominator
  let remainder := numerator % denominator
  if 2 * remainder < denominator then quotient
  else if denominator < 2 * remainder then quotient + 1
  else if quotient % 2 = 0 then quotient
  else quotient + 1

namespace Format

variable (format : Format)

/-- The bit pattern nearest to a quotient of units. A fraction that rounds up to the next
power of two carries into the exponent by itself. -/
def nearest (numerator denominator : Nat) : Nat :=
  let shift := Nat.log2 (numerator / denominator) - format.fractionBits
  let fraction := roundHalfEven numerator (denominator * Nat.pow 2 shift)
  min (shift * Nat.pow 2 format.fractionBits + fraction) format.infinityBits

end Format

def digitCount (n : Nat) : Nat :=
  (Nat.toDigits 10 n).length

/-- The number `digits · 10 ^ exponent`. -/
structure Decimal where
  digits : Nat
  exponent : Int
deriving DecidableEq, Inhabited, Repr

/-- The bit pattern nearest to a decimal number. Numbers of more than 400 digits before the
point, or with more than 400 zeros after it, are out of every range and are not computed. -/
def Format.ofDecimal (format : Format) (number : Decimal) : Nat :=
  if number.digits = 0 then 0
  else
    let top := (digitCount number.digits : Int) + number.exponent
    if 400 < top then format.infinityBits
    else if top < -400 then 0
    else if 0 ≤ number.exponent then
      let whole := number.digits * Nat.pow 10 number.exponent.toNat
      format.nearest (whole * Nat.pow 2 format.unitPlaces) 1
    else
      format.nearest (number.digits * Nat.pow 2 format.unitPlaces)
        (Nat.pow 10 (-number.exponent).toNat)

end HornQuery.Number
