import HornQuery.Number.Format

namespace HornQuery.Number

def signBit : Nat := 0x8000000000000000

def isNegative (x : Float) : Bool :=
  signBit ≤ x.toBits.toNat

def magnitudeBits (x : Float) : Nat :=
  x.toBits.toNat % signBit

def ofMagnitude (negative : Bool) (bits : Nat) : Float :=
  Float.ofBits (UInt64.ofNat (if negative then signBit + bits else bits))

def infinity : Float := ofMagnitude false binary64.infinityBits

def notANumber : Float := ofMagnitude false 0x7ff8000000000000

def negate (x : Float) : Float :=
  ofMagnitude (!isNegative x) (magnitudeBits x)

def ofDecimal (negative : Bool) (number : Decimal) : Float :=
  ofMagnitude negative (binary64.ofDecimal number)

def ofInteger (n : Int) : Float :=
  ofDecimal (n < 0) ⟨n.natAbs, 0⟩

/-- The decimal number rounded to single precision, which double precision holds exactly. -/
def ofDecimalSingle (negative : Bool) (number : Decimal) : Float :=
  let bits := binary32.ofDecimal number
  if bits = binary32.infinityBits then ofMagnitude negative binary64.infinityBits
  else
    let finer := Nat.pow 2 (binary64.unitPlaces - binary32.unitPlaces)
    ofMagnitude negative (binary64.nearest (binary32.units bits * finer) 1)

end HornQuery.Number
