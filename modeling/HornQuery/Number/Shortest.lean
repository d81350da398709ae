import HornQuery.Number.Parts

namespace HornQuery.Number

/-- Where a magnitude half-way between two decimal numbers goes. -/
inductive Tie where
  | up
  | even
deriving DecidableEq

def onGrid (bits : Nat) (exponent : Int) : Nat × Nat :=
  if 0 ≤ exponent then
    (binary64.units bits, Nat.pow 2 binary64.unitPlaces * Nat.pow 10 exponent.toNat)
  else
    (binary64.units bits * Nat.pow 10 (-exponent).toNat, Nat.pow 2 binary64.unitPlaces)

/-- The least `p` for which a positive magnitude is below `10 ^ p`. The smallest one has its
first digit 324 places after the point. -/
def decimalPoint (bits : Nat) : Int :=
  let scaled := binary64.units bits * Nat.pow 10 324 / Nat.pow 2 binary64.unitPlaces
  (digitCount scaled : Int) - 324

def readsBack (bits : Nat) (number : Decimal) : Bool :=
  binary64.ofDecimal number == bits

/-- The neighbour on a grid that reads back, the nearer one if both do. -/
def neighbour? (tie : Tie) (bits : Nat) (exponent : Int) : Option Decimal :=
  let (numerator, denominator) := onGrid bits exponent
  let low : Decimal := ⟨numerator / denominator, exponent⟩
  let high : Decimal := ⟨numerator / denominator + 1, exponent⟩
  let remainder := numerator % denominator
  match readsBack bits low, readsBack bits high with
  | true, true =>
      if 2 * remainder < denominator then some low
      else if denominator < 2 * remainder then some high
      else
        match tie with
        | .up => some high
        | .even => if low.digits % 2 = 0 then some low else some high
  | true, false => some low
  | false, true => some high
  | false, false => none

def expansion (bits : Nat) : Decimal :=
  ⟨binary64.units bits * Nat.pow 5 binary64.unitPlaces, -(binary64.unitPlaces : Int)⟩

/-- Seventeen digits always suffice, so the whole expansion is never reached; it stands here
because it reads back without an argument about the grids. -/
def shortest (tie : Tie) (bits : Nat) : Decimal :=
  let point := decimalPoint bits
  let found := (List.range 17).findSome? fun n =>
    neighbour? tie bits (point - (n + 1 : Nat))
  found.getD (expansion bits)

end HornQuery.Number
