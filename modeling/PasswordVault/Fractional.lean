/-!
# Numbers in double precision

No operation of the library needs a number with a fractional part, but callers hand such numbers
in, and the library compares them with whole ones before it refuses them. A finite number is kept
as an exact multiple of the least positive one, so that every comparison is one of naturals.

## Main definitions

- `Fractional` — the numbers
- `Fractional.ofQuotient`, `Fractional.ofDecimal` — the number nearest to an exact one
- `Fractional.compareInt?` — how a number compares with a whole one

## Design notes

Rounding goes to the nearest number, and halfway cases to the one with an even significand. Where
the significand has its full 53 digits, the unit in the last place is a power of two of the least
positive number; below that it is the least positive number itself. Both cases are one formula.
-/

namespace PasswordVault

/-- A number in double precision. -/
inductive Fractional
  | notANumber
  | infinite (negative : Bool)
  /-- A finite number by its sign and its magnitude, counted in the least positive number. -/
  | finite (negative : Bool) (units : Nat)
  deriving DecidableEq, Repr

namespace Fractional

/-- The least positive number is two to the power of minus `unitShift`. -/
def unitShift : Nat := 1074

def precision : Nat := 53

/-- The least magnitude that is too large for a finite number. -/
def overflowUnits : Nat := 1 <<< (1024 + unitShift)

/-- The whole number nearest to a quotient, and the even one of two that are equally near. -/
def roundDiv (num den : Nat) : Nat :=
  let quotient := num / den
  match compare (2 * (num % den)) den with
  | .lt => quotient
  | .gt => quotient + 1
  | .eq => quotient + quotient % 2

/-- The representable magnitude nearest to a quotient, both counted in the least positive number.
The digits that the quotient has beyond `precision` are rounded away. -/
def roundUnits (num den : Nat) : Nat :=
  let excess := (num / den).log2 + 1 - precision
  roundDiv num (den <<< excess) <<< excess

/-- The number with a magnitude, or an infinite one if the magnitude is too large. -/
def ofUnits (negative : Bool) (units : Nat) : Fractional :=
  if overflowUnits ≤ units then .infinite negative else .finite negative units

def ofQuotient (negative : Bool) (num den : Nat) : Fractional :=
  ofUnits negative (roundUnits (num <<< unitShift) den)

/-- No finite number but zero has a decimal order of magnitude beyond this one. -/
def maxOrder : Nat := 400

/-- The number nearest to `digits` times ten to the power of `exponent`. -/
def ofDecimal (negative : Bool) (digits : Nat) (exponent : Int) : Fractional :=
  let order := exponent + (Nat.toDigits 10 digits).length
  if digits = 0 ∨ order < -maxOrder then .finite negative 0
  else if (maxOrder : Int) < order then .infinite negative
  else ofQuotient negative (digits * Nat.pow 10 exponent.toNat) (Nat.pow 10 (-exponent).toNat)

def isZero : Fractional → Bool
  | .finite _ units => units == 0
  | _ => false

/-- How a number compares with a whole one; what is not a number compares with none. -/
def compareInt? (x : Fractional) (n : Int) : Option Ordering :=
  match x with
  | .notANumber => none
  | .infinite negative => some (if negative then .lt else .gt)
  | .finite negative units =>
    let magnitude : Int := units
    let one : Nat := 1 <<< unitShift
    some (compare (if negative then -magnitude else magnitude) (n * one))

end Fractional

end PasswordVault
