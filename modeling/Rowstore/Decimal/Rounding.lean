import Rowstore.Decimal.Basic

/-
  This file defines rounding to the nearest whole number, and
  rounding to a number of decimal places.

  Key definitions include:
    * `Decimal.roundAway`
    * `Decimal.powerOfTen`
    * `Decimal.roundToPlaces`
-/

namespace Rowstore.Decimal

/- From this magnitude on every number is whole. -/
def wholeFrom : Float :=
  Float.ofScientific 4503599627370496 false 0

/- Round to the nearest whole number; a half goes away from zero. -/
def roundAway (x : Float) : Float :=
  if x.abs < wholeFrom then
    let t := x.abs.toUInt64.toFloat
    let r := if Float.ofScientific 5 true 1 ≤ x.abs - t then t + 1 else t
    if isNegative x then -r else r
  else x

/-
The power `base ^ n` by repeated squaring, each product
rounded: `acc` holds the product of the powers taken so far.
-/
def powerLoop
    (acc base : Float)
    (n : Nat) : Float :=
  let taken := if n % 2 = 1 then acc * base else acc
  if h : n / 2 = 0 then taken
  else powerLoop taken (base * base) (n / 2)
termination_by n
decreasing_by omega

/- The power of ten by repeated squaring, each product rounded. -/
def powerOfTen (n : Nat) : Float :=
  powerLoop 1 10 n

/- Round to a number of decimal places; a number whose scaled value is too large stays. -/
def roundToPlaces
    (places : Nat)
    (x : Float) : Float :=
  let factor := powerOfTen places
  let scaled := x * factor
  if scaled.isFinite then roundAway scaled / factor else x

end Rowstore.Decimal
