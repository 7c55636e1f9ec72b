import Rowstore.Decimal.Basic

/-
  This file defines the shortest decimal that reads back to
  a given binary number.

  A binary number stands for the interval of reals that
  round to it, and a decimal in that interval reads back to
  it.  Decimals are tried with one digit, then with two, and
  so on; with a given number of digits only the two
  neighbours of the binary number on that grid can be in the
  interval and closest.

  Key definitions include:
    * `Binary`
    * `Binary.ofFloat`
    * `Binary.ReadsBack`
    * `Tie`
    * `Decimal.shortest`
-/

namespace Rowstore

------------------------------------------------------------
-- Binary Numbers
------------------------------------------------------------

/-
The magnitude `significand * 2 ^ exponent` of a finite binary
number.  Just above a power of two, the gap to the number
below is half the gap to the number above.
-/
structure Binary where
  significand : Nat
  exponent : Int
  narrowBelow : Bool
deriving DecidableEq, Repr

namespace Binary

/- The least significand of a number that is not subnormal. -/
def leastNormal : Nat :=
  Nat.pow 2 52

/- The magnitude of a finite number, from its bits. -/
def ofFloat (x : Float) : Binary :=
  let bits := x.toBits.toNat
  let e : Nat := bits / leastNormal % 2048
  let f : Nat := bits % leastNormal
  if e = 0 then
    { significand := f, exponent := -1074, narrowBelow := false }
  else
    { significand := leastNormal + f
      exponent := (e : Int) - 1075
      narrowBelow := f == 0 && 1 < e }

/- Compare `a * 10 ^ i` with `n * 2 ^ j`. -/
def compareScaled
    (a : Nat)
    (i : Int)
    (n : Nat)
    (j : Int) : Ordering :=
  compare
    (a * Nat.pow 10 i.toNat * Nat.pow 2 (-j).toNat)
    (n * Nat.pow 2 j.toNat * Nat.pow 10 (-i).toNat)

/-
The decimal `digits * 10 ^ exponent` lies among the reals
that round to `x`.  The ends of the interval round to the
even significand.
-/
def readsBack
    (x : Binary)
    (digits : Nat)
    (exponent : Int) : Bool :=
  let low :=
    if x.narrowBelow then 4 * x.significand - 1
    else 4 * x.significand - 2
  let high := 4 * x.significand + 2
  let even := x.significand % 2 == 0
  let atLow := compareScaled digits exponent low (x.exponent - 2)
  let atHigh := compareScaled digits exponent high (x.exponent - 2)
  (atLow == .gt || (even && atLow == .eq)) &&
    (atHigh == .lt || (even && atHigh == .eq))

/- The least `k` with `x < 10 ^ k`, from an estimate that is off by little. -/
def scale (x : Binary) : Int :=
  let estimate : Int :=
    Int.fdiv (((x.significand.log2 : Int) + x.exponent) * 30103) 100000
  let fits (k : Int) : Bool :=
    compareScaled 1 k x.significand x.exponent == .gt
  match [estimate - 1, estimate, estimate + 1, estimate + 2].find? fits with
  | some k => k
  | none => estimate + 3

end Binary

------------------------------------------------------------
-- Shortest Decimals
------------------------------------------------------------

/- Which of two equally close decimals is taken. -/
inductive Tie where
| toEven
| up
deriving DecidableEq, Repr

namespace Decimal

/- The better of the two neighbours of `x` on the grid of `10 ^ k`, if one reads back. -/
def onGrid?
    (tie : Tie)
    (x : Binary)
    (k : Int) : Option (Nat × Int) :=
  let num :=
    x.significand * Nat.pow 2 x.exponent.toNat
      * Nat.pow 10 (-k).toNat
  let den := Nat.pow 2 (-x.exponent).toNat * Nat.pow 10 k.toNat
  let below := num / den
  let above := below + 1
  match x.readsBack below k, x.readsBack above k with
  | false, false => none
  | true, false => some (below, k)
  | false, true => some (above, k)
  | true, true =>
    match compare (2 * num) ((below + above) * den), tie with
    | .lt, _ => some (below, k)
    | .gt, _ => some (above, k)
    | .eq, .up => some (above, k)
    | .eq, .toEven => some (if below % 2 = 0 then below else above, k)

/- Move trailing zeros of the digits into the exponent. -/
def stripZeros : Nat → Nat → Int → Nat × Int
| 0, n, k => (n, k)
| fuel + 1, n, k =>
  if n ≠ 0 && n % 10 = 0 then stripZeros fuel (n / 10) (k + 1)
  else (n, k)

/- The exact value of a binary number as a decimal. -/
def exact (x : Binary) : Nat × Int :=
  if 0 ≤ x.exponent then (x.significand * Nat.pow 2 x.exponent.toNat, 0)
  else (x.significand * Nat.pow 5 x.exponent.natAbs, x.exponent)

/- The digits and exponent of the shortest decimal that reads back to `x`. -/
def shortestOf
    (tie : Tie)
    (x : Binary) : Nat × Int :=
  let grids := (List.range 17).map fun n => x.scale - (n + 1 : Nat)
  let (n, k) := (grids.findSome? (onGrid? tie x)).getD (exact x)
  stripZeros (digitsText n).length n k

/- The shortest decimal that reads back to a finite number. -/
def shortest
    (tie : Tie)
    (x : Float) : Decimal :=
  let b := Binary.ofFloat x
  let negative := isNegative x
  if b.significand = 0 then
    { negative := negative, digits := 0, exponent := 0 }
  else
    let (n, k) := shortestOf tie b
    { negative := negative, digits := n, exponent := k }

end Decimal

end Rowstore
