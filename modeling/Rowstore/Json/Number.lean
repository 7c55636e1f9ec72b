import Rowstore.Decimal.Shortest
import Rowstore.Json.Basic

/-
  This file defines how binary numbers are written in
  documents and how they are read back.

  Writing takes the shortest decimal that reads back.
  Reading keeps the digits that fit an unsigned word of 64
  bits and scales them by a power of ten, rounding after each
  operation, so the last bit of what is read can differ from
  the nearest binary number.

  Key definitions include:
    * `Json.Numeral.ofDecimal`
    * `Json.ofFloat`
    * `Json.Numeral.value?`
-/

namespace Rowstore.Json

------------------------------------------------------------
-- Writing
------------------------------------------------------------

namespace Numeral

/-
  The written form of a decimal: positional with at least one
  digit after the point while the leading digit stands from
  five places after the point to sixteen before it, and with
  an exponent otherwise.
-/
def ofDecimal (d : Decimal) : Numeral :=
  let s := Decimal.digitsText d.digits
  let point : Int := s.length + d.exponent
  if 0 ≤ d.exponent ∧ point ≤ 16 then
    { negative := d.negative
      whole := s ++ List.replicate d.exponent.toNat '0'
      fraction := ['0']
      exponent := none }
  else if 0 < point ∧ point ≤ 16 then
    { negative := d.negative
      whole := s.take point.toNat
      fraction := s.drop point.toNat
      exponent := none }
  else if -5 < point ∧ point ≤ 0 then
    { negative := d.negative
      whole := ['0']
      fraction := List.replicate (-point).toNat '0' ++ s
      exponent := none }
  else
    { negative := d.negative
      whole := s.take 1
      fraction := s.drop 1
      exponent :=
        some (point - 1 < 0, Decimal.digitsText (point - 1).natAbs) }

end Numeral

/- The document of a binary number; one that is not finite has none and is written as null. -/
def ofFloat (x : Float) : Json :=
  if x.isFinite then
    number (Numeral.ofDecimal (Decimal.shortest .toEven x))
  else null

------------------------------------------------------------
-- Reading
------------------------------------------------------------

namespace Numeral

/- The largest significand, the largest unsigned word of 64 bits. -/
def maxSignificand : Nat :=
  18446744073709551615

/- Append digits to a significand while it fits; what is left are the digits that did not. -/
def accumulate
    (significand : Nat) : List Char → Nat × List Char
| [] => (significand, [])
| c :: s =>
  let next := 10 * significand + Decimal.digitValue c
  if maxSignificand < next then (significand, c :: s)
  else accumulate next s

/- The power of ten as the nearest binary number. -/
def powerOfTen (n : Nat) : Float :=
  Float.ofScientific 1 false n

/- The largest power of ten that is used in one operation. -/
def maxPower : Nat := 308

/- Divide by a power of ten, in several steps if it is large. -/
def divideByPower
    (x : Float)
    (n : Nat) : Float :=
  if n ≤ maxPower then x / powerOfTen n
  else if x == 0 then x
  else divideByPower (x / powerOfTen maxPower) (n - maxPower)
termination_by n
decreasing_by
  simp only [maxPower] at *
  omega

/- Multiply by a power of ten; too large a result is none. -/
def multiplyByPower?
    (x : Float)
    (n : Nat) : Option Float :=
  if n ≤ maxPower then
    let y := x * powerOfTen n
    if y.isInf then none else some y
  else if x == 0 then some x
  else none

/- The exponent that is written. -/
def writtenExponent (n : Numeral) : Int :=
  match n.exponent with
  | none => 0
  | some (true, digits) => -(Decimal.digitsValue digits : Int)
  | some (false, digits) => Decimal.digitsValue digits

/- The number that a written form is read as, unless it is too large. -/
def value? (n : Numeral) : Option Float :=
  let (whole, dropped) := accumulate 0 n.whole
  let (significand, unread) := accumulate whole n.fraction
  let used : Int := n.fraction.length - unread.length
  let exponent : Int := dropped.length - used + n.writtenExponent
  let x := Float.ofScientific significand false 0
  let magnitude? :=
    if 0 ≤ exponent then multiplyByPower? x exponent.toNat
    else some (divideByPower x exponent.natAbs)
  magnitude?.map fun y => if n.negative then -y else y

end Numeral

/- The binary number of a document, if it is a number. -/
def float? : Json → Option Float
| number n => n.value?
| _ => none

end Rowstore.Json
