/-
  This file defines signed decimals, digit sequences, the
  binary number nearest to a decimal, and the plain written
  form of a decimal.

  Key definitions include:
    * `Decimal`
    * `Decimal.digitsText`
    * `Decimal.digitsValue`
    * `Decimal.toFloat`
    * `Decimal.plainText`
    * `Decimal.ofText?`
-/

namespace Rowstore

/- A signed decimal: the sign, the digits as a number, and a power of ten. -/
structure Decimal where
  negative : Bool
  digits : Nat
  exponent : Int
deriving DecidableEq, Repr

namespace Decimal

------------------------------------------------------------
-- Digit Sequences
------------------------------------------------------------

/- The basic digits are `0` to `9`. -/
def isDigit (c : Char) : Bool :=
  '0' ≤ c && c ≤ '9'

/- The value of one digit. -/
def digitValue (c : Char) : Nat :=
  c.toNat - '0'.toNat

/- The value of a digit sequence read from the left. -/
def digitsValue (s : List Char) : Nat :=
  s.foldl (fun n c => 10 * n + digitValue c) 0

/- The digits of a number, without leading zeros. -/
def digitsText (n : Nat) : List Char :=
  Nat.toDigits 10 n

/- The digits of a number, padded with zeros to a width. -/
def paddedText
    (width : Nat)
    (n : Nat) : List Char :=
  let s := digitsText n
  List.replicate (width - s.length) '0' ++ s

------------------------------------------------------------
-- Nearest Binary Number
------------------------------------------------------------

/- Positive infinity. -/
def infinity : Float :=
  Float.ofBits 0x7FF0000000000000

/- The sign bit of a number is set; a zero may have it too. -/
def isNegative (x : Float) : Bool :=
  Nat.pow 2 63 ≤ x.toBits.toNat

/-
The binary number nearest to a decimal.  Decimals beyond the
range of binary numbers are settled without computing their
power of ten.
-/
def toFloat (d : Decimal) : Float :=
  let size : Int := (digitsText d.digits).length
  let magnitude : Float :=
    if d.digits = 0 then 0
    else if 310 < d.exponent + size then infinity
    else if d.exponent + size < -330 then 0
    else Float.ofScientific d.digits (d.exponent < 0) d.exponent.natAbs
  if d.negative then -magnitude else magnitude

------------------------------------------------------------
-- Plain Written Form
------------------------------------------------------------

/- Digits with the point set so that `scale` digits follow it. -/
def placePoint
    (digits : List Char)
    (scale : Nat) : List Char :=
  let padded :=
    List.replicate (scale + 1 - digits.length) '0' ++ digits
  let whole := padded.length - scale
  padded.take whole ++ '.' :: padded.drop whole

/- The written form without an exponent, with a point only before further digits. -/
def plainText (d : Decimal) : List Char :=
  let s := digitsText d.digits
  let body :=
    if 0 ≤ d.exponent then
      if d.digits = 0 then s
      else s ++ List.replicate d.exponent.toNat '0'
    else placePoint s d.exponent.natAbs
  if d.negative then '-' :: body else body

------------------------------------------------------------
-- Reading
------------------------------------------------------------

/- Split off an optional sign; `true` stands for a minus sign. -/
def splitSign : List Char → Bool × List Char
| '-' :: s => (true, s)
| '+' :: s => (false, s)
| s => (false, s)

/- Split a text into its longest run of digits and the rest. -/
def splitDigits (s : List Char) : List Char × List Char :=
  (s.takeWhile isDigit, s.dropWhile isDigit)

/- Read an exponent: nothing, or a mark, an optional sign and digits to the end. -/
def exponent? : List Char → Option Int
| [] => some 0
| c :: s =>
  if c = 'e' || c = 'E' then
    let (negative, t) := splitSign s
    let (digits, rest) := splitDigits t
    if digits.isEmpty || !rest.isEmpty then none
    else
      let n : Int := digitsValue digits
      some (if negative then -n else n)
  else none

/-
Read a decimal that takes up a whole text: an optional sign,
digits with an optional point among or beside them, and an
optional exponent.
-/
def ofText? (s : List Char) : Option Decimal :=
  let (negative, t) := splitSign s
  let (whole, afterWhole) := splitDigits t
  let (fraction, rest) :=
    match afterWhole with
    | '.' :: u => splitDigits u
    | u => ([], u)
  if whole.isEmpty && fraction.isEmpty then none
  else
    (exponent? rest).map fun e =>
      { negative := negative
        digits := digitsValue (whole ++ fraction)
        exponent := e - fraction.length }

end Decimal

end Rowstore
