import Rowstore.Value.Basic

/-
  This file defines the comparison of values, which relates
  values of different kinds, and the six comparison
  operators.

  Key definitions include:
    * `Value.looseEq`
    * `Value.looseCompare`
    * `Comparison`
    * `Comparison.holds`
-/

namespace Rowstore

namespace Value

------------------------------------------------------------
-- Comparison of Kinds
------------------------------------------------------------

/- A truth value as a number. -/
def booleanNumber (b : Bool) : Float :=
  if b then 1 else 0

/- Order two numbers; with a NaN there is no order. -/
def compareNumbers (x y : Float) : Option Ordering :=
  if x < y then some .lt
  else if x == y then some .eq
  else if y < x then some .gt
  else none

/- Order two texts by their characters, which is the order of their UTF-8 bytes. -/
def compareTexts : List Char → List Char → Ordering
| [], [] => .eq
| [], _ :: _ => .lt
| _ :: _, [] => .gt
| a :: s, b :: t =>
  if a.toNat < b.toNat then .lt
  else if b.toNat < a.toNat then .gt
  else compareTexts s t

/-
  Order a truth value and a text: as numbers if the text is
  one, and otherwise by the trimmed text in small letters.
-/
def compareBooleanText
    (b : Bool)
    (t : List Char) : Ordering :=
  match parseNumber t with
  | some y => (compareNumbers (booleanNumber b) y).getD .lt
  | none =>
    compareTexts (booleanText b).toList
      (Text.lowerBasic (Text.trim t))

/- Order a number and a text: as numbers if the text is one, and otherwise as texts. -/
def compareNumberText
    (x : Float)
    (t : List Char) : Option Ordering :=
  match parseNumber t with
  | some y => compareNumbers x y
  | none => some (compareTexts (formatNumber x) t)

/- Order a text and a number: as numbers if the text is one, and otherwise as texts. -/
def compareTextNumber
    (t : List Char)
    (x : Float) : Option Ordering :=
  match parseNumber t with
  | some y => compareNumbers y x
  | none => some (compareTexts t (formatNumber x))

/- A number equals a text that denotes it. -/
def numberEqText
    (x : Float)
    (t : List Char) : Bool :=
  match parseNumber t with
  | some y => y == x
  | none => false

/- A truth value equals a text that denotes its number, or its word in any letter case. -/
def booleanEqText
    (b : Bool)
    (t : List Char) : Bool :=
  match parseNumber t with
  | some y => y == booleanNumber b
  | none =>
    Text.sameLetters (Text.trim t) (booleanText b).toList

------------------------------------------------------------
-- Equality And Order
------------------------------------------------------------

/- Equality across kinds; null equals null only. -/
def looseEq : Value → Value → Bool
| null, null => true
| null, _ => false
| _, null => false
| number x, number y => x == y
| text s, text t => s == t
| boolean a, boolean b => a == b
| number x, text t => numberEqText x t.toList
| text t, number x => numberEqText x t.toList
| boolean b, number x => booleanNumber b == x
| number x, boolean b => booleanNumber b == x
| boolean b, text t => booleanEqText b t.toList
| text t, boolean b => booleanEqText b t.toList

/- Order across kinds; null has no order. -/
def looseCompare : Value → Value → Option Ordering
| null, _ => none
| _, null => none
| number x, number y => compareNumbers x y
| text s, text t => some (compareTexts s.toList t.toList)
| boolean a, boolean b => some (compare a.toNat b.toNat)
| number x, text t => compareNumberText x t.toList
| text t, number x => compareTextNumber t.toList x
| boolean b, number x => compareNumbers (booleanNumber b) x
| number x, boolean b => compareNumbers x (booleanNumber b)
| boolean b, text t => some (compareBooleanText b t.toList)
| text t, boolean b => some (compareBooleanText b t.toList).swap

end Value

------------------------------------------------------------
-- Comparison Operators
------------------------------------------------------------

/- The six comparison operators. -/
inductive Comparison where
| eq
| ne
| lt
| le
| gt
| ge
deriving DecidableEq, Repr

namespace Comparison

/- The sign of an operator. -/
def sign : Comparison → String
| eq => "="
| ne => "!="
| lt => "<"
| le => "<="
| gt => ">"
| ge => ">="

/- The operator holds between two values. -/
def holds
    (op : Comparison)
    (a b : Value) : Bool :=
  match op with
  | eq => a.looseEq b
  | ne => !a.looseEq b
  | lt => a.looseCompare b == some .lt
  | le =>
    match a.looseCompare b with
    | some .lt => true
    | some .eq => true
    | _ => false
  | gt => a.looseCompare b == some .gt
  | ge =>
    match a.looseCompare b with
    | some .gt => true
    | some .eq => true
    | _ => false

end Comparison

end Rowstore
