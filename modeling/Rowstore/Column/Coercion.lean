import Rowstore.Calendar.Input
import Rowstore.Column.Basic
import Rowstore.Value.Basic

/-
  This file defines the coercion of entered text to a
  column's type.  It never fails: text that does not fit
  becomes a neutral value or stays as it is.

  Key definitions include:
    * `Column.coerceNumber`
    * `Column.isTruthy`
    * `Column.coerce`
-/

namespace Rowstore.Column

/- The words that stand for true, in small letters. -/
def truthyWords : List (List Char) :=
  ["1".toList, "true".toList, "yes".toList, "y".toList, "on".toList]

/-
  The text stands for true.  No character outside the basic
  letters has one of these words in its small form, so the
  basic letters decide.
-/
def isTruthy (s : List Char) : Bool :=
  truthyWords.contains (Text.lowerBasic (Text.trim s))

/- The number that a text denotes, or zero, rounded if both precision and scale are declared. -/
def coerceNumber
    (precision scale : Option Nat)
    (s : List Char) : Float :=
  let x := (Value.parseNumber s).getD 0
  match precision, scale with
  | some _, some places => Decimal.roundToPlaces places x
  | _, _ => x

/- A text that takes the place of one that was understood, or the entered text itself. -/
def orEntered
    (entered : List Char)
    (understood : Option (List Char)) : Value :=
  .text (String.ofList (understood.getD entered))

/- The trimmed text, cut to the declared number of characters. -/
def coerceText
    (length : Option Nat)
    (s : List Char) : List Char :=
  match length with
  | some n => (Text.trim s).take n
  | none => Text.trim s

/- Coerce entered text to a column's type. -/
def coerce
    (c : Column)
    (raw : String) : Value :=
  let s := raw.toList
  match c.base with
  | .number => .number (coerceNumber c.precision c.scale s)
  | .boolean => .boolean (isTruthy s)
  | .date =>
    orEntered s ((Calendar.readDate (Text.trim s)).map Date.text)
  | .datetime =>
    orEntered s ((Calendar.readMoment (Text.trim s)).map Moment.milliText)
  | .text => .text (String.ofList (coerceText c.length s))

end Rowstore.Column
