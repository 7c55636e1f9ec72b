import Rowstore.Decimal.Shortest
import Rowstore.Decimal.Rounding
import Rowstore.Text.Blank
import Rowstore.Text.Letters

/-
  This file defines the values that cells hold and literals
  denote, how a literal is classified, and how a value is
  displayed.

  Key definitions include:
    * `Value`
    * `Value.parseNumber`
    * `Value.unquote`
    * `Value.ofLiteral`
    * `Value.formatNumber`
    * `Value.display`
-/

namespace Rowstore

------------------------------------------------------------
-- Values
------------------------------------------------------------

/- A value is null, a boolean, a number or a text. -/
inductive Value where
| null
| boolean (b : Bool)
| number (x : Float)
| text (s : String)
deriving DecidableEq

namespace Value

instance : Inhabited Value :=
  ⟨null⟩

/- The value is null. -/
def isNull : Value → Bool
| null => true
| _ => false

/- The boolean carried by a value, if it is one. -/
def boolean? : Value → Option Bool
| boolean b => some b
| _ => none

/- The number carried by a value, if it is one. -/
def number? : Value → Option Float
| number x => some x
| _ => none

/- The text carried by a value, if it is one. -/
def text? : Value → Option String
| text s => some s
| _ => none

/- The name of a value's kind. -/
def kindName : Value → String
| null => "null"
| boolean _ => "boolean"
| number _ => "number"
| text _ => "text"

------------------------------------------------------------
-- Numbers In Text
------------------------------------------------------------

/- The characters that numeric text may hold. -/
def isNumeric (c : Char) : Bool :=
  Decimal.isDigit c ||
    c == '+' || c == '-' || c == '.' || c == 'e' || c == 'E'

/-
  The finite number that a text denotes, blanks at its ends
  apart.  Words such as `inf` are no numbers.
-/
def parseNumber (s : List Char) : Option Float :=
  let t := Text.trim s
  if t.all isNumeric && t.any Decimal.isDigit then
    ((Decimal.ofText? t).map Decimal.toFloat).filter Float.isFinite
  else none

/- A text of a number with the fewest digits and no exponent. -/
def plainNumber (x : Float) : List Char :=
  if x.isNaN then "NaN".toList
  else if x.isInf then
    (if x < 0 then "-inf" else "inf").toList
  else (Decimal.shortest .up x).plainText

/- The displayed form of a number; a zero has no sign. -/
def formatNumber (x : Float) : List Char :=
  if x == 0 then ['0'] else plainNumber x

------------------------------------------------------------
-- Quoted Text
------------------------------------------------------------

/- The two quotes that may enclose a text. -/
def isQuote (c : Char) : Bool :=
  c == '\'' || c == '"'

/- Replace each doubled quote, from the left, by one quote. -/
def undouble (q : Char) : List Char → List Char
| a :: b :: s =>
  if a = q ∧ b = q then q :: undouble q s
  else a :: undouble q (b :: s)
| s => s

/- The text inside matching quotes, with doubled quotes resolved. -/
def unquote : List Char → Option (List Char)
| [] => none
| q :: s =>
  if isQuote q && s.getLast? == some q then
    some (undouble q s.dropLast)
  else none

------------------------------------------------------------
-- Literals
------------------------------------------------------------

/-
  Classify a literal: quoted text, the words for truth values
  and null in any letter case, a number, and otherwise the
  trimmed text itself.
-/
def ofLiteral (s : List Char) : Value :=
  let t := Text.trim s
  match unquote t with
  | some u => text (String.ofList u)
  | none =>
    if Text.sameLetters t "true".toList then boolean true
    else if Text.sameLetters t "false".toList then boolean false
    else if Text.sameLetters t "null".toList then null
    else
      match parseNumber t with
      | some x => number x
      | none => text (String.ofList t)

------------------------------------------------------------
-- Display
------------------------------------------------------------

/- The word for a truth value. -/
def booleanText (b : Bool) : String :=
  if b then "true" else "false"

/- The displayed form of a value. -/
def display : Value → String
| null => "NULL"
| boolean b => booleanText b
| number x => String.ofList (formatNumber x)
| text s => s

end Value

end Rowstore
