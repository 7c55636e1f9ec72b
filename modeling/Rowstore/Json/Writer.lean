import Rowstore.Json.Basic

/-
  This file defines the two written forms of a document: the
  compact form without blanks, and the indented form with a
  line for each item and member.

  Key definitions include:
    * `Json.compact`
    * `Json.indented`
-/

namespace Rowstore.Json

------------------------------------------------------------
-- Leaves
------------------------------------------------------------

namespace Numeral

/- The text of a number. -/
def text (n : Numeral) : List Char :=
  (if n.negative then ['-'] else []) ++ n.whole ++
    (if n.fraction.isEmpty then [] else '.' :: n.fraction) ++
    match n.exponent with
    | none => []
    | some (negative, digits) =>
      'e' :: (if negative then '-' else '+') :: digits

end Numeral

/- A body between quotes. -/
def quoted (body : List Char) : List Char :=
  '"' :: body ++ ['"']

/- The words for truth values. -/
def booleanText (b : Bool) : List Char :=
  if b then "true".toList else "false".toList

------------------------------------------------------------
-- Compact Form
------------------------------------------------------------

mutual

/- The compact form of a document. -/
def compact : Json → List Char
| null => "null".toList
| boolean b => booleanText b
| number n => n.text
| string body => quoted body
| array items => '[' :: compactItems items ++ [']']
| object members =>
  '\x7b' :: compactMembers members ++ ['\x7d']

/- The compact forms of items, with commas between them. -/
def compactItems : List Json → List Char
| [] => []
| [v] => compact v
| v :: w :: vs => compact v ++ ',' :: compactItems (w :: vs)

/- The compact forms of members, with commas between them. -/
def compactMembers : List (List Char × Json) → List Char
| [] => []
| [(k, v)] => quoted k ++ ':' :: compact v
| (k, v) :: m :: ms =>
  quoted k ++ ':' :: compact v ++ ',' :: compactMembers (m :: ms)

end

------------------------------------------------------------
-- Indented Form
------------------------------------------------------------

/- A new line at a depth, with two spaces for each level. -/
def newLine (depth : Nat) : List Char :=
  '\n' :: List.replicate (2 * depth) ' '

mutual

/- The indented form of a document at a depth. -/
def indentedAt
    (depth : Nat) : Json → List Char
| null => "null".toList
| boolean b => booleanText b
| number n => n.text
| string body => quoted body
| array [] => "[]".toList
| array (v :: vs) =>
  '[' :: newLine (depth + 1) ++
    indentedItems (depth + 1) (v :: vs) ++ newLine depth ++ [']']
| object [] => ['\x7b', '\x7d']
| object (m :: ms) =>
  '\x7b' :: newLine (depth + 1) ++
    indentedMembers (depth + 1) (m :: ms) ++ newLine depth ++
    ['\x7d']

/- The indented forms of items, each on its own line. -/
def indentedItems
    (depth : Nat) : List Json → List Char
| [] => []
| [v] => indentedAt depth v
| v :: w :: vs =>
  indentedAt depth v ++ ',' :: newLine depth ++
    indentedItems depth (w :: vs)

/- The indented forms of members, each on its own line. -/
def indentedMembers
    (depth : Nat) : List (List Char × Json) → List Char
| [] => []
| [(k, v)] => quoted k ++ ':' :: ' ' :: indentedAt depth v
| (k, v) :: m :: ms =>
  quoted k ++ ':' :: ' ' :: indentedAt depth v ++ ',' ::
    newLine depth ++ indentedMembers depth (m :: ms)

end

/- The indented form of a document. -/
def indented (j : Json) : List Char :=
  indentedAt 0 j

end Rowstore.Json
