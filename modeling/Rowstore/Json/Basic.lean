import Rowstore.Decimal.Basic

/-
  This file defines documents as trees, and the escapes
  inside their strings.

  A tree keeps the written form of numbers and the escaped
  form of strings, so that a part of a document that nobody
  asks for is only checked for its form.

  Key definitions include:
    * `Json.Numeral`
    * `Json`
    * `Json.escape`
    * `Json.unescape`
    * `Json.ofText`
    * `Json.text?`
-/

namespace Rowstore

------------------------------------------------------------
-- Trees
------------------------------------------------------------

/- The written form of a number: sign, digits, digits after the point, and exponent. -/
structure Json.Numeral where
  negative : Bool
  whole : List Char
  fraction : List Char
  exponent : Option (Bool × List Char)
deriving DecidableEq, Repr

/-
  A document is a tree.  Strings and keys are kept as they
  stand between their quotes.
-/
inductive Json where
| null
| boolean (b : Bool)
| number (n : Json.Numeral)
| string (body : List Char)
| array (items : List Json)
| object (members : List (List Char × Json))
deriving Repr

namespace Json

------------------------------------------------------------
-- Escapes
------------------------------------------------------------

/- The digits of the hexadecimal system, in small letters. -/
def hexDigit (n : Nat) : Char :=
  if n < 10 then Char.ofNat (48 + n) else Char.ofNat (87 + n)

/- The value of a hexadecimal digit in any letter case. -/
def hexValue? (c : Char) : Option Nat :=
  if Decimal.isDigit c then some (Decimal.digitValue c)
  else if 'a' ≤ c ∧ c ≤ 'f' then some (c.toNat - 87)
  else if 'A' ≤ c ∧ c ≤ 'F' then some (c.toNat - 55)
  else none

/- The value of hexadecimal digits read from the left. -/
def hexNumber? : List Char → Option Nat :=
  List.foldl
    (fun n c => do return 16 * (← n) + (← hexValue? c)) (some 0)

/- The escaped form of one character. -/
def escapeChar (c : Char) : List Char :=
  if c = '"' then ['\\', '"']
  else if c = '\\' then ['\\', '\\']
  else if c = '\x08' then ['\\', 'b']
  else if c = '\x0c' then ['\\', 'f']
  else if c = '\n' then ['\\', 'n']
  else if c = '\r' then ['\\', 'r']
  else if c = '\t' then ['\\', 't']
  else if c.toNat < 0x20 then
    ['\\', 'u', '0', '0', hexDigit (c.toNat / 16),
     hexDigit (c.toNat % 16)]
  else [c]

/- The escaped form of a text. -/
def escape (s : List Char) : List Char :=
  s.flatMap escapeChar

/- The character that a letter after a backslash stands for. -/
def escapedChar? : Char → Option Char
| '"' => some '"'
| '\\' => some '\\'
| '/' => some '/'
| 'b' => some '\x08'
| 'f' => some '\x0c'
| 'n' => some '\n'
| 'r' => some '\r'
| 't' => some '\t'
| _ => none

/- The code units that start a pair. -/
def isLeadUnit (n : Nat) : Bool :=
  0xD800 ≤ n && n < 0xDC00

/- The code units that end a pair. -/
def isTrailUnit (n : Nat) : Bool :=
  0xDC00 ≤ n && n < 0xE000

/- The character of a pair of code units. -/
def pairChar (lead trail : Nat) : Char :=
  Char.ofNat (0x10000 + (lead - 0xD800) * 0x400 + (trail - 0xDC00))

/-
  The text that an escaped form stands for.  A code unit of a
  pair must come with the other one.
-/
def unescape : List Char → Option (List Char)
| [] => some []
| '\\' :: 'u' :: a :: b :: c :: d :: s => do
  let n ← hexNumber? [a, b, c, d]
  if isTrailUnit n then none
  else if isLeadUnit n then
    match s with
    | '\\' :: 'u' :: e :: f :: g :: h :: t => do
      let m ← hexNumber? [e, f, g, h]
      if isTrailUnit m then
        (unescape t).map (pairChar n m :: ·)
      else none
    | _ => none
  else (unescape s).map (Char.ofNat n :: ·)
| '\\' :: e :: s => do
  let c ← escapedChar? e
  (unescape s).map (c :: ·)
| c :: s => (unescape s).map (c :: ·)

------------------------------------------------------------
-- Building And Taking Apart
------------------------------------------------------------

/- The string of a text. -/
def ofText (s : String) : Json :=
  string (escape s.toList)

/- The text of a string whose escapes are sound. -/
def text? : Json → Option String
| string body => (unescape body).map String.ofList
| _ => none

/- The truth value of a document, if it is one. -/
def boolean? : Json → Option Bool
| boolean b => some b
| _ => none

/- The items of an array. -/
def items? : Json → Option (List Json)
| array items => some items
| _ => none

/- The number of a whole amount. -/
def ofNat (n : Nat) : Json :=
  number
    { negative := false
      whole := Decimal.digitsText n
      fraction := []
      exponent := none }

/- The amount of a number written with digits only, up to a limit. -/
def natUpTo?
    (limit : Nat) : Json → Option Nat
| number n =>
  let v := Decimal.digitsValue n.whole
  if n.negative || !n.fraction.isEmpty || n.exponent.isSome
      || limit < v then
    none
  else some v
| _ => none

/- The largest identifier. -/
def maxId : Nat :=
  18446744073709551615

/- The object of members with plain keys. -/
def ofMembers (members : List (String × Json)) : Json :=
  object (members.map fun (k, v) => (escape k.toList, v))

end Json

end Rowstore
