import Rowstore.Json.Basic

/-
  This file defines how a document is read from its text.

  Key definitions include:
    * `Json.readString`
    * `Json.readNumeral`
    * `Json.readValue`
    * `Json.read?`
-/

namespace Rowstore.Json

------------------------------------------------------------
-- Leaves
------------------------------------------------------------

/- The blanks between the parts of a document. -/
def isSpace (c : Char) : Bool :=
  c == ' ' || c == '\n' || c == '\t' || c == '\r'

/- Drop blanks at the start. -/
def skipSpaces (s : List Char) : List Char :=
  s.dropWhile isSpace

/- Take a given text from the start. -/
def readWord (word s : List Char) : Option (List Char) :=
  if word.isPrefixOf s then some (s.drop word.length) else none

/-
  Take the body of a string after its opening quote, and the
  closing quote.  Escapes must have one of their forms, and
  control characters must be escaped.
-/
def readString : List Char → Option (List Char × List Char)
| [] => none
| '"' :: s => some ([], s)
| '\\' :: 'u' :: a :: b :: c :: d :: s => do
  let _ ← hexNumber? [a, b, c, d]
  let (body, rest) ← readString s
  pure ('\\' :: 'u' :: a :: b :: c :: d :: body, rest)
| '\\' :: e :: s => do
  let _ ← escapedChar? e
  let (body, rest) ← readString s
  pure ('\\' :: e :: body, rest)
| c :: s =>
  if c = '\\' || c.toNat < 0x20 then none
  else do
    let (body, rest) ← readString s
    pure (c :: body, rest)

/- Take the digits before the point: one zero, or digits that do not start with zero. -/
def readWhole (s : List Char) : Option (List Char × List Char) :=
  match Decimal.splitDigits s with
  | ([], _) => none
  | (['0'], rest) => some (['0'], rest)
  | ('0' :: _, _) => none
  | (digits, rest) => some (digits, rest)

/- Take the point and the digits after it, if there is a point. -/
def readFraction : List Char → Option (List Char × List Char)
| '.' :: s =>
  let (digits, rest) := Decimal.splitDigits s
  if digits.isEmpty then none else some (digits, rest)
| s => some ([], s)

/- Take the digits of an exponent with a sign. -/
def readExponentDigits
    (negative : Bool)
    (s : List Char) :
    Option (Option (Bool × List Char) × List Char) :=
  let (digits, rest) := Decimal.splitDigits s
  if digits.isEmpty then none
  else some (some (negative, digits), rest)

/- Take an exponent, if there is one. -/
def readExponent :
    List Char → Option (Option (Bool × List Char) × List Char)
| [] => some (none, [])
| c :: s =>
  if c = 'e' ∨ c = 'E' then
    let (negative, t) := Decimal.splitSign s
    readExponentDigits negative t
  else some (none, c :: s)

/- Take a number without its sign. -/
def readUnsigned
    (negative : Bool)
    (s : List Char) : Option (Numeral × List Char) := do
  let (whole, s) ← readWhole s
  let (fraction, s) ← readFraction s
  let (exponent, s) ← readExponent s
  pure
    ({ negative := negative
       whole := whole
       fraction := fraction
       exponent := exponent }, s)

/- Take a number. -/
def readNumeral : List Char → Option (Numeral × List Char)
| '-' :: s => readUnsigned true s
| s => readUnsigned false s

------------------------------------------------------------
-- Trees
------------------------------------------------------------

/- Take a key, its quotes and the colon after it. -/
def readKey (s : List Char) : Option (List Char × List Char) :=
  match skipSpaces s with
  | '"' :: s => do
    let (key, s) ← readString s
    match skipSpaces s with
    | ':' :: s => some (key, s)
    | _ => none
  | _ => none

mutual

/- Take a document; the first argument bounds the steps. -/
def readValue : Nat → List Char → Option (Json × List Char)
| 0, _ => none
| fuel + 1, s =>
  match skipSpaces s with
  | [] => none
  | '"' :: s => do
    let (body, s) ← readString s
    pure (string body, s)
  | '[' :: s =>
    match skipSpaces s with
    | ']' :: s => some (array [], s)
    | _ => do
      let (items, s) ← readItems fuel s
      pure (array items, s)
  | '\x7b' :: s =>
    match skipSpaces s with
    | '\x7d' :: s => some (object [], s)
    | _ => do
      let (members, s) ← readMembers fuel s
      pure (object members, s)
  | 'n' :: s => do
    let s ← readWord "ull".toList s
    pure (null, s)
  | 't' :: s => do
    let s ← readWord "rue".toList s
    pure (boolean true, s)
  | 'f' :: s => do
    let s ← readWord "alse".toList s
    pure (boolean false, s)
  | c :: s => do
    let (n, s) ← readNumeral (c :: s)
    pure (number n, s)

/- Take items, at least one, and the bracket that closes them. -/
def readItems : Nat → List Char → Option (List Json × List Char)
| 0, _ => none
| fuel + 1, s => do
  let (v, s) ← readValue fuel s
  match skipSpaces s with
  | ',' :: s =>
    let (vs, s) ← readItems fuel s
    pure (v :: vs, s)
  | ']' :: s => pure ([v], s)
  | _ => none

/- Take members, at least one, and the brace that closes them. -/
def readMembers :
    Nat → List Char → Option (List (List Char × Json) × List Char)
| 0, _ => none
| fuel + 1, s => do
  let (k, s) ← readKey s
  let (v, s) ← readValue fuel s
  match skipSpaces s with
  | ',' :: s =>
    let (ms, s) ← readMembers fuel s
    pure ((k, v) :: ms, s)
  | '\x7d' :: s => pure ([(k, v)], s)
  | _ => none

end

/- Read the one document that a text holds.  Each step takes a character, so the length bounds the steps. -/
def read? (s : List Char) : Option Json := do
  let (v, rest) ← readValue (s.length + 1) s
  if (skipSpaces rest).isEmpty then some v else none

end Rowstore.Json
