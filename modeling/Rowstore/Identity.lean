import Rowstore.Json.Basic
import Rowstore.Text.Letters

/-
  This file defines universally unique identifiers, their
  written forms, and the identifiers of databases and tables.

  Key definitions include:
    * `Uuid`
    * `Uuid.text`
    * `Uuid.parse?`
    * `Uuid.ofRandom`
    * `DatabaseId`
    * `TableId`
-/

namespace Rowstore

------------------------------------------------------------
-- Universally Unique Identifiers
------------------------------------------------------------

/- An identifier of 128 bits. -/
structure Uuid where
  bits : BitVec 128
deriving DecidableEq, Repr

namespace Uuid

/- The hexadecimal digits of a number, a given count of them. -/
def hexText
    (count : Nat)
    (n : Nat) : List Char :=
  match count with
  | 0 => []
  | k + 1 => hexText k (n / 16) ++ [Json.hexDigit (n % 16)]

/- The digits of an identifier. -/
def digits (u : Uuid) : List Char :=
  hexText 32 u.bits.toNat

/- The digit counts of the groups between hyphens. -/
def groups : List Nat :=
  [8, 4, 4, 4, 12]

/- Cut a text into pieces of given lengths, with hyphens between them. -/
def hyphenated : List Nat → List Char → List Char
| [], _ => []
| [n], s => s.take n
| n :: ns, s => s.take n ++ '-' :: hyphenated ns (s.drop n)

/- The written form of an identifier. -/
def text (u : Uuid) : List Char :=
  hyphenated groups u.digits

/- The identifier of 32 hexadecimal digits in any letter case. -/
def ofDigits? (s : List Char) : Option Uuid :=
  if s.length = 32 then
    (Json.hexNumber? s).map fun n => ⟨BitVec.ofNat 128 n⟩
  else none

/- Take the hyphens out of a text with pieces of given lengths. -/
def joined? : List Nat → List Char → Option (List Char)
| [], s => if s.isEmpty then some [] else none
| [n], s => if s.length = n then some s else none
| n :: ns, s =>
  match s.drop n with
  | '-' :: t => (joined? ns t).map (s.take n ++ ·)
  | _ => none

/- The identifier of digits in groups with hyphens between them. -/
def ofGroups? (s : List Char) : Option Uuid :=
  (joined? groups s).bind ofDigits?

/- The words that may stand before the digits, in any letter case. -/
def scheme : List Char :=
  "urn:uuid:".toList

/-
  Read an identifier: digits alone, digits in groups, and
  groups in braces or after the scheme.
-/
def parse? (s : List Char) : Option Uuid :=
  match s with
  | '\x7b' :: t =>
    if t.getLast? = some '\x7d' then ofGroups? t.dropLast else none
  | _ =>
    if Text.sameLetters (s.take scheme.length) scheme then
      ofGroups? (s.drop scheme.length)
    else if s.length = 32 then ofDigits? s
    else ofGroups? s

/- The bits that mark an identifier as a random one. -/
def randomMark : BitVec 128 :=
  0x00000000000040008000000000000000#128

/- The places of the bits that mark the kind of an identifier. -/
def markPlaces : BitVec 128 :=
  0x000000000000f000c000000000000000#128

/- The identifier of random bits. -/
def ofRandom (bits : BitVec 128) : Uuid :=
  ⟨(bits &&& ~~~markPlaces) ||| randomMark⟩

/- The document of an identifier. -/
def toJson (u : Uuid) : Json :=
  .ofText (String.ofList u.text)

/- Read an identifier from a document. -/
def ofJson? (j : Json) : Option Uuid := do
  parse? (← j.text?).toList

end Uuid

------------------------------------------------------------
-- Databases And Tables
------------------------------------------------------------

/- The identifier of a database. -/
structure DatabaseId where
  uuid : Uuid
deriving DecidableEq, Repr

/- The identifier of a table. -/
structure TableId where
  uuid : Uuid
deriving DecidableEq, Repr

end Rowstore
