import Rowstore.Calendar.Date
import Rowstore.Text.Blank
import Rowstore.Text.Letters

/-
  This file defines patterns for dates and times, and how a
  text is read by a pattern.

  A pattern is a list of items.  A lenient number skips
  blanks before it and has up to its usual number of digits;
  a strict one has exactly that many.  A pattern must take up
  its whole text.

  Key definitions include:
    * `Pattern.Item`
    * `Pattern.Fields`
    * `Pattern.readItem`
    * `Pattern.read?`
    * `Pattern.Fields.date?`
    * `Pattern.Fields.moment?`
-/

namespace Rowstore.Pattern

------------------------------------------------------------
-- Patterns
------------------------------------------------------------

/- The numbers that a pattern may hold. -/
inductive Part where
| year
| month
| day
| hour
| minute
| second
deriving DecidableEq, Repr

/- The items of patterns. -/
inductive Item where
| lenient (part : Part)
| strict (part : Part)
| literal (c : Char)
| spaces
| separator
| fraction
| offset
| looseOffset
deriving DecidableEq, Repr

/- What has been read so far; the offset is in minutes. -/
structure Fields where
  year : Option Int
  month : Option Nat
  day : Option Nat
  hour : Option Nat
  minute : Option Nat
  second : Nat
  nano : Nat
  offset : Int
deriving DecidableEq, Repr

namespace Fields

/- Nothing has been read. -/
def empty : Fields :=
  { year := none
    month := none
    day := none
    hour := none
    minute := none
    second := 0
    nano := 0
    offset := 0 }

/- Store a number, which must be in the range of its part. -/
def store?
    (f : Fields)
    (part : Part)
    (n : Int) : Option Fields :=
  let v := n.toNat
  match part with
  | .year => some { f with year := some n }
  | .month =>
    if 1 ≤ n ∧ n ≤ 12 then some { f with month := some v } else none
  | .day =>
    if 1 ≤ n ∧ n ≤ 31 then some { f with day := some v } else none
  | .hour =>
    if n ≤ 23 then some { f with hour := some v } else none
  | .minute =>
    if n ≤ 59 then some { f with minute := some v } else none
  | .second =>
    if n ≤ 60 then some { f with second := v } else none

end Fields

------------------------------------------------------------
-- Items
------------------------------------------------------------

/- The usual number of digits of a part. -/
def width : Part → Nat
| .year => 4
| _ => 2

/- Take at least one digit and at most a number of them. -/
def takeDigits
    (most : Nat)
    (s : List Char) : Option (Nat × List Char) :=
  let digits := (s.take most).takeWhile Decimal.isDigit
  if digits.isEmpty then none
  else some (Decimal.digitsValue digits, s.drop digits.length)

/- Take a year: four digits at most, or a sign and any number of digits. -/
def takeYear (s : List Char) : Option (Int × List Char) :=
  match s with
  | '-' :: t => (takeDigits t.length t).map fun (n, r) => (-(n : Int), r)
  | '+' :: t => (takeDigits t.length t).map fun (n, r) => ((n : Int), r)
  | _ => (takeDigits 4 s).map fun (n, r) => ((n : Int), r)

/- Take a number after blanks. -/
def takeLenient
    (part : Part)
    (s : List Char) : Option (Int × List Char) :=
  let t := Text.trimStart s
  match part with
  | .year => takeYear t
  | _ => (takeDigits (width part) t).map fun (n, r) => ((n : Int), r)

/- Take a number of exactly the usual number of digits. -/
def takeStrict
    (part : Part)
    (s : List Char) : Option (Int × List Char) :=
  let digits := s.take (width part)
  if digits.length = width part ∧ digits.all Decimal.isDigit then
    some (Decimal.digitsValue digits, s.drop (width part))
  else none

/- Take nothing, or a point and digits as a fraction of a second; digits after the ninth are ignored. -/
def takeFraction : List Char → Option (Nat × List Char)
| '.' :: s =>
  let (digits, rest) := Decimal.splitDigits s
  let kept := digits.take 9
  if digits.isEmpty then none
  else
    some (Decimal.digitsValue kept * Nat.pow 10 (9 - kept.length), rest)
| s => some (0, s)

/- A sign of an offset; `true` stands for a minus sign. -/
def offsetSign? : Char → Option Bool
| '+' => some false
| '-' => some true
| '\u2212' => some true
| _ => none

/-
  Take a sign, two digits for hours, what separates them from
  the minutes, and two digits for minutes.
-/
def takeOffsetNumbers
    (separate : List Char → Option (List Char)) :
    List Char → Option (Int × List Char)
| [] => none
| c :: s => do
  let negative ← offsetSign? c
  let (hours, s) ← takeStrict .hour s
  let s ← separate s
  let (minutes, s) ← takeStrict .minute s
  if 59 < minutes ∨ 23 < hours then none
  else
    let total := hours * 60 + minutes
    pure (if negative then -total else total, s)

/- The letter for universal time. -/
def isZulu (c : Char) : Bool :=
  c == 'Z' || c == 'z'

/- Take a colon. -/
def takeColon : List Char → Option (List Char)
| ':' :: s => some s
| _ => none

/- Take an offset: the letter for universal time, or numbers with a colon between them. -/
def takeOffset : List Char → Option (Int × List Char)
| [] => none
| c :: s =>
  if isZulu c then some (0, s) else takeOffsetNumbers takeColon (c :: s)

/- Take an offset that may also be named, with any colons and blanks between its numbers. -/
def takeLooseOffset (s : List Char) : Option (Int × List Char) :=
  let separate (t : List Char) : Option (List Char) :=
    some (t.dropWhile fun c => c == ':' || Text.isBlank c)
  if Text.sameLetters (s.take 3) "UTC".toList then some (0, s.drop 3)
  else
    match s with
    | [] => none
    | c :: t =>
      if isZulu c then some (0, t) else takeOffsetNumbers separate s

/- Store what was taken for a part. -/
def keep
    (f : Fields)
    (part : Part)
    (taken : Option (Int × List Char)) :
    Option (Fields × List Char) := do
  let (n, s) ← taken
  pure (← f.store? part n, s)

/- Read one item. -/
def readItem
    (f : Fields)
    (s : List Char) : Item → Option (Fields × List Char)
| .lenient part => keep f part (takeLenient part s)
| .strict part => keep f part (takeStrict part s)
| .literal c =>
  match s with
  | d :: t => if d = c then some (f, t) else none
  | [] => none
| .spaces => some (f, Text.trimStart s)
| .separator =>
  match s with
  | d :: t =>
    if d = 'T' ∨ d = 't' ∨ d = ' ' then some (f, t) else none
  | [] => none
| .fraction => do
  let (n, t) ← takeFraction s
  pure ({ f with nano := n }, t)
| .offset => do
  let (n, t) ← takeOffset s
  pure ({ f with offset := n }, t)
| .looseOffset => do
  let (n, t) ← takeLooseOffset s
  pure ({ f with offset := n }, t)

------------------------------------------------------------
-- Reading
------------------------------------------------------------

/- Read items one after the other, up to the end of the text. -/
def readItems
    (f : Fields)
    (s : List Char) : List Item → Option Fields
| [] => if s.isEmpty then some f else none
| i :: is => do
  let (g, t) ← readItem f s i
  readItems g t is

/- Read a whole text by a pattern. -/
def read?
    (pattern : List Item)
    (s : List Char) : Option Fields :=
  readItems Fields.empty s pattern

namespace Fields

/- The date that was read, if it exists. -/
def date? (f : Fields) : Option Date := do
  Date.make? (← f.year) (← f.month) (← f.day)

/- The date and time that were read, without regard to the offset. -/
def moment? (f : Fields) : Option Moment := do
  pure
    { date := ← f.date?
      hour := ← f.hour
      minute := ← f.minute
      second := f.second
      nano := f.nano }

/- The date and time that were read, in universal time, if its date exists there. -/
def universal? (f : Fields) : Option Moment :=
  (f.moment?.map fun m => m.shift (-f.offset)).filter fun m =>
    m.date.IsValid

end Fields

end Rowstore.Pattern
