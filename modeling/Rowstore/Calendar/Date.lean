import Rowstore.Decimal.Basic

/-
  This file defines calendar dates and times of day, their
  written forms, and moving a date to its neighbours.

  Key definitions include:
    * `Date`
    * `Date.make?`
    * `Date.next`
    * `Date.previous`
    * `Date.text`
    * `Moment`
    * `Moment.IsValid`
    * `Moment.shift`
    * `Moment.stampText`
-/

namespace Rowstore

------------------------------------------------------------
-- Dates
------------------------------------------------------------

/- A date of the proleptic Gregorian calendar. -/
structure Date where
  year : Int
  month : Nat
  day : Nat
deriving DecidableEq, Repr

namespace Date

/- Every fourth year is a leap year, save the centuries that 400 does not divide. -/
def isLeap (year : Int) : Bool :=
  year % 4 == 0 && (year % 100 != 0 || year % 400 == 0)

/- The number of days of a month. -/
def monthLength
    (year : Int)
    (month : Nat) : Nat :=
  if month = 2 then if isLeap year then 29 else 28
  else if month = 4 ∨ month = 6 ∨ month = 9 ∨ month = 11 then 30
  else 31

/- The first year that a date may have. -/
def firstYear : Int := -262143

/- The last year that a date may have. -/
def lastYear : Int := 262142

/- The date exists. -/
def IsValid (d : Date) : Prop :=
  firstYear ≤ d.year ∧ d.year ≤ lastYear ∧
    1 ≤ d.month ∧ d.month ≤ 12 ∧
    1 ≤ d.day ∧ d.day ≤ monthLength d.year d.month

instance (d : Date) : Decidable d.IsValid := by
  unfold IsValid
  infer_instance

/- The date of a year, month and day, if it exists. -/
def make?
    (year : Int)
    (month day : Nat) : Option Date :=
  let d : Date := { year := year, month := month, day := day }
  if d.IsValid then some d else none

/- The day after. -/
def next (d : Date) : Date :=
  if d.day < monthLength d.year d.month then
    { d with day := d.day + 1 }
  else if d.month < 12 then
    { d with month := d.month + 1, day := 1 }
  else { year := d.year + 1, month := 1, day := 1 }

/- The day before. -/
def previous (d : Date) : Date :=
  if 1 < d.day then { d with day := d.day - 1 }
  else if 1 < d.month then
    { year := d.year
      month := d.month - 1
      day := monthLength d.year (d.month - 1) }
  else { year := d.year - 1, month := 12, day := 31 }

/- A year with four digits, and a sign when it is outside 0 to 9999. -/
def yearText (year : Int) : List Char :=
  let digits := Decimal.paddedText 4 year.natAbs
  if year < 0 then '-' :: digits
  else if 9999 < year then '+' :: digits
  else digits

/- The written form of a date. -/
def text (d : Date) : List Char :=
  yearText d.year ++ '-' :: Decimal.paddedText 2 d.month ++
    '-' :: Decimal.paddedText 2 d.day

end Date

------------------------------------------------------------
-- Moments
------------------------------------------------------------

/-
  A date with a time of day.  The second may be 60, in which
  case it is a leap second.
-/
structure Moment where
  date : Date
  hour : Nat
  minute : Nat
  second : Nat
  nano : Nat
deriving DecidableEq, Repr

namespace Moment

/- The date exists, and the time of day does; any minute may have a leap second. -/
def IsValid (m : Moment) : Prop :=
  m.date.IsValid ∧ m.hour ≤ 23 ∧ m.minute ≤ 59 ∧
    m.second ≤ 60 ∧ m.nano ≤ 999999999

instance (m : Moment) : Decidable m.IsValid := by
  unfold IsValid
  infer_instance

/- The first moment of a date. -/
def startOf (d : Date) : Moment :=
  { date := d, hour := 0, minute := 0, second := 0, nano := 0 }

/- Move a moment by less than a day, given in minutes. -/
def shift
    (m : Moment)
    (minutes : Int) : Moment :=
  let total : Int := m.hour * 60 + m.minute + minutes
  let date :=
    if total < 0 then m.date.previous
    else if 1440 ≤ total then m.date.next
    else m.date
  let inDay := (total % 1440).toNat
  { m with
    date := date
    hour := inDay / 60
    minute := inDay % 60 }

/- The written form of a time of day, to the second. -/
def timeText (m : Moment) : List Char :=
  Decimal.paddedText 2 m.hour ++ ':' :: Decimal.paddedText 2 m.minute ++
    ':' :: Decimal.paddedText 2 m.second

/- A moment of universal time written with milliseconds, further digits dropped. -/
def milliText (m : Moment) : List Char :=
  m.date.text ++ 'T' :: m.timeText ++
    '.' :: Decimal.paddedText 3 (m.nano / 1000000) ++ ['Z']

/- A moment of universal time written with as many groups of three digits as it needs. -/
def stampText (m : Moment) : List Char :=
  let fraction :=
    if m.nano = 0 then []
    else if m.nano % 1000000 = 0 then
      '.' :: Decimal.paddedText 3 (m.nano / 1000000)
    else if m.nano % 1000 = 0 then
      '.' :: Decimal.paddedText 6 (m.nano / 1000)
    else '.' :: Decimal.paddedText 9 m.nano
  m.date.text ++ 'T' :: m.timeText ++ fraction ++ ['Z']

/- The number of days in 400 years. -/
def eraDays : Nat := 146097

/-
  The date that lies a number of days after 1 March of year
  zero.  Years are counted from March, so that the leap day
  ends a year.
-/
def dateOfDays (days : Nat) : Date :=
  let era := days / eraDays
  let inEra := days % eraDays
  let yearOfEra :=
    (inEra - inEra / 1460 + inEra / 36524 - inEra / 146096) / 365
  let inYear :=
    inEra - (365 * yearOfEra + yearOfEra / 4 - yearOfEra / 100)
  let marchMonth := (5 * inYear + 2) / 153
  let day := inYear - (153 * marchMonth + 2) / 5 + 1
  let month := if marchMonth < 10 then marchMonth + 3 else marchMonth - 9
  let year := era * 400 + yearOfEra
  { year := if month ≤ 2 then year + 1 else year
    month := month
    day := day }

/- The number of days from 1 March of year zero to 1 January 1970. -/
def daysToEpoch : Nat := 719468

/- The moment a number of seconds and nanoseconds after the start of 1970. -/
def ofEpoch (seconds nanos : Nat) : Moment :=
  let inDay := seconds % 86400
  { date := dateOfDays (daysToEpoch + seconds / 86400)
    hour := inDay / 3600
    minute := inDay / 60 % 60
    second := inDay % 60
    nano := nanos }

end Moment

end Rowstore
