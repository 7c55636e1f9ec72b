import Rowstore.Calendar.Pattern

/-
  This file defines the forms in which dates and times may be
  entered, and the stricter form of stored timestamps.

  Key definitions include:
    * `Calendar.datePatterns`
    * `Calendar.timePatterns`
    * `Calendar.internetPattern`
    * `Calendar.readDate`
    * `Calendar.readMoment`
    * `Calendar.readStamp`
-/

namespace Rowstore.Calendar

open Pattern

------------------------------------------------------------
-- Patterns
------------------------------------------------------------

/- Three numbers with a character between them. -/
def dateItems
    (a b c : Part)
    (between : Char) : List Item :=
  [.lenient a, .literal between, .lenient b, .literal between,
   .lenient c]

/- The forms of a date. -/
def datePatterns : List (List Item) :=
  [dateItems .year .month .day '-',
   dateItems .year .month .day '/',
   dateItems .month .day .year '/',
   dateItems .day .month .year '.']

/- Hours and minutes. -/
def minuteItems : List Item :=
  [.lenient .hour, .literal ':', .lenient .minute]

/- Hours, minutes, seconds and a fraction. -/
def secondItems : List Item :=
  minuteItems ++ [.literal ':', .lenient .second, .fraction]

/- The forms of a date with a time and no offset. -/
def timePatterns : List (List Item) :=
  let date := dateItems .year .month .day '-'
  [date ++ .literal 'T' :: secondItems,
   date ++ .spaces :: secondItems,
   date ++ .literal 'T' :: minuteItems,
   date ++ .spaces :: minuteItems]

/- The form of a date and time with an offset, with fixed numbers of digits. -/
def internetPattern : List Item :=
  [.strict .year, .literal '-', .strict .month, .literal '-',
   .strict .day, .separator, .strict .hour, .literal ':',
   .strict .minute, .literal ':', .strict .second, .fraction,
   .offset]

/- The form of a stored timestamp, which is lenient about blanks. -/
def stampPattern : List Item :=
  [.lenient .year, .spaces, .literal '-', .lenient .month, .spaces,
   .literal '-', .lenient .day, .separator, .lenient .hour, .spaces,
   .literal ':', .lenient .minute, .spaces, .literal ':',
   .lenient .second, .fraction, .spaces, .spaces, .looseOffset,
   .spaces]

------------------------------------------------------------
-- Reading
------------------------------------------------------------

/- The first date that a pattern reads. -/
def firstDate?
    (patterns : List (List Item))
    (s : List Char) : Option Date :=
  patterns.findSome? fun p => (read? p s).bind Fields.date?

/- The first date and time that a pattern reads. -/
def firstMoment?
    (patterns : List (List Item))
    (s : List Char) : Option Moment :=
  patterns.findSome? fun p => (read? p s).bind Fields.moment?

/- The date of an entered text; with an offset, it is the local date. -/
def readDate (s : List Char) : Option Date :=
  (firstDate? datePatterns s).or
    (((read? internetPattern s).bind Fields.moment?).map Moment.date
      |>.or ((firstMoment? timePatterns s).map Moment.date))

/- The moment of an entered text in universal time; a text without an offset is taken as universal time. -/
def readMoment (s : List Char) : Option Moment :=
  ((read? internetPattern s).bind Fields.universal?).or
    ((firstMoment? timePatterns s).or
      ((firstDate? datePatterns s).map Moment.startOf))

/- The moment of a stored timestamp. -/
def readStamp (s : List Char) : Option Moment :=
  (read? stampPattern s).bind Fields.universal?

end Rowstore.Calendar
