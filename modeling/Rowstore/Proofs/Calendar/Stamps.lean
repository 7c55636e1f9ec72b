import Mathlib.Data.List.Basic
import Rowstore.Calendar.Input
import Rowstore.Proofs.Decimal.Digits
import Rowstore.Proofs.Value.Quoting

/-
  Stored timestamps are read as they were written, for every
  moment that exists: leap seconds, years outside of 0 to
  9999 and fractions of any precision included.

  Main declarations:
    * `Pattern.takeDigits_append`
    * `Pattern.takeYear_yearText`
    * `Pattern.takeFraction_fractionText`
    * `Pattern.Fields.universal?_ofMoment`
    * `Calendar.readStamp_stampText`
-/

------------------------------------------------------------
-- Numbers In A Pattern
------------------------------------------------------------

namespace Rowstore

open Decimal

namespace Pattern

variable {digits rest : List Char}

/-
  Digits are taken up to a given number of them, or up to
  what is no digit.
-/
theorem takeDigits_append
    {most : Nat}
    (hDigits : ∀ c ∈ digits, isDigit c = true)
    (hSome : digits ≠ [])
    (hFits : digits.length ≤ most)
    (hEnds :
      digits.length = most ∨
        ∀ c ∈ rest.head?, isDigit c = false) :
    takeDigits most (digits ++ rest) =
      some (digitsValue digits, rest) := by
  have hTaken :
      ((digits ++ rest).take most).takeWhile isDigit =
        digits := by
    rw [List.take_append, List.take_of_length_le hFits,
      List.takeWhile_append_of_pos hDigits]
    rcases hEnds with hLength | hRest
    · rw [hLength, Nat.sub_self]
      simp
    · cases rest with
      | nil => simp
      | cons c rest =>
          have hFirst : isDigit c = false := hRest c rfl
          cases most - digits.length with
          | zero => simp
          | succ k => simp [hFirst]
  unfold takeDigits
  simp only [hTaken, List.isEmpty_eq_false_iff.mpr hSome,
    Bool.false_eq_true, if_false, List.drop_left]

/- A padded number starts with a digit. -/
theorem trimStart_paddedText
    (width n : Nat)
    (rest : List Char) :
    Text.trimStart (paddedText width n ++ rest) =
      paddedText width n ++ rest := by
  apply Text.trimStart_of_head?
  intro c hFirst
  rw [List.head?_append_of_ne_nil _
    (paddedText_ne_nil width n)] at hFirst
  exact isBlank_of_isDigit
    (isDigit_of_mem_paddedText (List.mem_of_mem_head? hFirst))

theorem takeDigits_paddedText
    {width n : Nat}
    (hWidth : 0 < width)
    (hFits : n < 10 ^ width)
    (rest : List Char) :
    takeDigits width (paddedText width n ++ rest) =
      some (n, rest) := by
  have hLength := length_paddedText hWidth hFits
  rw [takeDigits_append
    (fun _ hMem => isDigit_of_mem_paddedText hMem)
    (paddedText_ne_nil width n) hLength.le (.inl hLength),
    digitsValue_paddedText]

/- A text that starts with a digit has no sign. -/
theorem takeYear_of_isDigit
    {s : List Char}
    (hFirst : ∀ c ∈ s.head?, isDigit c = true) :
    takeYear s =
      (takeDigits 4 s).map fun (n, r) => ((n : Int), r) := by
  unfold takeYear
  split
  · exact absurd (hFirst '-' rfl) (by decide)
  · exact absurd (hFirst '+' rfl) (by decide)
  · rfl

/- A year is taken with its sign, or with its four digits. -/
theorem takeYear_yearText
    (year : Int)
    (hRest : ∀ c ∈ rest.head?, isDigit c = false) :
    takeYear (Date.yearText year ++ rest) =
      some (year, rest) := by
  have hSigned :
      takeDigits
          (paddedText 4 year.natAbs ++ rest).length
          (paddedText 4 year.natAbs ++ rest) =
        some (year.natAbs, rest) := by
    rw [takeDigits_append
      (fun _ hMem => isDigit_of_mem_paddedText hMem)
      (paddedText_ne_nil 4 year.natAbs) (by simp)
      (.inr hRest), digitsValue_paddedText]
  unfold Date.yearText
  simp only
  split
  · rename_i hNegative
    have hYear : -(year.natAbs : Int) = year := by omega
    simp only [List.cons_append, takeYear, hSigned,
      Option.map_some, hYear]
  · rename_i hPositive
    have hYear : (year.natAbs : Int) = year := by omega
    split
    · simp only [List.cons_append, takeYear, hSigned,
        Option.map_some, hYear]
    · rename_i hSmall
      -- Without a sign four digits are taken, and there are no more.
      have hFour :
          takeDigits 4 (paddedText 4 year.natAbs ++ rest) =
            some (year.natAbs, rest) :=
        takeDigits_paddedText (by decide) (by omega) rest
      have hFirst :
          ∀ c ∈ (paddedText 4 year.natAbs ++ rest).head?,
            isDigit c = true := by
        intro c hHead
        rw [List.head?_append_of_ne_nil _
          (paddedText_ne_nil 4 year.natAbs)] at hHead
        exact isDigit_of_mem_paddedText
          (List.mem_of_mem_head? hHead)
      rw [takeYear_of_isDigit hFirst, hFour]
      simp only [Option.map_some, hYear]

/- A year starts with a digit or a sign. -/
theorem trimStart_yearText
    (year : Int)
    (rest : List Char) :
    Text.trimStart (Date.yearText year ++ rest) =
      Date.yearText year ++ rest := by
  unfold Date.yearText
  simp only
  split
  · exact Text.trimStart_of_head? (by simp; decide)
  · split
    · exact Text.trimStart_of_head? (by simp; decide)
    · exact trimStart_paddedText 4 year.natAbs rest

------------------------------------------------------------
-- Fractions Of A Second
------------------------------------------------------------

/- A fraction is taken with as many digits as are written, nine at most. -/
theorem takeFraction_paddedText
    {width n : Nat}
    (hWidth : 0 < width)
    (hNine : width ≤ 9)
    (hFits : n < 10 ^ width) :
    takeFraction ('.' :: paddedText width n ++ ['Z']) =
      some (n * Nat.pow 10 (9 - width), ['Z']) := by
  have hLength := length_paddedText hWidth hFits
  have hSplit :
      splitDigits (paddedText width n ++ ['Z']) =
        (paddedText width n, ['Z']) := by
    apply splitDigits_append
    · exact fun _ hMem => isDigit_of_mem_paddedText hMem
    · intro c hFirst
      cases hFirst
      rfl
  rw [List.cons_append]
  simp only [takeFraction, hSplit,
    List.isEmpty_eq_false_iff.mpr (paddedText_ne_nil width n),
    Bool.false_eq_true, if_false]
  rw [List.take_of_length_le (by omega), hLength,
    digitsValue_paddedText]

/- The fraction of a stored timestamp, with as many groups of three digits as it needs. -/
def fractionText (nano : Nat) : List Char :=
  if nano = 0 then []
  else if nano % 1000000 = 0 then
    '.' :: paddedText 3 (nano / 1000000)
  else if nano % 1000 = 0 then
    '.' :: paddedText 6 (nano / 1000)
  else '.' :: paddedText 9 nano

theorem takeFraction_fractionText
    {nano : Nat}
    (hNano : nano ≤ 999999999) :
    takeFraction (fractionText nano ++ ['Z']) =
      some (nano, ['Z']) := by
  unfold fractionText
  split
  · rename_i hZero
    rw [hZero]
    rfl
  split
  · rename_i hMillis
    rw [takeFraction_paddedText (by decide) (by decide)
      (by omega)]
    have hScaled : nano / 1000000 * 1000000 = nano := by omega
    exact congrArg (fun n => some (n, ['Z'])) hScaled
  split
  · rename_i hMicros
    rw [takeFraction_paddedText (by decide) (by decide)
      (by omega)]
    have hScaled : nano / 1000 * 1000 = nano := by omega
    exact congrArg (fun n => some (n, ['Z'])) hScaled
  · rw [takeFraction_paddedText (by decide) (by decide)
      (by omega)]
    exact congrArg (fun n => some (n, ['Z'])) (Nat.mul_one nano)

------------------------------------------------------------
-- Items
------------------------------------------------------------

namespace Fields

variable {f : Fields} {n : Nat}

theorem store?_month
    (hFirst : 1 ≤ n)
    (hLast : n ≤ 12) :
    f.store? .month n = some { f with month := some n } :=
  if_pos (by omega)

theorem store?_day
    (hFirst : 1 ≤ n)
    (hLast : n ≤ 31) :
    f.store? .day n = some { f with day := some n } :=
  if_pos (by omega)

theorem store?_hour
    (hLast : n ≤ 23) :
    f.store? .hour n = some { f with hour := some n } :=
  if_pos (by omega)

theorem store?_minute
    (hLast : n ≤ 59) :
    f.store? .minute n = some { f with minute := some n } :=
  if_pos (by omega)

theorem store?_second
    (hLast : n ≤ 60) :
    f.store? .second n = some { f with second := n } :=
  if_pos (by omega)

end Fields

variable {f g : Fields} {items : List Item}

theorem readItems_year
    {year : Int}
    (hRest : ∀ c ∈ rest.head?, isDigit c = false) :
    readItems f (Date.yearText year ++ rest)
        (.lenient .year :: items) =
      readItems { f with year := some year } rest items := by
  simp only [readItems, readItem, keep, takeLenient,
    trimStart_yearText, takeYear_yearText year hRest,
    Fields.store?, Option.bind_eq_bind, Option.bind_some,
    Option.pure_def]

/- A two-digit number is kept if it is in the range of its part. -/
theorem readItems_number
    {part : Part}
    {n : Nat}
    (hPart : part ≠ .year)
    (hFits : n < 100)
    (hKept : f.store? part n = some g) :
    readItems f (paddedText 2 n ++ rest)
        (.lenient part :: items) =
      readItems g rest items := by
  have hWidth : width part = 2 := by
    cases part <;> first | rfl | exact absurd rfl hPart
  have hTaken :
      takeLenient part (paddedText 2 n ++ rest) =
        some ((n : Int), rest) := by
    have hDigits :
        takeDigits 2 (paddedText 2 n ++ rest) = some (n, rest) :=
      takeDigits_paddedText (by decide) hFits rest
    unfold takeLenient
    simp only [trimStart_paddedText, hWidth, hDigits,
      Option.map_some]
  simp only [readItems, readItem, keep, hTaken, hKept,
    Option.bind_eq_bind, Option.bind_some, Option.pure_def]

theorem readItems_literal
    (c : Char) :
    readItems f (c :: rest) (.literal c :: items) =
      readItems f rest items := by
  simp only [readItems, readItem, if_true, Option.bind_eq_bind,
    Option.bind_some]

theorem readItems_spaces
    (hFirst : ∀ c ∈ rest.head?, Text.isBlank c = false) :
    readItems f rest (.spaces :: items) =
      readItems f rest items := by
  simp only [readItems, readItem, Text.trimStart_of_head? hFirst,
    Option.bind_eq_bind, Option.bind_some]

/- The character between two numbers may have blanks before it. -/
theorem readItems_between
    {c : Char}
    (hBlank : Text.isBlank c = false) :
    readItems f (c :: rest) (.spaces :: .literal c :: items) =
      readItems f rest items := by
  rw [readItems_spaces, readItems_literal]
  intro d hFirst
  cases hFirst
  exact hBlank

theorem readItems_separator :
    readItems f ('T' :: rest) (.separator :: items) =
      readItems f rest items := by
  simp only [readItems, readItem, true_or, if_true,
    Option.bind_eq_bind, Option.bind_some]

/- The end of a timestamp: its fraction and the letter for universal time. -/
theorem readItems_ending
    {nano : Nat}
    (hNano : nano ≤ 999999999) :
    readItems f (fractionText nano ++ ['Z'])
        [.fraction, .spaces, .spaces, .looseOffset, .spaces] =
      some { f with nano := nano, offset := 0 } := by
  have hZone : takeLooseOffset ['Z'] = some (0, []) := rfl
  have hBlank : Text.trimStart ['Z'] = ['Z'] := rfl
  simp only [readItems, readItem,
    takeFraction_fractionText hNano, hBlank, hZone,
    Option.bind_eq_bind, Option.bind_some, Option.pure_def]
  rfl

end Pattern

------------------------------------------------------------
-- Stored Timestamps
------------------------------------------------------------

namespace Moment

variable {m : Moment}

theorem stampText_eq :
    m.stampText =
      Date.yearText m.date.year ++
        '-' :: (paddedText 2 m.date.month ++
        '-' :: (paddedText 2 m.date.day ++
        'T' :: (paddedText 2 m.hour ++
        ':' :: (paddedText 2 m.minute ++
        ':' :: (paddedText 2 m.second ++
        (Pattern.fractionText m.nano ++ ['Z'])))))) := by
  simp only [stampText, timeText, Date.text,
    Pattern.fractionText, List.append_assoc, List.cons_append]

/- The time of day is in range, so moving it by nothing leaves it. -/
theorem shift_zero
    (hValid : m.IsValid) :
    m.shift 0 = m := by
  rcases hValid with ⟨_, hHour, hMinute, _, _⟩
  cases m with
  | mk date hour minute second nano =>
      have hHour' : hour ≤ 23 := hHour
      have hMinute' : minute ≤ 59 := hMinute
      have hDay :
          ((hour : Int) * 60 + minute) % 1440 =
            ((hour * 60 + minute : Nat) : Int) := by
        omega
      have hNotBefore :
          ¬ ((hour : Int) * 60 + minute < 0) := by
        omega
      have hNotAfter :
          ¬ (1440 ≤ (hour : Int) * 60 + minute) := by
        omega
      simp only [shift, Int.add_zero, hDay, Int.toNat_natCast,
        if_neg hNotBefore, if_neg hNotAfter]
      congr 1 <;> omega

end Moment

namespace Date

theorem monthLength_le
    (year : Int)
    (month : Nat) :
    monthLength year month ≤ 31 := by
  unfold monthLength
  repeat' split
  all_goals decide

end Date

namespace Pattern.Fields

/- The numbers of a moment in universal time. -/
def ofMoment (m : Moment) : Fields :=
  { year := some m.date.year
    month := some m.date.month
    day := some m.date.day
    hour := some m.hour
    minute := some m.minute
    second := m.second
    nano := m.nano
    offset := 0 }

theorem universal?_ofMoment
    {m : Moment}
    (hValid : m.IsValid) :
    (ofMoment m).universal? = some m := by
  have hDate : m.date.IsValid := hValid.1
  simp only [ofMoment, universal?, moment?, date?,
    Date.make?, Option.bind_eq_bind, Option.bind_some,
    Option.pure_def, if_pos hDate, Option.map_some,
    Int.neg_zero, Moment.shift_zero hValid, Option.filter_some,
    decide_eq_true hDate, if_true]

end Pattern.Fields

namespace Calendar

open Pattern

/- The numbers of a moment are read from its written form. -/
theorem read?_stampText
    {m : Moment}
    (hValid : m.IsValid) :
    read? stampPattern m.stampText =
      some (Fields.ofMoment m) := by
  rcases hValid with ⟨hDate, hHour, hMinute, hSecond, hNano⟩
  rcases hDate with ⟨_, _, hFirstMonth, hMonth, hFirstDay, hDay⟩
  have hLength :=
    Date.monthLength_le m.date.year m.date.month
  rw [Moment.stampText_eq]
  unfold read? stampPattern
  rw [readItems_year (by simp; decide),
    readItems_between (by decide),
    readItems_number (by decide) (by omega)
      (Fields.store?_month hFirstMonth hMonth),
    readItems_between (by decide),
    readItems_number (by decide) (by omega)
      (Fields.store?_day hFirstDay (by omega)),
    readItems_separator,
    readItems_number (by decide) (by omega)
      (Fields.store?_hour hHour),
    readItems_between (by decide),
    readItems_number (by decide) (by omega)
      (Fields.store?_minute hMinute),
    readItems_between (by decide),
    readItems_number (by decide) (by omega)
      (Fields.store?_second hSecond),
    readItems_ending hNano]
  rfl

/- A stored timestamp is read as the moment it was written for. -/
theorem readStamp_stampText
    {m : Moment}
    (hValid : m.IsValid) :
    readStamp m.stampText = some m := by
  unfold readStamp
  rw [read?_stampText hValid, Option.bind_some]
  exact Fields.universal?_ofMoment hValid

end Calendar

end Rowstore
