import Rowstore.Proofs.Calendar.Entries

/-
  Dates and moments are understood from their written forms.

  The written form of a date is understood as that date.  The
  written form of a moment in universal time is understood as
  the moment without what its milliseconds leave out, if its
  year has four digits; with a sign in front of the year it
  is not understood at all.  Either way, writing what is
  understood gives the same text.

  Main declarations:
    * `Calendar.readDate_text`
    * `Calendar.milliText_of_readMoment`
-/

------------------------------------------------------------
-- Characters Of Written Forms
------------------------------------------------------------

namespace Rowstore

open Decimal

namespace Date

variable {d : Date}

theorem mem_yearText
    {year : Int}
    {c : Char}
    (hMember : c ∈ yearText year) :
    isDigit c = true ∨ c = '-' ∨ c = '+' := by
  simp only [yearText] at hMember
  split at hMember
  · rcases List.mem_cons.mp hMember with hSign | hDigit
    · exact .inr (.inl hSign)
    · exact .inl (isDigit_of_mem_paddedText hDigit)
  split at hMember
  · rcases List.mem_cons.mp hMember with hSign | hDigit
    · exact .inr (.inr hSign)
    · exact .inl (isDigit_of_mem_paddedText hDigit)
  · exact .inl (isDigit_of_mem_paddedText hMember)

theorem mem_text
    {c : Char}
    (hMember : c ∈ d.text) :
    isDigit c = true ∨ c = '-' ∨ c = '+' := by
  simp only [text, List.mem_append, List.mem_cons]
    at hMember
  rcases hMember with
    (hYear | hDash | hMonth) | hDash | hDay
  · exact mem_yearText hYear
  · exact .inr (.inl hDash)
  · exact .inl (isDigit_of_mem_paddedText hMonth)
  · exact .inr (.inl hDash)
  · exact .inl (isDigit_of_mem_paddedText hDay)

theorem isBlank_of_mem_text
    {c : Char}
    (hMember : c ∈ d.text) :
    Text.isBlank c = false := by
  rcases mem_text hMember with hDigit | rfl | rfl
  · exact isBlank_of_isDigit hDigit
  · decide
  · decide

theorem tight_text : Text.Tight d.text :=
  Text.tight_of_forall fun _ hMember =>
    isBlank_of_mem_text hMember

/- The text before the mark of a time is the whole date. -/
theorem notMem_text : 'T' ∉ d.text := by
  intro hMember
  rcases mem_text hMember with hDigit | hDash | hPlus
  · exact absurd hDigit (by decide)
  · exact absurd hDash (by decide)
  · exact absurd hPlus (by decide)

end Date

namespace Moment

variable {m : Moment}

theorem milliText_eq :
    m.milliText =
      Date.yearText m.date.year ++
        '-' :: (paddedText 2 m.date.month ++
        '-' :: (paddedText 2 m.date.day ++
        'T' :: (paddedText 2 m.hour ++
        ':' :: (paddedText 2 m.minute ++
        ':' :: (paddedText 2 m.second ++
        ('.' :: paddedText 3 (m.nano / 1000000) ++
          ['Z'])))))) := by
  simp only [milliText, timeText, Date.text,
    List.append_assoc, List.cons_append]

theorem exists_milliText :
    ∃ rest, m.milliText = m.date.text ++ 'T' :: rest := by
  simp [milliText]

theorem tight_milliText : Text.Tight m.milliText where
  first := by
    intro c hHead
    cases hText : m.date.text with
    | nil => simp [Date.text] at hText
    | cons d rest =>
        simp only [milliText, hText, List.cons_append,
          List.head?_cons, Option.mem_def, Option.some.injEq]
          at hHead
        subst hHead
        exact
          Date.isBlank_of_mem_text (d := m.date)
            (hText ▸ List.mem_cons_self)
  last := by
    intro c hLast
    simp only [milliText, List.getLast?_concat,
      Option.mem_def, Option.some.injEq] at hLast
    subst hLast
    decide

end Moment

------------------------------------------------------------
-- Numbers Of A Fixed Width
------------------------------------------------------------

namespace Pattern

variable {f g : Fields} {items : List Item} {rest : List Char}

theorem takeStrict_paddedText
    {part : Part}
    {n : Nat}
    (hFits : n < 10 ^ width part)
    (rest : List Char) :
    takeStrict part (paddedText (width part) n ++ rest) =
      some ((n : Int), rest) := by
  have hWidth : 0 < width part := by
    cases part <;> decide
  have hLength := length_paddedText hWidth hFits
  have hDigits :
      (paddedText (width part) n).all isDigit = true :=
    List.all_eq_true.mpr
      fun _ hMember => isDigit_of_mem_paddedText hMember
  simp only [takeStrict, List.take_left' hLength,
    List.drop_left' hLength, hLength, hDigits, and_self,
    if_true, digitsValue_paddedText]

theorem readItems_strict
    {part : Part}
    {n w : Nat}
    (hWidth : width part = w)
    (hFits : n < 10 ^ w)
    (hKept : f.store? part n = some g) :
    readItems f (paddedText w n ++ rest)
        (.strict part :: items) =
      readItems g rest items := by
  subst hWidth
  simp only [readItems, readItem, keep,
    takeStrict_paddedText hFits, hKept, Option.bind_eq_bind,
    Option.bind_some, Option.pure_def]

/- The end of a moment: its milliseconds and the letter for universal time. -/
theorem readItems_millis
    {millis : Nat}
    (hFits : millis < 1000) :
    readItems f ('.' :: paddedText 3 millis ++ ['Z'])
        [.fraction, .offset] =
      some { f with nano := millis * 1000000, offset := 0 } := by
  have hZone : takeOffset ['Z'] = some (0, []) := rfl
  have hFraction :
      takeFraction ('.' :: paddedText 3 millis ++ ['Z']) =
        some (millis * 1000000, ['Z']) :=
    takeFraction_paddedText (by decide) (by decide) hFits
  simp only [readItems, readItem, hFraction, hZone,
    Option.bind_eq_bind, Option.bind_some, Option.pure_def]
  rfl

end Pattern

------------------------------------------------------------
-- Dates
------------------------------------------------------------

namespace Calendar

open Pattern

/- A date is understood from its written form. -/
theorem readDate_text
    {d : Date}
    (hValid : d.IsValid) :
    readDate d.text = some d := by
  have hExists := hValid
  rcases hValid with ⟨_, _, hFirstMonth, hMonth, hFirstDay, hDay⟩
  have hLength := Date.monthLength_le d.year d.month
  have hRead :
      read? (dateItems .year .month .day '-') d.text =
        some
          { Fields.empty with
            year := some d.year
            month := some d.month
            day := some d.day } := by
    have hText :
        d.text =
          Date.yearText d.year ++
            '-' :: (paddedText 2 d.month ++
            '-' :: (paddedText 2 d.day ++ [])) := by
      simp only [Date.text, List.append_assoc,
        List.cons_append, List.append_nil]
    rw [hText]
    unfold read? dateItems
    rw [readItems_year (by simp; decide), readItems_literal,
      readItems_number (by decide) (by omega)
        (Fields.store?_month hFirstMonth hMonth),
      readItems_literal,
      readItems_number (by decide) (by omega)
        (Fields.store?_day hFirstDay (by omega))]
    rfl
  have hDate :
      (read? (dateItems .year .month .day '-') d.text).bind
        Fields.date? = some d := by
    rw [hRead, Option.bind_some]
    simp only [Fields.date?, Date.make?, Option.bind_eq_bind,
      Option.bind_some, if_pos hExists]
  simp only [readDate, firstDate?, datePatterns,
    List.findSome?_cons, hDate, Option.some_or]

------------------------------------------------------------
-- Moments
------------------------------------------------------------

variable {m : Moment}

/- A moment with what its milliseconds leave out set to zero. -/
def wholeMillis (m : Moment) : Moment :=
  { m with nano := m.nano / 1000000 * 1000000 }

theorem isValid_wholeMillis
    (hValid : m.IsValid) :
    (wholeMillis m).IsValid := by
  rcases hValid with ⟨hDate, hHour, hMinute, hSecond, hNano⟩
  exact
    ⟨hDate, hHour, hMinute, hSecond,
      (Nat.div_mul_le_self m.nano 1000000).trans hNano⟩

theorem milliText_wholeMillis :
    (wholeMillis m).milliText = m.milliText := by
  have hMillis :
      m.nano / 1000000 * 1000000 / 1000000 =
        m.nano / 1000000 :=
    Nat.mul_div_cancel _ (by decide)
  simp only [Moment.milliText, Moment.timeText, wholeMillis,
    hMillis]

/- A year of four digits is written without a sign, so the fixed widths fit. -/
theorem read?_milliText
    (hValid : m.IsValid)
    (hFirst : 0 ≤ m.date.year)
    (hLast : m.date.year ≤ 9999) :
    read? internetPattern m.milliText =
      some (Fields.ofMoment (wholeMillis m)) := by
  rcases hValid with ⟨hDate, hHour, hMinute, hSecond, hNano⟩
  rcases hDate with ⟨_, _, hFirstMonth, hMonth, hFirstDay, hDay⟩
  have hLength :=
    Date.monthLength_le m.date.year m.date.month
  have hYear :
      Date.yearText m.date.year =
        paddedText 4 m.date.year.natAbs := by
    unfold Date.yearText
    rw [if_neg (by omega), if_neg (by omega)]
  have hKept :
      Fields.empty.store? .year (m.date.year.natAbs : Int) =
        some { Fields.empty with year := some m.date.year } := by
    rw [Int.natAbs_of_nonneg hFirst]
    rfl
  rw [Moment.milliText_eq, hYear]
  unfold read? internetPattern
  rw [readItems_strict (w := 4) rfl (by omega) hKept,
    readItems_literal,
    readItems_strict (w := 2) rfl (by omega)
      (Fields.store?_month hFirstMonth hMonth),
    readItems_literal,
    readItems_strict (w := 2) rfl (by omega)
      (Fields.store?_day hFirstDay (by omega)),
    readItems_separator,
    readItems_strict (w := 2) rfl (by omega)
      (Fields.store?_hour hHour),
    readItems_literal,
    readItems_strict (w := 2) rfl (by omega)
      (Fields.store?_minute hMinute),
    readItems_literal,
    readItems_strict (w := 2) rfl (by omega)
      (Fields.store?_second hSecond),
    readItems_millis (by omega)]
  rfl

/- A sign in front of the year is no digit of it. -/
theorem read?_milliText_of_signed
    (hYear : ¬ (0 ≤ m.date.year ∧ m.date.year ≤ 9999)) :
    read? internetPattern m.milliText = none := by
  have hSign :
      ∃ c rest,
        m.milliText = c :: rest ∧ isDigit c = false := by
    rw [Moment.milliText_eq]
    simp only [Date.yearText]
    split
    · exact ⟨'-', _, rfl, by decide⟩
    split
    · exact ⟨'+', _, rfl, by decide⟩
    · omega
  rcases hSign with ⟨c, rest, hText, hDigit⟩
  have hTaken : takeStrict .year (c :: rest) = none := by
    simp [takeStrict, width, hDigit]
  rw [hText]
  simp only [read?, internetPattern, readItems, readItem, keep,
    hTaken, Option.bind_eq_bind, Option.bind_none]

/- No form without an offset ends in the letter for universal time. -/
theorem zulu_notMem_of_firstMoment?
    {s : List Char}
    (hFirst : firstMoment? timePatterns s = some m) :
    'Z' ∉ s := by
  rcases exists_of_firstMoment? hFirst with
    ⟨p, hMember, f, hRead, _⟩
  have hTakes :
      ∀ p ∈ timePatterns, ∀ i ∈ p, i.takes 'Z' = false := by
    decide
  exact notMem_of_readItems (hTakes p hMember) hRead

/- What is understood from the written form of a moment has that written form. -/
theorem milliText_of_readMoment
    {n : Moment}
    (hValid : m.IsValid)
    (hRead : readMoment m.milliText = some n) :
    n.milliText = m.milliText := by
  have hColon : ':' ∈ m.milliText := by
    simp [Moment.milliText, Moment.timeText]
  have hZulu : 'Z' ∈ m.milliText := by
    simp [Moment.milliText]
  rcases understood_or_none m.milliText with
    ⟨d, n', hUnderstood, _, hMoment⟩ | ⟨_, hMoment⟩
  · cases hRead.symm.trans hMoment
    cases hUnderstood with
    | date hDate =>
        exact absurd hColon (colon_notMem_of_firstDate? hDate)
    | internet hFields hHere hThere =>
        by_cases hYear :
            0 ≤ m.date.year ∧ m.date.year ≤ 9999
        · rw [read?_milliText hValid hYear.1 hYear.2] at hFields
          cases hFields
          rw [Fields.universal?_ofMoment
            (isValid_wholeMillis hValid)] at hThere
          cases hThere
          exact milliText_wholeMillis
        · rw [read?_milliText_of_signed hYear] at hFields
          cases hFields
    | time hTime =>
        exact absurd hZulu (zulu_notMem_of_firstMoment? hTime)
  · rw [hMoment] at hRead
    cases hRead

end Calendar

end Rowstore
