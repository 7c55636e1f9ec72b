import Rowstore.Proofs.Calendar.Patterns
import Rowstore.Proofs.Calendar.Stamps

/-
  The texts that are understood as dates and as moments.

  The forms of a date hold no colon, and the forms of a date
  with a time hold one.  So no text has forms of both kinds,
  and it does not matter that dates and moments try the forms
  in different orders: the same texts are understood as dates
  and as moments.  What is understood exists, and its written
  form is understood again.

  Main declarations:
    * `Calendar.Understood` and `Calendar.understood_or_none`
    * `Calendar.isSome_readDate`
    * `Calendar.HasOffset` and `Calendar.Understood.date_eq`
    * `Calendar.isValid_of_readDate` and
      `Calendar.isValid_of_readMoment`
-/

------------------------------------------------------------
-- Dates And Their Neighbours
------------------------------------------------------------

namespace Rowstore

namespace Date

variable {d : Date}

theorem eq_of_make?
    {year : Int}
    {month day : Nat}
    (hMade : make? year month day = some d) :
    d = { year := year, month := month, day := day } ∧
      d.IsValid := by
  simp only [make?] at hMade
  split at hMade
  · rename_i hValid
    cases hMade
    exact ⟨rfl, hValid⟩
  · cases hMade

theorem le_monthLength
    (year : Int)
    (month : Nat) :
    28 ≤ monthLength year month := by
  unfold monthLength
  repeat' split
  all_goals decide

theorem isValid_next
    (hValid : d.IsValid)
    (hYear : d.year < lastYear) :
    d.next.IsValid := by
  rcases hValid with
    ⟨hFirst, hLast, hFirstMonth, hMonth, hFirstDay, hDay⟩
  unfold next
  split
  · rename_i hInMonth
    exact
      ⟨hFirst, hLast, hFirstMonth, hMonth, Nat.le_add_left 1 _,
        hInMonth⟩
  split
  · rename_i hInYear
    exact
      ⟨hFirst, hLast, Nat.le_add_left 1 _, hInYear, le_refl 1,
        (by decide : 1 ≤ 28).trans (le_monthLength _ _)⟩
  · refine
      ⟨hFirst.trans (Int.le_add_one (le_refl _)), hYear,
        le_refl 1, (by decide : 1 ≤ 12), le_refl 1,
        (by decide : 1 ≤ 28).trans (le_monthLength _ _)⟩

theorem isValid_previous
    (hValid : d.IsValid)
    (hYear : firstYear < d.year) :
    d.previous.IsValid := by
  rcases hValid with
    ⟨hFirst, hLast, hFirstMonth, hMonth, hFirstDay, hDay⟩
  unfold previous
  split
  · rename_i hInMonth
    exact
      ⟨hFirst, hLast, hFirstMonth, hMonth,
        Nat.le_sub_one_of_lt hInMonth,
        (Nat.sub_le d.day 1).trans hDay⟩
  split
  · rename_i hInYear
    exact
      ⟨hFirst, hLast, Nat.le_sub_one_of_lt hInYear,
        (Nat.sub_le d.month 1).trans hMonth,
        (by decide : 1 ≤ 28).trans (le_monthLength _ _),
        le_refl _⟩
  · exact
      ⟨Int.le_sub_one_of_lt hYear,
        (Int.sub_le_self d.year (by decide)).trans hLast,
        (by decide : 1 ≤ 12), le_refl 12,
        (by decide : 1 ≤ 31), le_refl 31⟩

end Date

------------------------------------------------------------
-- What Was Read Exists
------------------------------------------------------------

namespace Pattern.Fields

variable {f : Fields} {d : Date} {m : Moment}

theorem exists_of_date?
    (hRead : f.date? = some d) :
    f.year = some d.year ∧ f.month = some d.month ∧
      f.day = some d.day ∧ d.IsValid := by
  simp only [date?, Option.bind_eq_bind,
    Option.bind_eq_some_iff] at hRead
  rcases hRead with
    ⟨year, hYear, month, hMonth, day, hDay, hMade⟩
  rcases Date.eq_of_make? hMade with ⟨rfl, hValid⟩
  exact ⟨hYear, hMonth, hDay, hValid⟩

theorem exists_of_moment?
    (hRead : f.moment? = some m) :
    f.date? = some m.date ∧ f.hour = some m.hour ∧
      f.minute = some m.minute ∧ f.second = m.second ∧
        f.nano = m.nano := by
  simp only [moment?, Option.bind_eq_bind,
    Option.bind_eq_some_iff] at hRead
  rcases hRead with
    ⟨date, hDate, hour, hHour, minute, hMinute, hDone⟩
  cases hDone
  exact ⟨hDate, hHour, hMinute, rfl, rfl⟩

theorem isValid_of_moment?
    (hRange : f.InRange)
    (hRead : f.moment? = some m) :
    m.IsValid := by
  rcases exists_of_moment? hRead with
    ⟨hDate, hHour, hMinute, hSecond, hNano⟩
  exact
    ⟨(exists_of_date? hDate).2.2.2, hRange.hour _ hHour,
      hRange.minute _ hMinute, hSecond ▸ hRange.second,
      hNano ▸ hRange.nano⟩

end Pattern.Fields

namespace Moment

variable {m : Moment} {minutes : Int}

/- A moved moment has a time of day; whether it exists depends on its date. -/
theorem isValid_shift
    (hValid : m.IsValid)
    (hDate : (m.shift minutes).date.IsValid) :
    (m.shift minutes).IsValid := by
  rcases hValid with ⟨_, _, _, hSecond, hNano⟩
  have hInDay :
      (((m.hour : Int) * 60 + m.minute + minutes) % 1440).toNat <
        1440 := by
    omega
  refine ⟨hDate, ?_, ?_, hSecond, hNano⟩
  · exact
      Nat.le_of_lt_succ (Nat.div_lt_of_lt_mul hInDay)
  · exact Nat.le_of_lt_succ (Nat.mod_lt _ (by decide))

/- Moments are moved to the same date or to its neighbours. -/
theorem isValid_date_shift
    (hValid : m.date.IsValid)
    (hFirst : Date.firstYear < m.date.year)
    (hLast : m.date.year < Date.lastYear) :
    (m.shift minutes).date.IsValid := by
  simp only [shift]
  split
  · exact Date.isValid_previous hValid hFirst
  split
  · exact Date.isValid_next hValid hLast
  · exact hValid

end Moment

namespace Pattern.Fields

variable {f : Fields} {m : Moment}

theorem exists_of_universal?
    (hRead : f.universal? = some m) :
    ∃ here,
      f.moment? = some here ∧ m = here.shift (-f.offset) ∧
        m.date.IsValid := by
  rcases Option.filter_eq_some_iff.mp hRead with
    ⟨hShifted, hValid⟩
  rcases Option.map_eq_some_iff.mp hShifted with
    ⟨here, hHere, hShift⟩
  exact ⟨here, hHere, hShift.symm, of_decide_eq_true hValid⟩

theorem universal?_of_isValid
    {here : Moment}
    (hHere : f.moment? = some here)
    (hValid : (here.shift (-f.offset)).date.IsValid) :
    f.universal? = some (here.shift (-f.offset)) := by
  unfold universal?
  rw [hHere, Option.map_some, Option.filter_some,
    if_pos (decide_eq_true hValid)]

theorem isValid_of_universal?
    (hRange : f.InRange)
    (hRead : f.universal? = some m) :
    m.IsValid := by
  rcases exists_of_universal? hRead with
    ⟨here, hHere, rfl, hDate⟩
  exact
    Moment.isValid_shift (isValid_of_moment? hRange hHere) hDate

end Pattern.Fields

------------------------------------------------------------
-- Forms With And Without A Time
------------------------------------------------------------

namespace Calendar

open Pattern

variable {s : List Char} {d : Date} {m : Moment}

theorem exists_of_firstDate?
    {patterns : List (List Item)}
    (hFirst : firstDate? patterns s = some d) :
    ∃ p ∈ patterns,
      ∃ f, read? p s = some f ∧ f.date? = some d := by
  rcases List.exists_of_findSome?_eq_some hFirst with
    ⟨p, hMember, hRead⟩
  rcases Option.bind_eq_some_iff.mp hRead with
    ⟨f, hFields, hDate⟩
  exact ⟨p, hMember, f, hFields, hDate⟩

theorem exists_of_firstMoment?
    {patterns : List (List Item)}
    (hFirst : firstMoment? patterns s = some m) :
    ∃ p ∈ patterns,
      ∃ f, read? p s = some f ∧ f.moment? = some m := by
  rcases List.exists_of_findSome?_eq_some hFirst with
    ⟨p, hMember, hRead⟩
  rcases Option.bind_eq_some_iff.mp hRead with
    ⟨f, hFields, hMoment⟩
  exact ⟨p, hMember, f, hFields, hMoment⟩

/- A text with a form of a date holds no colon. -/
theorem colon_notMem_of_firstDate?
    (hFirst : firstDate? datePatterns s = some d) :
    ':' ∉ s := by
  rcases exists_of_firstDate? hFirst with
    ⟨p, hMember, f, hRead, _⟩
  have hTakes :
      ∀ p ∈ datePatterns, ∀ i ∈ p, i.takes ':' = false := by
    decide
  exact notMem_of_readItems (hTakes p hMember) hRead

/- A text with a form of a date with a time holds a colon. -/
theorem colon_mem_of_firstMoment?
    (hFirst : firstMoment? timePatterns s = some m) :
    ':' ∈ s := by
  rcases exists_of_firstMoment? hFirst with
    ⟨p, hMember, f, hRead, _⟩
  have hLiteral :
      ∀ p ∈ timePatterns, .literal ':' ∈ p := by
    decide
  exact mem_of_readItems (hLiteral p hMember) hRead

theorem colon_mem_of_internet
    {f : Fields}
    (hRead : read? internetPattern s = some f) :
    ':' ∈ s :=
  mem_of_readItems (by decide) hRead

/-
  The date of a text with an offset has a year of four
  digits, so it stays among the dates when it is moved to
  universal time.
-/
theorem exists_universal?
    {f : Fields}
    (hRead : read? internetPattern s = some f)
    (hHere : f.moment? = some m) :
    ∃ u, f.universal? = some u := by
  have hDate := (Fields.exists_of_moment? hHere).1
  rcases Fields.exists_of_date? hDate with
    ⟨hYear, _, _, hValid⟩
  rcases year_of_read? (by decide) hRead _ hYear with
    ⟨hFirst, hLast⟩
  have hFirst' : Date.firstYear < m.date.year :=
    (by decide : Date.firstYear < 0).trans_le hFirst
  have hLast' : m.date.year < Date.lastYear :=
    hLast.trans_lt (by decide)
  exact
    ⟨_, Fields.universal?_of_isValid hHere
      (Moment.isValid_date_shift hValid hFirst' hLast')⟩

/- How a text may be understood, as a date and as a moment. -/
inductive Understood
    (s : List Char) :
    Date → Moment → Prop where
| date
    {d : Date}
    (hDate : firstDate? datePatterns s = some d) :
    Understood s d (.startOf d)
| internet
    {f : Fields}
    {here there : Moment}
    (hRead : read? internetPattern s = some f)
    (hHere : f.moment? = some here)
    (hThere : f.universal? = some there) :
    Understood s here.date there
| time
    {m : Moment}
    (hMoment : firstMoment? timePatterns s = some m) :
    Understood s m.date m

/-
  A text is understood both as a date and as a moment, in the
  same way, or as neither.
-/
theorem understood_or_none (s : List Char) :
    (∃ d m,
      Understood s d m ∧ readDate s = some d ∧
        readMoment s = some m) ∨
      readDate s = none ∧ readMoment s = none := by
  unfold readDate readMoment
  by_cases hColon : ':' ∈ s
  · have hDate : firstDate? datePatterns s = none := by
      rw [Option.eq_none_iff_forall_ne_some]
      intro d hFirst
      exact colon_notMem_of_firstDate? hFirst hColon
    rw [hDate]
    cases hInternet : (read? internetPattern s).bind
        Fields.moment? with
    | some here =>
        rcases Option.bind_eq_some_iff.mp hInternet with
          ⟨f, hRead, hHere⟩
        rcases exists_universal? hRead hHere with
          ⟨there, hThere⟩
        rw [hRead, Option.bind_some, hThere]
        exact
          .inl ⟨_, _, .internet hRead hHere hThere, rfl, rfl⟩
    | none =>
        have hUniversal :
            (read? internetPattern s).bind Fields.universal? =
              none := by
          cases hRead : read? internetPattern s with
          | none => rfl
          | some f =>
              rw [hRead, Option.bind_some] at hInternet
              simp only [Option.bind_some, Fields.universal?,
                hInternet, Option.map_none, Option.filter_none]
        rw [hUniversal]
        cases hTime : firstMoment? timePatterns s with
        | some m => exact .inl ⟨_, _, .time hTime, rfl, rfl⟩
        | none => exact .inr ⟨rfl, rfl⟩
  · have hInternet : read? internetPattern s = none := by
      rw [Option.eq_none_iff_forall_ne_some]
      intro f hRead
      exact hColon (colon_mem_of_internet hRead)
    have hTime : firstMoment? timePatterns s = none := by
      rw [Option.eq_none_iff_forall_ne_some]
      intro m hFirst
      exact hColon (colon_mem_of_firstMoment? hFirst)
    rw [hInternet, hTime]
    cases hDate : firstDate? datePatterns s with
    | some d => exact .inl ⟨_, _, .date hDate, rfl, rfl⟩
    | none => exact .inr ⟨rfl, rfl⟩

/- The same texts are understood as dates and as moments. -/
theorem isSome_readDate (s : List Char) :
    (readDate s).isSome = (readMoment s).isSome := by
  rcases understood_or_none s with
    ⟨d, m, _, hDate, hMoment⟩ | ⟨hDate, hMoment⟩
  · rw [hDate, hMoment]
    rfl
  · rw [hDate, hMoment]
    rfl

theorem Understood.isValid
    (hUnderstood : Understood s d m) :
    d.IsValid ∧ m.IsValid := by
  cases hUnderstood with
  | date hDate =>
      rcases exists_of_firstDate? hDate with ⟨_, _, f, _, hRead⟩
      have hValid := (Fields.exists_of_date? hRead).2.2.2
      exact
        ⟨hValid, hValid, Nat.zero_le _, Nat.zero_le _,
          Nat.zero_le _, Nat.zero_le _⟩
  | internet hRead hHere hThere =>
      have hRange := inRange_of_read? hRead
      exact
        ⟨(Fields.isValid_of_moment? hRange hHere).1,
          Fields.isValid_of_universal? hRange hThere⟩
  | time hMoment =>
      rcases exists_of_firstMoment? hMoment with
        ⟨_, _, f, hRead, hHere⟩
      have hValid :=
        Fields.isValid_of_moment? (inRange_of_read? hRead) hHere
      exact ⟨hValid.1, hValid⟩

theorem isValid_of_readDate
    (hRead : readDate s = some d) :
    d.IsValid := by
  rcases understood_or_none s with
    ⟨d', m, hUnderstood, hDate, _⟩ | ⟨hDate, _⟩
  · cases hRead.symm.trans hDate
    exact hUnderstood.isValid.1
  · cases hRead.symm.trans hDate

theorem isValid_of_readMoment
    (hRead : readMoment s = some m) :
    m.IsValid := by
  rcases understood_or_none s with
    ⟨d, m', hUnderstood, _, hMoment⟩ | ⟨_, hMoment⟩
  · cases hRead.symm.trans hMoment
    exact hUnderstood.isValid.2
  · cases hRead.symm.trans hMoment

/- The text is a date with a time and an offset that is not zero. -/
def HasOffset (s : List Char) : Prop :=
  ∃ f,
    read? internetPattern s = some f ∧ f.moment?.isSome ∧
      f.offset ≠ 0

/- Without an offset the date of the moment is the date. -/
theorem Understood.date_eq
    (hUnderstood : Understood s d m)
    (hOffset : ¬ HasOffset s) :
    m.date = d := by
  cases hUnderstood with
  | date hDate => rfl
  | internet hRead hHere hThere =>
      rename_i f here
      have hZero : f.offset = 0 := by
        by_contra hNonzero
        exact
          hOffset ⟨f, hRead, by rw [hHere]; rfl, hNonzero⟩
      rcases Fields.exists_of_universal? hThere with
        ⟨here', hHere', rfl, _⟩
      cases hHere.symm.trans hHere'
      have hValid :=
        Fields.isValid_of_moment? (inRange_of_read? hRead) hHere
      rw [hZero, Int.neg_zero, Moment.shift_zero hValid]
  | time hMoment => rfl

end Calendar

end Rowstore
