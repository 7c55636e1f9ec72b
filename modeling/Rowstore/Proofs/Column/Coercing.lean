import Rowstore.Column.Coercion
import Rowstore.Proofs.Calendar.Rereading

/-
  What a column makes of an entered text.

  Columns for dates and for dates with a time understand the
  same texts, and store the same date for a text without an
  offset.  A value made from an entered text is displayed as
  a text that gives the same value again.  The exception is a
  text that is cut right behind a blank: it keeps that blank
  until its own display is entered.

  Main declarations:
    * `Column.coerce_day_eq_datePart`
    * `Column.Conforms` and `Column.conforms_coerce`
    * `Column.CutsBehindBlank`
    * `Column.coerce_display_of_text`
    * `Column.coerce_display_eq_iff`
-/

------------------------------------------------------------
-- Dates With And Without A Time
------------------------------------------------------------

namespace Rowstore

namespace Column

open Calendar

variable {c : Column} {raw : String} {n : Nat}

theorem coerce_of_date
    (hBase : c.base = .date) :
    c.coerce raw =
      orEntered raw.toList
        ((readDate (Text.trim raw.toList)).map Date.text) := by
  unfold coerce
  rw [hBase]

theorem coerce_of_datetime
    (hBase : c.base = .datetime) :
    c.coerce raw =
      orEntered raw.toList
        ((readMoment (Text.trim raw.toList)).map
          Moment.milliText) := by
  unfold coerce
  rw [hBase]

theorem orEntered_none :
    orEntered raw.toList none = .text raw := by
  unfold orEntered
  rw [Option.getD_none, String.ofList_toList]

/-
  Columns for dates and for dates with a time understand the
  same texts.  Of what is understood, both store the same
  date, save for a time with an offset, whose date in
  universal time may be another one; what is not understood
  both store as it is.
-/
theorem coerce_day_eq_datePart
    {day time : Column}
    (hDay : day.base = .date)
    (hTime : time.base = .datetime) :
    (∀ s, (readDate s).isSome ↔ (readMoment s).isSome) ∧
      ∀ raw,
        ((readDate (Text.trim raw.toList)).isSome →
          ¬ HasOffset (Text.trim raw.toList) →
            ∃ date rest,
              'T' ∉ date ∧
                day.coerce raw = .text (.ofList date) ∧
                  time.coerce raw =
                    .text (.ofList (date ++ 'T' :: rest))) ∧
        ((readDate (Text.trim raw.toList)).isNone →
          day.coerce raw = .text raw ∧
            time.coerce raw = .text raw) := by
  refine ⟨fun s => by rw [isSome_readDate], fun raw => ?_⟩
  rw [coerce_of_date hDay, coerce_of_datetime hTime]
  rcases understood_or_none (Text.trim raw.toList) with
    ⟨d, m, hUnderstood, hDate, hMoment⟩ | ⟨hDate, hMoment⟩
  · rw [hDate, hMoment]
    refine ⟨fun _ hOffset => ?_, fun hNone => nomatch hNone⟩
    rcases Moment.exists_milliText (m := m) with ⟨rest, hText⟩
    refine ⟨d.text, rest, Date.notMem_text, rfl, ?_⟩
    rw [← hUnderstood.date_eq hOffset, ← hText]
    rfl
  · rw [hDate, hMoment]
    refine ⟨fun hSome => (nomatch hSome), fun _ => ?_⟩
    exact ⟨orEntered_none, orEntered_none⟩

/- One of the columns reads a day of a leap year, and the other its first moment. -/
theorem coerce_day_eq_datePart_leapDay :
    ∃ day time : Column,
      day.base = .date ∧ time.base = .datetime ∧
        ∃ date rest,
          'T' ∉ date ∧
            day.coerce " 29.2.2024 " = .text (.ofList date) ∧
              time.coerce " 29.2.2024 " =
                .text (.ofList (date ++ 'T' :: rest)) := by
  refine
    ⟨ofType ⟨1⟩ "day" ⟨"DATE", .date, none, none, none⟩ false,
      ofType ⟨2⟩ "time" ⟨"DATETIME", .datetime, none, none, none⟩
        false, rfl, rfl, ?_⟩
  refine
    ((coerce_day_eq_datePart rfl rfl).2 " 29.2.2024 ").1
      (by decide) ?_
  rintro ⟨f, hRead, _⟩
  have hNone :
      Pattern.read? internetPattern
        (Text.trim " 29.2.2024 ".toList) = none := by
    decide
  rw [hNone] at hRead
  cases hRead

------------------------------------------------------------
-- Conforming Values
------------------------------------------------------------

/-
  The value is of the kind that the column is declared for.
  Under text it is the start of the trimmed text that was
  entered, with no more characters than are declared.
-/
def Conforms
    (c : Column)
    (raw : String)
    (v : Value) : Prop :=
  match c.base with
  | .number => ∃ x, v = .number x
  | .boolean => ∃ b, v = .boolean b
  | .text =>
    ∃ s,
      v = .text s ∧ s.toList <+: Text.trim raw.toList ∧
        ∀ n ∈ c.length, s.toList.length ≤ n
  | .date => ∃ s, v = .text s
  | .datetime => ∃ s, v = .text s

theorem coerceText_isPrefix
    (length : Option Nat)
    (s : List Char) :
    coerceText length s <+: Text.trim s := by
  cases length with
  | none => exact List.prefix_rfl
  | some n => exact List.take_prefix n (Text.trim s)

theorem length_coerceText_le
    (s : List Char) :
    (coerceText (some n) s).length ≤ n :=
  List.length_take_le n (Text.trim s)

/- Every entered text gives a value of the column's kind. -/
theorem conforms_coerce
    (c : Column)
    (raw : String) :
    c.Conforms raw (c.coerce raw) := by
  unfold Conforms coerce
  cases c.base with
  | number => exact ⟨_, rfl⟩
  | boolean => exact ⟨_, rfl⟩
  | date => exact ⟨_, rfl⟩
  | datetime => exact ⟨_, rfl⟩
  | text =>
      refine ⟨_, rfl, ?_, ?_⟩
      · rw [String.toList_ofList]
        exact coerceText_isPrefix c.length raw.toList
      · intro n hLength
        rw [String.toList_ofList, hLength]
        exact length_coerceText_le raw.toList

------------------------------------------------------------
-- Texts Cut To A Length
------------------------------------------------------------

/- The declared number of characters ends the trimmed text behind a blank. -/
def CutsBehindBlank
    (c : Column)
    (raw : String) : Prop :=
  c.base = .text ∧
    ∃ n ∈ c.length,
      Text.endsBlank ((Text.trim raw.toList).take n) = true

instance
    (c : Column)
    (raw : String) :
    Decidable (c.CutsBehindBlank raw) := by
  unfold CutsBehindBlank
  infer_instance

theorem coerce_of_text
    (hBase : c.base = .text) :
    c.coerce raw =
      .text (.ofList (coerceText c.length raw.toList)) := by
  unfold coerce
  rw [hBase]

/- What is cut from a trimmed text starts with no blank. -/
theorem head?_coerceText
    (length : Option Nat)
    (s : List Char) :
    ∀ b ∈ (coerceText length s).head?,
      Text.isBlank b = false :=
  fun b hHead =>
    (Text.tight_trim s).first b
      (Text.mem_head?_of_isPrefix (coerceText_isPrefix length s)
        hHead)

/- Cutting a second time leaves out blanks at the end. -/
theorem coerceText_coerceText
    (length : Option Nat)
    (s : List Char) :
    coerceText length (coerceText length s) =
      Text.trimEnd (coerceText length s) := by
  have hTrim :=
    Text.trim_of_head? (head?_coerceText length s)
  cases length with
  | none => exact hTrim
  | some n =>
      have hShort :
          (Text.trimEnd (coerceText (some n) s)).length ≤ n :=
        ((Text.trimEnd_isPrefix _).length_le).trans
          (length_coerceText_le s)
      calc
        coerceText (some n) (coerceText (some n) s)
            = (Text.trim (coerceText (some n) s)).take n := rfl
        _ = (Text.trimEnd (coerceText (some n) s)).take n := by
          rw [hTrim]
        _ = Text.trimEnd (coerceText (some n) s) :=
          List.take_of_length_le hShort

theorem cutsBehindBlank_iff
    (hBase : c.base = .text) :
    c.CutsBehindBlank raw ↔
      Text.endsBlank (coerceText c.length raw.toList) =
        true := by
  unfold CutsBehindBlank
  cases hLength : c.length with
  | none =>
      -- A text that is only trimmed does not end in a blank.
      have hTight := Text.tight_trim raw.toList
      change _ ↔ Text.endsBlank (Text.trim raw.toList) = true
      rw [hTight.endsBlank_eq_false]
      simp
  | some n =>
      constructor
      · rintro ⟨_, m, hSome, hEnds⟩
        cases hSome
        exact hEnds
      · intro hEnds
        exact ⟨hBase, n, rfl, hEnds⟩

------------------------------------------------------------
-- Entering What Is Displayed
------------------------------------------------------------

theorem coerce_display_of_text
    (hBase : c.base = .text) :
    c.coerce (c.coerce raw).display =
      .text
        (.ofList
          (Text.trimEnd
            (coerceText c.length raw.toList))) := by
  rw [coerce_of_text hBase, coerce_of_text hBase]
  unfold Value.display
  rw [String.toList_ofList, coerceText_coerceText]

/- The words for truth values stand for themselves. -/
theorem coerce_display_of_boolean
    (hBase : c.base = .boolean) :
    c.coerce (c.coerce raw).display = c.coerce raw := by
  have hCoerce :
      ∀ s, c.coerce s = .boolean (isTruthy s.toList) := by
    intro s
    unfold coerce
    rw [hBase]
  rw [hCoerce, hCoerce]
  cases isTruthy raw.toList with
  | true => decide
  | false => decide

/-
  A text that takes the place of an entered one stays, if it
  has no blanks at its ends and no other text takes its
  place.
-/
theorem orEntered_orEntered
    (understood : List Char → Option (List Char))
    (hCoerce :
      ∀ s : String,
        c.coerce s =
          orEntered s.toList
            (understood (Text.trim s.toList)))
    (hAgain :
      ∀ {s t},
        understood s = some t →
          Text.Tight t ∧ ∀ u ∈ understood t, u = t) :
    c.coerce (c.coerce raw).display = c.coerce raw := by
  rw [hCoerce raw]
  cases hFirst : understood (Text.trim raw.toList) with
  | none =>
      rw [orEntered_none]
      change c.coerce raw = .text raw
      rw [hCoerce raw, hFirst, orEntered_none]
  | some t =>
      rcases hAgain hFirst with ⟨hTight, hSame⟩
      change c.coerce (.ofList t) = .text (.ofList t)
      rw [hCoerce, String.toList_ofList,
        Text.trim_of_tight hTight]
      cases hSecond : understood t with
      | none => rfl
      | some u =>
          cases hSame u hSecond
          rfl

theorem coerce_display_of_date
    (hBase : c.base = .date) :
    c.coerce (c.coerce raw).display = c.coerce raw := by
  refine
    orEntered_orEntered (fun s => (readDate s).map Date.text)
      (fun _ => coerce_of_date hBase) ?_
  intro s t hUnderstood
  rcases Option.map_eq_some_iff.mp hUnderstood with
    ⟨d, hRead, rfl⟩
  refine ⟨Date.tight_text, ?_⟩
  rw [readDate_text (isValid_of_readDate hRead)]
  rintro u ⟨rfl⟩
  rfl

theorem coerce_display_of_datetime
    (hBase : c.base = .datetime) :
    c.coerce (c.coerce raw).display = c.coerce raw := by
  refine
    orEntered_orEntered
      (fun s => (readMoment s).map Moment.milliText)
      (fun _ => coerce_of_datetime hBase) ?_
  intro s t hUnderstood
  rcases Option.map_eq_some_iff.mp hUnderstood with
    ⟨m, hRead, rfl⟩
  refine ⟨Moment.tight_milliText, fun u hAgain => ?_⟩
  rcases Option.map_eq_some_iff.mp hAgain with
    ⟨n, hReread, rfl⟩
  exact
    milliText_of_readMoment (isValid_of_readMoment hRead)
      hReread

/-
  A value that is displayed and entered again stays as it is,
  unless it was cut right behind a blank.
-/
theorem coerce_display_eq_iff
    (hBase : c.base ≠ .number)
    (raw : String) :
    c.coerce (c.coerce raw).display = c.coerce raw ↔
      ¬ c.CutsBehindBlank raw := by
  by_cases hText : c.base = .text
  · rw [coerce_display_of_text hText, coerce_of_text hText,
      cutsBehindBlank_iff hText, Bool.not_eq_true,
      ← Text.trimEnd_eq_self_iff]
    constructor
    · intro hSame
      exact String.ofList_injective (Value.text.inj hSame)
    · intro hSame
      rw [hSame]
  · have hNot : ¬ c.CutsBehindBlank raw :=
      fun hCut => hText hCut.1
    refine ⟨fun _ => hNot, fun _ => ?_⟩
    cases hKind : c.base with
    | number => exact absurd hKind hBase
    | text => exact absurd hKind hText
    | boolean => exact coerce_display_of_boolean hKind
    | date => exact coerce_display_of_date hKind
    | datetime => exact coerce_display_of_datetime hKind

/- What was entered a second time is cut behind no blank. -/
theorem not_cutsBehindBlank_display
    (raw : String) :
    ¬ c.CutsBehindBlank (c.coerce raw).display := by
  intro hCut
  have hText := hCut.1
  rw [cutsBehindBlank_iff hText, coerce_of_text hText] at hCut
  unfold Value.display at hCut
  rw [String.toList_ofList, coerceText_coerceText,
    (Text.tight_trimEnd
      (head?_coerceText c.length raw.toList)).endsBlank_eq_false]
    at hCut
  exact Bool.false_ne_true hCut

end Column

end Rowstore
