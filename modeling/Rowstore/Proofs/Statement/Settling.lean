import Rowstore.Proofs.Text.Trimming
import Rowstore.Statement.Parser

/-
  Which texts are settled when they have been normalised once.

  Normalising cuts off blanks, then semicolons, then blanks
  again.  That leaves a semicolon at the end exactly when
  blanks divide the semicolons there, and only then is there
  something left to cut.

  Main declarations:
    * `Statement.EndsApart` and `Statement.endsApart_iff`
    * `Statement.Divided` and
      `Statement.getLast?_normalize_iff`
    * `Statement.normalize_settles_iff`
-/

namespace Rowstore

namespace Statement

open Text

variable {s t u v : List Char}

------------------------------------------------------------
-- Semicolons At The End
------------------------------------------------------------

/- Drop the semicolons at the end of a text. -/
def cutMarks (s : List Char) : List Char :=
  dropEndWhile (fun c => c == ';') s

/- The text ends in blanks, and they stand right behind a semicolon. -/
def EndsApart (s : List Char) : Prop :=
  ∃ u gap,
    s = u ++ ';' :: gap ∧ gap ≠ [] ∧
      ∀ c ∈ gap, isBlank c = true

/-
  Blanks divide the semicolons at the end of the text.  Other
  blanks may follow the last of them.
-/
def Divided (s : List Char) : Prop :=
  ∃ front marks gap,
    s = front ++ marks ++ gap ∧ EndsApart front ∧
      marks ≠ [] ∧ (∀ c ∈ marks, c = ';') ∧
        ∀ c ∈ gap, isBlank c = true

/- No semicolon is left at the end where semicolons are cut off. -/
theorem getLast?_cutMarks_ne (s : List Char) :
    (cutMarks s).getLast? ≠ some ';' := by
  intro hMark
  have hOther := getLast?_dropEndWhile _ s ';' hMark
  simp at hOther

theorem cutMarks_eq_self_iff :
    cutMarks s = s ↔ s.getLast? ≠ some ';' := by
  constructor
  · intro hSame
    rw [← hSame]
    exact getLast?_cutMarks_ne s
  · intro hOther
    apply dropEndWhile_of_getLast?
    intro c hLast
    rw [beq_eq_false_iff_ne]
    rintro rfl
    exact hOther hLast

/- Where trimming and cutting leave the text alone, nothing was there to cut. -/
theorem trimEnd_cutMarks_eq_self_iff
    (hEnd : endsBlank s = false) :
    trimEnd (cutMarks s) = s ↔ s.getLast? ≠ some ';' := by
  rw [← cutMarks_eq_self_iff]
  constructor
  · intro hSame
    rcases dropEndWhile_split (fun c => c == ';') s with
      ⟨y, hSplit, _⟩
    have hCut : cutMarks s <+: s := ⟨y, hSplit.symm⟩
    have hTrim := trimEnd_isPrefix (cutMarks s)
    rw [hSame] at hTrim
    exact hCut.eq_of_length_le hTrim.length_le
  · intro hSame
    rw [hSame]
    exact trimEnd_eq_self_iff.mpr hEnd

/- A semicolon stays where blanks are trimmed behind it. -/
theorem trimEnd_mark
    (u : List Char)
    {gap : List Char}
    (hBlank : ∀ c ∈ gap, isBlank c = true) :
    trimEnd (u ++ ';' :: gap) = u ++ [';'] := by
  have hSplit : u ++ ';' :: gap = u ++ [';'] ++ gap := by
    simp
  rw [hSplit, trimEnd_append hBlank, trimEnd_eq_self_iff,
    endsBlank, List.getLast?_concat]
  rfl

theorem endsApart_iff :
    EndsApart s ↔
      endsBlank s = true ∧
        (trimEnd s).getLast? = some ';' := by
  constructor
  · rintro ⟨u, gap, rfl, hSome, hBlank⟩
    rw [trimEnd_mark u hBlank, List.getLast?_concat]
    refine ⟨?_, rfl⟩
    rcases List.eq_nil_or_concat gap with hNil | ⟨g, c, hGap⟩
    · exact absurd hNil hSome
    · rw [List.concat_eq_append] at hGap
      subst hGap
      have hLast := hBlank c (by simp)
      have hSplit :
          u ++ ';' :: (g ++ [c]) = u ++ ';' :: g ++ [c] := by
        simp
      rw [hSplit, endsBlank, List.getLast?_concat]
      exact hLast
  · rintro ⟨hEnd, hMark⟩
    rcases dropEndWhile_split isBlank s with
      ⟨gap, hSplit, hBlank⟩
    change s = trimEnd s ++ gap at hSplit
    rw [List.getLast?_eq_some_iff] at hMark
    rcases hMark with ⟨u, hMark⟩
    refine ⟨u, gap, ?_, ?_, hBlank⟩
    · rw [hSplit, hMark]
      simp
    · rintro rfl
      rw [List.append_nil] at hSplit
      rw [trimEnd_eq_self_iff.mp hSplit.symm] at hEnd
      cases hEnd

instance (s : List Char) : Decidable (EndsApart s) :=
  decidable_of_iff _ endsApart_iff.symm

theorem endsBlank_trimEnd (s : List Char) :
    endsBlank (trimEnd s) = false :=
  endsBlank_eq_false_iff.mpr (getLast?_dropEndWhile isBlank s)

theorem getLast?_append_marks
    {marks : List Char}
    (front : List Char)
    (hSome : marks ≠ [])
    (hAll : ∀ c ∈ marks, c = ';') :
    (front ++ marks).getLast? = some ';' := by
  rcases List.eq_nil_or_concat marks with
    hNil | ⟨m, c, hMarks⟩
  · exact absurd hNil hSome
  · have hMark := hAll c (by simp [hMarks])
    rw [hMarks, List.concat_eq_append, ← List.append_assoc,
      List.getLast?_concat, hMark]

/- All the semicolons at the end are cut off, and no more. -/
theorem cutMarks_append
    {front marks : List Char}
    (hFront : front.getLast? ≠ some ';')
    (hAll : ∀ c ∈ marks, c = ';') :
    cutMarks (front ++ marks) = front := by
  have hNone : cutMarks marks = [] :=
    dropEndWhile_of_forall fun c hMember =>
      beq_iff_eq.mpr (hAll c hMember)
  rw [cutMarks, dropEndWhile_append_of_nil hNone]
  exact cutMarks_eq_self_iff.mpr hFront

/-
  A semicolon that is left at the end was not there when the
  semicolons were cut, so blanks stood behind it then.
-/
theorem divided_of_getLast?_cut
    (hMark :
      (trimEnd (cutMarks (trimEnd s))).getLast? = some ';') :
    Divided s := by
  rcases dropEndWhile_split isBlank s with
    ⟨gap, hSplit, hBlank⟩
  rcases dropEndWhile_split (fun c => c == ';')
      (trimEnd s) with
    ⟨marks, hMarks, hAll⟩
  change s = trimEnd s ++ gap at hSplit
  change trimEnd s = cutMarks (trimEnd s) ++ marks at hMarks
  have hEnd : endsBlank (cutMarks (trimEnd s)) = true := by
    rw [← Bool.not_eq_false, ← trimEnd_eq_self_iff]
    intro hSame
    rw [hSame] at hMark
    exact getLast?_cutMarks_ne _ hMark
  refine ⟨cutMarks (trimEnd s), marks, gap, ?_,
    endsApart_iff.mpr ⟨hEnd, hMark⟩, ?_, ?_, hBlank⟩
  · rw [← hMarks]
    exact hSplit
  · rintro rfl
    rw [List.append_nil] at hMarks
    rw [← hMarks, endsBlank_trimEnd] at hEnd
    cases hEnd
  · exact fun c hMember => beq_iff_eq.mp (hAll c hMember)

theorem getLast?_cut_of_divided (hDivided : Divided s) :
    (trimEnd (cutMarks (trimEnd s))).getLast? = some ';' := by
  rcases hDivided with
    ⟨front, marks, gap, rfl, hApart, hSome, hAll, hBlank⟩
  rw [endsApart_iff] at hApart
  have hEnd : endsBlank (front ++ marks) = false := by
    rw [endsBlank, getLast?_append_marks front hSome hAll]
    rfl
  have hFront : front.getLast? ≠ some ';' := by
    intro hMark
    have hOther := hApart.1
    rw [endsBlank, hMark] at hOther
    cases hOther
  rw [trimEnd_append hBlank, trimEnd_eq_self_iff.mpr hEnd,
    cutMarks_append hFront hAll]
  exact hApart.2

/- Cutting at the end leaves a semicolon only in front of blanks that it uncovers. -/
theorem getLast?_cut_iff :
    (trimEnd (cutMarks (trimEnd s))).getLast? = some ';' ↔
      Divided s :=
  ⟨divided_of_getLast?_cut, getLast?_cut_of_divided⟩

------------------------------------------------------------
-- The Start Of A Text
------------------------------------------------------------

/- Only what stands in front of a semicolon loses blanks at the start. -/
theorem trimStart_mark (u v : List Char) :
    trimStart (u ++ ';' :: v) = trimStart u ++ ';' :: v := by
  rcases trimStart_split u with ⟨lead, hSplit, hLead⟩
  have hFirst :
      ∀ c ∈ (trimStart u ++ ';' :: v).head?,
        isBlank c = false := by
    intro c hHead
    cases hRest : trimStart u with
    | nil =>
        rw [hRest] at hHead
        cases hHead
        rfl
    | cons d r =>
        rw [hRest] at hHead
        exact head?_trimStart u c (by rw [hRest]; exact hHead)
  calc
    trimStart (u ++ ';' :: v)
        = trimStart (lead ++ (trimStart u ++ ';' :: v)) := by
      rw [← List.append_assoc, ← hSplit]
    _ = trimStart (trimStart u ++ ';' :: v) :=
      trimStart_append hLead
    _ = trimStart u ++ ';' :: v := trimStart_of_head? hFirst

theorem endsApart_trimStart_iff :
    EndsApart (trimStart s) ↔ EndsApart s := by
  constructor
  · rintro ⟨u, gap, hText, hSome, hBlank⟩
    rcases trimStart_split s with ⟨lead, hSplit, _⟩
    refine ⟨lead ++ u, gap, ?_, hSome, hBlank⟩
    rw [List.append_assoc, ← hText]
    exact hSplit
  · rintro ⟨u, gap, rfl, hSome, hBlank⟩
    rw [trimStart_mark]
    exact ⟨trimStart u, gap, rfl, hSome, hBlank⟩

theorem divided_trimStart_iff :
    Divided (trimStart s) ↔ Divided s := by
  constructor
  · rintro ⟨front, marks, gap, hText, hApart, hRest⟩
    rcases trimStart_split s with ⟨lead, hSplit, _⟩
    rcases hApart with ⟨u, space, rfl, hSpace⟩
    refine ⟨lead ++ u ++ ';' :: space, marks, gap, ?_,
      ⟨lead ++ u, space, rfl, hSpace⟩, hRest⟩
    rw [hSplit, hText]
    simp
  · rintro ⟨front, marks, gap, rfl, hApart, hRest⟩
    rcases hApart with ⟨u, space, rfl, hSpace⟩
    refine ⟨trimStart u ++ ';' :: space, marks, gap, ?_,
      ⟨trimStart u, space, rfl, hSpace⟩, hRest⟩
    have hSplit :
        u ++ ';' :: space ++ marks ++ gap =
          u ++ ';' :: (space ++ marks ++ gap) := by
      simp
    rw [hSplit, trimStart_mark]
    simp

------------------------------------------------------------
-- Normalised Texts
------------------------------------------------------------

theorem tight_normalize (s : List Char) :
    Tight (normalize s) := by
  apply tight_trimEnd
  intro c hHead
  rcases dropEndWhile_split (fun c => c == ';') (trim s) with
    ⟨y, hSplit, _⟩
  exact
    (tight_trim s).first c
      (mem_head?_of_isPrefix ⟨y, hSplit.symm⟩ hHead)

theorem getLast?_normalize_iff :
    (normalize s).getLast? = some ';' ↔ Divided s := by
  rw [← divided_trimStart_iff, ← getLast?_cut_iff]
  rfl

theorem normalize_normalize_iff :
    normalize (normalize s) = normalize s ↔ ¬Divided s := by
  have hTight := tight_normalize s
  have hOnce :=
    trimEnd_cutMarks_eq_self_iff hTight.endsBlank_eq_false
  rw [← getLast?_normalize_iff, ← ne_eq, ← hOnce]
  conv_lhs => rw [normalize, trim_of_tight hTight]
  rfl

theorem normalize_concat (s : List Char) :
    normalize (s ++ [';']) =
      trimEnd (cutMarks (trimStart s)) := by
  have hAll : ∀ c ∈ [';'], (c == ';') = true := by simp
  have hText : trim (s ++ [';']) = trimStart s ++ [';'] := by
    unfold trim
    rw [trimStart_mark]
    exact trimEnd_mark (trimStart s) (by simp)
  unfold normalize
  rw [hText,
    dropEndWhile_append_of_nil (dropEndWhile_of_forall hAll)]
  rfl

/- One more semicolon is cut off unless it uncovers blanks behind another. -/
theorem normalize_concat_iff :
    normalize (s ++ [';']) = normalize s ↔ ¬EndsApart s := by
  rw [normalize_concat, ← endsApart_trimStart_iff]
  change
    trimEnd (cutMarks (trimStart s)) =
        trimEnd (cutMarks (trimEnd (trimStart s))) ↔ _
  generalize trimStart s = t
  by_cases hEnd : endsBlank t = true
  · have hBare : cutMarks t = t := by
      rw [cutMarks_eq_self_iff]
      intro hMark
      rw [endsBlank, hMark] at hEnd
      cases hEnd
    rw [hBare, eq_comm,
      trimEnd_cutMarks_eq_self_iff (endsBlank_trimEnd t),
      endsApart_iff, and_iff_right hEnd]
  · have hSame : trimEnd t = t :=
      trimEnd_eq_self_iff.mpr (eq_false_of_ne_true hEnd)
    rw [hSame, endsApart_iff]
    simp [hEnd]

/-
  A normalised text neither starts nor ends with a blank.  It
  ends with a semicolon, and changes when it is normalised
  again, exactly if blanks divided the semicolons at the end
  of the text.  A semicolon that is appended is cut off again,
  unless the text ends in blanks behind another semicolon.
-/
theorem normalize_settles_iff (text : String) :
    Tight (normalize text.toList) ∧
      ((normalize text.toList).getLast? = some ';' ↔
        Divided text.toList) ∧
      (normalize (normalize text.toList) =
          normalize text.toList ↔
        ¬Divided text.toList) ∧
      (normalize (text ++ ";").toList =
          normalize text.toList ↔
        ¬EndsApart text.toList) ∧
      (¬EndsApart text.toList →
        parse (text ++ ";") = parse text) := by
  have hAppended :
      (text ++ ";").toList = text.toList ++ [';'] :=
    String.toList_append
  refine ⟨tight_normalize _, getLast?_normalize_iff,
    normalize_normalize_iff, ?_, ?_⟩
  · rw [hAppended]
    exact normalize_concat_iff
  · intro hApart
    have hSame := normalize_concat_iff.mpr hApart
    unfold parse
    rw [hAppended, hSame]

/- Blanks in front of the only semicolons are cut off with them. -/
theorem semicolons_are_cut :
    ¬EndsApart "SHOW TABLES ;;".toList ∧
      parse ("SHOW TABLES ;;" ++ ";") =
        parse "SHOW TABLES ;;" :=
  have hApart : ¬EndsApart "SHOW TABLES ;;".toList := by
    decide +kernel
  ⟨hApart,
    (normalize_settles_iff "SHOW TABLES ;;").2.2.2.2 hApart⟩

/- A semicolon behind a blank and another semicolon uncovers the latter. -/
theorem first_semicolon_is_left :
    normalize ("SHOW TABLES; " ++ ";").toList =
        "SHOW TABLES;".toList ∧
      normalize "SHOW TABLES;".toList ≠
        "SHOW TABLES;".toList ∧
      parse "SHOW TABLES; " = .ok (.command .showTables) ∧
      parse ("SHOW TABLES; " ++ ";") ≠
        parse "SHOW TABLES; " := by
  decide +kernel

end Statement

end Rowstore
