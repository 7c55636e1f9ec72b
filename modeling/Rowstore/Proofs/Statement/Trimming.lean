import Rowstore.Proofs.Statement.Breaking

/-
  What trimming leaves of a text with another character in it.

  A text is trimmed at its two ends independently.  If a blank
  takes the place of a stretch that is no blank, then the text
  is trimmed as before, unless nothing is left behind the
  blank: then blanks and semicolons before it go, too.

  Main declarations:
    * `Statement.stripped_append_of_ne` and
      `Statement.stripped_append_of_nil`
    * `Statement.trimStart_stripped`
    * `Statement.normalize_blank`
-/

------------------------------------------------------------
-- Normalised Text
------------------------------------------------------------

namespace Rowstore

namespace Statement

open Text

variable {x y k a b lead : List Char}

theorem stripped_isPrefix (s : List Char) : stripped s <+: s := by
  rcases stripped_split s with ⟨y, hSplit, _⟩
  exact ⟨y, hSplit.symm⟩

theorem stripped_append_of_ne
    (hRest : stripped y ≠ []) :
    stripped (x ++ y) = x ++ stripped y := by
  have hSecond :
      dropEndWhile (fun c => c == ';') (trimEnd y) ≠ [] := by
    intro hNil
    apply hRest
    unfold stripped
    rw [hNil]
    rfl
  have hFirst : trimEnd y ≠ [] := by
    intro hNil
    apply hSecond
    rw [hNil]
    rfl
  have hStep : trimEnd (x ++ y) = x ++ trimEnd y :=
    dropEndWhile_append_of_ne hFirst
  unfold stripped
  rw [hStep, dropEndWhile_append_of_ne hSecond]
  exact dropEndWhile_append_of_ne hRest

/- If nothing is left of the second text, then the end of the first one may go, too. -/
theorem stripped_append_of_nil
    (hRest : stripped y = []) :
    stripped (x ++ y) <+: x := by
  have hPrefix (p : Char → Bool) (s : List Char) :
      dropEndWhile p s <+: s := by
    rcases dropEndWhile_split p s with ⟨r, hSplit, _⟩
    exact ⟨r, hSplit.symm⟩
  by_cases hFirst : trimEnd y = []
  · have hStep : trimEnd (x ++ y) = trimEnd x :=
      dropEndWhile_append_of_nil hFirst
    unfold stripped
    rw [hStep]
    exact stripped_isPrefix x
  · have hStep : trimEnd (x ++ y) = x ++ trimEnd y :=
      dropEndWhile_append_of_ne hFirst
    unfold stripped
    rw [hStep]
    by_cases hSecond :
        dropEndWhile (fun c => c == ';') (trimEnd y) = []
    · rw [dropEndWhile_append_of_nil hSecond]
      exact (hPrefix _ _).trans (hPrefix _ _)
    · rw [dropEndWhile_append_of_ne hSecond]
      have hThird :
          trimEnd
              (x ++
                dropEndWhile (fun c => c == ';') (trimEnd y)) =
            trimEnd x :=
        dropEndWhile_append_of_nil hRest
      rw [hThird]
      exact hPrefix _ _

/- A blank in front of nothing is left out. -/
theorem stripped_blank
    {c : Char}
    (hBlank : isBlank c = true)
    (hRest : stripped y = []) :
    stripped (c :: y) = [] := by
  have hPrefix := stripped_append_of_nil (x := [c]) hRest
  have hLast :
      ∀ d ∈ (stripped (c :: y)).getLast?, isBlank d = false :=
    getLast?_dropEndWhile isBlank _
  rw [List.singleton_append] at hPrefix
  cases hLeft : stripped (c :: y) with
  | nil => rfl
  | cons d left =>
      rw [hLeft] at hPrefix hLast
      rw [List.cons_prefix_cons, List.prefix_nil] at hPrefix
      rcases hPrefix with ⟨rfl, rfl⟩
      have hOther := hLast d rfl
      rw [hBlank] at hOther
      cases hOther

/- The two ends are trimmed independently. -/
theorem trimStart_stripped (s : List Char) :
    trimStart (stripped s) = stripped (trimStart s) := by
  rcases trimStart_split s with ⟨lead, hSplit, hLead⟩
  by_cases hRest : stripped (trimStart s) = []
  · have hPrefix := stripped_append_of_nil (x := lead) hRest
    rw [← hSplit] at hPrefix
    rw [hRest]
    exact
      trimStart_of_blank fun c hMember =>
        hLead c (hPrefix.subset hMember)
  · have hStep := stripped_append_of_ne (x := lead) hRest
    rw [← hSplit] at hStep
    rw [hStep, trimStart_append hLead]
    apply trimStart_of_head?
    intro c hHead
    exact
      head?_trimStart s c
        (mem_head?_of_isPrefix (stripped_isPrefix _) hHead)

theorem normalize_eq (s : List Char) :
    normalize s = trimStart (stripped s) :=
  (trimStart_stripped s).symm

theorem head?_of_normalize
    {s : List Char}
    (hText : normalize s = a ++ (k ++ b)) :
    ∀ c ∈ (a ++ k).head?, isBlank c = false := by
  intro c hFirst
  have hWhole : c ∈ (a ++ (k ++ b)).head? := by
    rw [← List.append_assoc]
    exact mem_head?_of_isPrefix (List.prefix_append _ _) hFirst
  rw [← hText, normalize_eq] at hWhole
  exact head?_trimStart _ c hWhole

section Blanks

variable
  (hText :
    normalize (lead ++ (a ++ (k ++ y))) = a ++ (k ++ b))
variable (hLead : ∀ c ∈ lead, isBlank c = true)

include hText hLead

/- If something is left behind what is replaced, it stays as it is. -/
theorem normalize_blank_of_ne
    (hNonempty : k ≠ [])
    (hRest : stripped y ≠ []) :
    b ≠ [] ∧
      normalize (lead ++ (a ++ ' ' :: y)) =
        trimStart (a ++ ' ' :: b) := by
  have hHead := head?_of_normalize hText
  have hSplit (m : List Char) :
      stripped (lead ++ (a ++ (m ++ y))) =
        lead ++ (a ++ (m ++ stripped y)) := by
    have hStep :=
      stripped_append_of_ne (x := lead ++ (a ++ m)) hRest
    simpa using hStep
  have hFirst :
      ∀ c ∈ (a ++ (k ++ stripped y)).head?,
        isBlank c = false := by
    intro c hMember
    rw [← List.append_assoc, List.head?_append_of_ne_nil]
      at hMember
    · exact hHead c hMember
    · simp [hNonempty]
  have hSame : stripped y = b := by
    rw [normalize_eq, hSplit, trimStart_append hLead,
      trimStart_of_head? hFirst] at hText
    exact
      List.append_cancel_left (List.append_cancel_left hText)
  have hBlank := hSplit [' ']
  rw [List.singleton_append, List.singleton_append] at hBlank
  rw [normalize_eq, hBlank, trimStart_append hLead, hSame]
  exact ⟨hSame ▸ hRest, rfl⟩

/- If nothing is left behind it, the end of what stands before it may go, too. -/
theorem normalize_blank_of_nil
    (hRest : stripped y = []) :
    b = [] ∧
      ∃ r,
        a = normalize (lead ++ (a ++ ' ' :: y)) ++ r ∧
          ∀ c ∈ r, isBlank c = true ∨ c = ';' := by
  have hHead := head?_of_normalize hText
  have hFirst : ∀ c ∈ a.head?, isBlank c = false :=
    fun c hMember =>
      hHead c
        (mem_head?_of_isPrefix (List.prefix_append _ _)
          hMember)
  constructor
  · have hBefore :=
      stripped_append_of_nil (x := lead ++ (a ++ k)) hRest
    rw [List.append_assoc, List.append_assoc] at hBefore
    rcases hBefore with ⟨v, hBefore⟩
    rcases trimStart_of_isPrefix hBefore hLead hHead with
      ⟨r, hAll, _⟩
    rw [← normalize_eq, hText] at hAll
    have hLength := congrArg List.length hAll
    simp only [List.length_append] at hLength
    exact List.length_eq_zero_iff.mp (by omega)
  · have hAfter :=
      stripped_append_of_nil (x := lead ++ a)
        (stripped_blank (c := ' ') (by decide) hRest)
    rcases stripped_split (lead ++ (a ++ ' ' :: y)) with
      ⟨z, hWhole, hBreaks⟩
    rw [List.append_assoc] at hAfter
    rw [normalize_eq]
    generalize stripped (lead ++ (a ++ ' ' :: y)) = w
      at hAfter hWhole ⊢
    rcases hAfter with ⟨v, hAfter⟩
    rcases trimStart_of_isPrefix hAfter hLead hFirst with
      ⟨r, hAll, hSuffix⟩
    refine ⟨r, hAll, fun c hMember => hBreaks c ?_⟩
    rw [← List.append_assoc, ← hAfter, List.append_assoc,
      List.append_cancel_left_eq] at hWhole
    rw [← hWhole]
    exact List.mem_append_left _ (hSuffix.subset hMember)

/-
  A blank in the place of something that is no blank.  The
  text is trimmed where it was trimmed before, unless nothing
  is left behind the blank.
-/
theorem normalize_blank
    (hNonempty : k ≠ []) :
    (b ≠ [] ∧
      normalize (lead ++ (a ++ ' ' :: y)) =
        trimStart (a ++ ' ' :: b)) ∨
      b = [] ∧
        ∃ r,
          a = normalize (lead ++ (a ++ ' ' :: y)) ++ r ∧
            ∀ c ∈ r, isBlank c = true ∨ c = ';' := by
  by_cases hRest : stripped y = []
  · exact .inr (normalize_blank_of_nil hText hLead hRest)
  · exact
      .inl (normalize_blank_of_ne hText hLead hNonempty hRest)

end Blanks

end Statement

end Rowstore
