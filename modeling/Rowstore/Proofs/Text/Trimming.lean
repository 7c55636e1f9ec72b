import Mathlib.Data.List.Basic
import Mathlib.Data.List.TakeWhile
import Rowstore.Text.Blank

/-
  What trimming leaves of a text.

  The blanks at the two ends of a text are cut off
  independently.  What is left neither starts nor ends with a
  blank, and it is the only such text between blanks: so
  trimming a second time changes nothing.

  Main declarations:
    * `Text.Tight` and `Text.trim_of_tight`
    * `Text.dropEndWhile_split` and `Text.trimStart_split`
    * `Text.endsBlank` and `Text.trimEnd_eq_self_iff`
    * `Text.trim_split`, `Text.trim_padded` and
      `Text.tight_trim`
-/

namespace Rowstore

namespace Text

variable {p : Char → Bool} {s x y : List Char}

------------------------------------------------------------
-- The End Of A Text
------------------------------------------------------------

theorem dropEndWhile_of_getLast?
    (hLast : ∀ c ∈ s.getLast?, p c = false) :
    dropEndWhile p s = s := by
  have hReverse : s.reverse.dropWhile p = s.reverse := by
    rw [← List.head?_reverse] at hLast
    cases hFront : s.reverse with
    | nil => rfl
    | cons c front =>
        rw [hFront] at hLast
        rw [List.dropWhile_cons_of_neg]
        simpa using hLast
  unfold dropEndWhile
  rw [hReverse, List.reverse_reverse]

theorem dropEndWhile_append_of_ne
    (hRest : dropEndWhile p y ≠ []) :
    dropEndWhile p (x ++ y) = x ++ dropEndWhile p y := by
  have hReverse : y.reverse.dropWhile p ≠ [] := by
    simpa [dropEndWhile] using hRest
  unfold dropEndWhile
  rw [List.reverse_append, List.dropWhile_append,
    if_neg (by simpa using hReverse), List.reverse_append,
    List.reverse_reverse]

theorem dropEndWhile_append_of_nil
    (hRest : dropEndWhile p y = []) :
    dropEndWhile p (x ++ y) = dropEndWhile p x := by
  have hReverse : y.reverse.dropWhile p = [] := by
    simpa [dropEndWhile] using hRest
  unfold dropEndWhile
  rw [List.reverse_append, List.dropWhile_append,
    if_pos (by simp [hReverse])]

theorem dropEndWhile_of_forall
    (hAll : ∀ c ∈ s, p c = true) :
    dropEndWhile p s = [] := by
  have hReverse : s.reverse.dropWhile p = [] :=
    List.dropWhile_eq_nil_iff.mpr fun c hMember =>
      hAll c (List.mem_reverse.mp hMember)
  unfold dropEndWhile
  rw [hReverse, List.reverse_nil]

theorem getLast?_dropEndWhile
    (p : Char → Bool)
    (s : List Char) :
    ∀ c ∈ (dropEndWhile p s).getLast?, p c = false := by
  intro c hLast
  have hFirst := List.head?_dropWhile_not p s.reverse
  unfold dropEndWhile at hLast
  rw [List.getLast?_reverse] at hLast
  rw [hLast] at hFirst
  simpa using hFirst

theorem dropEndWhile_split
    (p : Char → Bool)
    (s : List Char) :
    ∃ y,
      s = dropEndWhile p s ++ y ∧ ∀ c ∈ y, p c = true := by
  refine ⟨(s.reverse.takeWhile p).reverse, ?_, ?_⟩
  · unfold dropEndWhile
    rw [← List.reverse_append,
      List.takeWhile_append_dropWhile, List.reverse_reverse]
  · intro c hMember
    rw [List.mem_reverse] at hMember
    exact List.all_eq_true.mp List.all_takeWhile c hMember

/- The text ends in a blank. -/
def endsBlank (s : List Char) : Bool :=
  s.getLast?.any isBlank

theorem endsBlank_eq_false_iff :
    endsBlank s = false ↔
      ∀ c ∈ s.getLast?, isBlank c = false := by
  unfold endsBlank
  cases s.getLast? with
  | none => simp
  | some c => simp

/- The last character of a text decides whether its end is trimmed. -/
theorem trimEnd_eq_self_iff :
    trimEnd s = s ↔ endsBlank s = false := by
  rw [endsBlank_eq_false_iff]
  constructor
  · intro hSame c hLast
    have hEnd := getLast?_dropEndWhile isBlank s
    change ∀ c ∈ (trimEnd s).getLast?, isBlank c = false at hEnd
    rw [hSame] at hEnd
    exact hEnd c hLast
  · exact dropEndWhile_of_getLast?

theorem trimEnd_isPrefix (s : List Char) : trimEnd s <+: s := by
  rcases dropEndWhile_split isBlank s with ⟨y, hSplit, _⟩
  exact ⟨y, hSplit.symm⟩

------------------------------------------------------------
-- The Start Of A Text
------------------------------------------------------------

theorem trimStart_of_head?
    (hFirst : ∀ c ∈ s.head?, isBlank c = false) :
    trimStart s = s := by
  unfold trimStart
  cases s with
  | nil => rfl
  | cons c s =>
      rw [List.dropWhile_cons_of_neg]
      simpa using hFirst c rfl

theorem head?_trimStart (s : List Char) :
    ∀ c ∈ (trimStart s).head?, isBlank c = false := by
  intro c hHead
  have hFirst := List.head?_dropWhile_not isBlank s
  unfold trimStart at hHead
  rw [hHead] at hFirst
  simpa using hFirst

theorem trimStart_append
    (hBlank : ∀ c ∈ x, isBlank c = true) :
    trimStart (x ++ y) = trimStart y :=
  List.dropWhile_append_of_pos hBlank

theorem trimStart_of_blank
    (hBlank : ∀ c ∈ s, isBlank c = true) :
    trimStart s = [] := by
  have hAll := trimStart_append (y := []) hBlank
  rwa [List.append_nil] at hAll

theorem mem_head?_of_isPrefix
    (hPrefix : x <+: y)
    {c : Char}
    (hHead : c ∈ x.head?) :
    c ∈ y.head? := by
  rcases hPrefix with ⟨r, rfl⟩
  rw [List.head?_append, hHead]
  rfl

/- A text begins with blanks, and goes on with another character. -/
theorem trimStart_split (s : List Char) :
    ∃ lead,
      s = lead ++ trimStart s ∧
        ∀ c ∈ lead, isBlank c = true :=
  ⟨s.takeWhile isBlank,
    List.takeWhile_append_dropWhile.symm,
    List.all_eq_true.mp List.all_takeWhile⟩

/-
  What is left of the start of a text after its leading blanks
  is the start of what they lead to.
-/
theorem trimStart_of_isPrefix
    {w v lead : List Char}
    (hSplit : w ++ v = lead ++ x)
    (hLead : ∀ c ∈ lead, isBlank c = true)
    (hFirst : ∀ c ∈ x.head?, isBlank c = false) :
    ∃ r, x = trimStart w ++ r ∧ r <:+ v := by
  rw [List.append_eq_append_iff] at hSplit
  rcases hSplit with ⟨lead', rfl, rfl⟩ | ⟨w', rfl, rfl⟩
  · rw [trimStart_of_blank
      fun c hMember =>
        hLead c (List.mem_append_left _ hMember)]
    exact ⟨x, rfl, List.suffix_append _ _⟩
  · rw [trimStart_append hLead, trimStart_of_head?]
    · exact ⟨v, rfl, List.suffix_rfl⟩
    · intro c hHead
      exact
        hFirst c
          (mem_head?_of_isPrefix (List.prefix_append _ _) hHead)

------------------------------------------------------------
-- Both Ends
------------------------------------------------------------

/- The text neither starts nor ends with a blank. -/
structure Tight (s : List Char) : Prop where
  first : ∀ c ∈ s.head?, isBlank c = false
  last : ∀ c ∈ s.getLast?, isBlank c = false

theorem tight_of_ends
    {c d : Char}
    (hFirst : s.head? = some c)
    (hLast : s.getLast? = some d)
    (hStart : isBlank c = false)
    (hEnd : isBlank d = false) :
    Tight s where
  first := by simpa [hFirst] using hStart
  last := by simpa [hLast] using hEnd

theorem tight_of_forall
    (hNone : ∀ c ∈ s, isBlank c = false) :
    Tight s where
  first := fun c hHead =>
    hNone c (List.mem_of_mem_head? hHead)
  last := fun c hLast =>
    hNone c (List.mem_of_mem_getLast? hLast)

theorem Tight.endsBlank_eq_false
    (hTight : Tight s) :
    endsBlank s = false :=
  endsBlank_eq_false_iff.mpr hTight.last

theorem trim_of_tight (hTight : Tight s) :
    trim s = s := by
  unfold trim
  rw [trimStart_of_head? hTight.first]
  exact dropEndWhile_of_getLast? hTight.last

/- Only the end is left to trim in a text that starts with no blank. -/
theorem trim_of_head?
    (hFirst : ∀ c ∈ s.head?, isBlank c = false) :
    trim s = trimEnd s := by
  unfold trim
  rw [trimStart_of_head? hFirst]

theorem tight_trimEnd
    (hFirst : ∀ c ∈ s.head?, isBlank c = false) :
    Tight (trimEnd s) where
  first := fun c hHead =>
    hFirst c (mem_head?_of_isPrefix (trimEnd_isPrefix s) hHead)
  last := getLast?_dropEndWhile isBlank s

theorem tight_trim (s : List Char) : Tight (trim s) :=
  tight_trimEnd (head?_trimStart s)

theorem trimEnd_append
    (hBlank : ∀ c ∈ y, isBlank c = true) :
    trimEnd (x ++ y) = trimEnd x :=
  dropEndWhile_append_of_nil (dropEndWhile_of_forall hBlank)

/- A text is what trimming leaves of it, between blanks. -/
theorem trim_split (s : List Char) :
    ∃ before after,
      s = before ++ trim s ++ after ∧
        (∀ c ∈ before, isBlank c = true) ∧
          ∀ c ∈ after, isBlank c = true := by
  rcases trimStart_split s with ⟨before, hStart, hBefore⟩
  rcases dropEndWhile_split isBlank (trimStart s) with
    ⟨after, hEnd, hAfter⟩
  refine ⟨before, after, ?_, hBefore, hAfter⟩
  rw [List.append_assoc]
  exact hStart.trans (congrArg _ hEnd)

/- What stands between blanks without blanks at its own ends is what trimming leaves. -/
theorem trim_padded
    {before after : List Char}
    (hBefore : ∀ c ∈ before, isBlank c = true)
    (hTight : Tight s)
    (hSome : s ≠ [])
    (hAfter : ∀ c ∈ after, isBlank c = true) :
    trim (before ++ s ++ after) = s := by
  have hFirst : ∀ c ∈ (s ++ after).head?, isBlank c = false := by
    rw [List.head?_append_of_ne_nil _ hSome]
    exact hTight.first
  calc
    trim (before ++ s ++ after)
        = trim (s ++ after) := by
      unfold trim
      rw [List.append_assoc, trimStart_append hBefore]
    _ = trimEnd (s ++ after) := trim_of_head? hFirst
    _ = trimEnd s := trimEnd_append hAfter
    _ = s := dropEndWhile_of_getLast? hTight.last

end Text

end Rowstore
