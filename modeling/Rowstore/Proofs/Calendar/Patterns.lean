import Rowstore.Calendar.Input
import Rowstore.Proofs.Decimal.Digits
import Rowstore.Proofs.Text.Trimming

/-
  What patterns for dates and times take of a text.

  An item takes characters of its own kind from the start of
  a text, so a text that is read consists of the characters
  that the items of the pattern take, and it holds every
  literal of the pattern.  The numbers that are kept are in
  the range of their parts.

  Main declarations:
    * `Pattern.Reads` and `Pattern.reads_of_readItem`
    * `Pattern.Item.takes` and `Pattern.Reads.split`
    * `Pattern.notMem_of_readItems` and
      `Pattern.mem_of_readItems`
    * `Pattern.Fields.InRange` and `Pattern.inRange_of_read?`
    * `Pattern.year_of_read?`
-/

------------------------------------------------------------
-- Numbers At The Start Of A Text
------------------------------------------------------------

namespace Rowstore

namespace Pattern

open Decimal

variable {s t : List Char} {n : Nat} {v : Int}

theorem takeDigits_split
    {most : Nat}
    (hTaken : takeDigits most s = some (n, t)) :
    ∃ digits,
      s = digits ++ t ∧ ∀ c ∈ digits, isDigit c = true := by
  unfold takeDigits at hTaken
  dsimp only at hTaken
  split at hTaken
  · cases hTaken
  · cases hTaken
    have hDigits :
        ∀ c ∈ (s.take most).takeWhile isDigit,
          isDigit c = true :=
      List.all_eq_true.mp List.all_takeWhile
    have hPrefix :
        (s.take most).takeWhile isDigit <+: s :=
      (List.takeWhile_prefix isDigit).trans
        (List.take_prefix most s)
    generalize (s.take most).takeWhile isDigit = digits
      at hDigits hPrefix
    rcases hPrefix with ⟨rest, rfl⟩
    exact ⟨digits, by rw [List.drop_left], hDigits⟩

/- A number that is made of taken digits leaves what they leave. -/
theorem takeDigits_map_split
    {most : Nat}
    {number : Nat × List Char → Int × List Char}
    (hRest : ∀ p, (number p).2 = p.2)
    (hTaken : (takeDigits most s).map number = some (v, t)) :
    ∃ digits,
      s = digits ++ t ∧ ∀ c ∈ digits, isDigit c = true := by
  rcases Option.map_eq_some_iff.mp hTaken with
    ⟨⟨n, r⟩, hDigits, hNumber⟩
  have hSame : t = r := by
    calc
      t = (number (n, r)).2 := by rw [hNumber]
      _ = r := hRest (n, r)
  rw [hSame]
  exact takeDigits_split hDigits

/- A sign of a year is taken together with its digits. -/
theorem takeYear_split
    (hTaken : takeYear s = some (v, t)) :
    ∃ taken,
      s = taken ++ t ∧
        ∀ c ∈ taken, isDigit c = true ∨ c = '+' ∨ c = '-' := by
  unfold takeYear at hTaken
  split at hTaken
  · rcases takeDigits_map_split (fun _ => rfl) hTaken with
      ⟨digits, rfl, hDigits⟩
    refine ⟨'-' :: digits, rfl, ?_⟩
    rw [List.forall_mem_cons]
    exact ⟨by simp, fun c hMember => .inl (hDigits c hMember)⟩
  · rcases takeDigits_map_split (fun _ => rfl) hTaken with
      ⟨digits, rfl, hDigits⟩
    refine ⟨'+' :: digits, rfl, ?_⟩
    rw [List.forall_mem_cons]
    exact ⟨by simp, fun c hMember => .inl (hDigits c hMember)⟩
  · rcases takeDigits_map_split (fun _ => rfl) hTaken with
      ⟨digits, rfl, hDigits⟩
    exact
      ⟨digits, rfl, fun c hMember => .inl (hDigits c hMember)⟩

theorem takeStrict_split
    {part : Part}
    (hTaken : takeStrict part s = some (v, t)) :
    ∃ digits,
      s = digits ++ t ∧ digits.length = width part ∧
        (∀ c ∈ digits, isDigit c = true) ∧
          v = (digitsValue digits : Int) := by
  unfold takeStrict at hTaken
  dsimp only at hTaken
  split at hTaken
  · rename_i hDigits
    cases hTaken
    exact
      ⟨s.take (width part), (List.take_append_drop _ s).symm,
        hDigits.1, List.all_eq_true.mp hDigits.2, rfl⟩
  · cases hTaken

/- A fraction is a point and digits, and less than a second. -/
theorem takeFraction_split
    (hTaken : takeFraction s = some (n, t)) :
    (∃ taken,
      s = taken ++ t ∧
        ∀ c ∈ taken, isDigit c = true ∨ c = '.') ∧
      n ≤ 999999999 := by
  unfold takeFraction at hTaken
  split at hTaken
  · rename_i u
    have hDigits : ∀ c ∈ u.takeWhile isDigit, isDigit c = true :=
      List.all_eq_true.mp List.all_takeWhile
    dsimp only [splitDigits] at hTaken
    split at hTaken
    · cases hTaken
    · cases hTaken
      constructor
      · refine ⟨'.' :: u.takeWhile isDigit, ?_, ?_⟩
        · rw [List.cons_append,
            List.takeWhile_append_dropWhile]
        · rw [List.forall_mem_cons]
          exact
            ⟨.inr rfl, fun c hMember =>
              .inl (hDigits c hMember)⟩
      · generalize u.takeWhile isDigit = digits at hDigits
        have hBelow :
            digitsValue (digits.take 9) <
              10 ^ (digits.take 9).length :=
          digitsValue_lt fun c hMember =>
            hDigits c (List.mem_of_mem_take hMember)
        have hNine : (digits.take 9).length ≤ 9 := by
          rw [List.length_take]
          exact Nat.min_le_left _ _
        have hScaled :=
          Nat.mul_lt_mul_of_pos_right hBelow
            (Nat.pow_pos (n := 9 - (digits.take 9).length)
              (show 0 < 10 by decide))
        rw [← Nat.pow_add, Nat.add_sub_cancel' hNine] at hScaled
        exact Nat.le_of_lt_succ hScaled
  · cases hTaken
    exact ⟨⟨[], rfl, List.forall_mem_nil _⟩, Nat.zero_le _⟩

------------------------------------------------------------
-- Offsets
------------------------------------------------------------

/- A sign, hours, what separates them from the minutes, and minutes, less than a day. -/
theorem takeOffsetNumbers_split
    {separate : List Char → Option (List Char)}
    {c : Char}
    (hTaken :
      takeOffsetNumbers separate (c :: s) = some (v, t)) :
    (offsetSign? c).isSome ∧
      (∃ hours minutes between,
        s = hours ++ between ∧
          separate between = some (minutes ++ t) ∧
          (∀ d ∈ hours, isDigit d = true) ∧
            ∀ d ∈ minutes, isDigit d = true) ∧
      -1439 ≤ v ∧ v ≤ 1439 := by
  simp only [takeOffsetNumbers, Option.bind_eq_bind,
    Option.bind_eq_some_iff] at hTaken
  rcases hTaken with
    ⟨negative, hSign, ⟨hours, between⟩, hHours, rest,
      hSeparate, ⟨minutes, left⟩, hMinutes, hTaken⟩
  dsimp only at hTaken
  split at hTaken
  · cases hTaken
  · rename_i hRange
    cases hTaken
    rcases takeStrict_split hHours with
      ⟨hourDigits, rfl, _, hHourDigits, rfl⟩
    rcases takeStrict_split hMinutes with
      ⟨minuteDigits, rfl, _, hMinuteDigits, rfl⟩
    refine
      ⟨by rw [hSign]; rfl,
        ⟨hourDigits, minuteDigits, between, rfl, hSeparate,
          hHourDigits, hMinuteDigits⟩, ?_⟩
    split <;> omega

/- A mark of an offset is a letter for universal time, a sign, a digit or a colon. -/
def isOffsetMark (c : Char) : Bool :=
  isZulu c || (offsetSign? c).isSome || isDigit c || c == ':'

theorem takeOffset_split
    (hTaken : takeOffset s = some (v, t)) :
    (∃ taken,
      s = taken ++ t ∧ ∀ c ∈ taken, isOffsetMark c = true) ∧
      -1439 ≤ v ∧ v ≤ 1439 := by
  have hDigit :
      ∀ {c}, isDigit c = true → isOffsetMark c = true := by
    intro c hDigit
    simp [isOffsetMark, hDigit]
  cases s with
  | nil => cases hTaken
  | cons c u =>
      rw [takeOffset] at hTaken
      split at hTaken
      · rename_i hZulu
        cases hTaken
        refine ⟨⟨[c], rfl, ?_⟩, by decide, by decide⟩
        rw [List.forall_mem_singleton]
        simp [isOffsetMark, hZulu]
      · rcases takeOffsetNumbers_split hTaken with
          ⟨hSign, ⟨hours, minutes, between, rfl, hColon,
            hHours, hMinutes⟩, hRange⟩
        have hBetween : between = ':' :: (minutes ++ t) := by
          unfold takeColon at hColon
          split at hColon
          · cases hColon
            rfl
          · cases hColon
        refine
          ⟨⟨c :: (hours ++ ':' :: minutes), ?_, ?_⟩, hRange⟩
        · rw [hBetween]
          simp
        · intro d hMember
          simp only [List.mem_cons, List.mem_append] at hMember
          rcases hMember with rfl | hMember | rfl | hMember
          · simp [isOffsetMark, hSign]
          · exact hDigit (hHours d hMember)
          · decide
          · exact hDigit (hMinutes d hMember)

theorem takeLooseOffset_split
    (hTaken : takeLooseOffset s = some (v, t)) :
    t <:+ s ∧ -1439 ≤ v ∧ v ≤ 1439 := by
  unfold takeLooseOffset at hTaken
  dsimp only at hTaken
  split at hTaken
  · cases hTaken
    exact ⟨List.drop_suffix 3 s, by decide, by decide⟩
  · cases s with
    | nil => cases hTaken
    | cons c u =>
        dsimp only at hTaken
        split at hTaken
        · cases hTaken
          exact ⟨List.suffix_cons c _, by decide, by decide⟩
        · rcases takeOffsetNumbers_split hTaken with
            ⟨_, ⟨hours, minutes, between, rfl, hRest, _⟩,
              hRange⟩
          have hEnd :
              minutes ++ t <:+ between :=
            Option.some.inj hRest ▸ List.dropWhile_suffix _
          have hLeft : t <:+ hours ++ between :=
            (List.suffix_append minutes t).trans
              (hEnd.trans (List.suffix_append hours between))
          exact
            ⟨hLeft.trans (List.suffix_cons c _), hRange⟩

------------------------------------------------------------
-- Items
------------------------------------------------------------

/- The characters that an item may take. -/
def Item.takes (c : Char) : Item → Bool
| lenient _ =>
  Text.isBlank c || isDigit c || c == '+' || c == '-'
| strict _ => isDigit c
| literal d => c == d
| spaces => Text.isBlank c
| separator => c == 'T' || c == 't' || c == ' '
| fraction => isDigit c || c == '.'
| offset => isOffsetMark c
| looseOffset => true

theorem takeLenient_split
    {part : Part}
    (hTaken : takeLenient part s = some (v, t)) :
    ∃ taken,
      s = taken ++ t ∧
        ∀ c ∈ taken, (Item.lenient part).takes c = true := by
  rcases Text.trimStart_split s with ⟨lead, hSplit, hLead⟩
  -- Behind the blanks there are digits, and before them a sign of a year.
  have hNumber :
      ∃ taken,
        Text.trimStart s = taken ++ t ∧
          ∀ c ∈ taken, isDigit c = true ∨ c = '+' ∨ c = '-' := by
    have hDigits
        (hTaken :
          (takeDigits (width part) (Text.trimStart s)).map
            (fun p => ((p.1 : Int), p.2)) = some (v, t)) :
        ∃ taken,
          Text.trimStart s = taken ++ t ∧
            ∀ c ∈ taken,
              isDigit c = true ∨ c = '+' ∨ c = '-' := by
      rcases takeDigits_map_split (fun _ => rfl) hTaken with
        ⟨digits, hSplit, hEach⟩
      exact
        ⟨digits, hSplit, fun c hMember =>
          .inl (hEach c hMember)⟩
    cases part with
    | year => exact takeYear_split hTaken
    | month => exact hDigits hTaken
    | day => exact hDigits hTaken
    | hour => exact hDigits hTaken
    | minute => exact hDigits hTaken
    | second => exact hDigits hTaken
  rcases hNumber with ⟨taken, hTrimmed, hTakes⟩
  refine ⟨lead ++ taken, ?_, ?_⟩
  · rw [List.append_assoc, ← hTrimmed]
    exact hSplit
  · intro c hMember
    rcases List.mem_append.mp hMember with hMember | hMember
    · simp [Item.takes, hLead c hMember]
    · rcases hTakes c hMember with hDigit | rfl | rfl
      · simp [Item.takes, hDigit]
      · rfl
      · rfl

variable {f g : Fields} {i : Item} {items : List Item}

/- What reading an item can come to: what it takes, and what it keeps. -/
inductive Reads
    (f : Fields)
    (s : List Char) :
    Item → Fields → List Char → Prop where
| lenient
    {part : Part}
    {v : Int}
    {g : Fields}
    {t : List Char}
    (hTaken : takeLenient part s = some (v, t))
    (hStored : f.store? part v = some g) :
    Reads f s (.lenient part) g t
| strict
    {part : Part}
    {v : Int}
    {g : Fields}
    {t : List Char}
    (hTaken : takeStrict part s = some (v, t))
    (hStored : f.store? part v = some g) :
    Reads f s (.strict part) g t
| literal
    {c : Char}
    {t : List Char}
    (hSplit : s = c :: t) :
    Reads f s (.literal c) f t
| spaces :
    Reads f s .spaces f (Text.trimStart s)
| separator
    {c : Char}
    {t : List Char}
    (hMark : c = 'T' ∨ c = 't' ∨ c = ' ')
    (hSplit : s = c :: t) :
    Reads f s .separator f t
| fraction
    {n : Nat}
    {t : List Char}
    (hTaken : takeFraction s = some (n, t)) :
    Reads f s .fraction { f with nano := n } t
| offset
    {v : Int}
    {t : List Char}
    (hTaken : takeOffset s = some (v, t)) :
    Reads f s .offset { f with offset := v } t
| looseOffset
    {v : Int}
    {t : List Char}
    (hTaken : takeLooseOffset s = some (v, t)) :
    Reads f s .looseOffset { f with offset := v } t

theorem exists_of_keep
    {part : Part}
    {taken : Option (Int × List Char)}
    (hKept : keep f part taken = some (g, t)) :
    ∃ v, taken = some (v, t) ∧ f.store? part v = some g := by
  rcases Option.bind_eq_some_iff.mp hKept with
    ⟨⟨v, r⟩, hTaken, hKept⟩
  rcases Option.bind_eq_some_iff.mp hKept with
    ⟨h, hStored, hDone⟩
  cases hDone
  exact ⟨v, hTaken, hStored⟩

theorem reads_of_readItem
    (hRead : readItem f s i = some (g, t)) :
    Reads f s i g t := by
  cases i with
  | lenient part =>
      rcases exists_of_keep hRead with ⟨v, hTaken, hStored⟩
      exact .lenient hTaken hStored
  | strict part =>
      rcases exists_of_keep hRead with ⟨v, hTaken, hStored⟩
      exact .strict hTaken hStored
  | literal c =>
      cases s with
      | nil => cases hRead
      | cons d u =>
          simp only [readItem] at hRead
          split at hRead
          · rename_i hSame
            cases hRead
            exact .literal (hSame ▸ rfl)
          · cases hRead
  | spaces =>
      cases hRead
      exact .spaces
  | separator =>
      cases s with
      | nil => cases hRead
      | cons d u =>
          simp only [readItem] at hRead
          split at hRead
          · rename_i hMark
            cases hRead
            exact .separator hMark rfl
          · cases hRead
  | fraction =>
      rcases Option.bind_eq_some_iff.mp hRead with
        ⟨⟨n, r⟩, hTaken, hDone⟩
      cases hDone
      exact .fraction hTaken
  | offset =>
      rcases Option.bind_eq_some_iff.mp hRead with
        ⟨⟨v, r⟩, hTaken, hDone⟩
      cases hDone
      exact .offset hTaken
  | looseOffset =>
      rcases Option.bind_eq_some_iff.mp hRead with
        ⟨⟨v, r⟩, hTaken, hDone⟩
      cases hDone
      exact .looseOffset hTaken

/- An item takes characters of its kind from the start of a text. -/
theorem Reads.split
    (hReads : Reads f s i g t) :
    ∃ taken,
      s = taken ++ t ∧ ∀ c ∈ taken, i.takes c = true := by
  cases hReads with
  | lenient hTaken => exact takeLenient_split hTaken
  | strict hTaken =>
      rcases takeStrict_split hTaken with
        ⟨digits, hSplit, _, hDigits, _⟩
      exact ⟨digits, hSplit, hDigits⟩
  | literal hSplit =>
      rename_i c
      refine ⟨[c], hSplit, ?_⟩
      rw [List.forall_mem_singleton]
      exact beq_self_eq_true c
  | spaces => exact Text.trimStart_split s
  | separator hMark hSplit =>
      rename_i c
      refine ⟨[c], hSplit, ?_⟩
      rw [List.forall_mem_singleton]
      rcases hMark with rfl | rfl | rfl
      · rfl
      · rfl
      · rfl
  | fraction hTaken =>
      rcases takeFraction_split hTaken with
        ⟨⟨taken, hSplit, hTakes⟩, _⟩
      refine ⟨taken, hSplit, fun c hMember => ?_⟩
      simpa [Item.takes] using hTakes c hMember
  | offset hTaken => exact (takeOffset_split hTaken).1
  | looseOffset hTaken =>
      rcases takeLooseOffset_split hTaken with
        ⟨⟨taken, hSplit⟩, _⟩
      exact ⟨taken, hSplit.symm, fun _ _ => rfl⟩

------------------------------------------------------------
-- Whole Texts
------------------------------------------------------------

variable {c : Char}

/- A text that is read has no character that no item of the pattern takes. -/
theorem notMem_of_readItems
    (hItems : ∀ i ∈ items, i.takes c = false)
    (hRead : readItems f s items = some g) :
    c ∉ s := by
  induction items generalizing f s with
  | nil =>
      simp only [readItems] at hRead
      split at hRead
      · rename_i hEmpty
        rw [List.isEmpty_iff.mp hEmpty]
        exact List.not_mem_nil
      · cases hRead
  | cons i items ih =>
      rcases Option.bind_eq_some_iff.mp hRead with
        ⟨⟨f', t⟩, hItem, hRest⟩
      rcases (reads_of_readItem hItem).split with
        ⟨taken, rfl, hTakes⟩
      rw [List.forall_mem_cons] at hItems
      rw [List.mem_append]
      rintro (hTaken | hLeft)
      · have hNot := hTakes c hTaken
        rw [hItems.1] at hNot
        exact Bool.false_ne_true hNot
      · exact ih hItems.2 hRest hLeft

/- A text that is read has every literal of the pattern. -/
theorem mem_of_readItems
    (hLiteral : .literal c ∈ items)
    (hRead : readItems f s items = some g) :
    c ∈ s := by
  induction items generalizing f s with
  | nil => cases hLiteral
  | cons i items ih =>
      rcases Option.bind_eq_some_iff.mp hRead with
        ⟨⟨f', t⟩, hItem, hRest⟩
      have hReads := reads_of_readItem hItem
      rcases List.mem_cons.mp hLiteral with rfl | hLater
      · cases hReads with
        | literal hSplit =>
            rw [hSplit]
            exact List.mem_cons_self
      · rcases hReads.split with ⟨taken, rfl, _⟩
        exact List.mem_append_right taken (ih hLater hRest)

/- What reading one item keeps is kept by reading a pattern. -/
theorem readItems_keeps
    {P : Fields → Prop}
    (hItems :
      ∀ i ∈ items, ∀ {f s g t},
        Reads f s i g t → P f → P g)
    (hRead : readItems f s items = some g)
    (hFirst : P f) :
    P g := by
  induction items generalizing f s with
  | nil =>
      simp only [readItems] at hRead
      split at hRead
      · cases hRead
        exact hFirst
      · cases hRead
  | cons i items ih =>
      rcases Option.bind_eq_some_iff.mp hRead with
        ⟨⟨f', t⟩, hItem, hRest⟩
      rw [List.forall_mem_cons] at hItems
      exact
        ih hItems.2 hRest
          (hItems.1 (reads_of_readItem hItem) hFirst)

------------------------------------------------------------
-- Ranges
------------------------------------------------------------

namespace Fields

/- The numbers of a time of day and of an offset are in their ranges. -/
structure InRange (f : Fields) : Prop where
  hour : ∀ n ∈ f.hour, n ≤ 23
  minute : ∀ n ∈ f.minute, n ≤ 59
  second : f.second ≤ 60
  nano : f.nano ≤ 999999999
  offset : -1439 ≤ f.offset ∧ f.offset ≤ 1439

theorem inRange_empty : empty.InRange where
  hour := fun _ hNone => nomatch hNone
  minute := fun _ hNone => nomatch hNone
  second := by decide
  nano := by decide
  offset := by decide

theorem inRange_of_store?
    {part : Part}
    {v : Int}
    (hRange : f.InRange)
    (hStored : f.store? part v = some g) :
    g.InRange := by
  rcases hRange with ⟨hHour, hMinute, hSecond, hNano, hOffset⟩
  cases part with
  | year =>
      cases hStored
      exact ⟨hHour, hMinute, hSecond, hNano, hOffset⟩
  | month =>
      simp only [store?] at hStored
      split at hStored
      · cases hStored
        exact ⟨hHour, hMinute, hSecond, hNano, hOffset⟩
      · cases hStored
  | day =>
      simp only [store?] at hStored
      split at hStored
      · cases hStored
        exact ⟨hHour, hMinute, hSecond, hNano, hOffset⟩
      · cases hStored
  | hour =>
      simp only [store?] at hStored
      split at hStored
      · cases hStored
        refine ⟨?_, hMinute, hSecond, hNano, hOffset⟩
        rintro n ⟨rfl⟩
        omega
      · cases hStored
  | minute =>
      simp only [store?] at hStored
      split at hStored
      · cases hStored
        refine ⟨hHour, ?_, hSecond, hNano, hOffset⟩
        rintro n ⟨rfl⟩
        omega
      · cases hStored
  | second =>
      simp only [store?] at hStored
      split at hStored
      · cases hStored
        refine ⟨hHour, hMinute, ?_, hNano, hOffset⟩
        show v.toNat ≤ 60
        omega
      · cases hStored

end Fields

theorem Reads.inRange
    (hReads : Reads f s i g t)
    (hRange : f.InRange) :
    g.InRange := by
  cases hReads with
  | lenient hTaken hStored =>
      exact Fields.inRange_of_store? hRange hStored
  | strict hTaken hStored =>
      exact Fields.inRange_of_store? hRange hStored
  | literal hSplit => exact hRange
  | spaces => exact hRange
  | separator hMark hSplit => exact hRange
  | fraction hTaken =>
      exact { hRange with nano := (takeFraction_split hTaken).2 }
  | offset hTaken =>
      exact { hRange with offset := (takeOffset_split hTaken).2 }
  | looseOffset hTaken =>
      exact
        { hRange with
          offset := (takeLooseOffset_split hTaken).2 }

theorem inRange_of_read?
    (hRead : read? items s = some g) :
    g.InRange :=
  readItems_keeps (fun _ _ _ _ _ _ hReads => hReads.inRange)
    hRead Fields.inRange_empty

theorem Fields.year_of_store?
    {part : Part}
    (hPart : part ≠ .year)
    (hStored : f.store? part v = some g) :
    g.year = f.year := by
  cases part with
  | year => exact absurd rfl hPart
  | month | day | hour | minute | second =>
      simp only [store?] at hStored
      split at hStored
      · cases hStored
        rfl
      · cases hStored

/- A strict item keeps a year of four digits, and other items keep the year. -/
theorem Reads.year
    (hReads : Reads f s i g t)
    (hItem : i ≠ .lenient .year)
    (hShort : ∀ y ∈ f.year, 0 ≤ y ∧ y ≤ 9999) :
    ∀ y ∈ g.year, 0 ≤ y ∧ y ≤ 9999 := by
  cases hReads with
  | lenient hTaken hStored =>
      rename_i part _
      have hPart : part ≠ .year :=
        fun hYear => hItem (congrArg Item.lenient hYear)
      rw [Fields.year_of_store? hPart hStored]
      exact hShort
  | strict hTaken hStored =>
      rename_i part v
      by_cases hPart : part = .year
      · subst hPart
        rcases takeStrict_split hTaken with
          ⟨digits, _, hLength, hDigits, rfl⟩
        have hBelow := digitsValue_lt hDigits
        rw [hLength] at hBelow
        cases hStored
        rintro y ⟨rfl⟩
        have hFour : digitsValue digits < 10000 := hBelow
        omega
      · rw [Fields.year_of_store? hPart hStored]
        exact hShort
  | literal hSplit => exact hShort
  | spaces => exact hShort
  | separator hMark hSplit => exact hShort
  | fraction hTaken => exact hShort
  | offset hTaken => exact hShort
  | looseOffset hTaken => exact hShort

/- A pattern with a strict year reads years of four digits. -/
theorem year_of_read?
    (hItems : .lenient .year ∉ items)
    (hRead : read? items s = some g) :
    ∀ y ∈ g.year, 0 ≤ y ∧ y ≤ 9999 :=
  readItems_keeps
    (fun _ hMember _ _ _ _ hReads =>
      hReads.year fun hItem => hItems (hItem ▸ hMember))
    hRead (fun _ hNone => nomatch hNone)

end Pattern

end Rowstore
