import Rowstore.Proofs.Json.Spacing

/-
  A document is read from any of its written forms.

  The bound on the steps of reading is met since every step
  takes a character; the proofs carry it along as the length
  of the text that is still to be read.

  Main declarations:
    * `Json.Proper`
    * `Json.readValue_spaced`
    * `Json.read?_compact`
    * `Json.read?_indented`
-/

------------------------------------------------------------
-- Documents That Can Be Written
------------------------------------------------------------

namespace Rowstore

namespace Json

mutual

/- The numbers are numerals, and the strings and keys can stand between quotes. -/
def Proper : Json → Prop
| null => True
| boolean _ => True
| number n => n.Proper
| string body => IsBody body
| array items => ProperItems items
| object members => ProperMembers members

def ProperItems : List Json → Prop
| [] => True
| v :: vs => v.Proper ∧ ProperItems vs

def ProperMembers : List (List Char × Json) → Prop
| [] => True
| (k, v) :: ms => IsBody k ∧ v.Proper ∧ ProperMembers ms

end

theorem properItems_iff (vs : List Json) :
    ProperItems vs ↔ ∀ v ∈ vs, v.Proper := by
  induction vs with
  | nil => simp [ProperItems]
  | cons v vs ih => simp [ProperItems, ih]

theorem properMembers_iff (ms : List (List Char × Json)) :
    ProperMembers ms ↔
      ∀ m ∈ ms, IsBody m.1 ∧ m.2.Proper := by
  induction ms with
  | nil => simp [ProperMembers]
  | cons m ms ih =>
      rcases m with ⟨k, v⟩
      simp [ProperMembers, ih, and_assoc]

end Json

end Rowstore

------------------------------------------------------------
-- Blanks And Ends
------------------------------------------------------------

namespace Rowstore

namespace Json

variable {gap s rest : List Char} {c : Char}

theorem skipSpaces_append
    (hBlank : IsBlank gap)
    (s : List Char) :
    skipSpaces (gap ++ s) = skipSpaces s :=
  List.dropWhile_append_of_pos hBlank

theorem skipSpaces_cons
    (hVisible : isSpace c = false)
    (s : List Char) :
    skipSpaces (c :: s) = c :: s := by
  simp [skipSpaces, hVisible]

/- Blanks and what closes or continues a list end a number. -/
theorem endsNumeral_append
    (hBlank : IsBlank gap)
    (hMark : c = ',' ∨ c = ']' ∨ c = '\x7d')
    (s : List Char) :
    EndsNumeral (gap ++ c :: s) := by
  intro d hHead
  cases gap with
  | nil =>
      cases hHead
      rcases hMark with rfl | rfl | rfl
      · decide
      · decide
      · decide
  | cons e gap =>
      cases hHead
      have hSpace : isSpace d = true :=
        hBlank d List.mem_cons_self
      simp only [isSpace, Bool.or_eq_true, beq_iff_eq]
        at hSpace
      rcases hSpace with ((rfl | rfl) | rfl) | rfl
      · decide
      · decide
      · decide
      · decide

theorem readValue_gap
    (hBlank : IsBlank gap)
    (fuel : Nat)
    (s : List Char) :
    readValue fuel (gap ++ s) = readValue fuel s := by
  cases fuel with
  | zero => rfl
  | succ fuel =>
      simp only [readValue, skipSpaces_append hBlank]

theorem readItems_gap
    (hBlank : IsBlank gap)
    (fuel : Nat)
    (s : List Char) :
    readItems fuel (gap ++ s) = readItems fuel s := by
  cases fuel with
  | zero => rfl
  | succ fuel =>
      simp only [readItems, readValue_gap hBlank]

theorem readMembers_gap
    (hBlank : IsBlank gap)
    (fuel : Nat)
    (s : List Char) :
    readMembers fuel (gap ++ s) = readMembers fuel s := by
  cases fuel with
  | zero => rfl
  | succ fuel =>
      simp only [readMembers, readKey,
        skipSpaces_append hBlank]

end Json

end Rowstore

------------------------------------------------------------
-- Steps
------------------------------------------------------------

namespace Rowstore

namespace Json

variable {fuel : Nat} {gap s s' rest : List Char}

/- What begins a number is nothing else. -/
theorem ne_of_startsNumeral
    {c d : Char}
    (hStart : c = '-' ∨ Decimal.isDigit c = true)
    (hNone : ¬(d = '-' ∨ Decimal.isDigit d = true)) :
    c ≠ d := by
  rintro rfl
  exact hNone hStart

theorem readValue_number
    {n : Numeral}
    (hProper : n.Proper)
    (hRest : EndsNumeral rest) :
    readValue (fuel + 1) (n.text ++ rest) =
      some (number n, rest) := by
  have hRead := readNumeral_text hProper hRest
  rcases Numeral.text_eq_cons hProper with
    ⟨c, digits, hText, hStart⟩
  rw [hText, List.cons_append] at hRead ⊢
  have hOther :=
    fun d hNone => ne_of_startsNumeral (d := d) hStart hNone
  simp [readValue, skipSpaces, isSpace, hRead,
    hOther ' ' (by decide), hOther '\n' (by decide),
    hOther '\t' (by decide), hOther '\r' (by decide),
    hOther '"' (by decide), hOther '[' (by decide),
    hOther '\x7b' (by decide), hOther 'n' (by decide),
    hOther 't' (by decide), hOther 'f' (by decide)]

theorem readValue_string
    {body : List Char}
    (hBody : IsBody body) :
    readValue (fuel + 1) (quoted body ++ rest) =
      some (string body, rest) := by
  have hRead := hBody rest
  simp [readValue, quoted, skipSpaces, isSpace, hRead]

theorem readKey_quoted
    {k : List Char}
    (hKey : IsBody k) :
    readKey (quoted k ++ ':' :: s) = some (k, s) := by
  have hRead := hKey (':' :: s)
  simp [readKey, quoted, skipSpaces, isSpace, hRead]

/- A list that does not close at once has items. -/
theorem readValue_array
    (hOpen : ∀ t, skipSpaces s ≠ ']' :: t)
    {vs : List Json}
    (hItems : readItems fuel s = some (vs, rest)) :
    readValue (fuel + 1) ('[' :: s) =
      some (array vs, rest) := by
  simp [readValue, skipSpaces_cons (c := '[') rfl, hItems]

theorem readValue_object
    (hOpen : ∀ t, skipSpaces s ≠ '\x7d' :: t)
    {ms : List (List Char × Json)}
    (hMembers : readMembers fuel s = some (ms, rest)) :
    readValue (fuel + 1) ('\x7b' :: s) =
      some (object ms, rest) := by
  simp [readValue, skipSpaces_cons (c := '\x7b') rfl,
    hMembers]

theorem readItems_last
    {v : Json}
    (hValue : readValue fuel s = some (v, gap ++ ']' :: rest))
    (hBlank : IsBlank gap) :
    readItems (fuel + 1) s = some ([v], rest) := by
  simp [readItems, hValue, skipSpaces_append hBlank,
    skipSpaces_cons (c := ']') rfl]

theorem readItems_more
    {v : Json}
    {vs : List Json}
    (hValue : readValue fuel s = some (v, ',' :: s'))
    (hItems : readItems fuel s' = some (vs, rest)) :
    readItems (fuel + 1) s = some (v :: vs, rest) := by
  simp [readItems, hValue, hItems,
    skipSpaces_cons (c := ',') rfl]

theorem readMembers_last
    {k : List Char}
    {v : Json}
    (hKey : readKey s = some (k, s'))
    (hValue :
      readValue fuel s' = some (v, gap ++ '\x7d' :: rest))
    (hBlank : IsBlank gap) :
    readMembers (fuel + 1) s = some ([(k, v)], rest) := by
  simp [readMembers, hKey, hValue,
    skipSpaces_append hBlank,
    skipSpaces_cons (c := '\x7d') rfl]

theorem readMembers_more
    {k t : List Char}
    {v : Json}
    {ms : List (List Char × Json)}
    (hKey : readKey s = some (k, s'))
    (hValue : readValue fuel s' = some (v, ',' :: t))
    (hMembers : readMembers fuel t = some (ms, rest)) :
    readMembers (fuel + 1) s =
      some ((k, v) :: ms, rest) := by
  simp [readMembers, hKey, hValue, hMembers,
    skipSpaces_cons (c := ',') rfl]

end Json

end Rowstore

------------------------------------------------------------
-- Spaced Forms
------------------------------------------------------------

namespace Rowstore

namespace Json

variable {g : Gaps} {rest : List Char}

/- No form begins with a blank or a closing bracket. -/
theorem spaced_eq_cons
    (g : Gaps)
    (depth : Nat)
    {v : Json}
    (hProper : v.Proper) :
    ∃ c s,
      v.spaced g depth = c :: s ∧
        isSpace c = false ∧ c ≠ ']' := by
  cases v with
  | null => exact ⟨_, _, rfl, rfl, by decide⟩
  | boolean b =>
      cases b with
      | true => exact ⟨_, _, rfl, rfl, by decide⟩
      | false => exact ⟨_, _, rfl, rfl, by decide⟩
  | number n =>
      rcases Numeral.text_eq_cons hProper with
        ⟨c, s, hText, hStart⟩
      have hOther :=
        fun d hNone =>
          ne_of_startsNumeral (d := d) hStart hNone
      refine ⟨c, s, hText, ?_, hOther ']' (by decide)⟩
      simp [isSpace, hOther ' ' (by decide),
        hOther '\n' (by decide), hOther '\t' (by decide),
        hOther '\r' (by decide)]
  | string body => exact ⟨_, _, rfl, rfl, by decide⟩
  | array items =>
      cases items with
      | nil => exact ⟨_, _, rfl, rfl, by decide⟩
      | cons v vs => exact ⟨_, _, rfl, rfl, by decide⟩
  | object members =>
      cases members with
      | nil => exact ⟨_, _, rfl, rfl, by decide⟩
      | cons m ms => exact ⟨_, _, rfl, rfl, by decide⟩

theorem spacedItems_eq_cons
    (g : Gaps)
    (depth : Nat)
    {v : Json}
    (hProper : v.Proper)
    (vs : List Json) :
    ∃ c s,
      spacedItems g depth (v :: vs) = c :: s ∧
        isSpace c = false ∧ c ≠ ']' := by
  rcases spaced_eq_cons g depth hProper with
    ⟨c, s, hText, hMark⟩
  cases vs with
  | nil => exact ⟨c, s, hText, hMark⟩
  | cons w vs =>
      refine
        ⟨c,
          s ++ ',' :: (g.line depth ++
            spacedItems g depth (w :: vs)), ?_, hMark⟩
      rw [spacedItems, hText, List.cons_append]

theorem spacedMembers_eq_cons
    (g : Gaps)
    (depth : Nat)
    (m : List Char × Json)
    (ms : List (List Char × Json)) :
    ∃ s, spacedMembers g depth (m :: ms) = '"' :: s := by
  rcases m with ⟨k, v⟩
  cases ms with
  | nil => exact ⟨_, rfl⟩
  | cons m ms => exact ⟨_, rfl⟩

/- What is seen after blanks before a list is not its closing mark. -/
theorem skipSpaces_ne_cons
    {gap : List Char}
    (hBlank : IsBlank gap)
    {c d : Char}
    (hVisible : isSpace c = false)
    (hOther : c ≠ d)
    (s t : List Char) :
    skipSpaces (gap ++ c :: s) ≠ d :: t := by
  rw [skipSpaces_append hBlank, skipSpaces_cons hVisible]
  intro hSame
  exact hOther (List.cons.inj hSame).1

mutual

/- A document is read from a form of it, up to where it ends. -/
theorem readValue_spaced
    (hGaps : g.AreBlank) :
    ∀ (depth : Nat) (v : Json) (fuel : Nat)
      (rest : List Char),
      v.Proper →
        EndsNumeral rest →
        (v.spaced g depth).length ≤ fuel →
        readValue fuel (v.spaced g depth ++ rest) =
          some (v, rest)
| depth, v, 0, _, hProper, _, hFuel => by
  rcases spaced_eq_cons g depth hProper with
    ⟨c, s, hText, _⟩
  simp [hText] at hFuel
| _, null, fuel + 1, _, _, _, _ => by
  simp [spaced, readValue, skipSpaces, isSpace, readWord]
| _, boolean b, fuel + 1, _, _, _, _ => by
  cases b with
  | true =>
      simp [spaced, booleanText, readValue, skipSpaces,
        isSpace, readWord]
  | false =>
      simp [spaced, booleanText, readValue, skipSpaces,
        isSpace, readWord]
| _, number n, fuel + 1, _, hProper, hRest, _ =>
  readValue_number hProper hRest
| _, string body, fuel + 1, _, hProper, _, _ =>
  readValue_string hProper
| _, array [], fuel + 1, _, _, _, _ => by
  simp [spaced, readValue, skipSpaces, isSpace]
| depth, array (v :: vs), fuel + 1, rest, hProper, _, hFuel => by
  have hBound :
      (spacedItems g (depth + 1) (v :: vs)).length < fuel := by
    simp [spaced] at hFuel
    omega
  have hItems :=
    readItems_spaced hGaps (depth + 1) v vs fuel
      (g.line depth) rest hProper (hGaps.line depth) hBound
  rcases spacedItems_eq_cons g (depth + 1) hProper.1 vs with
    ⟨c, s, hText, hVisible, hOpen⟩
  have hBlank := hGaps.line (depth + 1)
  rw [← readItems_gap hBlank] at hItems
  simp only [spaced, List.cons_append, List.append_assoc,
    List.nil_append]
  apply readValue_array _ hItems
  rw [hText]
  exact skipSpaces_ne_cons hBlank hVisible hOpen _
| _, object [], fuel + 1, _, _, _, _ => by
  simp [spaced, readValue, skipSpaces, isSpace]
| depth, object (m :: ms), fuel + 1, rest, hProper, _, hFuel => by
  have hBound :
      (spacedMembers g (depth + 1) (m :: ms)).length <
        fuel := by
    simp [spaced] at hFuel
    omega
  have hMembers :=
    readMembers_spaced hGaps (depth + 1) m ms fuel
      (g.line depth) rest hProper (hGaps.line depth) hBound
  rcases spacedMembers_eq_cons g (depth + 1) m ms with
    ⟨s, hText⟩
  have hBlank := hGaps.line (depth + 1)
  rw [← readMembers_gap hBlank] at hMembers
  simp only [spaced, List.cons_append, List.append_assoc,
    List.nil_append]
  apply readValue_object _ hMembers
  rw [hText]
  exact skipSpaces_ne_cons hBlank rfl (by decide) _

/- Items are read up to the bracket that closes them. -/
theorem readItems_spaced
    (hGaps : g.AreBlank) :
    ∀ (depth : Nat) (v : Json) (vs : List Json) (fuel : Nat)
      (gap rest : List Char),
      ProperItems (v :: vs) →
        IsBlank gap →
        (spacedItems g depth (v :: vs)).length < fuel →
        readItems fuel
            (spacedItems g depth (v :: vs) ++
              (gap ++ ']' :: rest)) =
          some (v :: vs, rest)
| _, _, _, 0, _, _, _, _, hFuel => absurd hFuel (by omega)
| depth, v, [], fuel + 1, gap, rest, hProper, hBlank, hFuel => by
  have hValue :=
    readValue_spaced hGaps depth v fuel (gap ++ ']' :: rest)
      hProper.1
      (endsNumeral_append hBlank (.inr (.inl rfl)) rest)
      (Nat.le_of_lt_succ hFuel)
  exact readItems_last hValue hBlank
| depth, v, w :: vs, fuel + 1, gap, rest, hProper, hBlank, hFuel => by
  rw [spacedItems] at hFuel ⊢
  simp only [List.length_append, List.length_cons] at hFuel
  have hItems :=
    readItems_spaced hGaps depth w vs fuel gap rest
      hProper.2 hBlank (by omega)
  rw [← readItems_gap (hGaps.line depth)] at hItems
  simp only [List.append_assoc, List.cons_append]
  refine readItems_more ?_ hItems
  apply readValue_spaced hGaps depth v fuel _ hProper.1
  · exact endsNumeral_append isBlank_nil (.inl rfl) _
  · omega

/- Members are read up to the brace that closes them. -/
theorem readMembers_spaced
    (hGaps : g.AreBlank) :
    ∀ (depth : Nat) (m : List Char × Json)
      (ms : List (List Char × Json)) (fuel : Nat)
      (gap rest : List Char),
      ProperMembers (m :: ms) →
        IsBlank gap →
        (spacedMembers g depth (m :: ms)).length < fuel →
        readMembers fuel
            (spacedMembers g depth (m :: ms) ++
              (gap ++ '\x7d' :: rest)) =
          some (m :: ms, rest)
| _, _, _, 0, _, _, _, _, hFuel => absurd hFuel (by omega)
| depth, (k, v), [], fuel + 1, gap, rest, hProper, hBlank, hFuel => by
  rw [spacedMembers] at hFuel ⊢
  simp only [List.length_append, List.length_cons] at hFuel
  simp only [List.append_assoc, List.cons_append]
  refine readMembers_last (readKey_quoted hProper.1) ?_ hBlank
  rw [readValue_gap hGaps.colon]
  apply readValue_spaced hGaps depth v fuel _ hProper.2.1
  · exact endsNumeral_append hBlank (.inr (.inr rfl)) rest
  · omega
| depth, (k, v), m :: ms, fuel + 1, gap, rest, hProper, hBlank, hFuel => by
  rw [spacedMembers] at hFuel ⊢
  simp only [List.length_append, List.length_cons] at hFuel
  have hMembers :=
    readMembers_spaced hGaps depth m ms fuel gap rest
      hProper.2.2 hBlank (by omega)
  rw [← readMembers_gap (hGaps.line depth)] at hMembers
  simp only [List.append_assoc, List.cons_append]
  refine readMembers_more (readKey_quoted hProper.1) ?_
    hMembers
  rw [readValue_gap hGaps.colon]
  apply readValue_spaced hGaps depth v fuel _ hProper.2.1
  · exact endsNumeral_append isBlank_nil (.inl rfl) _
  · omega

end

/- A text with nothing but a form of a document holds that document. -/
theorem read?_spaced
    (hGaps : g.AreBlank)
    (depth : Nat)
    {v : Json}
    (hProper : v.Proper) :
    read? (v.spaced g depth) = some v := by
  have hValue :=
    readValue_spaced hGaps depth v
      ((v.spaced g depth).length + 1) [] hProper
      (fun _ hMem => by cases hMem) (Nat.le_succ _)
  rw [List.append_nil] at hValue
  unfold read?
  rw [hValue]
  rfl

theorem read?_compact
    {v : Json}
    (hProper : v.Proper) :
    read? v.compact = some v := by
  rw [compact_eq_spaced 0 v]
  exact read?_spaced Gaps.areBlank_none 0 hProper

theorem read?_indented
    {v : Json}
    (hProper : v.Proper) :
    read? v.indented = some v := by
  unfold indented
  rw [indentedAt_eq_spaced 0 v]
  exact read?_spaced Gaps.areBlank_lines 0 hProper

end Json

end Rowstore
