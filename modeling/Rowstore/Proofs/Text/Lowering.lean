import Mathlib.Data.List.Basic
import Rowstore.Decimal.Basic
import Rowstore.Text.Blank
import Rowstore.Text.Letters
import Rowstore.Value.Basic

/-
  Lowering the basic letters of a text, and tests of characters
  that do not tell a capital from its small letter.  What such
  tests cut from a text they cut from the lowered text at the
  same places.

  Main declarations:
    * `Text.eq_toLower_of_capitals`
    * `Text.toLower_eq_iff`
    * `Text.CaseBlind`
    * `Text.trim_lowerBasic`
    * `Decimal.ofText?_lowerBasic`
    * `Value.undouble_lowerBasic`
-/

------------------------------------------------------------
-- Characters
------------------------------------------------------------

namespace Rowstore

namespace Text

/- The letters that lowering changes. -/
def capitals : List Char :=
  "ABCDEFGHIJKLMNOPQRSTUVWXYZ".toList

theorem toLower_eq_or_mem_capitals (c : Char) :
    c.toLower = c ∨ c ∈ capitals := by
  have hBasic :
      ∀ n < 128,
        (Char.ofNat n).toLower = Char.ofNat n ∨
          Char.ofNat n ∈ capitals := by
    decide +kernel
  by_cases hCode : c.toNat < 128
  · have hSame := hBasic c.toNat hCode
    rwa [Char.ofNat_toNat] at hSame
  · left
    unfold Char.toLower
    rw [dif_neg]
    rintro ⟨_, hLast⟩
    rw [UInt32.le_iff_toNat_le] at hLast
    change c.toNat ≤ 90 at hLast
    omega

/- What is the same for each capital and its small letter is the same after lowering. -/
theorem eq_toLower_of_capitals
    {α : Type}
    {f : Char → α}
    (hCapitals :
      (capitals.map fun c => f c.toLower) = capitals.map f)
    (c : Char) :
    f c.toLower = f c := by
  rcases toLower_eq_or_mem_capitals c with hSame | hMem
  · rw [hSame]
  · exact List.map_inj_left.mp hCapitals c hMem

theorem toUpper_toLower (c : Char) :
    c.toLower.toUpper = c.toUpper :=
  eq_toLower_of_capitals (by decide +kernel) c

/- Lowering neither makes nor takes away a character that is no letter. -/
theorem toLower_eq_iff
    {mark : Char}
    (hMark : mark.isAlpha = false)
    (c : Char) :
    c.toLower = mark ↔ c = mark := by
  have hLetters :
      (capitals.all fun c => c.isAlpha && c.toLower.isAlpha) =
        true := by
    decide +kernel
  rcases toLower_eq_or_mem_capitals c with hSame | hMem
  · rw [hSame]
  · have hBoth := List.all_eq_true.mp hLetters c hMem
    rw [Bool.and_eq_true] at hBoth
    rcases hBoth with ⟨hCapital, hSmall⟩
    constructor
    · rintro rfl
      rw [hSmall] at hMark
      cases hMark
    · rintro rfl
      rw [hCapital] at hMark
      cases hMark

/- The test does not tell a capital from its small letter. -/
def CaseBlind (p : Char → Bool) : Prop :=
  ∀ c, p c.toLower = p c

theorem caseBlind_of_capitals
    {p : Char → Bool}
    (hCapitals :
      (capitals.map fun c => p c.toLower) = capitals.map p) :
    CaseBlind p :=
  eq_toLower_of_capitals hCapitals

theorem caseBlind_eq
    {mark : Char}
    (hMark : mark.isAlpha = false) :
    CaseBlind fun c => c == mark := by
  intro c
  simp only [Bool.beq_eq_decide_eq, toLower_eq_iff hMark]

theorem CaseBlind.not
    {p : Char → Bool}
    (hBlind : CaseBlind p) :
    CaseBlind fun c => !p c := by
  intro c
  simp only [hBlind c]

theorem caseBlind_isBlank : CaseBlind isBlank :=
  caseBlind_of_capitals (by decide +kernel)

theorem caseBlind_isDigit : CaseBlind Decimal.isDigit :=
  caseBlind_of_capitals (by decide +kernel)

------------------------------------------------------------
-- Texts
------------------------------------------------------------

variable {p : Char → Bool}

theorem lowerBasic_cons
    (c : Char)
    (s : List Char) :
    lowerBasic (c :: s) = c.toLower :: lowerBasic s := rfl

theorem lowerBasic_append (s t : List Char) :
    lowerBasic (s ++ t) = lowerBasic s ++ lowerBasic t :=
  List.map_append

theorem lowerBasic_take
    (n : Nat)
    (s : List Char) :
    lowerBasic (s.take n) = (lowerBasic s).take n :=
  List.map_take

theorem lowerBasic_drop
    (n : Nat)
    (s : List Char) :
    lowerBasic (s.drop n) = (lowerBasic s).drop n :=
  List.map_drop

theorem isEmpty_lowerBasic (s : List Char) :
    (lowerBasic s).isEmpty = s.isEmpty :=
  List.isEmpty_map

theorem takeWhile_lowerBasic
    (hBlind : CaseBlind p)
    (s : List Char) :
    (lowerBasic s).takeWhile p =
      lowerBasic (s.takeWhile p) := by
  unfold lowerBasic
  rw [List.takeWhile_map, show p ∘ Char.toLower = p from
    funext hBlind]

theorem dropWhile_lowerBasic
    (hBlind : CaseBlind p)
    (s : List Char) :
    (lowerBasic s).dropWhile p =
      lowerBasic (s.dropWhile p) := by
  unfold lowerBasic
  rw [List.dropWhile_map, show p ∘ Char.toLower = p from
    funext hBlind]

theorem dropEndWhile_lowerBasic
    (hBlind : CaseBlind p)
    (s : List Char) :
    dropEndWhile p (lowerBasic s) =
      lowerBasic (dropEndWhile p s) := by
  have hReverse :
      ∀ t : List Char,
        (lowerBasic t).reverse = lowerBasic t.reverse :=
    fun t => List.map_reverse.symm
  unfold dropEndWhile
  rw [hReverse, dropWhile_lowerBasic hBlind, hReverse]

theorem trim_lowerBasic (s : List Char) :
    trim (lowerBasic s) = lowerBasic (trim s) := by
  unfold trim trimEnd trimStart
  rw [dropWhile_lowerBasic caseBlind_isBlank,
    dropEndWhile_lowerBasic caseBlind_isBlank]

theorem upperBasic_lowerBasic (s : List Char) :
    upperBasic (lowerBasic s) = upperBasic s := by
  unfold upperBasic lowerBasic
  rw [List.map_map]
  exact List.map_congr_left fun c _ => toUpper_toLower c

end Text

end Rowstore

------------------------------------------------------------
-- Numbers And Quoted Texts
------------------------------------------------------------

namespace Rowstore

open Text

namespace Decimal

/- Digits stay as they are. -/
theorem lowerBasic_takeWhile_isDigit (s : List Char) :
    lowerBasic (s.takeWhile isDigit) =
      s.takeWhile isDigit := by
  have hDigits : capitals.any isDigit = false := by
    decide +kernel
  unfold lowerBasic
  conv_rhs => rw [← List.map_id (s.takeWhile isDigit)]
  apply List.map_congr_left
  intro c hMem
  have hDigit : isDigit c = true :=
    List.all_eq_true.mp List.all_takeWhile c hMem
  rcases toLower_eq_or_mem_capitals c with hSame | hCapital
  · exact hSame
  · exact (List.any_eq_false.mp hDigits c hCapital hDigit).elim

theorem splitDigits_lowerBasic (s : List Char) :
    splitDigits (lowerBasic s) =
      ((splitDigits s).1, lowerBasic (splitDigits s).2) := by
  unfold splitDigits
  rw [takeWhile_lowerBasic caseBlind_isDigit,
    dropWhile_lowerBasic caseBlind_isDigit,
    lowerBasic_takeWhile_isDigit]

theorem splitSign_lowerBasic (s : List Char) :
    splitSign (lowerBasic s) =
      ((splitSign s).1, lowerBasic (splitSign s).2) := by
  cases s with
  | nil => rfl
  | cons c s =>
      by_cases hMinus : c = '-'
      · rw [hMinus]
        rfl
      by_cases hPlus : c = '+'
      · rw [hPlus]
        rfl
      have hNoMinus := mt (toLower_eq_iff rfl c).mp hMinus
      have hNoPlus := mt (toLower_eq_iff rfl c).mp hPlus
      rw [lowerBasic_cons]
      simp [splitSign, hMinus, hPlus, hNoMinus, hNoPlus,
        lowerBasic_cons]

/- Both letters mark an exponent. -/
theorem exponent?_lowerBasic (s : List Char) :
    exponent? (lowerBasic s) = exponent? s := by
  cases s with
  | nil => rfl
  | cons c s =>
      have hMark :
          (decide (c.toLower = 'e') ||
              decide (c.toLower = 'E')) =
            (decide (c = 'e') || decide (c = 'E')) :=
        eq_toLower_of_capitals
          (f := fun c => decide (c = 'e') || decide (c = 'E'))
          (by decide +kernel) c
      rw [lowerBasic_cons]
      simp only [exponent?, splitSign_lowerBasic,
        splitDigits_lowerBasic, hMark, isEmpty_lowerBasic]

/- The digits after a point, and what is left of a text. -/
def splitFraction : List Char → List Char × List Char
| '.' :: t => splitDigits t
| t => ([], t)

theorem ofText?_eq (s : List Char) :
    ofText? s =
      let (negative, t) := splitSign s
      let (whole, afterWhole) := splitDigits t
      let (fraction, rest) := splitFraction afterWhole
      if whole.isEmpty && fraction.isEmpty then none
      else
        (exponent? rest).map fun e =>
          { negative := negative
            digits := digitsValue (whole ++ fraction)
            exponent := e - fraction.length } := rfl

theorem splitFraction_lowerBasic (s : List Char) :
    splitFraction (lowerBasic s) =
      ((splitFraction s).1,
        lowerBasic (splitFraction s).2) := by
  cases s with
  | nil => rfl
  | cons c s =>
      by_cases hPoint : c = '.'
      · rw [hPoint]
        exact splitDigits_lowerBasic s
      · have hNoPoint := mt (toLower_eq_iff rfl c).mp hPoint
        rw [lowerBasic_cons]
        simp [splitFraction, hPoint, hNoPoint,
          lowerBasic_cons]

/- A number is read as the same number in any letter case. -/
theorem ofText?_lowerBasic (s : List Char) :
    ofText? (lowerBasic s) = ofText? s := by
  simp only [ofText?_eq, splitSign_lowerBasic,
    splitDigits_lowerBasic, splitFraction_lowerBasic,
    exponent?_lowerBasic]

end Decimal

theorem Value.undouble_lowerBasic
    {mark : Char}
    (hMark : mark.isAlpha = false)
    (s : List Char) :
    undouble mark (lowerBasic s) =
      lowerBasic (undouble mark s) := by
  have hSame : mark.toLower = mark :=
    (toLower_eq_iff hMark mark).mpr rfl
  fun_induction undouble mark s with
  | case1 a b s hDouble ih =>
      simp only [lowerBasic_cons] at ih ⊢
      simp [undouble, hDouble, hSame, ih]
  | case2 a b s hOther ih =>
      simp only [lowerBasic_cons] at ih ⊢
      simp [undouble, toLower_eq_iff hMark, hOther, ih]
  | case3 s hShort =>
      rcases s with _ | ⟨a, _ | ⟨b, s⟩⟩
      · rfl
      · rfl
      · exact (hShort a b s rfl).elim

end Rowstore
