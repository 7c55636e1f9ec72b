import Mathlib.Data.List.Basic
import Mathlib.Data.List.Induction
import Mathlib.Data.Nat.Digits.Defs
import Rowstore.Decimal.Shortest
import Rowstore.Text.Blank

/-
  The digits of a number, and what the shortest decimal of a
  binary number consists of.

  Main declarations:
    * `Decimal.digitsValue_digitsText` and
      `Decimal.digitsValue_lt`
    * `Decimal.head?_digitsText`
    * `Decimal.splitDigits_append`
    * `Decimal.digitsValue_paddedText` and
      `Decimal.length_paddedText`
    * `Decimal.exponent_shortest_of_digits_eq_zero`
-/

------------------------------------------------------------
-- Digit Sequences
------------------------------------------------------------

namespace Rowstore

namespace Decimal

theorem range_of_isDigit
    {c : Char}
    (hDigit : isDigit c = true) :
    48 ≤ c.toNat ∧ c.toNat ≤ 57 := by
  simpa [isDigit, Char.le_def, UInt32.le_iff_toNat_le]
    using hDigit

theorem ne_of_isDigit
    {c d : Char}
    (hDigit : isDigit c = true)
    (hOther : isDigit d = false) :
    c ≠ d := by
  rintro rfl
  rw [hDigit] at hOther
  cases hOther

theorem isBlank_of_isDigit
    {c : Char}
    (hDigit : isDigit c = true) :
    Text.isBlank c = false := by
  have hRange := range_of_isDigit hDigit
  simp [Text.isBlank, Text.blankRanges]
  omega

/- A number is below the power of ten that has as many zeros as it has digits. -/
theorem digitsValue_lt
    {s : List Char}
    (hDigits : ∀ c ∈ s, isDigit c = true) :
    digitsValue s < 10 ^ s.length := by
  induction s using List.reverseRecOn with
  | nil => decide
  | append_singleton s c ih =>
      have hBelow :=
        ih fun d hMember =>
          hDigits d (List.mem_append_left _ hMember)
      have hLast : digitValue c ≤ 9 := by
        have hRange :=
          range_of_isDigit (hDigits c (by simp))
        change c.toNat - 48 ≤ 9
        omega
      have hValue :
          digitsValue (s ++ [c]) =
            10 * digitsValue s + digitValue c := by
        unfold digitsValue
        rw [List.foldl_append]
        rfl
      rw [hValue, List.length_append, List.length_singleton,
        Nat.pow_succ]
      omega

theorem digitsValue_digitsText (n : Nat) :
    digitsValue (digitsText n) = n :=
  Nat.ofDigitChars_toDigits (by decide) (by decide)

theorem digitsText_ne_nil (n : Nat) : digitsText n ≠ [] :=
  Nat.toDigits_ne_nil

theorem isDigit_of_mem_digitsText
    {n : Nat}
    {c : Char}
    (hMem : c ∈ digitsText n) :
    isDigit c = true := by
  have hDigit : c.isDigit = true :=
    Nat.isDigit_of_mem_toDigits (by decide) (by decide) hMem
  simpa [isDigit, Char.isDigit, Char.le_def] using hDigit

/- No number but zero is written with a zero at the front. -/
theorem head?_digitsText
    {n : Nat}
    (hPositive : 0 < n) :
    (digitsText n).head? ≠ some '0' := by
  unfold digitsText
  induction n using Nat.strong_induction_on with
  | _ n ih =>
      rw [Nat.toDigits_eq_if (by decide)]
      by_cases hSmall : n < 10
      · rw [if_pos hSmall]
        have hDigit :
            ∀ m < 10, 0 < m → some m.digitChar ≠ some '0' := by
          decide
        exact hDigit n hSmall hPositive
      · rw [if_neg hSmall, List.head?_append_of_ne_nil _
          Nat.toDigits_ne_nil]
        exact ih (n / 10) (by omega) (by omega)

theorem splitDigits_append
    {digits rest : List Char}
    (hDigits : ∀ c ∈ digits, isDigit c = true)
    (hRest : ∀ c ∈ rest.head?, isDigit c = false) :
    splitDigits (digits ++ rest) = (digits, rest) := by
  unfold splitDigits
  rw [List.takeWhile_append_of_pos hDigits,
    List.dropWhile_append_of_pos hDigits]
  cases rest with
  | nil => simp
  | cons c rest =>
      have hFirst : isDigit c = false := hRest c rfl
      simp [hFirst]

------------------------------------------------------------
-- Padded Digits
------------------------------------------------------------

/- Zeros at the front do not count. -/
theorem digitsValue_replicate_append
    (k : Nat)
    (s : List Char) :
    digitsValue (List.replicate k '0' ++ s) =
      digitsValue s := by
  unfold digitsValue
  induction k with
  | zero => rfl
  | succ k ih =>
      rw [List.replicate_succ]
      exact ih

theorem digitsValue_paddedText (width n : Nat) :
    digitsValue (paddedText width n) = n := by
  unfold paddedText
  rw [digitsValue_replicate_append, digitsValue_digitsText]

theorem isDigit_of_mem_paddedText
    {width n : Nat}
    {c : Char}
    (hMem : c ∈ paddedText width n) :
    isDigit c = true := by
  rcases List.mem_append.mp hMem with hZero | hDigit
  · rw [List.eq_of_mem_replicate hZero]
    rfl
  · exact isDigit_of_mem_digitsText hDigit

theorem paddedText_ne_nil (width n : Nat) :
    paddedText width n ≠ [] :=
  List.append_ne_nil_of_right_ne_nil _ (digitsText_ne_nil n)

/- A number with no more digits than the width takes up the width. -/
theorem length_paddedText
    {width n : Nat}
    (hWidth : 0 < width)
    (hFits : n < 10 ^ width) :
    (paddedText width n).length = width := by
  have hLength : (digitsText n).length ≤ width :=
    Nat.toDigits_length 10 n width hWidth hFits
  unfold paddedText
  rw [List.length_append, List.length_replicate]
  omega

end Decimal

end Rowstore

------------------------------------------------------------
-- Shortest Decimals
------------------------------------------------------------

namespace Rowstore

namespace Decimal

variable {x : Binary} {n : Nat} {k : Int}

/- Zero reads back to no positive number. -/
theorem digits_ne_zero_of_readsBack
    (hPositive : x.significand ≠ 0)
    (hReads : x.readsBack n k = true) :
    n ≠ 0 := by
  rintro rfl
  have hLow :
      ∀ low, 0 < low →
        Binary.compareScaled 0 k low (x.exponent - 2) = .lt := by
    intro low hPositive
    unfold Binary.compareScaled
    rw [Nat.zero_mul, Nat.zero_mul, Nat.compare_eq_lt]
    have hTwo := Nat.pow_pos (n := (x.exponent - 2).toNat)
      (show 0 < 2 by decide)
    have hTen := Nat.pow_pos (n := (-k).toNat)
      (show 0 < 10 by decide)
    exact Nat.mul_pos (Nat.mul_pos hPositive hTwo) hTen
  unfold Binary.readsBack at hReads
  by_cases hNarrow : x.narrowBelow = true
  · simp [hNarrow,
      hLow (4 * x.significand - 1) (by omega)] at hReads
  · simp [hNarrow,
      hLow (4 * x.significand - 2) (by omega)] at hReads

/- The amount in units of a grid, as a fraction. -/
def gridNumerator
    (x : Binary)
    (k : Int) : Nat :=
  x.significand * Nat.pow 2 x.exponent.toNat *
    Nat.pow 10 (-k).toNat

def gridDenominator
    (x : Binary)
    (k : Int) : Nat :=
  Nat.pow 2 (-x.exponent).toNat * Nat.pow 10 k.toNat

/- The digits of the neighbour below on a grid. -/
def below
    (x : Binary)
    (k : Int) : Nat :=
  gridNumerator x k / gridDenominator x k

/-
  On a grid a neighbour is chosen that reads back; there is
  none only if neither of them does.
-/
theorem onGrid?_cases
    (tie : Tie)
    (x : Binary)
    (k : Int) :
    (onGrid? tie x k = none ∧
        x.readsBack (below x k) k = false ∧
        x.readsBack (below x k + 1) k = false) ∨
      ∃ n, onGrid? tie x k = some (n, k) ∧
        x.readsBack n k = true ∧
        (n = below x k ∨ n = below x k + 1) := by
  unfold onGrid? below gridNumerator gridDenominator
  dsimp only
  generalize
    x.significand * Nat.pow 2 x.exponent.toNat *
      Nat.pow 10 (-k).toNat = num
  generalize
    Nat.pow 2 (-x.exponent).toNat * Nat.pow 10 k.toNat = den
  generalize num / den = low
  split
  · rename_i hLow hHigh
    exact .inl ⟨rfl, hLow, hHigh⟩
  · rename_i hLow _
    exact .inr ⟨low, rfl, hLow, .inl rfl⟩
  · rename_i hHigh
    exact .inr ⟨low + 1, rfl, hHigh, .inr rfl⟩
  · rename_i hLow hHigh
    right
    split
    · exact ⟨low, rfl, hLow, .inl rfl⟩
    · exact ⟨low + 1, rfl, hHigh, .inr rfl⟩
    · exact ⟨low + 1, rfl, hHigh, .inr rfl⟩
    · refine ⟨_, rfl, ?_, ?_⟩
      · split
        · exact hLow
        · exact hHigh
      · split
        · exact .inl rfl
        · exact .inr rfl

theorem digits_ne_zero_of_onGrid?
    {tie : Tie}
    (hPositive : x.significand ≠ 0)
    {k' : Int}
    (hGrid : onGrid? tie x k = some (n, k')) :
    n ≠ 0 := by
  rcases onGrid?_cases tie x k with
    ⟨hNone, _⟩ | ⟨n', hChosen, hReads, _⟩
  · rw [hNone] at hGrid
    cases hGrid
  · rw [hChosen] at hGrid
    cases hGrid
    exact digits_ne_zero_of_readsBack hPositive hReads

theorem stripZeros_ne_zero
    (fuel : Nat)
    (hDigits : n ≠ 0) :
    (stripZeros fuel n k).1 ≠ 0 := by
  induction fuel generalizing n k with
  | zero => exact hDigits
  | succ fuel ih =>
      unfold stripZeros
      split
      · rename_i hZero
        apply ih
        simp at hZero
        omega
      · exact hDigits

theorem exact_ne_zero
    (hPositive : x.significand ≠ 0) :
    (exact x).1 ≠ 0 := by
  unfold Decimal.exact
  split
  · exact Nat.mul_ne_zero hPositive
      (Nat.pow_pos (show 0 < 2 by decide)).ne'
  · exact Nat.mul_ne_zero hPositive
      (Nat.pow_pos (show 0 < 5 by decide)).ne'

theorem shortestOf_ne_zero
    (tie : Tie)
    (hPositive : x.significand ≠ 0) :
    (shortestOf tie x).1 ≠ 0 := by
  unfold shortestOf
  simp only
  apply stripZeros_ne_zero
  generalize
    ((List.range 17).map fun n =>
      x.scale - (n + 1 : Nat)) = grids
  cases hGrid : grids.findSome? (onGrid? tie x) with
  | none => exact exact_ne_zero hPositive
  | some found =>
      rcases List.exists_of_findSome?_eq_some hGrid with
        ⟨k, _, hFound⟩
      exact digits_ne_zero_of_onGrid? hPositive hFound

/- Only zero has the digits of zero, and it has no exponent. -/
theorem exponent_shortest_of_digits_eq_zero
    {tie : Tie}
    {y : Float}
    (hZero : (shortest tie y).digits = 0) :
    (shortest tie y).exponent = 0 := by
  unfold shortest at hZero ⊢
  by_cases hSignificand : (Binary.ofFloat y).significand = 0
  · simp only [hSignificand, if_true]
  · simp only [if_neg hSignificand] at hZero
    exact absurd hZero (shortestOf_ne_zero tie hSignificand)

end Decimal

end Rowstore
