import Rowstore.Proofs.Decimal.Digits
import Rowstore.Proofs.Decimal.Nearest

/-
  The shortest decimal reads back, and has few digits.

  The scale of a number is found from an estimate, which is
  close enough since twenty-eight times three and ninety-three
  factors of two make about one factor of ten.  With seventeen
  digits the grid is finer than the gap between two numbers,
  so one of the two neighbours on it lies in the interval of
  the number.  The search therefore ends there at the latest.

  Main declarations:
    * `Decimal.value`
    * `Binary.scale_bounds`
    * `Decimal.onGrid?_seventeen`
    * `Decimal.covers_shortest` and `Decimal.digits_shortest_le`
-/

------------------------------------------------------------
-- Powers Of Two And Of Ten
------------------------------------------------------------

namespace Rowstore

namespace Binary

/- A power of two is at most a power of ten, by two bounds on its logarithm. -/
theorem two_zpow_le_ten_zpow
    {i k : ℤ}
    (hAbove : 28 * i ≤ 93 * k)
    (hBelow : 59 * i ≤ 196 * k) :
    (2 : ℚ) ^ i ≤ 10 ^ k := by
  rcases le_or_gt 0 i with hPos | hNeg
  · apply le_of_pow_le_pow_left₀ (show 93 ≠ 0 by decide)
      (by positivity)
    calc
      ((2 : ℚ) ^ i) ^ 93 = (2 ^ 93) ^ i := by
        rw [← zpow_natCast, ← zpow_natCast, zpow_comm]
      _ ≤ (10 ^ 28) ^ i :=
        zpow_le_zpow_left₀ hPos (by norm_num) (by norm_num)
      _ = 10 ^ (28 * i) := by
        rw [zpow_mul]
        norm_num
      _ ≤ 10 ^ (93 * k) :=
        zpow_le_zpow_right₀ (by norm_num) hAbove
      _ = (10 ^ k) ^ 93 := by
        rw [mul_comm, zpow_mul]
        norm_cast
  · apply le_of_pow_le_pow_left₀ (show 196 ≠ 0 by decide)
      (by positivity)
    have hInverse :
        (10 ^ 59 : ℚ) ^ (-i) ≤ (2 ^ 196) ^ (-i) :=
      zpow_le_zpow_left₀ (by omega) (by norm_num) (by norm_num)
    rw [zpow_neg, zpow_neg,
      inv_le_inv₀ (by positivity) (by positivity)] at hInverse
    calc
      ((2 : ℚ) ^ i) ^ 196 = (2 ^ 196) ^ i := by
        rw [← zpow_natCast, ← zpow_natCast, zpow_comm]
      _ ≤ (10 ^ 59) ^ i := hInverse
      _ = 10 ^ (59 * i) := by
        rw [zpow_mul]
        norm_num
      _ ≤ 10 ^ (196 * k) :=
        zpow_le_zpow_right₀ (by norm_num) hBelow
      _ = (10 ^ k) ^ 196 := by
        rw [mul_comm, zpow_mul]
        norm_cast

theorem ten_zpow_le_two_zpow
    {i k : ℤ}
    (hAbove : 93 * k ≤ 28 * i)
    (hBelow : 196 * k ≤ 59 * i) :
    (10 : ℚ) ^ k ≤ 2 ^ i := by
  have hInverse : (2 : ℚ) ^ (-i) ≤ 10 ^ (-k) :=
    two_zpow_le_ten_zpow (by omega) (by omega)
  rwa [zpow_neg, zpow_neg,
    inv_le_inv₀ (by positivity) (by positivity)] at hInverse

------------------------------------------------------------
-- Scales
------------------------------------------------------------

variable {b : Binary}

/- The exponent of the first binary digit. -/
def logarithm (b : Binary) : ℤ :=
  b.significand.log2 + b.exponent

theorem amount_bounds
    (hSome : b.significand ≠ 0) :
    2 ^ b.logarithm ≤ b.amount ∧
      b.amount < 2 ^ (b.logarithm + 1) := by
  have hGap : (0 : ℚ) < 2 ^ b.exponent := zpow_pos (by norm_num) _
  unfold logarithm amount
  rw [add_right_comm, zpow_add₀ (by norm_num),
    zpow_add₀ (by norm_num)]
  constructor
  · apply mul_le_mul_of_nonneg_right _ hGap.le
    exact_mod_cast Nat.log2_self_le hSome
  · apply mul_lt_mul_of_pos_right _ hGap
    exact_mod_cast Nat.lt_log2_self

theorem logarithm_bounds
    (hCanonical : b.Canonical)
    (hMost : b.exponent ≤ 971)
    (hSome : b.significand ≠ 0) :
    -1074 ≤ b.logarithm ∧ b.logarithm ≤ 1023 := by
  have hLeast := hCanonical.le_exponent
  have hLog : b.significand.log2 < 53 :=
    (Nat.log2_lt hSome).mpr hCanonical.significand_lt
  unfold logarithm
  omega

/- A search upwards ends behind what is not found, or at the last place. -/
theorem search_spec
    (p : ℤ → Bool)
    (k : ℤ) :
    let found :=
      ([k - 1, k, k + 1, k + 2].find? p).getD (k + 3)
    (p found = true ∨ found = k + 3) ∧
      (p (found - 1) = false ∨ found = k - 1) := by
  have hFirst : k + 1 - 1 = k := by omega
  have hSecond : k + 2 - 1 = k + 1 := by omega
  have hThird : k + 3 - 1 = k + 2 := by omega
  rcases h₀ : p (k - 1) with _ | _
  · rcases h₁ : p k with _ | _
    · rcases h₂ : p (k + 1) with _ | _
      · rcases h₃ : p (k + 2) with _ | _
        · simp [h₀, h₁, h₂, h₃, hThird]
        · simp [h₀, h₁, h₂, h₃, hSecond]
      · simp [h₀, h₁, h₂, hFirst]
    · simp [h₀, h₁]
  · simp [h₀]

/- The scale is searched for around an estimate. -/
theorem scale_eq (b : Binary) :
    let guess := b.logarithm * 30103 / 100000
    b.scale =
      ([guess - 1, guess, guess + 1, guess + 2].find?
        fun k =>
          compareScaled 1 k b.significand b.exponent == .gt).getD
            (guess + 3) := by
  have hGuess :
      Int.fdiv (((b.significand.log2 : ℤ) + b.exponent) * 30103)
          100000 =
        b.logarithm * 30103 / 100000 :=
    Int.fdiv_eq_ediv_of_nonneg _ (by decide)
  unfold scale
  dsimp only
  rw [hGuess]
  split
  · rename_i hFound
    rw [hFound, Option.getD_some]
  · rename_i hNone
    rw [hNone, Option.getD_none]

/- The amount lies below its scale, and not below a tenth of it. -/
theorem scale_bounds
    (hCanonical : b.Canonical)
    (hMost : b.exponent ≤ 971)
    (hSome : b.significand ≠ 0) :
    10 ^ (b.scale - 1) ≤ b.amount ∧ b.amount < 10 ^ b.scale := by
  rcases logarithm_bounds hCanonical hMost hSome with
    ⟨hLeast, hLargest⟩
  rcases amount_bounds hSome with ⟨hLower, hUpper⟩
  have hFits (k : ℤ) :
      (compareScaled 1 k b.significand b.exponent == .gt) =
        true ↔ b.amount < 10 ^ k := by
    rw [compareScaled_eq, beq_iff_eq, compare_gt_iff_gt,
      Nat.cast_one, one_mul]
    exact Iff.rfl
  have hSearch :=
    search_spec
      (fun k =>
        compareScaled 1 k b.significand b.exponent == .gt)
      (b.logarithm * 30103 / 100000)
  dsimp only at hSearch
  rw [← scale_eq b] at hSearch
  rcases hSearch with ⟨hAbove, hBelow⟩
  constructor
  · rcases hBelow with hOver | hFirst
    · rw [← Bool.not_eq_true, hFits, not_lt] at hOver
      exact hOver
    · refine le_trans ?_ hLower
      exact ten_zpow_le_two_zpow (by omega) (by omega)
  · rcases hAbove with hUnder | hLast
    · exact (hFits _).mp hUnder
    · refine hUpper.trans_le ?_
      exact two_zpow_le_ten_zpow (by omega) (by omega)

end Binary

end Rowstore

------------------------------------------------------------
-- Grids
------------------------------------------------------------

namespace Rowstore

namespace Decimal

open Binary

variable {b : Binary}

theorem amount_div_grid
    (b : Binary)
    (k : ℤ) :
    b.amount / 10 ^ k =
      (gridNumerator b k : ℚ) / gridDenominator b k := by
  have hUnit : (10 : ℚ) ^ k ≠ 0 := by positivity
  have hNumerator :
      (gridNumerator b k : ℚ) =
        b.significand * 2 ^ b.exponent.toNat *
          10 ^ (-k).toNat := by
    unfold gridNumerator
    exact_mod_cast rfl
  have hDenominator :
      (gridDenominator b k : ℚ) =
        2 ^ (-b.exponent).toNat * 10 ^ k.toNat := by
    unfold gridDenominator
    exact_mod_cast rfl
  rw [hNumerator, hDenominator,
    div_eq_div_iff hUnit (by positivity),
    ← zpow_mul_toNat (by norm_num) b.exponent,
    ← zpow_mul_toNat (by norm_num) k]
  unfold Binary.amount
  ring

/- The number lies between its two neighbours on a grid. -/
theorem below_bounds
    (b : Binary)
    (k : ℤ) :
    below b k * 10 ^ k ≤ b.amount ∧
      b.amount < (below b k + 1) * 10 ^ k := by
  have hUnit : (0 : ℚ) < 10 ^ k := zpow_pos (by norm_num) k
  have hFloor :
      ⌊(gridNumerator b k : ℚ) / gridDenominator b k⌋₊ =
        below b k :=
    Nat.floor_div_eq_div _ _
  have hAmount : 0 ≤ b.amount / 10 ^ k :=
    div_nonneg b.amount_nonneg hUnit.le
  rw [← amount_div_grid, Nat.floor_eq_iff hAmount,
    le_div_iff₀ hUnit, div_lt_iff₀ hUnit] at hFloor
  exact hFloor

/- The gap of a grid of seventeen digits, against the number. -/
theorem gap_seventeen
    (hCanonical : b.Canonical)
    (hMost : b.exponent ≤ 971)
    (hSome : b.significand ≠ 0) :
    10 ^ 16 * 10 ^ (b.scale - 17) ≤ b.amount := by
  have hScale := (scale_bounds hCanonical hMost hSome).1
  have hSplit :
      (10 : ℚ) ^ (b.scale - 1) =
        10 ^ 16 * 10 ^ (b.scale - 17) := by
    rw [← zpow_natCast, ← zpow_add₀ (by norm_num)]
    congr 1
    omega
  rwa [hSplit] at hScale

/- With seventeen digits, one of the neighbours is in the interval. -/
theorem covers_seventeen
    (hCanonical : b.Canonical)
    (hMost : b.exponent ≤ 971)
    (hSome : b.significand ≠ 0) :
    b.Covers (below b (b.scale - 17) * 10 ^ (b.scale - 17)) ∨
      b.Covers
        ((below b (b.scale - 17) + 1 : ℕ) *
          10 ^ (b.scale - 17)) := by
  rcases below_bounds b (b.scale - 17) with ⟨hLow, hHigh⟩
  have hGap := gap_seventeen hCanonical hMost hSome
  have hQuarter := b.quarter_pos
  rw [Nat.cast_succ]
  rw [add_mul, one_mul] at hHigh ⊢
  generalize
    (below b (b.scale - 17) : ℚ) * 10 ^ (b.scale - 17) = q
      at hLow hHigh ⊢
  generalize (10 : ℚ) ^ (b.scale - 17) = gap at hHigh hGap ⊢
  have hOver : b.low < q + gap := b.low_lt_amount.trans hHigh
  by_cases hNarrow : b.narrowBelow = true
  · -- a power of two is small for the gaps above it
    have hDigits : (b.significand : ℚ) = 2 ^ 52 := by
      exact_mod_cast (hCanonical.narrowBelow_iff.mp hNarrow).1
    have hAmount : b.amount = 2 ^ 54 * b.quarter := by
      rw [amount_eq, hDigits]
      ring
    right
    apply covers_of_between hOver
    rw [high_eq]
    linarith
  · have hDigits : (b.significand : ℚ) ≤ 2 ^ 53 := by
      exact_mod_cast hCanonical.significand_lt.le
    have hAmount : b.amount ≤ 2 ^ 55 * b.quarter := by
      rw [amount_eq]
      exact mul_le_mul_of_nonneg_right (by linarith) hQuarter.le
    have hEnd : b.low = b.amount - 2 * b.quarter := by
      rw [low_eq, if_neg hNarrow]
    rcases lt_or_ge b.low q with hInside | hOutside
    · left
      exact
        covers_of_between hInside
          (hLow.trans_lt b.amount_lt_high)
    · right
      apply covers_of_between hOver
      rw [high_eq]
      linarith

------------------------------------------------------------
-- Shortest Decimals
------------------------------------------------------------

/- The amount of a decimal, without its sign. -/
def value (d : Decimal) : ℚ :=
  d.digits * 10 ^ d.exponent

/- Zeros at the end are moved into the exponent. -/
theorem stripZeros_spec
    (fuel : ℕ)
    (n : ℕ)
    (k : ℤ) :
    ((stripZeros fuel n k).1 : ℚ) *
          10 ^ (stripZeros fuel n k).2 =
        n * 10 ^ k ∧
      (stripZeros fuel n k).1 ≤ n := by
  fun_induction stripZeros fuel n k with
  | case1 n k => exact ⟨rfl, Nat.le_refl n⟩
  | case2 fuel n k hZero ih =>
      have hLast : n % 10 = 0 := by
        rw [Bool.and_eq_true] at hZero
        exact of_decide_eq_true hZero.2
      have hDigits : (n : ℚ) = (n / 10 : ℕ) * 10 := by
        exact_mod_cast
          (Nat.div_mul_cancel (Nat.dvd_of_mod_eq_zero hLast)).symm
      refine ⟨?_, ih.2.trans (Nat.div_le_self n 10)⟩
      rw [ih.1, hDigits, zpow_add_one₀ (by norm_num)]
      ring
  | case3 fuel n k hDigit => exact ⟨rfl, Nat.le_refl n⟩

/- A numerator on a grid with so many digits has so many digits. -/
theorem below_lt
    (hCanonical : b.Canonical)
    (hMost : b.exponent ≤ 971)
    (hSome : b.significand ≠ 0)
    (i : ℕ) :
    below b (b.scale - (i : ℕ)) < 10 ^ i := by
  have hUpper :=
    (below_bounds b (b.scale - (i : ℕ))).1.trans_lt
      (scale_bounds hCanonical hMost hSome).2
  have hUnit : (0 : ℚ) < 10 ^ (b.scale - (i : ℕ)) :=
    zpow_pos (by norm_num) _
  have hScale :
      (10 : ℚ) ^ b.scale = 10 ^ i * 10 ^ (b.scale - (i : ℕ)) := by
    rw [← zpow_natCast, ← zpow_add₀ (by norm_num)]
    congr 1
    omega
  rw [hScale, mul_lt_mul_iff_left₀ hUnit] at hUpper
  exact_mod_cast hUpper

theorem onGrid?_seventeen_ne_none
    (hCanonical : b.Canonical)
    (hMost : b.exponent ≤ 971)
    (hSome : b.significand ≠ 0)
    (tie : Tie) :
    onGrid? tie b (b.scale - 17) ≠ none := by
  have hReads (n : ℕ) (k : ℤ) :=
    readsBack_iff hCanonical.pos_of_narrowBelow n k
  rcases onGrid?_cases tie b (b.scale - 17) with
    ⟨_, hLow, hHigh⟩ | ⟨n, hFound, _⟩
  · rcases covers_seventeen hCanonical hMost hSome with
      hCovers | hCovers
    · rw [← hReads, hLow] at hCovers
      cases hCovers
    · rw [← hReads, hHigh] at hCovers
      cases hCovers
  · rw [hFound]
    exact Option.some_ne_none _

/-
  The search finds a decimal of at most seventeen digits that
  reads back, since the last of its grids has one.
-/
theorem findSome?_onGrid?
    (hCanonical : b.Canonical)
    (hMost : b.exponent ≤ 971)
    (hSome : b.significand ≠ 0)
    (tie : Tie) :
    ∃ (n : ℕ) (k : ℤ),
      ((List.range 17).map
          fun i => b.scale - (i + 1 : ℕ)).findSome?
            (onGrid? tie b) = some (n, k) ∧
        b.Covers (n * 10 ^ k) ∧ n ≤ 10 ^ 17 := by
  rcases hSearch :
      ((List.range 17).map
        fun i => b.scale - (i + 1 : ℕ)).findSome?
          (onGrid? tie b) with _ | ⟨n, k⟩
  · rw [List.findSome?_eq_none_iff] at hSearch
    have hLast :=
      hSearch (b.scale - 17)
        (List.mem_map.mpr ⟨16, by decide, rfl⟩)
    exact
      absurd hLast
        (onGrid?_seventeen_ne_none hCanonical hMost hSome tie)
  · rcases List.exists_of_findSome?_eq_some hSearch with
      ⟨grid, hGrid, hFound⟩
    rcases List.mem_map.mp hGrid with ⟨i, hi, rfl⟩
    rw [List.mem_range] at hi
    rcases onGrid?_cases tie b (b.scale - (i + 1 : ℕ)) with
      ⟨hNone, _⟩ | ⟨n', hChosen, hBack, hNeighbour⟩
    · rw [hFound] at hNone
      cases hNone
    · rw [hFound] at hChosen
      cases hChosen
      have hCovers :=
        (readsBack_iff hCanonical.pos_of_narrowBelow _ _).mp hBack
      have hFew := below_lt hCanonical hMost hSome (i + 1)
      have hMore : 10 ^ (i + 1) ≤ 10 ^ 17 :=
        Nat.pow_le_pow_right (by decide) hi
      exact ⟨_, _, rfl, hCovers, by omega⟩

theorem shortestOf_spec
    (hCanonical : b.Canonical)
    (hMost : b.exponent ≤ 971)
    (hSome : b.significand ≠ 0)
    (tie : Tie) :
    b.Covers
        ((shortestOf tie b).1 * 10 ^ (shortestOf tie b).2) ∧
      (shortestOf tie b).1 ≤ 10 ^ 17 := by
  rcases findSome?_onGrid? hCanonical hMost hSome tie with
    ⟨n, k, hFound, hCovers, hFew⟩
  unfold shortestOf
  dsimp only
  rw [hFound, Option.getD_some]
  rcases stripZeros_spec (digitsText n).length n k with
    ⟨hValue, hLess⟩
  rw [hValue]
  exact ⟨hCovers, hLess.trans hFew⟩

variable {x : Float}

/- The shortest decimal rounds to its number. -/
theorem nearest_shortest
    (hFinite : x.isFinite = true)
    (tie : Tie) :
    Nearest x (shortest tie x).value := by
  refine ⟨hFinite, ?_⟩
  unfold shortest value
  dsimp only
  split
  · rename_i hZero
    have hAmount : (ofFloat x).amount = 0 :=
      amount_eq_zero_iff.mpr hZero
    rw [Nat.cast_zero, zero_mul, ← hAmount]
    exact covers_amount _
  · rename_i hSome
    exact
      (shortestOf_spec (canonical_ofFloat x)
        (exponent_le_of_isFinite hFinite) hSome tie).1

/- It has no more than seventeen digits. -/
theorem digits_shortest_le
    (hFinite : x.isFinite = true)
    (tie : Tie) :
    (shortest tie x).digits ≤ 10 ^ 17 := by
  unfold shortest
  dsimp only
  split
  · exact Nat.zero_le _
  · rename_i hSome
    exact
      (shortestOf_spec (canonical_ofFloat x)
        (exponent_le_of_isFinite hFinite) hSome tie).2

end Decimal

end Rowstore
