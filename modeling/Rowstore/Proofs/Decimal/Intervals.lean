import Mathlib
import Rowstore.Decimal.Shortest

/-
  The amounts that round to a binary number.

  They reach from half the gap below the number to half the
  gap above it, and the two ends are among them if the
  significand is even.  In the format a significand has 53
  digits, or fewer at the least exponent.  No amount rounds
  to two numbers of the format: the upper end of one is at
  most the lower end of the next, and where the two meet one
  of the significands is odd.

  Main declarations:
    * `Binary.amount` and `Binary.Covers`
    * `Binary.readsBack_iff`
    * `Binary.Canonical`
    * `Binary.eq_of_covers`
-/

namespace Rowstore

namespace Binary

------------------------------------------------------------
-- Amounts And Intervals
------------------------------------------------------------

/- The amount that a binary number stands for. -/
def amount (b : Binary) : ℚ :=
  b.significand * 2 ^ b.exponent

/- A quarter of the gap to the number above. -/
def quarter (b : Binary) : ℚ :=
  2 ^ (b.exponent - 2)

/- The amount halfway to the number below. -/
def low (b : Binary) : ℚ :=
  (4 * b.significand - if b.narrowBelow then 1 else 2) *
    b.quarter

/- The amount halfway to the number above. -/
def high (b : Binary) : ℚ :=
  (4 * b.significand + 2) * b.quarter

/- The amount rounds to the number; ends round to the even significand. -/
structure Covers
    (b : Binary)
    (q : ℚ) : Prop where
  low_le : b.low ≤ q
  le_high : q ≤ b.high
  even_or_between :
    b.significand % 2 = 0 ∨ b.low < q ∧ q < b.high

variable {b c : Binary} {q : ℚ}

theorem quarter_pos (b : Binary) : 0 < b.quarter :=
  zpow_pos (by norm_num) _

theorem two_zpow_eq_quarters (e : ℤ) :
    (2 : ℚ) ^ e = 4 * 2 ^ (e - 2) := by
  rw [zpow_sub₀ (by norm_num)]
  norm_num
  ring

theorem amount_eq (b : Binary) :
    b.amount = 4 * b.significand * b.quarter := by
  unfold amount quarter
  rw [two_zpow_eq_quarters]
  ring

theorem amount_nonneg (b : Binary) : 0 ≤ b.amount := by
  unfold amount
  positivity

theorem amount_eq_zero_iff :
    b.amount = 0 ↔ b.significand = 0 := by
  unfold amount
  rw [mul_eq_zero, Nat.cast_eq_zero,
    or_iff_left (zpow_ne_zero _ (by norm_num))]

theorem low_eq (b : Binary) :
    b.low =
      b.amount - (if b.narrowBelow then 1 else 2) * b.quarter := by
  rw [amount_eq]
  unfold low
  ring

theorem high_eq (b : Binary) :
    b.high = b.amount + 2 * b.quarter := by
  rw [amount_eq]
  unfold high
  ring

theorem low_lt_amount (b : Binary) : b.low < b.amount := by
  have hQuarter := b.quarter_pos
  rw [low_eq]
  split
  · linarith
  · linarith

theorem amount_lt_high (b : Binary) : b.amount < b.high := by
  have hQuarter := b.quarter_pos
  rw [high_eq]
  linarith

theorem covers_of_between
    (hLow : b.low < q)
    (hHigh : q < b.high) :
    b.Covers q :=
  ⟨hLow.le, hHigh.le, .inr ⟨hLow, hHigh⟩⟩

/- A number is what its own amount rounds to. -/
theorem covers_amount (b : Binary) : b.Covers b.amount :=
  covers_of_between b.low_lt_amount b.amount_lt_high

------------------------------------------------------------
-- Decimals In An Interval
------------------------------------------------------------

/- A power is made whole by the inverse of its negative part. -/
theorem zpow_mul_toNat
    {a : ℚ}
    (hSome : a ≠ 0)
    (i : ℤ) :
    a ^ i * a ^ (-i).toNat = a ^ i.toNat := by
  rw [← zpow_natCast, ← zpow_natCast, ← zpow_add₀ hSome]
  congr 1
  omega

theorem compare_mul_right
    {a p r : ℚ}
    (hPos : 0 < a) :
    compare (p * a) (r * a) = compare p r := by
  rcases lt_trichotomy p r with hLess | hSame | hMore
  · rw [compare_lt_iff_lt.mpr hLess, compare_lt_iff_lt]
    exact mul_lt_mul_of_pos_right hLess hPos
  · rw [hSame, compare_eq_iff_eq.mpr rfl,
      compare_eq_iff_eq.mpr rfl]
  · rw [compare_gt_iff_gt.mpr hMore, compare_gt_iff_gt]
    exact mul_lt_mul_of_pos_right hMore hPos

theorem compare_natCast (m n : ℕ) :
    compare (m : ℚ) n = compare m n := by
  rcases lt_trichotomy m n with hLess | hSame | hMore
  · rw [compare_lt_iff_lt.mpr hLess, compare_lt_iff_lt]
    exact Nat.cast_lt.mpr hLess
  · rw [hSame, compare_eq_iff_eq.mpr rfl,
      compare_eq_iff_eq.mpr rfl]
  · rw [compare_gt_iff_gt.mpr hMore, compare_gt_iff_gt]
    exact Nat.cast_lt.mpr hMore

/- Scaled whole numbers compare as their amounts do. -/
theorem compareScaled_eq
    (a : ℕ)
    (i : ℤ)
    (n : ℕ)
    (j : ℤ) :
    compareScaled a i n j =
      compare ((a : ℚ) * 10 ^ i) (n * 2 ^ j) := by
  have hPos : (0 : ℚ) < 2 ^ (-j).toNat * 10 ^ (-i).toNat := by
    positivity
  have hLeft :
      ((a * 10 ^ i.toNat * 2 ^ (-j).toNat : ℕ) : ℚ) =
        a * 10 ^ i * (2 ^ (-j).toNat * 10 ^ (-i).toNat) := by
    push_cast
    rw [← zpow_mul_toNat (by norm_num) i]
    ring
  have hRight :
      ((n * 2 ^ j.toNat * 10 ^ (-i).toNat : ℕ) : ℚ) =
        n * 2 ^ j * (2 ^ (-j).toNat * 10 ^ (-i).toNat) := by
    push_cast
    rw [← zpow_mul_toNat (by norm_num) j]
    ring
  change compare (_ * 10 ^ _ * 2 ^ _) (_ * 2 ^ _ * 10 ^ _) = _
  rw [← compare_natCast, hLeft, hRight, compare_mul_right hPos]

theorem covers_iff :
    b.Covers q ↔
      (b.low < q ∨ b.significand % 2 = 0 ∧ q = b.low) ∧
        (q < b.high ∨ b.significand % 2 = 0 ∧ q = b.high) := by
  constructor
  · intro hCovers
    rcases hCovers.even_or_between with hEven | hBetween
    · exact
        ⟨hCovers.low_le.lt_or_eq.imp_right
            fun hSame => ⟨hEven, hSame.symm⟩,
          hCovers.le_high.lt_or_eq.imp_right
            fun hSame => ⟨hEven, hSame⟩⟩
    · exact ⟨.inl hBetween.1, .inl hBetween.2⟩
  · rintro ⟨hLow, hHigh⟩
    refine ⟨?_, ?_, ?_⟩
    · exact hLow.elim le_of_lt fun h => h.2.ge
    · exact hHigh.elim le_of_lt fun h => h.2.le
    · rcases hLow with hLess | ⟨hEven, _⟩
      · rcases hHigh with hMore | ⟨hEven, _⟩
        · exact .inr ⟨hLess, hMore⟩
        · exact .inl hEven
      · exact .inl hEven

/- The lower end in quarters of the gap, cut off at zero. -/
def lowQuarters (b : Binary) : ℕ :=
  if b.narrowBelow then 4 * b.significand - 1
  else 4 * b.significand - 2

theorem lowQuarters_mul
    (hSome : 0 < b.significand) :
    b.lowQuarters * 2 ^ (b.exponent - 2) = b.low := by
  unfold lowQuarters low quarter
  congr 1
  split
  · rw [Nat.cast_sub (by omega)]
    push_cast
    ring
  · rw [Nat.cast_sub (by omega)]
    push_cast
    ring

theorem readsBack_iff_between
    (n : ℕ)
    (k : ℤ) :
    b.readsBack n k = true ↔
      ((b.lowQuarters * 2 ^ (b.exponent - 2) : ℚ) <
            n * 10 ^ k ∨
          b.significand % 2 = 0 ∧
            (n * 10 ^ k : ℚ) =
              b.lowQuarters * 2 ^ (b.exponent - 2)) ∧
        ((n * 10 ^ k : ℚ) < b.high ∨
          b.significand % 2 = 0 ∧
            (n * 10 ^ k : ℚ) = b.high) := by
  have hHigh :
      ((4 * b.significand + 2 : ℕ) : ℚ) *
          2 ^ (b.exponent - 2) = b.high := by
    unfold high quarter
    push_cast
    rfl
  unfold readsBack
  dsimp only
  rw [compareScaled_eq, compareScaled_eq, hHigh]
  simp only [Bool.and_eq_true, Bool.or_eq_true, beq_iff_eq,
    compare_gt_iff_gt, compare_lt_iff_lt, compare_eq_iff_eq]
  exact Iff.rfl

/- Whether a decimal reads back is whether its amount rounds to the number. -/
theorem readsBack_iff
    (hNarrow : b.narrowBelow = true → 0 < b.significand)
    (n : ℕ)
    (k : ℤ) :
    b.readsBack n k = true ↔ b.Covers (n * 10 ^ k) := by
  rw [readsBack_iff_between, covers_iff]
  refine and_congr_left' ?_
  rcases Nat.eq_zero_or_pos b.significand with hZero | hSome
  · -- nothing is below zero, and zero itself is even
    have hAmount : (0 : ℚ) ≤ n * 10 ^ k := by positivity
    have hWide : b.narrowBelow = false :=
      Bool.eq_false_of_not_eq_true fun hTrue =>
        (hNarrow hTrue).ne' hZero
    have hCut : b.lowQuarters = 0 := by
      unfold lowQuarters
      rw [hZero, hWide]
      rfl
    have hLow : b.low < 0 := by
      have hQuarter := b.quarter_pos
      unfold low
      rw [hZero, hWide]
      norm_num
      exact hQuarter
    rw [hCut, hZero]
    constructor
    · intro
      exact .inl (hLow.trans_le hAmount)
    · intro
      rw [Nat.cast_zero, zero_mul]
      exact hAmount.lt_or_eq.imp_right fun h => ⟨rfl, h.symm⟩
  · rw [lowQuarters_mul hSome]

------------------------------------------------------------
-- Numbers Of The Format
------------------------------------------------------------

/-
  The significand has all digits, unless the exponent is the
  least one; the gap is halved below a power of two.
-/
structure Canonical (b : Binary) : Prop where
  significand_lt : b.significand < 2 ^ 53
  le_exponent : -1074 ≤ b.exponent
  le_significand : -1074 < b.exponent → 2 ^ 52 ≤ b.significand
  narrowBelow_iff :
    b.narrowBelow = true ↔
      b.significand = 2 ^ 52 ∧ -1074 < b.exponent

/- One number is before another one. -/
def Precedes (b c : Binary) : Prop :=
  b.exponent < c.exponent ∨
    b.exponent = c.exponent ∧ b.significand < c.significand

theorem Canonical.pos_of_narrowBelow
    (hCanonical : b.Canonical)
    (hNarrow : b.narrowBelow = true) :
    0 < b.significand := by
  rw [(hCanonical.narrowBelow_iff.mp hNarrow).1]
  exact Nat.two_pow_pos 52

theorem le_low (b : Binary) :
    (4 * b.significand - 2) * b.quarter ≤ b.low := by
  apply mul_le_mul_of_nonneg_right _ b.quarter_pos.le
  split
  · linarith
  · linarith

/- Below a power of two there is half a gap of its own. -/
theorem Canonical.le_low_of_lt_exponent
    (hCanonical : c.Canonical)
    (hMore : -1074 < c.exponent) :
    (2 ^ 54 - 1) * c.quarter ≤ c.low := by
  have hAtLeast := hCanonical.le_significand hMore
  apply mul_le_mul_of_nonneg_right _ c.quarter_pos.le
  rcases hAtLeast.lt_or_eq with hLess | hSame
  · have hNext : (2 ^ 52 + 1 : ℚ) ≤ c.significand := by
      exact_mod_cast hLess
    split
    · linarith
    · linarith
  · have hNarrow : c.narrowBelow = true :=
      hCanonical.narrowBelow_iff.mpr ⟨hSame.symm, hMore⟩
    rw [hNarrow, ← hSame]
    norm_num

theorem two_mul_quarter_le
    (hLess : b.exponent < c.exponent) :
    2 * b.quarter ≤ c.quarter := by
  have hStep : 2 * b.quarter = 2 ^ (b.exponent - 2 + 1) := by
    unfold quarter
    rw [zpow_add_one₀ (by norm_num), mul_comm]
  rw [hStep]
  exact zpow_le_zpow_right₀ (by norm_num) (by omega)

/- Intervals do not overlap, and have no end in common if both contain their ends. -/
theorem high_le_low
    (hFirst : b.Canonical)
    (hSecond : c.Canonical)
    (hPrecedes : b.Precedes c) :
    b.high ≤ c.low ∧
      (b.significand % 2 = 0 → c.significand % 2 = 0 →
        b.high < c.low) := by
  have hQuarter := b.quarter_pos
  rcases hPrecedes with hLess | ⟨hSame, hLess⟩
  · have hMore : -1074 < c.exponent :=
      hFirst.le_exponent.trans_lt hLess
    have hDouble := two_mul_quarter_le hLess
    have hLow := hSecond.le_low_of_lt_exponent hMore
    have hTop : (2 ^ 55 - 2) * b.quarter ≤ c.low := by
      linarith
    have hBelow := hFirst.significand_lt
    constructor
    · have hCount : (b.significand : ℚ) ≤ 2 ^ 53 - 1 := by
        rw [le_sub_iff_add_le]
        exact_mod_cast hBelow
      refine le_trans ?_ hTop
      exact mul_le_mul_of_nonneg_right (by linarith)
        hQuarter.le
    · -- the last significand of an exponent is odd
      intro hEven _
      have hCount : (b.significand : ℚ) ≤ 2 ^ 53 - 2 := by
        rw [le_sub_iff_add_le]
        exact_mod_cast (by omega :
          b.significand + 2 ≤ 2 ^ 53)
      refine lt_of_lt_of_le ?_ hTop
      exact mul_lt_mul_of_pos_right (by linarith) hQuarter
  · have hUnit : c.quarter = b.quarter := by
      unfold quarter
      rw [hSame]
    have hLow := c.le_low
    rw [hUnit] at hLow
    constructor
    · have hCount : (b.significand + 1 : ℚ) ≤ c.significand := by
        exact_mod_cast hLess
      refine le_trans ?_ hLow
      exact mul_le_mul_of_nonneg_right (by linarith)
        hQuarter.le
    · intro hEven hEven'
      have hCount : (b.significand + 2 : ℚ) ≤ c.significand := by
        exact_mod_cast (by omega :
          b.significand + 2 ≤ c.significand)
      refine lt_of_lt_of_le ?_ hLow
      exact mul_lt_mul_of_pos_right (by linarith) hQuarter

theorem not_covers_both
    (hFirst : b.Canonical)
    (hSecond : c.Canonical)
    (hPrecedes : b.Precedes c)
    (hCovers : b.Covers q) :
    ¬c.Covers q := by
  intro hCovers'
  rcases high_le_low hFirst hSecond hPrecedes with
    ⟨hLe, hLess⟩
  have hBelow := hCovers.le_high
  have hAbove := hCovers'.low_le
  rcases hCovers.even_or_between with hEven | ⟨_, hInside⟩
  · rcases hCovers'.even_or_between with hEven' | ⟨hInside, _⟩
    · have := hLess hEven hEven'
      linarith
    · linarith
  · linarith

/- A number of the format is given by its significand and its exponent. -/
theorem Canonical.eq_of_parts
    (hFirst : b.Canonical)
    (hSecond : c.Canonical)
    (hSignificand : b.significand = c.significand)
    (hExponent : b.exponent = c.exponent) :
    b = c := by
  rcases b with ⟨s, e, narrow⟩
  rcases c with ⟨s', e', narrow'⟩
  obtain rfl : s = s' := hSignificand
  obtain rfl : e = e' := hExponent
  have hNarrow : narrow = narrow' := by
    rw [Bool.eq_iff_iff]
    exact
      hFirst.narrowBelow_iff.trans hSecond.narrowBelow_iff.symm
  rw [hNarrow]

/- An amount rounds to at most one number. -/
theorem eq_of_covers
    (hFirst : b.Canonical)
    (hSecond : c.Canonical)
    (hCovers : b.Covers q)
    (hCovers' : c.Covers q) :
    b = c := by
  have hBefore : ¬b.Precedes c := fun hPrecedes =>
    not_covers_both hFirst hSecond hPrecedes hCovers hCovers'
  have hAfter : ¬c.Precedes b := fun hPrecedes =>
    not_covers_both hSecond hFirst hPrecedes hCovers' hCovers
  unfold Precedes at hBefore hAfter
  exact hFirst.eq_of_parts hSecond (by omega) (by omega)

end Binary

end Rowstore
