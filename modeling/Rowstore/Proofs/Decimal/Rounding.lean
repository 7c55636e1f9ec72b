import Rowstore.Proofs.Decimal.Binary
import Rowstore.Proofs.Decimal.Intervals

/-
  Operations round to the nearest number of the format.

  An amount is computed as a mantissa with two digits below
  it.  Shifting keeps what these say of the amount, and the
  rounded mantissa is within a half of it.  The amount thus
  lies in the interval of the rounded number, also where the
  carry gives the mantissa one digit more.

  Main declarations:
    * `Binary.Approximates`
    * `Binary.ofParts` and `Binary.unpacked`
    * `Binary.roundsTo_round`
    * `Binary.roundsTo_mul` and `Binary.roundsTo_div`
    * `Binary.roundsTo_ofScientific`
-/

namespace Rowstore

namespace Binary

open Float.Model Float.Model.UnpackedFloat

------------------------------------------------------------
-- Extended Mantissas
------------------------------------------------------------

/- What a mantissa and the digits below it say of an amount. -/
def Approximates : ExtendedMantissa → ℚ → Prop
| ⟨m, false, false⟩, y => y = m
| ⟨m, false, true⟩, y => m < y ∧ y < m + 1 / 2
| ⟨m, true, false⟩, y => y = m + 1 / 2
| ⟨m, true, true⟩, y => m + 1 / 2 < y ∧ y < m + 1

variable {m : ExtendedMantissa} {y q : ℚ}

theorem Approximates.bounds
    (hAmount : Approximates m y) :
    m.mantissa ≤ y ∧ y < m.mantissa + 1 := by
  rcases m with ⟨m, _ | _, _ | _⟩ <;>
    simp only [Approximates] at hAmount ⊢ <;>
    constructor <;> linarith

theorem approximates_of_even
    {k : ℕ}
    {r s : Bool}
    (hAmount : Approximates ⟨2 * k, r, s⟩ y) :
    Approximates ⟨k, false, r || s⟩ (y / 2) := by
  rcases r with _ | _ <;> rcases s with _ | _ <;>
    simp only [Approximates, Bool.or_false, Bool.or_true,
      Nat.cast_mul, Nat.cast_ofNat] at hAmount ⊢
  · linarith
  · exact ⟨by linarith, by linarith⟩
  · exact ⟨by linarith, by linarith⟩
  · exact ⟨by linarith, by linarith⟩

theorem approximates_of_odd
    {k : ℕ}
    {r s : Bool}
    (hAmount : Approximates ⟨2 * k + 1, r, s⟩ y) :
    Approximates ⟨k, true, r || s⟩ (y / 2) := by
  rcases r with _ | _ <;> rcases s with _ | _ <;>
    simp only [Approximates, Bool.or_false, Bool.or_true,
      Nat.cast_add, Nat.cast_mul, Nat.cast_ofNat,
      Nat.cast_one] at hAmount ⊢
  · linarith
  · exact ⟨by linarith, by linarith⟩
  · exact ⟨by linarith, by linarith⟩
  · exact ⟨by linarith, by linarith⟩

/- The digit that is cut off becomes the first one below. -/
theorem Approximates.shiftRightOne
    (hAmount : Approximates m y) :
    Approximates m.shiftRightOne (y / 2) := by
  rcases m with ⟨m, r, s⟩
  unfold ExtendedMantissa.shiftRightOne
  dsimp only
  rcases Nat.even_or_odd' m with ⟨k, rfl | rfl⟩
  · have hHalf : 2 * k / 2 = k := by omega
    have hLast : 2 * k % 2 = 0 := by omega
    rw [hHalf, hLast]
    exact approximates_of_even hAmount
  · have hHalf : (2 * k + 1) / 2 = k := by omega
    have hLast : (2 * k + 1) % 2 = 1 := by omega
    rw [hHalf, hLast]
    exact approximates_of_odd hAmount

theorem Approximates.shiftRight
    (hAmount : Approximates m y)
    (k : ℕ) :
    Approximates (m >>> k) (y / 2 ^ k) := by
  induction k with
  | zero =>
      rw [pow_zero, div_one]
      exact hAmount
  | succ k ih =>
      rw [pow_succ, ← div_div]
      exact ih.shiftRightOne

/- The amount lies within a half of a whole number, with ends for an even one. -/
structure Near
    (n : ℕ)
    (y : ℚ) : Prop where
  sub_le : n - 1 / 2 ≤ y
  le_add : y ≤ n + 1 / 2
  even_or_between :
    n % 2 = 0 ∨ (n - 1 / 2 < y ∧ y < n + 1 / 2)

theorem near_of_between
    {n : ℕ}
    (hBelow : n - 1 / 2 < y)
    (hAbove : y < n + 1 / 2) :
    Near n y :=
  ⟨hBelow.le, hAbove.le, .inr ⟨hBelow, hAbove⟩⟩

/- Rounding stays within a half, and a tie goes to the even mantissa. -/
theorem Approximates.rounded
    (hAmount : Approximates m y) :
    Near m.roundedMantissa y := by
  rcases m with ⟨m, _ | _, _ | _⟩
  · change y = m at hAmount
    change Near m y
    exact near_of_between (by linarith) (by linarith)
  · rcases hAmount with ⟨hLow, hHigh⟩
    change Near m y
    exact near_of_between (by linarith) hHigh
  · change y = m + 1 / 2 at hAmount
    change Near (m + m % 2) y
    have hMost : ((m % 2 : ℕ) : ℚ) ≤ 1 := by
      exact_mod_cast Nat.lt_succ_iff.mp (Nat.mod_lt m two_pos)
    have hLeast : (0 : ℚ) ≤ ((m % 2 : ℕ) : ℚ) :=
      Nat.cast_nonneg _
    have hSum : ((m + m % 2 : ℕ) : ℚ) = m + (m % 2 : ℕ) :=
      Nat.cast_add m _
    exact ⟨by linarith, by linarith, .inl (by omega)⟩
  · rcases hAmount with ⟨hLow, hHigh⟩
    change Near (m + 1) y
    have hSum : ((m + 1 : ℕ) : ℚ) = m + 1 := Nat.cast_succ m
    exact near_of_between (by linarith) (by linarith)

------------------------------------------------------------
-- Numbers From Their Parts
------------------------------------------------------------

/- The number with a significand and an exponent. -/
def ofParts
    (s : ℕ)
    (e : ℤ) : Binary where
  significand := s
  exponent := e
  narrowBelow := s = 2 ^ 52 ∧ -1074 < e

variable {s : ℕ} {e : ℤ}

theorem canonical_ofParts
    (hBelow : s < 2 ^ 53)
    (hLeast : -1074 ≤ e)
    (hDigits : -1074 < e → 2 ^ 52 ≤ s) :
    (ofParts s e).Canonical where
  significand_lt := hBelow
  le_exponent := hLeast
  le_significand := hDigits
  narrowBelow_iff := decide_eq_true_iff

theorem canonical_zero : (ofParts 0 (-1074)).Canonical :=
  canonical_ofParts (by decide) (Int.le_refl _)
    fun hMore => absurd hMore (Int.lt_irrefl _)

theorem amount_zeroParts : (ofParts 0 (-1074)).amount = 0 :=
  amount_eq_zero_iff.mpr rfl

/- The ends are a half or a quarter of the gap away. -/
theorem high_ofParts
    (s : ℕ)
    (e : ℤ) :
    (ofParts s e).high = (s + 1 / 2) * 2 ^ e := by
  rw [two_zpow_eq_quarters]
  unfold high quarter ofParts
  ring

theorem low_ofParts_of_narrow
    (hMore : -1074 < e) :
    (ofParts (2 ^ 52) e).low = (2 ^ 52 - 1 / 4) * 2 ^ e := by
  have hNarrow : (ofParts (2 ^ 52) e).narrowBelow = true :=
    decide_eq_true ⟨rfl, hMore⟩
  rw [two_zpow_eq_quarters]
  unfold low
  rw [if_pos hNarrow]
  unfold quarter ofParts
  push_cast
  ring

theorem low_ofParts_of_wide
    (hWide : ¬(s = 2 ^ 52 ∧ -1074 < e)) :
    (ofParts s e).low = (s - 1 / 2) * 2 ^ e := by
  have hNarrow : ¬(ofParts s e).narrowBelow = true :=
    fun hTrue => hWide (of_decide_eq_true hTrue)
  rw [two_zpow_eq_quarters]
  unfold low
  rw [if_neg hNarrow]
  unfold quarter ofParts
  ring

/- A rounded significand is the number next to the amount. -/
theorem covers_of_near
    (hNear : Near s y)
    (hDigits : -1074 < e → 2 ^ 52 ≤ y) :
    (ofParts s e).Covers (y * 2 ^ e) := by
  have hGap : (0 : ℚ) < 2 ^ e := zpow_pos (by norm_num) e
  have hHigh : y * 2 ^ e ≤ (ofParts s e).high := by
    rw [high_ofParts]
    exact mul_le_mul_of_nonneg_right hNear.le_add hGap.le
  by_cases hNarrow : s = 2 ^ 52 ∧ -1074 < e
  · -- the amount is not below the power of two
    rcases hNarrow with ⟨rfl, hMore⟩
    have hAtLeast := hDigits hMore
    refine ⟨?_, hHigh, .inl (by decide : 2 ^ 52 % 2 = 0)⟩
    rw [low_ofParts_of_narrow hMore]
    exact mul_le_mul_of_nonneg_right (by linarith) hGap.le
  · refine ⟨?_, hHigh, hNear.even_or_between.imp_right ?_⟩
    · rw [low_ofParts_of_wide hNarrow]
      exact mul_le_mul_of_nonneg_right hNear.sub_le hGap.le
    · rintro ⟨hBelow, hAbove⟩
      rw [low_ofParts_of_wide hNarrow, high_ofParts]
      exact
        ⟨mul_lt_mul_of_pos_right hBelow hGap,
          mul_lt_mul_of_pos_right hAbove hGap⟩

/- A significand with one digit more is the next power of two. -/
theorem covers_of_carry
    (hNear : Near (2 ^ 53) y)
    (hLeast : -1074 ≤ e) :
    (ofParts (2 ^ 52) (e + 1)).Covers (y * 2 ^ e) := by
  have hGap : (0 : ℚ) < 2 ^ e := zpow_pos (by norm_num) e
  have hDouble : (2 : ℚ) ^ (e + 1) = 2 * 2 ^ e := by
    rw [zpow_add_one₀ (by norm_num), mul_comm]
  have hBelow := hNear.sub_le
  have hAbove := hNear.le_add
  push_cast at hBelow hAbove
  refine ⟨?_, ?_, .inl (by decide : 2 ^ 52 % 2 = 0)⟩
  · rw [low_ofParts_of_narrow (by omega), hDouble, ← mul_assoc]
    exact mul_le_mul_of_nonneg_right (by linarith) hGap.le
  · rw [high_ofParts, hDouble, ← mul_assoc]
    push_cast
    exact mul_le_mul_of_nonneg_right (by linarith) hGap.le

/- The number with a sign, in its unpacked form. -/
def unpacked
    (sign : Sign)
    (b : Binary) : UnpackedFloat :=
  if h : b.significand = 0 then .zero sign
  else .finite sign b.significand b.exponent (Nat.pos_of_ne_zero h)

theorem unpacked_ofParts
    (hSome : 0 < s)
    (e : ℤ)
    (sign : Sign) :
    (ofParts s e).unpacked sign = .finite sign s e hSome :=
  dif_neg hSome.ne'

/- The number is the one of the format that the amount rounds to. -/
def RoundsTo
    (sign : Sign)
    (q : ℚ)
    (u : UnpackedFloat) : Prop :=
  ∃ b : Binary, b.Canonical ∧ b.Covers q ∧ u = b.unpacked sign

------------------------------------------------------------
-- Rounding
------------------------------------------------------------

theorem shiftToTargetExponent_eq
    (m : ℕ)
    (e : ℤ)
    (a : Accuracy) :
    let k :=
      (max ((m.log2 : ℤ) + e - 52) (-1074) - e).toNat
    shiftToTargetExponent Format.binary64 m e a =
      (ExtendedMantissa.ofMantissaAndAccuracy m a >>> k,
        e + k) := by
  unfold shiftToTargetExponent shiftToExponent
  rw [targetExponent_eq]

/- What the first shift leaves has as many digits as the format. -/
theorem div_two_pow_lt
    {m k : ℕ}
    (hLog : m.log2 ≤ 52 + k) :
    m / 2 ^ k < 2 ^ 53 := by
  rw [Nat.div_lt_iff_lt_mul (Nat.two_pow_pos k), ← Nat.pow_add]
  exact Nat.lt_log2_self.trans_le
    (Nat.pow_le_pow_right (by decide) (by omega))

theorem two_pow_le_div
    {m k : ℕ}
    (hLog : m.log2 = 52 + k) :
    2 ^ 52 ≤ m / 2 ^ k := by
  have hSome : m ≠ 0 := by
    rintro rfl
    simp only [Nat.log2_zero] at hLog
    omega
  rw [Nat.le_div_iff_mul_le (Nat.two_pow_pos k), ← Nat.pow_add,
    ← hLog]
  exact Nat.log2_self_le hSome

/- A significand of the format is not shifted. -/
theorem shiftToTargetExponent_of_fits
    (hBelow : s < 2 ^ 53)
    (hLeast : -1074 ≤ e) :
    shiftToTargetExponent Format.binary64 s e .exact =
      (⟨s, false, false⟩, e) := by
  have hLog : s.log2 ≤ 52 := by
    by_cases hZero : s = 0
    · rw [hZero]
      decide
    · exact Nat.lt_succ_iff.mp ((Nat.log2_lt hZero).mpr hBelow)
  have hStay :
      (max ((s.log2 : ℤ) + e - 52) (-1074) - e).toNat = 0 := by
    omega
  rw [shiftToTargetExponent_eq, hStay]
  simp only [Nat.cast_zero, add_zero]
  rfl

theorem shiftToTargetExponent_of_carry
    (hLeast : -1074 ≤ e) :
    shiftToTargetExponent Format.binary64 (2 ^ 53) e .exact =
      (⟨2 ^ 52, false, false⟩, e + 1) := by
  have hOne :
      (max (((2 ^ 53 : ℕ).log2 : ℤ) + e - 52) (-1074) - e).toNat =
        1 := by
    rw [Nat.log2_two_pow]
    omega
  rw [shiftToTargetExponent_eq, hOne]
  rfl

/-
  An amount that is given by a mantissa and the digits below
  it is rounded to the nearest number, unless its exponent is
  too large to keep all digits.
-/
theorem roundsTo_round
    {m : ℕ}
    {a : Accuracy}
    (hAmount :
      Approximates (.ofMantissaAndAccuracy m a) (q / 2 ^ e))
    (hFits : e ≤ max ((m.log2 : ℤ) + e - 52) (-1074))
    (sign : Sign) :
    RoundsTo sign q
      (roundWithAccuracy Format.binary64 sign m e a) := by
  unfold roundWithAccuracy
  rw [shiftToTargetExponent_eq]
  dsimp only
  generalize hShift :
    (max ((m.log2 : ℤ) + e - 52) (-1074) - e).toNat = k
  have hFirst := hAmount.shiftRight k
  have hMantissa :
      (ExtendedMantissa.ofMantissaAndAccuracy m a >>>
        k).mantissa = m / 2 ^ k := by
    rw [mantissa_shiftRight, mantissa_ofMantissaAndAccuracy]
  have hTotal : q / 2 ^ e / 2 ^ k * 2 ^ (e + k) = q := by
    rw [zpow_add₀ (by norm_num), zpow_natCast, div_div,
      div_mul_cancel₀]
    positivity
  have hLeast : -1074 ≤ e + k := by omega
  have hBelow : m / 2 ^ k < 2 ^ 53 := div_two_pow_lt (by omega)
  have hDigits : -1074 < e + k → 2 ^ 52 ≤ m / 2 ^ k := fun _ =>
    two_pow_le_div (by omega)
  generalize ExtendedMantissa.ofMantissaAndAccuracy m a >>> k =
    first at hFirst hMantissa
  generalize q / 2 ^ e / 2 ^ k = y at hFirst hTotal
  rw [← hMantissa] at hBelow hDigits
  have hNear := hFirst.rounded
  have hRounded := roundedMantissa_bounds first
  rw [← hTotal]
  rcases Nat.lt_or_ge first.roundedMantissa (2 ^ 53) with
    hKept | hCarry
  · rw [shiftToTargetExponent_of_fits hKept hLeast]
    refine
      ⟨ofParts first.roundedMantissa (e + k),
        canonical_ofParts hKept hLeast fun hMore =>
          (hDigits hMore).trans hRounded.1,
        covers_of_near hNear fun hMore => ?_, rfl⟩
    refine le_trans ?_ hFirst.bounds.1
    exact_mod_cast hDigits hMore
  · obtain hSame : first.roundedMantissa = 2 ^ 53 := by omega
    rw [hSame] at hNear ⊢
    rw [shiftToTargetExponent_of_carry hLeast]
    exact
      ⟨ofParts (2 ^ 52) (e + k + 1),
        canonical_ofParts (by decide) (by omega) fun _ =>
          Nat.le_refl _,
        covers_of_carry hNear hLeast, rfl⟩

------------------------------------------------------------
-- Operations
------------------------------------------------------------

theorem roundsTo_zero (sign : Sign) :
    RoundsTo sign 0 (.zero sign) := by
  refine ⟨ofParts 0 (-1074), canonical_zero, ?_, rfl⟩
  rw [← amount_zeroParts]
  exact covers_amount _

theorem log2_mul_two_pow
    {m : ℕ}
    (hSome : m ≠ 0)
    (k : ℕ) :
    (m * 2 ^ k).log2 = m.log2 + k := by
  have hProduct : m * 2 ^ k ≠ 0 :=
    Nat.mul_ne_zero hSome (Nat.two_pow_pos k).ne'
  rw [Nat.log2_eq_iff hProduct]
  constructor
  · rw [Nat.pow_add]
    exact Nat.mul_le_mul_right _ (Nat.log2_self_le hSome)
  · rw [Nat.add_right_comm, Nat.pow_add]
    exact
      Nat.mul_lt_mul_of_pos_right Nat.lt_log2_self
        (Nat.two_pow_pos k)

theorem roundsTo_roundExact
    {m : ℕ}
    (hSome : m ≠ 0)
    (e : ℤ)
    (sign : Sign) :
    RoundsTo sign (m * 2 ^ e)
      (UnpackedFloat.round Format.binary64 sign m e) := by
  unfold UnpackedFloat.round decreaseExponent
  rw [targetExponent_eq]
  dsimp only
  generalize hShift :
    (e - max ((m.log2 : ℤ) + e - 52) (-1074)).toNat = k
  have hLog : (m <<< k).log2 = m.log2 + k := by
    rw [Nat.shiftLeft_eq]
    exact log2_mul_two_pow hSome k
  apply roundsTo_round _ (by omega)
  change _ = ((m <<< k : ℕ) : ℚ)
  rw [Nat.shiftLeft_eq, zpow_sub₀ (by norm_num), zpow_natCast]
  push_cast
  field_simp

/- The conversion of a word. -/
theorem roundsTo_ofUInt64 (w : UInt64) :
    RoundsTo .positive w.toNat (ofUInt64 Format.binary64 w) := by
  unfold UnpackedFloat.ofUInt64 UnpackedFloat.ofNat UnpackedFloat.ofInt
    UnpackedFloat.normalize
  rcases Nat.eq_zero_or_pos w.toNat with hZero | hSome
  · rw [hZero]
    exact roundsTo_zero .positive
  · have hMore : compare (w.toNat : ℤ) 0 = .gt :=
      compare_gt_iff_gt.mpr (by omega)
    rw [hMore]
    have hRounds :=
      roundsTo_roundExact hSome.ne' 0 .positive
    rw [zpow_zero, mul_one] at hRounds
    exact hRounds

/- A product of mantissas, if it has all digits or few enough are asked for. -/
theorem roundsTo_mul_finite
    {m m' : ℕ}
    {e e' : ℤ}
    (hm : 0 < m)
    (hm' : 0 < m')
    (hFits : e + e' ≤ -1074 ∨ 52 ≤ (m * m').log2)
    (sign sign' : Sign) :
    RoundsTo (sign * sign') (m * 2 ^ e * (m' * 2 ^ e'))
      (UnpackedFloat.mul Format.binary64
        (.finite sign m e hm) (.finite sign' m' e' hm')) := by
  refine roundsTo_round ?_ (by omega) _
  change _ = ((m * m' : ℕ) : ℚ)
  rw [zpow_add₀ (by norm_num)]
  push_cast
  field_simp

theorem Canonical.log2_of_lt
    {b : Binary}
    (hCanonical : b.Canonical)
    (hMore : -1074 < b.exponent)
    {n : ℕ}
    (hn : 0 < n) :
    52 ≤ (b.significand * n).log2 := by
  have hDigits := hCanonical.le_significand hMore
  rw [Nat.le_log2 (by positivity)]
  exact hDigits.trans (Nat.le_mul_of_pos_right _ hn)

/- Numbers are multiplied with one rounding. -/
theorem roundsTo_mul
    {b c : Binary}
    (hLeft : b.Canonical)
    (hRight : c.Canonical)
    (sign sign' : Sign) :
    RoundsTo (sign * sign') (b.amount * c.amount)
      (UnpackedFloat.mul Format.binary64
        (b.unpacked sign) (c.unpacked sign')) := by
  unfold unpacked
  by_cases hZero : b.significand = 0
  · rw [dif_pos hZero, amount_eq_zero_iff.mpr hZero, zero_mul]
    split
    · exact roundsTo_zero _
    · exact roundsTo_zero _
  · rw [dif_neg hZero]
    by_cases hZero' : c.significand = 0
    · rw [dif_pos hZero', amount_eq_zero_iff.mpr hZero',
        mul_zero]
      exact roundsTo_zero _
    · rw [dif_neg hZero']
      apply roundsTo_mul_finite
      have hLeast := hLeft.le_exponent
      have hLeast' := hRight.le_exponent
      rcases hLeast.lt_or_eq with hMore | hSame
      · exact .inr
          (hLeft.log2_of_lt hMore (Nat.pos_of_ne_zero hZero'))
      · rcases hLeast'.lt_or_eq with hMore' | hSame'
        · right
          rw [Nat.mul_comm]
          exact
            hRight.log2_of_lt hMore' (Nat.pos_of_ne_zero hZero)
        · exact .inl (by omega)

/- A quotient with its remainder approximates the fraction. -/
theorem approximates_quotient
    {n d : ℕ}
    (hd : 0 < d) :
    Approximates
      (.ofMantissaAndAccuracy (n / d)
        (accuracyOfFraction (n % d) d)) (n / d) := by
  have hDivisor : (0 : ℚ) < d := Nat.cast_pos.mpr hd
  have hSplit : (n : ℚ) / d = (n / d : ℕ) + (n % d : ℕ) / d := by
    rw [eq_comm, ← eq_sub_iff_add_eq', div_eq_iff hDivisor.ne',
      sub_mul, div_mul_cancel₀ _ hDivisor.ne', eq_sub_iff_add_eq']
    exact_mod_cast Nat.div_add_mod' n d
  have hBelow : ((n % d : ℕ) : ℚ) < d :=
    Nat.cast_lt.mpr (Nat.mod_lt n hd)
  rw [hSplit]
  generalize n / d = m
  generalize n % d = r at hBelow ⊢
  unfold accuracyOfFraction
  by_cases hExact : r = 0
  · rw [if_pos hExact, hExact, Nat.cast_zero, zero_div, add_zero]
    rfl
  · have hSome : (0 : ℚ) < r :=
      Nat.cast_pos.mpr (Nat.pos_of_ne_zero hExact)
    have hFraction : (0 : ℚ) < r / d := div_pos hSome hDivisor
    rw [if_neg hExact]
    rcases hHalf : compare (2 * r) d with _ | _ | _
    · have hLess : (2 * r : ℚ) < d := by
        exact_mod_cast compare_lt_iff_lt.mp hHalf
      have hRest : (r : ℚ) / d < 1 / 2 := by
        rw [div_lt_iff₀ hDivisor]
        linarith
      exact ⟨by linarith, by linarith⟩
    · have hSame : (2 * r : ℚ) = d := by
        exact_mod_cast compare_eq_iff_eq.mp hHalf
      have hRest : (r : ℚ) / d = 1 / 2 := by
        rw [div_eq_iff hDivisor.ne']
        linarith
      change (m : ℚ) + r / d = m + 1 / 2
      rw [hRest]
    · have hMore : (d : ℚ) < 2 * r := by
        exact_mod_cast compare_gt_iff_gt.mp hHalf
      have hRest : 1 / 2 < (r : ℚ) / d := by
        rw [lt_div_iff₀ hDivisor]
        linarith
      have hOne : (r : ℚ) / d < 1 := by
        rw [div_lt_one hDivisor]
        exact hBelow
      exact ⟨by linarith, by linarith⟩

/- Shifting far enough gives a quotient with all digits of the format. -/
theorem le_log2_quotient
    {m m' k : ℕ}
    (hSome : m ≠ 0)
    (hPos : 0 < m')
    (hEnough : 52 + (m'.log2 + 1) ≤ m.log2 + k) :
    52 ≤ ((m <<< k) / m').log2 := by
  have hQuotient : 2 ^ 52 ≤ (m <<< k) / m' := by
    rw [Nat.le_div_iff_mul_le hPos, Nat.shiftLeft_eq]
    calc
      2 ^ 52 * m' ≤ 2 ^ 52 * 2 ^ (m'.log2 + 1) :=
        Nat.mul_le_mul_left _ Nat.lt_log2_self.le
      _ = 2 ^ (52 + (m'.log2 + 1)) := (Nat.pow_add ..).symm
      _ ≤ 2 ^ (m.log2 + k) :=
        Nat.pow_le_pow_right (by decide) hEnough
      _ = 2 ^ m.log2 * 2 ^ k := Nat.pow_add ..
      _ ≤ m * 2 ^ k :=
        Nat.mul_le_mul_right _ (Nat.log2_self_le hSome)
  rw [Nat.le_log2 (by omega)]
  exact hQuotient

/- Numbers are divided with one rounding. -/
theorem roundsTo_div
    {b c : Binary}
    (hSome : c.significand ≠ 0)
    (sign sign' : Sign) :
    RoundsTo (sign / sign') (b.amount / c.amount)
      (UnpackedFloat.div Format.binary64
        (b.unpacked sign) (c.unpacked sign')) := by
  unfold unpacked
  rw [dif_neg hSome]
  by_cases hZero : b.significand = 0
  · rw [dif_pos hZero, amount_eq_zero_iff.mpr hZero, zero_div]
    exact roundsTo_zero _
  · rw [dif_neg hZero]
    unfold UnpackedFloat.div divCore
    dsimp only
    unfold amount
    generalize b.significand = m at hZero ⊢
    generalize c.significand = m' at hSome ⊢
    generalize b.exponent = e
    generalize c.exponent = e'
    have hTarget :
        Format.binary64.targetExponent
            (totalExponent m e - totalExponent m' e') =
          max ((m.log2 : ℤ) + e - m'.log2 - e' - 53) (-1074) := by
      simp only [Format.targetExponent, totalExponent,
        Format.mantissaBits, Format.minExponent]
      norm_num
      omega
    rw [hTarget]
    generalize hLow :
      min (e - e')
        (max ((m.log2 : ℤ) + e - m'.log2 - e' - 53) (-1074)) = t
    generalize hShift : (e - e' - t).toNat = k
    have hExponent : e = e' + t + k := by omega
    apply roundsTo_round
    · have hFraction :
          (m * 2 ^ e / (m' * 2 ^ e') / 2 ^ t : ℚ) =
            (m <<< k : ℕ) / m' := by
        rw [hExponent, Nat.shiftLeft_eq, zpow_add₀ (by norm_num),
          zpow_add₀ (by norm_num), zpow_natCast]
        push_cast
        field_simp
      rw [hFraction]
      exact approximates_quotient (Nat.pos_of_ne_zero hSome)
    · rcases le_or_gt t (-1074) with hLeast | hMore
      · omega
      · have hEnough : 52 + (m'.log2 + 1) ≤ m.log2 + k := by
          omega
        have hDigits :=
          le_log2_quotient hZero (Nat.pos_of_ne_zero hSome)
            hEnough
        omega

/- A decimal amount is scaled exactly before it is rounded. -/
theorem roundsTo_ofScientific
    (m : ℕ)
    {k : ℕ}
    (hSmall : k ≤ 2048) :
    RoundsTo .positive (m * 10 ^ k)
      (UnpackedFloat.ofScientific Format.binary64 m k) := by
  by_cases hZero : m = 0
  · subst hZero
    rw [Nat.cast_zero, zero_mul]
    exact roundsTo_zero .positive
  · rcases ofScientific_eq hZero hSmall with
      ⟨q, hq, hPower, hDigits, hProduct⟩
    have hLog : 52 ≤ (q * 10 ^ k).log2 := by
      rw [Nat.le_log2 (Nat.mul_pos hq hPower).ne', hDigits]
      calc
        2 ^ 52 ≤ 1 * 2 ^ 53 * 1 := by decide
        _ ≤ m * 2 ^ 53 * 10 ^ k :=
          Nat.mul_le_mul
            (Nat.mul_le_mul_right _ (Nat.pos_of_ne_zero hZero))
            hPower
    have hAmount :
        (m * 10 ^ k : ℚ) =
          q * 2 ^ (-53 : ℤ) * ((10 ^ k : ℕ) * 2 ^ (0 : ℤ)) := by
      rw [hDigits]
      push_cast
      norm_num
      ring
    rw [hProduct, hAmount]
    exact
      roundsTo_mul_finite hq hPower (.inr hLog) .positive
        .positive

end Binary

end Rowstore
