import Rowstore.Proofs.Decimal.Shortest
import Rowstore.Proofs.Json.Scaling

/-
  Reading the numerals that are written for numbers.

  A numeral has the amount of the decimal that it is written
  for, and few enough digits to fit a word.  Where its digits
  and its power of ten are numbers themselves, only the last
  rounding has anything to do, and it leads back.  The result
  does not overflow: an error of two roundings is at most four
  gaps, and the seven largest numbers are read as they were
  written.

  Main declarations:
    * `Json.Numeral.value_ofDecimal`
    * `Json.scaled_of_nearest`
    * `Json.written`
    * `Json.exists_value?_written`
-/

------------------------------------------------------------
-- Written Digits
------------------------------------------------------------

namespace Rowstore

namespace Decimal

theorem digitsValue_append_replicate
    (s : List Char)
    (k : ℕ) :
    digitsValue (s ++ List.replicate k '0') =
      digitsValue s * 10 ^ k := by
  induction k with
  | zero =>
      rw [List.replicate_zero, List.append_nil, pow_zero,
        Nat.mul_one]
  | succ k ih =>
      have hLast :
          digitsValue (s ++ List.replicate k '0' ++ ['0']) =
            10 * digitsValue (s ++ List.replicate k '0') := by
        unfold digitsValue
        rw [List.foldl_append]
        rfl
      rw [List.replicate_succ', ← List.append_assoc, hLast, ih,
        pow_succ]
      ring

theorem lt_ten_pow_length_digitsText (n : ℕ) :
    n < 10 ^ (digitsText n).length := by
  have hValue :=
    digitsValue_lt (s := digitsText n)
      fun _ hMem => isDigit_of_mem_digitsText hMem
  rwa [digitsValue_digitsText] at hValue

end Decimal

namespace Json

namespace Numeral

open Decimal

theorem writtenExponent_of_eq_some
    {n : Numeral}
    {e : ℤ}
    (hExponent :
      n.exponent = some (decide (e < 0), digitsText e.natAbs)) :
    n.writtenExponent = e := by
  unfold writtenExponent
  rw [hExponent]
  by_cases hNegative : e < 0
  · rw [decide_eq_true hNegative]
    dsimp only
    rw [digitsValue_digitsText]
    omega
  · rw [decide_eq_false hNegative]
    dsimp only
    rw [digitsValue_digitsText]
    omega

theorem writtenExponent_of_eq_none
    {n : Numeral}
    (hNone : n.exponent = none) :
    n.writtenExponent = 0 := by
  unfold writtenExponent
  rw [hNone]

/- The written forms of a decimal have its digits, or these with zeros. -/
theorem ofDecimal_parts (d : Decimal) :
    ((ofDecimal d).significand = d.digits ∧
        (ofDecimal d).scale = d.exponent) ∨
      ∃ k : ℕ, d.exponent = k ∧ d.digits * 10 ^ k < 10 ^ 16 ∧
        (ofDecimal d).significand = d.digits * 10 ^ k * 10 ∧
        (ofDecimal d).scale = -1 := by
  have hLength := lt_ten_pow_length_digitsText d.digits
  have hDigits := digitsValue_digitsText d.digits
  have hSome : 0 < (digitsText d.digits).length :=
    List.length_pos_iff.mpr (digitsText_ne_nil d.digits)
  unfold ofDecimal significand scale
  dsimp only
  generalize digitsText d.digits = s at hLength hDigits hSome ⊢
  split
  · -- zeros fill up the whole number, and one follows the point
    rename_i hWhole
    right
    refine ⟨d.exponent.toNat, by omega, ?_, ?_, rfl⟩
    · calc
        d.digits * 10 ^ d.exponent.toNat <
            10 ^ s.length * 10 ^ d.exponent.toNat :=
          Nat.mul_lt_mul_of_pos_right hLength
            (Nat.pow_pos (by decide))
        _ = 10 ^ (s.length + d.exponent.toNat) :=
          (Nat.pow_add ..).symm
        _ ≤ 10 ^ 16 :=
          Nat.pow_le_pow_right (by decide) (by omega)
    · have hZero : ['0'] = List.replicate 1 '0' := rfl
      rw [hZero, digitsValue_append_replicate,
        digitsValue_append_replicate, hDigits, pow_one]
  · left
    split
    · rw [writtenExponent_of_eq_none rfl]
      dsimp only
      rw [List.take_append_drop, List.length_drop]
      exact ⟨hDigits, by omega⟩
    · split
      · rw [writtenExponent_of_eq_none rfl]
        dsimp only
        rw [List.cons_append, List.nil_append,
          ← List.cons_append, ← List.replicate_succ,
          digitsValue_replicate_append, List.length_append,
          List.length_replicate]
        exact ⟨hDigits, by omega⟩
      · rw [writtenExponent_of_eq_some rfl]
        dsimp only
        rw [List.take_append_drop, List.length_drop]
        exact ⟨hDigits, by omega⟩

/- Writing a decimal keeps its amount. -/
theorem value_ofDecimal (d : Decimal) :
    ((ofDecimal d).significand * 10 ^ (ofDecimal d).scale : ℚ) =
      d.value := by
  unfold Decimal.value
  rcases ofDecimal_parts d with
    ⟨hDigits, hScale⟩ | ⟨k, hExponent, _, hDigits, hScale⟩
  · rw [hDigits, hScale]
  · rw [hDigits, hScale, hExponent, zpow_natCast]
    push_cast
    rw [zpow_neg_one]
    ring

theorem significand_ofDecimal_le
    {d : Decimal}
    (hDigits : d.digits ≤ 10 ^ 17) :
    (ofDecimal d).significand ≤ 10 ^ 17 := by
  rcases ofDecimal_parts d with
    ⟨hSame, _⟩ | ⟨k, _, hSmall, hSame, _⟩
  · rw [hSame]
    exact hDigits
  · rw [hSame]
    omega

theorem negative_ofDecimal (d : Decimal) :
    (ofDecimal d).negative = d.negative := by
  unfold ofDecimal
  dsimp only
  split
  · rfl
  · split
    · rfl
    · split
      · rfl
      · rfl

end Numeral

end Json

end Rowstore

------------------------------------------------------------
-- Exact Scaling
------------------------------------------------------------

namespace Rowstore

namespace Json

open Decimal

variable {x : Float} {q : ℚ} {k : ℤ}

/- Where the power of ten is a number, only the result is rounded. -/
theorem scaled_of_nearest
    (hSmall : k.natAbs ≤ 22)
    (hNearest : Nearest x (q * 10 ^ k)) :
    Scaled q k x := by
  rcases exists_amount_eq_ten_pow hSmall with
    ⟨p, hFinite, hAmount⟩
  have hPower : Nearest p (10 ^ k.natAbs) := by
    rw [← hAmount]
    exact nearest_amount hFinite
  unfold Scaled
  split
  · rename_i hUp
    have hScale : k = (k.natAbs : ℤ) := by omega
    have hWhole : k.toNat = k.natAbs := by omega
    rw [hScale, zpow_natCast, ← hAmount] at hNearest
    rw [hWhole]
    exact .inr ⟨p, hPower, hNearest⟩
  · rename_i hDown
    have hScale : k = -(k.natAbs : ℤ) := by omega
    rw [hScale, zpow_neg, zpow_natCast, ← hAmount,
      ← div_eq_mul_inv] at hNearest
    exact
      Divided.last
        (hSmall.trans (by decide : 22 ≤ Numeral.maxPower))
        hPower hNearest

theorem exists_nearest_of_le
    {m : ℕ}
    (hSmall : m ≤ 2 ^ 53) :
    ∃ s : Float, Nearest s m ∧ amount s = m := by
  have hExact : ∃ s : Float, s.isFinite = true ∧ amount s = m := by
    rcases hSmall.lt_or_eq with hBelow | rfl
    · rcases exists_amount_eq hBelow (Nat.zero_le 971) with
        ⟨s, hFinite, hAmount⟩
      rw [pow_zero, mul_one] at hAmount
      exact ⟨s, hFinite, hAmount⟩
    · rcases exists_amount_eq (show 1 < 2 ^ 53 by decide)
          (show 53 ≤ 971 by decide) with
        ⟨s, hFinite, hAmount⟩
      refine ⟨s, hFinite, ?_⟩
      rw [hAmount]
      norm_num
  rcases hExact with ⟨s, hFinite, hAmount⟩
  refine ⟨s, ?_, hAmount⟩
  rw [← hAmount]
  exact nearest_amount hFinite

end Json

end Rowstore

------------------------------------------------------------
-- Errors Of Roundings
------------------------------------------------------------

namespace Rowstore

namespace Decimal

open Binary

variable {x y : Float} {q : ℚ}

/- An amount from one on is rounded by a relative error. -/
theorem Nearest.amount_le
    (hNearest : Nearest y q)
    (hOne : 1 ≤ q) :
    amount y ≤ q * (1 + 1 / 2 ^ 52) := by
  have hCanonical := canonical_ofFloat y
  have hQuarter := (ofFloat y).quarter_pos
  have hLow := hNearest.covers.low_le
  have hHigh := hOne.trans hNearest.covers.le_high
  have hMore : -1074 < (ofFloat y).exponent := by
    by_contra hLeast
    have hDigits : ((ofFloat y).significand : ℚ) ≤ 2 ^ 53 := by
      exact_mod_cast hCanonical.significand_lt.le
    have hSmall : (ofFloat y).quarter ≤ 2 ^ (-60 : ℤ) :=
      zpow_le_zpow_right₀ (by norm_num) (by omega)
    have hTop :
        (ofFloat y).high ≤ (4 * 2 ^ 53 + 2) * 2 ^ (-60 : ℤ) :=
      mul_le_mul (by linarith) hSmall hQuarter.le (by positivity)
    norm_num at hTop
    linarith
  have hDigits : (2 ^ 52 : ℚ) ≤ (ofFloat y).significand := by
    exact_mod_cast hCanonical.le_significand hMore
  have hAmount : 2 ^ 54 * (ofFloat y).quarter ≤ amount y := by
    change _ ≤ (ofFloat y).amount
    rw [Binary.amount_eq]
    exact mul_le_mul_of_nonneg_right (by linarith) hQuarter.le
  have hClose : amount y - 2 * (ofFloat y).quarter ≤ q := by
    refine le_trans ?_ hLow
    change (ofFloat y).amount - _ ≤ _
    rw [low_eq]
    split
    · linarith
    · linarith
  linarith

------------------------------------------------------------
-- Products In Range
------------------------------------------------------------

/- The bound on an amount below which two roundings do not overflow. -/
def safeAmount : ℚ :=
  (2 ^ 53 - 15 / 2) * 2 ^ (971 : ℤ)

theorem isFinite_mul_of_nearest
    {q' : ℚ}
    (hLeft : Nearest x q)
    (hRight : Nearest y q')
    (hOne : 1 ≤ q)
    (hOne' : 1 ≤ q')
    (hSafe : q * q' ≤ safeAmount) :
    (x * y).isFinite = true := by
  rcases rounded_mul hLeft.isFinite hRight.isFinite with
    ⟨b, hCanonical, hCovers, hProduct⟩
  rw [hProduct, isFinite_toFloat_iff hCanonical]
  by_contra hMore
  have hLow := hCanonical.le_low_of_lt_exponent (by omega)
  have hUnit : (0 : ℚ) < 2 ^ (971 : ℤ) := zpow_pos (by norm_num) _
  have hQuarter : (2 : ℚ) ^ (971 : ℤ) ≤ 2 * b.quarter := by
    have hLeast : (2 : ℚ) ^ (970 : ℤ) ≤ b.quarter :=
      zpow_le_zpow_right₀ (by norm_num) (by omega)
    have hDouble : (2 : ℚ) ^ (971 : ℤ) = 2 ^ (970 : ℤ) * 2 :=
      zpow_add_one₀ (by norm_num) 970
    rw [hDouble, mul_comm]
    exact mul_le_mul_of_nonneg_left hLeast (by norm_num)
  have hBound :
      amount x * amount y ≤
        (2 ^ 53 - 15 / 2) * (1 + 1 / 2 ^ 52) ^ 2 *
          2 ^ (971 : ℤ) := by
    calc
      amount x * amount y ≤
          q * (1 + 1 / 2 ^ 52) * (q' * (1 + 1 / 2 ^ 52)) :=
        mul_le_mul (hLeft.amount_le hOne)
          (hRight.amount_le hOne') (amount_nonneg _)
          (by positivity)
      _ = q * q' * (1 + 1 / 2 ^ 52) ^ 2 := by ring
      _ ≤ safeAmount * (1 + 1 / 2 ^ 52) ^ 2 :=
        mul_le_mul_of_nonneg_right hSafe (by positivity)
      _ = _ := by
        unfold safeAmount
        ring
  have hLess :
      (2 ^ 53 - 15 / 2) * (1 + 1 / 2 ^ 52) ^ 2 *
          (2 : ℚ) ^ (971 : ℤ) <
        (2 ^ 53 - 1 / 2) * 2 ^ (971 : ℤ) :=
    mul_lt_mul_of_pos_right (by norm_num) hUnit
  have hTotal := hCovers.low_le
  generalize (2 : ℚ) ^ (971 : ℤ) = unit at *
  linarith

------------------------------------------------------------
-- The Largest Numbers
------------------------------------------------------------

/- A number with a smaller exponent than the largest stays far below. -/
theorem high_le_of_exponent_lt
    {b : Binary}
    (hCanonical : b.Canonical)
    (hLess : b.exponent < 971) :
    b.high ≤ safeAmount := by
  have hDigits : (b.significand : ℚ) ≤ 2 ^ 53 := by
    exact_mod_cast hCanonical.significand_lt.le
  have hSmall : b.quarter ≤ 2 ^ (968 : ℤ) :=
    zpow_le_zpow_right₀ (by norm_num) (by omega)
  have hScale : (0 : ℚ) < 2 ^ (968 : ℤ) := zpow_pos (by norm_num) _
  have hHalf : (2 : ℚ) ^ (969 : ℤ) = 2 ^ (968 : ℤ) * 2 :=
    zpow_add_one₀ (by norm_num) 968
  have hTop : b.high ≤ (4 * 2 ^ 53 + 2) * 2 ^ (968 : ℤ) :=
    mul_le_mul (by linarith) hSmall b.quarter_pos.le (by positivity)
  unfold safeAmount
  rw [two_zpow_eq_quarters 971]
  change _ ≤ _ * (4 * (2 : ℚ) ^ (969 : ℤ))
  rw [hHalf]
  generalize (2 : ℚ) ^ (968 : ℤ) = unit at hScale hTop ⊢
  linarith only [hScale, hTop]

theorem high_le_of_significand_lt
    {b : Binary}
    (hLast : b.exponent = 971)
    (hSmall : b.significand < 2 ^ 53 - 7) :
    b.high ≤ safeAmount := by
  have hDigits : (b.significand : ℚ) ≤ 2 ^ 53 - 8 := by
    rw [le_sub_iff_add_le]
    exact_mod_cast (by omega : b.significand + 8 ≤ 2 ^ 53)
  have hScale : (0 : ℚ) ≤ 2 ^ (969 : ℤ) := zpow_nonneg (by norm_num) _
  have hCount :
      4 * (b.significand : ℚ) + 2 ≤ 4 * (2 ^ 53 - 15 / 2) := by
    linarith
  have hProduct := mul_le_mul_of_nonneg_right hCount hScale
  unfold safeAmount high quarter
  rw [hLast, two_zpow_eq_quarters 971]
  change _ * (2 : ℚ) ^ (969 : ℤ) ≤ _ * (4 * (2 : ℚ) ^ (969 : ℤ))
  generalize (2 : ℚ) ^ (969 : ℤ) = unit at *
  linarith

/- Only the seven largest numbers reach beyond the bound. -/
theorem high_le_or_largest
    (hFinite : x.isFinite = true) :
    (ofFloat x).high ≤ safeAmount ∨
      ∃ i : Fin 7, ofFloat x = ofParts (2 ^ 53 - 1 - i) 971 := by
  have hCanonical := canonical_ofFloat x
  rcases (exponent_le_of_isFinite hFinite).lt_or_eq with
    hLess | hSame
  · exact .inl (high_le_of_exponent_lt hCanonical hLess)
  rcases Nat.lt_or_ge (ofFloat x).significand (2 ^ 53 - 7) with
    hSmall | hLarge
  · exact .inl (high_le_of_significand_lt hSame hSmall)
  · right
    have hBelow := hCanonical.significand_lt
    refine
      ⟨⟨2 ^ 53 - 1 - (ofFloat x).significand, by omega⟩,
        hCanonical.eq_of_parts ?_ ?_ hSame⟩
    · exact
        canonical_ofParts (by omega) (by decide)
          (fun _ => by omega)
    · change _ = 2 ^ 53 - 1 - (2 ^ 53 - 1 - _)
      omega

end Decimal

end Rowstore

------------------------------------------------------------
-- Written Numbers
------------------------------------------------------------

namespace Rowstore

namespace Json

open Decimal Float.Model.UnpackedFloat

variable {x : Float}

/- The form in which a number is written. -/
def written (x : Float) : Numeral :=
  .ofDecimal (shortest .toEven x)

/- The digits that are written fit a word. -/
theorem significand_written_le
    (hFinite : x.isFinite = true) :
    (written x).significand ≤ Numeral.maxSignificand :=
  (Numeral.significand_ofDecimal_le
    (digits_shortest_le hFinite .toEven)).trans (by decide)

/- What is written rounds to the number. -/
theorem nearest_written
    (hFinite : x.isFinite = true) :
    Nearest x
      ((written x).significand * 10 ^ (written x).scale) := by
  unfold written
  rw [Numeral.value_ofDecimal]
  exact nearest_shortest hFinite .toEven

theorem negative_written (x : Float) :
    (written x).negative = isNegative x := by
  unfold written shortest
  rw [Numeral.negative_ofDecimal]
  dsimp only
  split
  · rfl
  · rfl

theorem value?_written_largest :
    ∀ i : Fin 7,
      (written
          ((Binary.ofParts (2 ^ 53 - 1 - i) 971).toFloat
            .positive)).value?.isSome = true ∧
        (written
          ((Binary.ofParts (2 ^ 53 - 1 - i) 971).toFloat
            .negative)).value?.isSome = true := by
  decide +kernel

/- Digits that are scaled up below the bound do not overflow. -/
theorem isSome_multiplyByPower?
    {m k : ℕ}
    (hFits : m ≤ Numeral.maxSignificand)
    (hNearest : Nearest x (m * 10 ^ k))
    (hSafe : (m * 10 ^ k : ℚ) ≤ safeAmount) :
    (Numeral.multiplyByPower? (Float.ofScientific m false 0)
      k).isSome = true := by
  have hStart := Numeral.isFinite_significand hFits
  have hRounded := Numeral.rounded_significand m
  have hDigits := hRounded.nearest hStart
  rcases Nat.eq_zero_or_pos m with rfl | hSome
  · rw [Nat.cast_zero] at hDigits hNearest
    rw [zero_mul] at hNearest
    have hGives :=
      (Numeral.gives_multiplyByPower? (k := k) hStart
        (hRounded.signOf_eq hStart)).mpr
          (.inl ⟨hDigits.amount_eq_zero, hNearest⟩)
    rcases hGives with ⟨y, hProduct, _⟩
    rw [hProduct]
    rfl
  · have hOne : (1 : ℚ) ≤ m := by exact_mod_cast hSome
    have hTen : (1 : ℚ) ≤ 10 ^ k := one_le_pow₀ (by norm_num)
    have hSmall : k ≤ Numeral.maxPower := by
      have hRange : (10 : ℚ) ^ k < 10 ^ 309 := by
        refine lt_of_le_of_lt ?_ hNearest.lt_ten_pow
        exact le_mul_of_one_le_left (by positivity) hOne
      exact
        Nat.lt_succ_iff.mp
          ((pow_lt_pow_iff_right₀ (by norm_num)).mp hRange)
    have hProduct :=
      isFinite_mul_of_nearest hDigits
        (Numeral.nearest_powerOfTen hSmall) hOne hTen hSafe
    unfold Numeral.multiplyByPower?
    rw [if_pos hSmall]
    dsimp only
    rw [if_neg fun hInf =>
      Binary.not_isFinite_of_isInf hInf hProduct]
    rfl

/- A number below the bound is read from what is written for it. -/
theorem isSome_value?_written
    (hFinite : x.isFinite = true)
    (hSafe : (Binary.ofFloat x).high ≤ safeAmount) :
    (written x).value?.isSome = true := by
  have hNearest := nearest_written hFinite
  have hFits := significand_written_le hFinite
  rw [Numeral.value?_of_fits hFits, Option.isSome_map]
  generalize (written x).significand = m at hNearest hFits ⊢
  generalize (written x).scale = k at hNearest ⊢
  unfold Numeral.scaled?
  split
  · rename_i hUp
    have hScale : k = (k.toNat : ℤ) := by omega
    rw [hScale, zpow_natCast] at hNearest
    exact
      isSome_multiplyByPower? hFits hNearest
        (hNearest.covers.le_high.trans hSafe)
  · rfl

/- What is written for a finite number is read as a finite number of its sign. -/
theorem exists_value?_written
    (hFinite : x.isFinite = true) :
    ∃ y, (written x).value? = some y ∧ y.isFinite = true ∧
      isNegative y = isNegative x := by
  have hFits := significand_written_le hFinite
  have hRead : (written x).value?.isSome = true := by
    rcases high_le_or_largest hFinite with hSafe | ⟨i, hLargest⟩
    · exact isSome_value?_written hFinite hSafe
    · rw [← Binary.toFloat_ofFloat hFinite, hLargest]
      cases Binary.signOf x with
      | positive => exact (value?_written_largest i).1
      | negative => exact (value?_written_largest i).2
  rcases Option.isSome_iff_exists.mp hRead with ⟨y, hValue⟩
  refine
    ⟨y, hValue, Numeral.isFinite_of_value? hValue, ?_⟩
  rw [((Numeral.value?_eq_some_iff hFits).mp hValue).1,
    negative_written]

end Json

end Rowstore
