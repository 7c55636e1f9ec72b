import Rowstore.Json.Number
import Rowstore.Proofs.Decimal.Binary

/-
  Numbers stay finite where they are rounded to places and
  where they are read from documents.

  A power of ten is at least one or infinite.  So dividing by
  it overflows nothing, and a product with an infinite one is
  not finite, in which case rounding leaves the number alone.

  Main declarations:
    * `Decimal.isFinite_roundAway`
    * `Decimal.isFinite_roundToPlaces`
    * `Json.Numeral.isFinite_of_value?`
-/

------------------------------------------------------------
-- Operations
------------------------------------------------------------

namespace Rowstore

namespace Decimal

open Binary

variable {n : Nat} {c : Int} {x y : Float}

theorem isFinite_neg
    (hFinite : x.isFinite = true) :
    (-x).isFinite = true :=
  (within_pack (by decide)
    (within_of_isFinite hFinite).neg).isFinite

theorem within_toFloat (w : UInt64) :
    Within (2 ^ 52) 12 w.toFloat.toModel.unpack :=
  within_pack (by decide) (within_ofUInt64 w)

/- The whole part of a number has a successor. -/
theorem isFinite_succ (w : UInt64) :
    (w.toFloat + 1).isFinite = true := by
  have hOne :
      Within (2 ^ 52) 12 (1 : Float).toModel.unpack := by
    decide +kernel
  have hSum :=
    within_add (by decide) (within_toFloat w) hOne
  exact (within_pack (by decide) hSum).isFinite

theorem isFinite_div
    (hFinite : x.isFinite = true)
    (hOne : AtLeastOne y.toModel.unpack) :
    (x / y).isFinite = true :=
  (within_pack (by decide)
    (within_div (within_of_isFinite hFinite) hOne)).isFinite

/- A product of finite numbers overflows to an infinity, if at all. -/
theorem isFinite_mul_of_not_isInf
    (hLeft : x.isFinite = true)
    (hRight : y.isFinite = true)
    (hNotInf : ¬(x * y).isInf = true) :
    (x * y).isFinite = true := by
  have hFactor : Within (2 ^ 53) 971 y.toModel.unpack :=
    Within.mono (by decide) (Int.le_refl _)
      (within_of_isFinite hRight)
  have hProduct :=
    within_mul 53 (by decide) (within_of_isFinite hLeft)
      hFactor (show -1074 ≤ 1995 by decide) (by decide)
  exact
    isFinite_pack_of_not_isInf hProduct
      (Bool.eq_false_of_not_eq_true hNotInf)

theorem atLeastOne_mul_floats
    (hLeft : AtLeastOne x.toModel.unpack)
    (hRight : AtLeastOne y.toModel.unpack) :
    AtLeastOne (x * y).toModel.unpack :=
  atLeastOne_pack (atLeastOne_mul hLeft hRight)

------------------------------------------------------------
-- Rounding To Places
------------------------------------------------------------

theorem isFinite_roundAway
    (hFinite : x.isFinite = true) :
    (roundAway x).isFinite = true := by
  have hWhole (w : UInt64) : w.toFloat.isFinite = true :=
    (within_toFloat w).isFinite
  unfold roundAway
  dsimp only
  split
  · have hRounded :
        ∀ b : Prop, ∀ [Decidable b] (w : UInt64),
          (if b then w.toFloat + 1 else w.toFloat).isFinite =
            true := by
      intro b _ w
      split
      · exact isFinite_succ w
      · exact hWhole w
    split
    · exact isFinite_neg (hRounded _ _)
    · exact hRounded _ _
  · exact hFinite

theorem atLeastOne_taken
    {acc base : Float}
    (hAcc : AtLeastOne acc.toModel.unpack)
    (hBase : AtLeastOne base.toModel.unpack)
    (p : Prop)
    [Decidable p] :
    AtLeastOne
      (if p then acc * base else acc).toModel.unpack := by
  split
  · exact atLeastOne_mul_floats hAcc hBase
  · exact hAcc

/- A power by repeated squaring of numbers that are at least one is at least one. -/
theorem atLeastOne_powerLoop
    {acc base : Float}
    (hAcc : AtLeastOne acc.toModel.unpack)
    (hBase : AtLeastOne base.toModel.unpack)
    (n : Nat) :
    AtLeastOne (powerLoop acc base n).toModel.unpack := by
  fun_induction powerLoop acc base n with
  | case1 acc base n taken hLast =>
      exact atLeastOne_taken hAcc hBase _
  | case2 acc base n taken hMore ih =>
      exact ih (atLeastOne_taken hAcc hBase _)
        (atLeastOne_mul_floats hBase hBase)

theorem atLeastOne_powerOfTen (n : Nat) :
    AtLeastOne (powerOfTen n).toModel.unpack :=
  atLeastOne_powerLoop (by decide +kernel)
    (by decide +kernel) n

/- Rounding to places leaves a finite number finite. -/
theorem isFinite_roundToPlaces
    (hFinite : x.isFinite = true)
    (places : Nat) :
    (roundToPlaces places x).isFinite = true := by
  unfold roundToPlaces
  dsimp only
  split
  · rename_i hScaled
    exact isFinite_div (isFinite_roundAway hScaled)
      (atLeastOne_powerOfTen places)
  · exact hFinite

end Decimal

end Rowstore

------------------------------------------------------------
-- Reading From Documents
------------------------------------------------------------

namespace Rowstore

namespace Json

namespace Numeral

open Binary

variable {x : Float}

theorem accumulate_le
    (m : Nat)
    (s : List Char)
    (hFits : m ≤ maxSignificand) :
    (accumulate m s).1 ≤ maxSignificand := by
  induction s generalizing m with
  | nil => exact hFits
  | cons c s ih =>
      unfold accumulate
      dsimp only
      split
      · exact hFits
      · exact ih _ (by omega)

/- A significand is read as a finite number. -/
theorem isFinite_significand
    {m : Nat}
    (hFits : m ≤ maxSignificand) :
    (Float.ofScientific m false 0).isFinite = true := by
  have hBound : m * 10 ^ 0 ≤ 2 ^ 52 * 2 ^ 12 := by
    unfold maxSignificand at hFits
    omega
  unfold Float.ofScientific
  split
  · have hOne :
        Within (2 ^ 0) 0
          (Float.exactlyRepresentablePowersOfTen.toList.get
            ⟨0, by decide⟩).toModel.unpack := by
      decide +kernel
    have hProduct :=
      within_mul 0 (by decide)
        (Decimal.within_toFloat m.toUInt64) hOne
        (show -1074 ≤ 12 by decide) (by decide)
    exact (within_pack (by decide) hProduct).isFinite
  · have hWithin :=
      within_ofScientific (by decide) (Nat.zero_le 2048) hBound
    exact (within_pack (by decide) hWithin).isFinite

/- A power of ten is at least one, or infinite. -/
theorem atLeastOne_powerOfTen (n : Nat) :
    AtLeastOne (powerOfTen n).toModel.unpack := by
  have hTable :
      ∀ x ∈ Float.exactlyRepresentablePowersOfTen.toList,
        AtLeastOne x.toModel.unpack := by
    decide +kernel
  have hOne :
      AtLeastOne (Nat.toUInt64 1).toFloat.toModel.unpack := by
    decide +kernel
  unfold powerOfTen Float.ofScientific
  split
  · apply Decimal.atLeastOne_mul_floats hOne
    exact hTable _ (Array.getElem_mem_toList _)
  · exact atLeastOne_pack (atLeastOne_ofScientific n)

theorem isFinite_div_powerOfTen
    (hFinite : x.isFinite = true)
    (n : Nat) :
    (x / powerOfTen n).isFinite = true :=
  Decimal.isFinite_div hFinite (atLeastOne_powerOfTen n)

theorem isFinite_divideByPower
    (hFinite : x.isFinite = true)
    (n : Nat) :
    (divideByPower x n).isFinite = true := by
  fun_induction divideByPower x n with
  | case1 x n hSmall => exact isFinite_div_powerOfTen hFinite n
  | case2 x n hLarge hZero => exact hFinite
  | case3 x n hLarge hSome ih =>
      exact ih (isFinite_div_powerOfTen hFinite maxPower)

/- The powers of ten that one operation uses are finite. -/
theorem isFinite_powerOfTen
    {n : Nat}
    (hSmall : n ≤ maxPower) :
    (powerOfTen n).isFinite = true := by
  have hTable :
      ∀ x ∈ Float.exactlyRepresentablePowersOfTen.toList,
        ((Nat.toUInt64 1).toFloat * x).isFinite = true := by
    decide +kernel
  have hLargest : 10 ^ maxPower ≤ maxMantissa * 2 ^ 971 := by
    decide +kernel
  have hBound : 1 * 10 ^ n ≤ maxMantissa * 2 ^ 971 := by
    rw [Nat.one_mul]
    exact
      (Nat.pow_le_pow_right (by decide) hSmall).trans hLargest
  unfold powerOfTen Float.ofScientific
  split
  · exact hTable _ (Array.getElem_mem_toList _)
  · have hWithin :=
      within_ofScientific (by decide)
        (hSmall.trans (by decide)) hBound
    exact (within_pack (Int.le_refl _) hWithin).isFinite

theorem isFinite_of_multiplyByPower?
    (hFinite : x.isFinite = true)
    {n : Nat}
    {y : Float}
    (hProduct : multiplyByPower? x n = some y) :
    y.isFinite = true := by
  unfold multiplyByPower? at hProduct
  split at hProduct
  · dsimp only at hProduct
    split at hProduct
    · cases hProduct
    · rename_i hSmall hNotInf
      cases hProduct
      exact
        Decimal.isFinite_mul_of_not_isInf hFinite
          (isFinite_powerOfTen hSmall) hNotInf
  · split at hProduct
    · cases hProduct
      exact hFinite
    · cases hProduct

/- A number that is read is finite. -/
theorem isFinite_of_value?
    {n : Numeral}
    (hRead : n.value? = some x) :
    x.isFinite = true := by
  unfold value? at hRead
  dsimp only at hRead
  rcases Option.map_eq_some_iff.mp hRead with
    ⟨y, hMagnitude, rfl⟩
  have hWhole :=
    accumulate_le 0 n.whole (Nat.zero_le maxSignificand)
  have hStart :=
    isFinite_significand
      (accumulate_le (accumulate 0 n.whole).1 n.fraction hWhole)
  have hFinite : y.isFinite = true := by
    split at hMagnitude
    · exact isFinite_of_multiplyByPower? hStart hMagnitude
    · cases hMagnitude
      exact isFinite_divideByPower hStart _
  split
  · exact Decimal.isFinite_neg hFinite
  · exact hFinite

end Numeral

end Json

end Rowstore
