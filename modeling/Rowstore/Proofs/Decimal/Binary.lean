import Mathlib
import Rowstore.Decimal.Rounding

/-
  Bounds of binary numbers that operations keep.

  A number within `n * 2 ^ c` stays within this bound when it
  is rounded, if `n` fits a mantissa: the bound is then itself
  one of the numbers to which is rounded.  With the largest
  binary number as the bound this says that nothing overflows.
  Numbers that are at least one have a bound from below, and a
  quotient by one of them is within the bound of its dividend.

  Main declarations:
    * `Binary.Within` and `Binary.AtLeastOne`
    * `Binary.within_round`
    * `Binary.within_pack`
    * `Binary.within_div`
    * `Binary.atLeastOne_mul`
-/

namespace Rowstore

namespace Binary

open Float.Model Float.Model.UnpackedFloat

------------------------------------------------------------
-- Rounding From Above
------------------------------------------------------------

/- A mantissa, with the digits below it, is at most a number. -/
def AtMost
    (n : Nat)
    (m : ExtendedMantissa) : Prop :=
  m.mantissa < n ∨ m = ⟨n, false, false⟩

theorem AtMost.mantissa_le
    {n : Nat}
    {m : ExtendedMantissa}
    (hAtMost : AtMost n m) :
    m.mantissa ≤ n := by
  rcases hAtMost with hLess | rfl
  · exact hLess.le
  · exact Nat.le_refl n

/- Rounding adds at most one. -/
theorem roundedMantissa_bounds (m : ExtendedMantissa) :
    m.mantissa ≤ m.roundedMantissa ∧
      m.roundedMantissa ≤ m.mantissa + 1 := by
  rcases m with ⟨m, r, s⟩
  cases r <;> cases s <;>
    simp [ExtendedMantissa.roundedMantissa,
      ExtendedMantissa.accuracy,
      Accuracy.roundToNearestEven]
  omega

theorem AtMost.roundedMantissa_le
    {n : Nat}
    {m : ExtendedMantissa}
    (hAtMost : AtMost n m) :
    m.roundedMantissa ≤ n := by
  rcases hAtMost with hLess | rfl
  · exact (roundedMantissa_bounds m).2.trans hLess
  · exact Nat.le_refl n

theorem atMost_exact
    {n m : Nat}
    (hLe : m ≤ n) :
    AtMost n (.ofMantissaAndAccuracy m .exact) := by
  rcases Nat.lt_or_eq_of_le hLe with hLess | rfl
  · exact .inl hLess
  · exact .inr rfl

theorem AtMost.shiftRightOne
    {n : Nat}
    {m : ExtendedMantissa}
    (hAtMost : AtMost (n * 2) m) :
    AtMost n m.shiftRightOne := by
  rcases hAtMost with hLess | rfl
  · left
    change m.mantissa / 2 < n
    omega
  · right
    simp [ExtendedMantissa.shiftRightOne]

theorem AtMost.shiftRight
    {n k : Nat}
    {m : ExtendedMantissa}
    (hAtMost : AtMost (n * 2 ^ k) m) :
    AtMost n (m >>> k) := by
  induction k generalizing n with
  | zero =>
      rw [Nat.pow_zero, Nat.mul_one] at hAtMost
      exact hAtMost
  | succ k ih =>
      rw [Nat.pow_succ, ← Nat.mul_assoc, Nat.mul_right_comm]
        at hAtMost
      exact (ih hAtMost).shiftRightOne

/-
  A mantissa at an exponent is at most `n * 2 ^ c`, counting
  the digits below it.
-/
structure Bounded
    (n : Nat)
    (c : Int)
    (m : ExtendedMantissa)
    (e : Int) : Prop where
  exponent_le : e ≤ c
  mantissa_atMost : AtMost (n * 2 ^ (c - e).toNat) m

/- The exponent at which a number has the digits that the format keeps. -/
theorem targetExponent_eq
    (m : Nat)
    (e : Int) :
    Format.binary64.targetExponent (totalExponent m e) =
      max (m.log2 + e - 52) (-1074) := by
  simp only [Format.targetExponent, totalExponent,
    Format.mantissaBits, Format.minExponent]
  norm_num
  omega

/- A bounded number does not have to leave its bound's exponent to fit. -/
theorem targetExponent_le
    {n m : Nat}
    (hFits : n < 2 ^ 53)
    {c e : Int}
    (hLeast : -1074 ≤ c)
    (hExponent : e ≤ c)
    (hMantissa : m ≤ n * 2 ^ (c - e).toNat) :
    Format.binary64.targetExponent (totalExponent m e) ≤ c := by
  have hLog : (m.log2 : Int) ≤ 52 + (c - e) := by
    by_cases hZero : m = 0
    · subst hZero
      simp only [Nat.log2_zero]
      omega
    · have hBound : m < 2 ^ (53 + (c - e).toNat) := by
        calc
          m ≤ n * 2 ^ (c - e).toNat := hMantissa
          _ < 2 ^ 53 * 2 ^ (c - e).toNat :=
            Nat.mul_lt_mul_of_pos_right hFits
              (Nat.two_pow_pos _)
          _ = 2 ^ (53 + (c - e).toNat) := (Nat.pow_add ..).symm
      have := (Nat.log2_lt hZero).mpr hBound
      omega
  rw [targetExponent_eq]
  omega

/- Cutting digits off keeps the bound. -/
theorem bounded_shiftToTargetExponent
    {n m : Nat}
    (hFits : n < 2 ^ 53)
    {c e : Int}
    {a : Accuracy}
    (hLeast : -1074 ≤ c)
    (hBounded :
      Bounded n c (.ofMantissaAndAccuracy m a) e) :
    let shifted :=
      shiftToTargetExponent Format.binary64 m e a
    Bounded n c shifted.1 shifted.2 ∧ -1074 ≤ shifted.2 := by
  have hMantissa : m ≤ n * 2 ^ (c - e).toNat := by
    have hLe := hBounded.mantissa_atMost.mantissa_le
    rcases a with _ | _ | _ | _ <;> exact hLe
  have hTarget :=
    targetExponent_le hFits hLeast hBounded.exponent_le
      hMantissa
  have hShift :
      -1074 ≤
        Format.binary64.targetExponent (totalExponent m e) := by
    rw [targetExponent_eq]
    omega
  have hExponent := hBounded.exponent_le
  unfold shiftToTargetExponent shiftToExponent
  generalize
    Format.binary64.targetExponent (totalExponent m e) =
      target at hTarget hShift
  dsimp only
  refine ⟨⟨by omega, ?_⟩, by omega⟩
  apply AtMost.shiftRight
  have hSplit :
      (c - e).toNat =
        (c - (e + ((target - e).toNat : Int))).toNat +
          (target - e).toNat := by
    omega
  rw [Nat.mul_assoc, ← Nat.pow_add, ← hSplit]
  exact hBounded.mantissa_atMost

------------------------------------------------------------
-- Bounds Of Numbers
------------------------------------------------------------

/- The number is finite, and its magnitude is at most `n * 2 ^ c`. -/
def Within
    (n : Nat)
    (c : Int) : UnpackedFloat → Prop
| .zero _ => True
| .finite _ m e _ =>
  -1074 ≤ e ∧ e ≤ c ∧ m ≤ n * 2 ^ (c - e).toNat
| _ => False

instance
    (n : Nat)
    (c : Int)
    (u : UnpackedFloat) :
    Decidable (Within n c u) :=
  match u with
  | .infinity _ => inferInstanceAs (Decidable False)
  | .notANumber => inferInstanceAs (Decidable False)
  | .zero _ => inferInstanceAs (Decidable True)
  | .finite _ m e _ =>
    inferInstanceAs
      (Decidable
        (-1074 ≤ e ∧ e ≤ c ∧ m ≤ n * 2 ^ (c - e).toNat))

variable {n : Nat} {c : Int} {u v : UnpackedFloat}

theorem Within.isFinite
    (hWithin : Within n c u) :
    u.isFinite = true := by
  cases u with
  | infinity s => exact hWithin.elim
  | notANumber => exact hWithin.elim
  | zero s => rfl
  | finite s m e hm => rfl

theorem Within.neg
    (hWithin : Within n c u) :
    Within n c u.neg := by
  cases u with
  | infinity s => exact hWithin.elim
  | notANumber => exact hWithin.elim
  | zero s => exact hWithin
  | finite s m e hm => exact hWithin

/- Rounding keeps a bound that fits a mantissa. -/
theorem within_round
    (hFits : n < 2 ^ 53)
    (hLeast : -1074 ≤ c)
    (s : Sign)
    {m : Nat}
    {e : Int}
    {a : Accuracy}
    (hBounded :
      Bounded n c (.ofMantissaAndAccuracy m a) e) :
    Within n c (roundWithAccuracy Format.binary64 s m e a) := by
  rcases bounded_shiftToTargetExponent hFits hLeast hBounded
    with ⟨hFirst, hFirstLeast⟩
  unfold roundWithAccuracy
  generalize
    shiftToTargetExponent Format.binary64 m e a = first
      at hFirst hFirstLeast
  rcases first with ⟨m₁, e₁⟩
  have hRounded :
      Bounded n c
        (.ofMantissaAndAccuracy m₁.roundedMantissa .exact) e₁ :=
    ⟨hFirst.exponent_le,
      atMost_exact hFirst.mantissa_atMost.roundedMantissa_le⟩
  rcases bounded_shiftToTargetExponent hFits hLeast hRounded
    with ⟨hSecond, hSecondLeast⟩
  dsimp only
  generalize
    shiftToTargetExponent Format.binary64 m₁.roundedMantissa
      e₁ .exact = second at hSecond hSecondLeast
  split
  · trivial
  · exact
      ⟨hSecondLeast, hSecond.exponent_le,
        hSecond.mantissa_atMost.mantissa_le⟩

------------------------------------------------------------
-- Words
------------------------------------------------------------

theorem toNat_implicit (m : BitVec 52) :
    (1#1 ++ m).toNat = 2 ^ 52 + m.toNat := by
  rw [BitVec.toNat_append,
    ← Nat.shiftLeft_add_eq_or_of_lt m.isLt]
  simp [Nat.shiftLeft_eq]

theorem toNat_pos_of_ne_zero
    {m : BitVec 52}
    (hSome : m ≠ 0#52) :
    0 < m.toNat :=
  Nat.pos_of_ne_zero fun hZero =>
    hSome (BitVec.eq_of_toNat_eq hZero)

/- The number in the parts of a word, if the exponent is not the one of infinities. -/
theorem unpack_packComponents
    (s : Sign)
    {b : BitVec 11}
    (hFinite : b ≠ -1#11)
    (m : BitVec 52) :
    UnpackedFloat.unpack Format.binary64
        (packComponents Format.binary64 s b m) =
      if b = 0#11 then
        if h : m = 0#52 then .zero s
        else
          .finite s m.toNat (-1074) (toNat_pos_of_ne_zero h)
      else
        .finite s (2 ^ 52 + m.toNat) ((b.toNat : Int) - 1075)
          (Nat.add_pos_left (Nat.two_pow_pos 52) _) := by
  unfold UnpackedFloat.unpack
  simp only [unpackExponent_packComponents,
    unpackMantissa_packComponents, unpackSign_packComponents,
    Sign.ofBitVec_toBitVec, if_neg hFinite]
  by_cases hZero : b = 0#11
  · subst hZero
    rfl
  · simp only [if_neg hZero, toNat_implicit]
    rfl

/- Too large a number is packed as an infinity. -/
theorem unpack_pack_overflow
    (s : Sign)
    {m : Nat}
    {e : Int}
    (hm : 0 < m)
    (hMore : 971 < e) :
    (Float.Model.pack (.finite s m e hm)).unpack =
      .infinity s := by
  have hBiased :
      2 ^ Format.binary64.exponentBits ≤
        (e + Format.binary64.exponentBias +
          Format.binary64.mantissaBitsWithoutImplicit).toNat +
            1 := by
    simp only [Format.exponentBias]
    norm_num
    omega
  unfold Float.Model.unpack Float.Model.pack
  simp only [UnpackedFloat.pack, if_pos hBiased]
  cases s with
  | negative => rfl
  | positive => rfl

/- The exponent of a number that fits is neither the least nor the greatest. -/
theorem biased_exponent
    {e : Int}
    (hLeast : -1074 ≤ e)
    (hMost : e ≤ 971) :
    ∃ b : BitVec 11,
      b ≠ 0#11 ∧ b ≠ -1#11 ∧ (b.toNat : Int) - 1075 = e ∧
      BitVec.ofNat Format.binary64.exponentBits
        (e + Format.binary64.exponentBias +
          Format.binary64.mantissaBitsWithoutImplicit).toNat =
        b := by
  have hValue :
      (e + Format.binary64.exponentBias +
        Format.binary64.mantissaBitsWithoutImplicit).toNat =
        (e + 1075).toNat := by
    simp only [Format.exponentBias]
    norm_num
    omega
  have hFits : (e + 1075).toNat < 2047 := by omega
  have hToNat :
      (BitVec.ofNat 11 (e + 1075).toNat).toNat =
        (e + 1075).toNat := by
    rw [BitVec.toNat_ofNat]
    exact Nat.mod_eq_of_lt (by omega)
  refine ⟨BitVec.ofNat 11 (e + 1075).toNat, ?_, ?_, ?_, ?_⟩
  · intro hZero
    have := congrArg BitVec.toNat hZero
    rw [hToNat] at this
    simp only [BitVec.toNat_zero] at this
    omega
  · intro hOnes
    have := congrArg BitVec.toNat hOnes
    rw [hToNat] at this
    simp only [BitVec.neg_one_eq_allOnes,
      BitVec.toNat_allOnes] at this
    omega
  · rw [hToNat]
    omega
  · rw [hValue]

/- A number with all digits of the format is packed as it is. -/
theorem unpack_pack_normal
    (s : Sign)
    {m : Nat}
    {e : Int}
    (hm : 0 < m)
    (hLog : m.log2 = 52)
    (hLeast : -1074 ≤ e)
    (hMost : e ≤ 971) :
    (Float.Model.pack (.finite s m e hm)).unpack =
      .finite s m e hm := by
  rcases biased_exponent hLeast hMost with
    ⟨b, hZero, hOnes, hValue, hBiased⟩
  have hFits :
      ¬2 ^ Format.binary64.exponentBits ≤
        (e + Format.binary64.exponentBias +
          Format.binary64.mantissaBitsWithoutImplicit).toNat +
            1 := by
    simp only [Format.exponentBias]
    norm_num
    omega
  have hDigits : m.log2 + 1 = Format.binary64.mantissaBits := by
    rw [hLog]
    rfl
  have hAtLeast : 2 ^ 52 ≤ m := by
    rw [← hLog]
    exact Nat.log2_self_le (Nat.ne_of_gt hm)
  have hBelow : m < 2 ^ 53 := by
    have := Nat.lt_log2_self (n := m)
    rwa [hLog] at this
  have hMantissa :
      2 ^ 52 + (BitVec.ofNat 52 m).toNat = m := by
    rw [BitVec.toNat_ofNat]
    omega
  unfold Float.Model.unpack Float.Model.pack
  simp only [UnpackedFloat.pack, if_neg hFits, if_pos hDigits]
  rw [hBiased, unpack_packComponents s hOnes, if_neg hZero]
  simp only [hMantissa, hValue]

/- A number with fewer digits is packed among the smallest numbers. -/
theorem unpack_pack_subnormal
    (s : Sign)
    {m : Nat}
    {e : Int}
    (hm : 0 < m)
    (hLog : m.log2 ≠ 52)
    (hMost : e ≤ 971) :
    (Float.Model.pack (.finite s m e hm)).unpack =
      if h : BitVec.ofNat 52 m = 0#52 then .zero s
      else
        .finite s (BitVec.ofNat 52 m).toNat (-1074)
          (toNat_pos_of_ne_zero h) := by
  have hFits :
      ¬2 ^ Format.binary64.exponentBits ≤
        (e + Format.binary64.exponentBias +
          Format.binary64.mantissaBitsWithoutImplicit).toNat +
            1 := by
    simp only [Format.exponentBias]
    norm_num
    omega
  have hDigits :
      ¬m.log2 + 1 = Format.binary64.mantissaBits := by
    intro hSame
    exact hLog (Nat.succ_injective hSame)
  unfold Float.Model.unpack Float.Model.pack
  simp only [UnpackedFloat.pack, if_neg hFits, if_neg hDigits]
  rw [unpack_packComponents s (by decide), if_pos rfl]

/- What is packed stays within a bound that can be packed. -/
theorem within_pack
    (hMost : c ≤ 971)
    (hWithin : Within n c u) :
    Within n c (Float.Model.pack u).unpack := by
  cases u with
  | infinity s => exact hWithin.elim
  | notANumber => exact hWithin.elim
  | zero s =>
      cases s with
      | negative => trivial
      | positive => trivial
  | finite s m e hm =>
      rcases hWithin with ⟨hLeast, hExponent, hMantissa⟩
      have hFits : e ≤ 971 := hExponent.trans hMost
      by_cases hLog : m.log2 = 52
      · rw [unpack_pack_normal s hm hLog hLeast hFits]
        exact ⟨hLeast, hExponent, hMantissa⟩
      · rw [unpack_pack_subnormal s hm hLog hFits]
        split
        · trivial
        · refine ⟨Int.le_refl _, hLeast.trans hExponent, ?_⟩
          calc
            (BitVec.ofNat 52 m).toNat ≤ m := by
              rw [BitVec.toNat_ofNat]
              exact Nat.mod_le m _
            _ ≤ n * 2 ^ (c - e).toNat := hMantissa
            _ ≤ n * 2 ^ (c - -1074).toNat :=
              Nat.mul_le_mul_left n
                (Nat.pow_le_pow_right (by decide) (by omega))

/- The mantissa of the largest number. -/
def maxMantissa : Nat :=
  2 ^ 53 - 1

/- A mantissa at an exponent of the format is within the largest number. -/
theorem le_maxMantissa
    {m : Nat}
    {e : Int}
    (hMantissa : m < 2 ^ 53) :
    m ≤ maxMantissa * 2 ^ (971 - e).toNat := by
  calc
    m ≤ maxMantissa * 1 := by
      unfold maxMantissa
      omega
    _ ≤ maxMantissa * 2 ^ (971 - e).toNat :=
      Nat.mul_le_mul_left _ (Nat.two_pow_pos _)

/- A finite number in a word is within the largest one. -/
theorem within_unpack
    {w : BitVec Format.binary64.numBits}
    (hFinite :
      (UnpackedFloat.unpack Format.binary64 w).isFinite =
        true) :
    Within maxMantissa 971
      (UnpackedFloat.unpack Format.binary64 w) := by
  unfold UnpackedFloat.unpack at *
  dsimp only at *
  generalize unpackExponent w = b at *
  have hMantissa : (unpackMantissa w).toNat < 2 ^ 52 :=
    (unpackMantissa w).isLt
  by_cases hOnes : b = -1#11
  · rw [if_pos hOnes] at hFinite
    split at hFinite
    · cases hFinite
    · cases hFinite
  have hExponent : b.toNat < 2047 := by
    have hLess : b.toNat < 2 ^ 11 := b.isLt
    have hOther : b.toNat ≠ 2047 := fun hSame =>
      hOnes (BitVec.eq_of_toNat_eq hSame)
    omega
  rw [if_neg hOnes]
  by_cases hZero : b = 0#11
  · rw [if_pos hZero]
    subst hZero
    split
    · trivial
    · exact
        ⟨by decide, by decide,
          le_maxMantissa (hMantissa.trans (by decide))⟩
  · rw [if_neg hZero]
    have hSome : b.toNat ≠ 0 := fun hSame =>
      hZero (BitVec.eq_of_toNat_eq hSame)
    have hImplicit :
        (1#1 ++ unpackMantissa w).toNat < 2 ^ 53 :=
      BitVec.isLt _
    refine ⟨?_, ?_, le_maxMantissa hImplicit⟩
    · change (-1074 : Int) ≤ (b.toNat : Int) - (1023 + 52)
      omega
    · change (b.toNat : Int) - (1023 + 52) ≤ 971
      omega

/- A finite number is within the largest one. -/
theorem within_of_isFinite
    {x : Float}
    (hFinite : x.isFinite = true) :
    Within maxMantissa 971 x.toModel.unpack :=
  within_unpack hFinite

------------------------------------------------------------
-- Sums And Products
------------------------------------------------------------

/- A lower exponent makes up for the digits that are appended. -/
theorem mul_two_pow_le
    {m : Nat}
    {e : Int}
    (hExponent : e ≤ c)
    (hMantissa : m ≤ n * 2 ^ (c - e).toNat)
    (k : Nat) :
    m * 2 ^ k ≤ n * 2 ^ (c - (e - k)).toNat := by
  have hSplit :
      (c - (e - k)).toNat = (c - e).toNat + k := by
    omega
  rw [hSplit, Nat.pow_add, ← Nat.mul_assoc]
  exact Nat.mul_le_mul_right _ hMantissa

theorem within_roundExact
    (hFits : n < 2 ^ 53)
    (hLeast : -1074 ≤ c)
    (s : Sign)
    {m : Nat}
    {e : Int}
    (hExponent : e ≤ c)
    (hMantissa : m ≤ n * 2 ^ (c - e).toNat) :
    Within n c (UnpackedFloat.round Format.binary64 s m e) := by
  unfold UnpackedFloat.round decreaseExponent
  apply within_round hFits hLeast
  refine ⟨by omega, atMost_exact ?_⟩
  rw [Nat.shiftLeft_eq]
  exact mul_two_pow_le hExponent hMantissa _

theorem within_normalize
    (hFits : n < 2 ^ 53)
    (hLeast : -1074 ≤ c)
    (s : Sign)
    {m e : Int}
    (hExponent : e ≤ c)
    (hMantissa : m.natAbs ≤ n * 2 ^ (c - e).toNat) :
    Within n c (UnpackedFloat.normalize Format.binary64 m e s) := by
  unfold UnpackedFloat.normalize
  split
  · apply within_roundExact hFits hLeast _ hExponent
    omega
  · trivial
  · apply within_roundExact hFits hLeast _ hExponent
    omega

theorem within_ofUInt64 (w : UInt64) :
    Within (2 ^ 52) 12 (ofUInt64 Format.binary64 w) := by
  have hWord : w.toNat < 2 ^ 64 := w.toNat_lt
  apply within_normalize (by decide) (by decide) _ (by decide)
  calc
    (w.toNat : Int).natAbs = w.toNat := Int.natAbs_natCast _
    _ ≤ 2 ^ 64 := hWord.le
    _ = 2 ^ 52 * 2 ^ ((12 : Int) - 0).toNat := by decide

theorem Within.mono
    {n' : Nat}
    {c' : Int}
    (hMantissas : n ≤ n')
    (hExponents : c ≤ c')
    (hWithin : Within n c u) :
    Within n' c' u := by
  cases u with
  | infinity s => exact hWithin.elim
  | notANumber => exact hWithin.elim
  | zero s => trivial
  | finite s m e hm =>
      rcases hWithin with ⟨hLeast, hExponent, hMantissa⟩
      refine ⟨hLeast, hExponent.trans hExponents, ?_⟩
      exact hMantissa.trans
        (Nat.mul_le_mul hMantissas
          (Nat.pow_le_pow_right (by decide) (by omega)))

/- The sum of two numbers is within twice their bound. -/
theorem within_add
    (hFits : n < 2 ^ 53)
    (hLeft : Within n c u)
    (hRight : Within n c v) :
    Within n (c + 1) (UnpackedFloat.add Format.binary64 u v) := by
  have hLe : c ≤ c + 1 := by omega
  cases u with
  | infinity s => exact hLeft.elim
  | notANumber => exact hLeft.elim
  | zero s =>
      cases v with
      | infinity s' => exact hRight.elim
      | notANumber => exact hRight.elim
      | zero s' =>
          change Within n (c + 1)
            (if (s == s') = true then _ else _)
          split
          · trivial
          · trivial
      | finite s' m' e' hm' => exact hRight.mono (Nat.le_refl n) hLe
  | finite s m e hm =>
      cases v with
      | infinity s' => exact hRight.elim
      | notANumber => exact hRight.elim
      | zero s' => exact hLeft.mono (Nat.le_refl n) hLe
      | finite s' m' e' hm' =>
          rcases hLeft with ⟨hLeast, hExponent, hMantissa⟩
          rcases hRight with
            ⟨hLeast', hExponent', hMantissa'⟩
          have hFirst :=
            mul_two_pow_le hExponent hMantissa
              (e - min e e').toNat
          have hSecond :=
            mul_two_pow_le hExponent' hMantissa'
              (e' - min e e').toNat
          have hLow :
              e - ((e - min e e').toNat : Int) = min e e' := by
            omega
          have hLow' :
              e' - ((e' - min e e').toNat : Int) = min e e' := by
            omega
          rw [hLow] at hFirst
          rw [hLow'] at hSecond
          have hDouble :
              n * 2 ^ (c + 1 - min e e').toNat =
                n * 2 ^ (c - min e e').toNat +
                  n * 2 ^ (c - min e e').toNat := by
            have hNext :
                (c + 1 - min e e').toNat =
                  (c - min e e').toNat + 1 := by
              omega
            rw [hNext, Nat.pow_succ]
            ring
          apply within_normalize hFits (by omega) _ (by omega)
          rw [hDouble, Nat.shiftLeft_eq, Nat.shiftLeft_eq]
          cases s <;> cases s' <;> simp only [Sign.apply] <;>
            omega

/- The bounds of two factors bound their product. -/
theorem within_mul
    (k : Nat)
    {c' d : Int}
    (hFits : n < 2 ^ 53)
    (hLeft : Within n c u)
    (hRight : Within (2 ^ k) c' v)
    (hLeast : -1074 ≤ d)
    (hTotal : c + c' + k ≤ d) :
    Within n d (UnpackedFloat.mul Format.binary64 u v) := by
  cases u with
  | infinity s => exact hLeft.elim
  | notANumber => exact hLeft.elim
  | zero s =>
      cases v with
      | infinity s' => exact hRight.elim
      | notANumber => exact hRight.elim
      | zero s' => trivial
      | finite s' m' e' hm' => trivial
  | finite s m e hm =>
      cases v with
      | infinity s' => exact hRight.elim
      | notANumber => exact hRight.elim
      | zero s' => trivial
      | finite s' m' e' hm' =>
          rcases hLeft with ⟨_, hExponent, hMantissa⟩
          rcases hRight with ⟨_, hExponent', hMantissa'⟩
          apply within_round hFits hLeast
          refine ⟨by omega, atMost_exact ?_⟩
          have hSplit :
              k + (c - e).toNat + (c' - e').toNat ≤
                (d - (e + e')).toNat := by
            omega
          calc
            m * m' ≤
                n * 2 ^ (c - e).toNat *
                  (2 ^ k * 2 ^ (c' - e').toNat) :=
              Nat.mul_le_mul hMantissa hMantissa'
            _ = n *
                  2 ^ (k + (c - e).toNat + (c' - e').toNat) := by
              rw [Nat.pow_add, Nat.pow_add]
              ring
            _ ≤ n * 2 ^ (d - (e + e')).toNat :=
              Nat.mul_le_mul_left n
                (Nat.pow_le_pow_right (by decide) hSplit)

/- A bounded number overflows to an infinity, if at all. -/
theorem isFinite_pack_of_not_isInf
    (hWithin : Within n c u)
    (hNotInf : (Float.Model.pack u).unpack.isInf = false) :
    (Float.Model.pack u).unpack.isFinite = true := by
  cases u with
  | infinity s => exact hWithin.elim
  | notANumber => exact hWithin.elim
  | zero s =>
      cases s with
      | negative => rfl
      | positive => rfl
  | finite s m e hm =>
      by_cases hMost : e ≤ 971
      · have hSelf :
            Within m 971 (.finite s m e hm) :=
          ⟨hWithin.1, hMost,
            Nat.le_mul_of_pos_right m (Nat.two_pow_pos _)⟩
        exact (within_pack (Int.le_refl _) hSelf).isFinite
      · rw [unpack_pack_overflow s hm (by omega)] at hNotInf
        cases hNotInf

------------------------------------------------------------
-- Numbers From One On
------------------------------------------------------------

/- The number is an infinity above, or at least one and has all digits of the format. -/
def AtLeastOne : UnpackedFloat → Prop
| .infinity .positive => True
| .finite .positive m e _ => m.log2 = 52 ∧ -52 ≤ e
| _ => False

instance (u : UnpackedFloat) : Decidable (AtLeastOne u) :=
  match u with
  | .infinity .positive => inferInstanceAs (Decidable True)
  | .infinity .negative => inferInstanceAs (Decidable False)
  | .notANumber => inferInstanceAs (Decidable False)
  | .zero _ => inferInstanceAs (Decidable False)
  | .finite .positive m e _ =>
    inferInstanceAs (Decidable (m.log2 = 52 ∧ -52 ≤ e))
  | .finite .negative _ _ _ =>
    inferInstanceAs (Decidable False)

theorem mantissa_shiftRight
    (m : ExtendedMantissa)
    (k : Nat) :
    (m >>> k).mantissa = m.mantissa / 2 ^ k := by
  induction k with
  | zero => exact (Nat.div_one _).symm
  | succ k ih =>
      change (m >>> k).mantissa / 2 = _
      rw [ih, Nat.div_div_eq_div_mul, Nat.pow_succ]

theorem mantissa_ofMantissaAndAccuracy
    (m : Nat)
    (a : Accuracy) :
    (ExtendedMantissa.ofMantissaAndAccuracy m a).mantissa =
      m := by
  rcases a with _ | _ | _ | _ <;> rfl

/- A number that is at least one keeps all digits of the format. -/
theorem log2_shiftToTargetExponent
    {m : Nat}
    {e : Int}
    (hDigits : 52 ≤ m.log2)
    (hOne : 0 ≤ m.log2 + e)
    (a : Accuracy) :
    let shifted :=
      shiftToTargetExponent Format.binary64 m e a
    shifted.1.mantissa.log2 = 52 ∧
      shifted.2 = m.log2 + e - 52 := by
  have hTarget :
      Format.binary64.targetExponent (totalExponent m e) =
        m.log2 + e - 52 := by
    rw [targetExponent_eq]
    omega
  have hShift :
      ((m.log2 : Int) + e - 52 - e).toNat = m.log2 - 52 := by
    omega
  unfold shiftToTargetExponent shiftToExponent
  dsimp only
  rw [hTarget, hShift, mantissa_shiftRight,
    mantissa_ofMantissaAndAccuracy, Nat.log2_eq_log_two,
    Nat.log_div_base_pow, ← Nat.log2_eq_log_two]
  exact ⟨by omega, by omega⟩

/- A number that is at least one is rounded to one that is at least one. -/
theorem atLeastOne_round
    {m : Nat}
    {e : Int}
    (hDigits : 52 ≤ m.log2)
    (hOne : 0 ≤ m.log2 + e)
    (a : Accuracy) :
    AtLeastOne
      (roundWithAccuracy Format.binary64 .positive m e a) := by
  rcases log2_shiftToTargetExponent hDigits hOne a with
    ⟨hFirst, hFirstExponent⟩
  unfold roundWithAccuracy
  generalize
    shiftToTargetExponent Format.binary64 m e a = first at *
  rcases first with ⟨m₁, e₁⟩
  dsimp only at *
  have hMore : 52 ≤ m₁.roundedMantissa.log2 := by
    rw [← hFirst, Nat.log2_eq_log_two, Nat.log2_eq_log_two]
    exact Nat.log_mono_right (roundedMantissa_bounds m₁).1
  rcases log2_shiftToTargetExponent hMore
      (show 0 ≤ (m₁.roundedMantissa.log2 : Int) + e₁ by omega)
      .exact with
    ⟨hSecond, hSecondExponent⟩
  generalize
    shiftToTargetExponent Format.binary64 m₁.roundedMantissa
      e₁ .exact = second at *
  rw [dif_neg]
  · exact ⟨hSecond, by omega⟩
  · intro hZero
    rw [hZero] at hSecond
    simp at hSecond

/- What is packed is still at least one. -/
theorem atLeastOne_pack
    (hOne : AtLeastOne u) :
    AtLeastOne (Float.Model.pack u).unpack := by
  rcases u with ⟨_ | _⟩ | _ | _ | ⟨_ | _, m, e, hm⟩
  · exact hOne.elim
  · trivial
  · exact hOne.elim
  · exact hOne.elim
  · exact hOne.elim
  · rcases hOne with ⟨hLog, hLeast⟩
    by_cases hMost : e ≤ 971
    · rw [unpack_pack_normal _ hm hLog (by omega) hMost]
      exact ⟨hLog, hLeast⟩
    · rw [unpack_pack_overflow _ hm (by omega)]
      trivial

theorem atLeastOne_mul
    (hLeft : AtLeastOne u)
    (hRight : AtLeastOne v) :
    AtLeastOne (UnpackedFloat.mul Format.binary64 u v) := by
  rcases u with ⟨_ | _⟩ | _ | _ | ⟨_ | _, m, e, hm⟩
  · exact hLeft.elim
  · rcases v with ⟨_ | _⟩ | _ | _ | ⟨_ | _, m', e', hm'⟩
    · exact hRight.elim
    · trivial
    · exact hRight.elim
    · exact hRight.elim
    · exact hRight.elim
    · trivial
  · exact hLeft.elim
  · exact hLeft.elim
  · exact hLeft.elim
  · rcases v with ⟨_ | _⟩ | _ | _ | ⟨_ | _, m', e', hm'⟩
    · exact hRight.elim
    · trivial
    · exact hRight.elim
    · exact hRight.elim
    · exact hRight.elim
    · rcases hLeft with ⟨hLog, hLeast⟩
      rcases hRight with ⟨hLog', hLeast'⟩
      have hProduct : 104 ≤ (m * m').log2 := by
        rw [Nat.le_log2 (Nat.mul_pos hm hm').ne']
        calc
          2 ^ 104 = 2 ^ m.log2 * 2 ^ m'.log2 := by
            rw [hLog, hLog', ← Nat.pow_add]
          _ ≤ m * m' :=
            Nat.mul_le_mul (Nat.log2_self_le hm.ne')
              (Nat.log2_self_le hm'.ne')
      exact atLeastOne_round (by omega) (by omega) .exact

/- A quotient counts the remainder as digits below its mantissa. -/
theorem atMost_quotient
    {b m m' : Nat}
    (hLe : m ≤ b * m') :
    AtMost b
      (.ofMantissaAndAccuracy (m / m')
        (accuracyOfFraction (m % m') m')) := by
  have hQuotient : m / m' ≤ b := by
    apply Nat.div_le_of_le_mul
    rwa [Nat.mul_comm] at hLe
  rcases Nat.lt_or_eq_of_le hQuotient with hLess | hSame
  · left
    rw [mantissa_ofMantissaAndAccuracy]
    exact hLess
  · have hSplit := Nat.div_add_mod m m'
    rw [hSame, Nat.mul_comm] at hSplit
    have hRest : m % m' = 0 := by omega
    rw [hRest, hSame]
    exact .inr rfl

/- A quotient by a number that is at least one is within the bound of its dividend. -/
theorem within_div
    (hLeft : Within maxMantissa 971 u)
    (hRight : AtLeastOne v) :
    Within maxMantissa 971
      (UnpackedFloat.div Format.binary64 u v) := by
  rcases v with ⟨_ | _⟩ | _ | _ | ⟨_ | _, m', e', hm'⟩
  · exact hRight.elim
  · rcases u with s | _ | s | ⟨s, m, e, hm⟩
    · exact hLeft.elim
    · exact hLeft.elim
    · trivial
    · trivial
  · exact hRight.elim
  · exact hRight.elim
  · exact hRight.elim
  rcases u with s | _ | s | ⟨s, m, e, hm⟩
  · exact hLeft.elim
  · exact hLeft.elim
  · trivial
  rcases hLeft with ⟨hLeast, hExponent, hMantissa⟩
  rcases hRight with ⟨hLog, hLeast'⟩
  have hTotal : (m.log2 : Int) + e - 52 ≤ 971 := by
    have hTarget :=
      targetExponent_le (by decide) (by decide) hExponent
        hMantissa
    rw [targetExponent_eq] at hTarget
    omega
  have hTarget :
      Format.binary64.targetExponent
          (totalExponent m e - totalExponent m' e') ≤ 971 := by
    simp only [Format.targetExponent, totalExponent,
      Format.mantissaBits, Format.minExponent, hLog]
    norm_num
    omega
  have hDivisor : 2 ^ 52 ≤ m' := by
    rw [← hLog]
    exact Nat.log2_self_le hm'.ne'
  unfold UnpackedFloat.div divCore
  dsimp only
  generalize hLow :
    min (e - e')
      (Format.binary64.targetExponent
        (totalExponent m e - totalExponent m' e')) = t
  have hFits : t ≤ 971 := by omega
  have hBelow : t ≤ e - e' := by omega
  apply within_round (by decide) (by decide)
  refine ⟨hFits, atMost_quotient ?_⟩
  rw [Nat.shiftLeft_eq]
  have hShift :
      (971 - e).toNat + (e - e' - t).toNat ≤
        (971 - t).toNat + 52 := by
    omega
  calc
    m * 2 ^ (e - e' - t).toNat ≤
        maxMantissa * 2 ^ (971 - e).toNat *
          2 ^ (e - e' - t).toNat :=
      Nat.mul_le_mul_right _ hMantissa
    _ = maxMantissa *
          2 ^ ((971 - e).toNat + (e - e' - t).toNat) := by
      rw [Nat.mul_assoc, ← Nat.pow_add]
    _ ≤ maxMantissa * 2 ^ ((971 - t).toNat + 52) :=
      Nat.mul_le_mul_left _
        (Nat.pow_le_pow_right (by decide) hShift)
    _ = maxMantissa * 2 ^ (971 - t).toNat * 2 ^ 52 := by
      rw [Nat.mul_assoc, ← Nat.pow_add]
    _ ≤ maxMantissa * 2 ^ (971 - t).toNat * m' :=
      Nat.mul_le_mul_left _ hDivisor

------------------------------------------------------------
-- Numbers From Decimals
------------------------------------------------------------

theorem two_pow_exponentBits :
    (2 : Int) ^ Format.binary64.exponentBits = 2048 := by
  decide

/- The digits of a whole amount are filled up before it is scaled. -/
theorem ofScientific_eq
    {m k : Nat}
    (hSome : m ≠ 0)
    (hSmall : k ≤ 2048) :
    ∃ (q : Nat) (hq : 0 < q) (hPower : 0 < 10 ^ k),
      q = m * 2 ^ 53 ∧
      UnpackedFloat.ofScientific Format.binary64 m k =
        UnpackedFloat.mul Format.binary64
          (.finite .positive q (-53) hq)
          (.finite .positive (10 ^ k) 0 hPower) := by
  unfold UnpackedFloat.ofScientific
  rw [two_pow_exponentBits, dif_neg hSome, if_neg (by omega),
    if_neg (by omega), if_pos (by omega)]
  exact
    ⟨m <<< Format.binary64.mantissaBits, _, _,
      Nat.shiftLeft_eq m 53, rfl⟩

/- A bound of the scaled amount bounds the number that is next to it. -/
theorem within_ofScientific
    {m k b c : Nat}
    (hFits : b < 2 ^ 53)
    (hSmall : k ≤ 2048)
    (hBound : m * 10 ^ k ≤ b * 2 ^ c) :
    Within b c
      (UnpackedFloat.ofScientific Format.binary64 m k) := by
  by_cases hZero : m = 0
  · subst hZero
    trivial
  · rcases ofScientific_eq hZero hSmall with
      ⟨q, hq, hPower, hDigits, hProduct⟩
    rw [hProduct]
    apply within_round hFits (by omega)
    refine ⟨by omega, atMost_exact ?_⟩
    have hSplit : ((c : Int) - (-53 + 0)).toNat = c + 53 := by
      omega
    calc
      q * 10 ^ k = m * 10 ^ k * 2 ^ 53 := by
        rw [hDigits, Nat.mul_right_comm]
      _ ≤ b * 2 ^ c * 2 ^ 53 :=
        Nat.mul_le_mul_right _ hBound
      _ = b * 2 ^ ((c : Int) - (-53 + 0)).toNat := by
        rw [hSplit, Nat.mul_assoc, ← Nat.pow_add]

/- A power of ten is at least one, or infinite. -/
theorem atLeastOne_ofScientific (k : Nat) :
    AtLeastOne
      (UnpackedFloat.ofScientific Format.binary64 1 k) := by
  by_cases hSmall : k ≤ 2048
  · rcases ofScientific_eq Nat.one_ne_zero hSmall with
      ⟨q, hq, hPower, hDigits, hProduct⟩
    have hLog : 53 ≤ (q * 10 ^ k).log2 := by
      rw [Nat.le_log2 (Nat.mul_pos hq hPower).ne', hDigits,
        Nat.one_mul]
      exact Nat.le_mul_of_pos_right _ hPower
    rw [hProduct]
    apply atLeastOne_round
    · omega
    · omega
  · unfold UnpackedFloat.ofScientific
    rw [two_pow_exponentBits, dif_neg Nat.one_ne_zero,
      if_pos (by omega)]
    trivial

end Binary

end Rowstore
