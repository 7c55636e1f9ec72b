import Rowstore.Proofs.Decimal.Finiteness
import Rowstore.Proofs.Decimal.Nearest

/-
  What a numeral is read as.

  Its digits make a whole amount, which is rounded, and so is
  the power of ten by which it is scaled; the product or the
  quotient of the two is rounded once more.  A power that is
  too large for one number is divided by in several steps.
  The relations below say this of amounts, with one nearest
  number for each rounding, and reading computes exactly what
  they allow.

  Main declarations:
    * `Json.Numeral.significand` and `Json.Numeral.scale`
    * `Json.Multiplied`, `Json.Divided` and `Json.Scaled`
    * `Json.Numeral.value?_eq_some_iff`
-/

------------------------------------------------------------
-- Digits
------------------------------------------------------------

namespace Rowstore

namespace Json

namespace Numeral

open Decimal

variable {n : Numeral} {s : List Char} {m : ℕ}

/- The digits before and after the point, as one whole number. -/
def significand (n : Numeral) : ℕ :=
  digitsValue (n.whole ++ n.fraction)

/- The power of ten that goes with the digits. -/
def scale (n : Numeral) : ℤ :=
  n.writtenExponent - n.fraction.length

/- Append digits to a whole number. -/
def append
    (m : ℕ)
    (s : List Char) : ℕ :=
  s.foldl (fun n c => 10 * n + digitValue c) m

theorem le_append
    (m : ℕ)
    (s : List Char) :
    m ≤ append m s := by
  induction s generalizing m with
  | nil => exact Nat.le_refl m
  | cons c s ih =>
      refine le_trans ?_ (ih (10 * m + digitValue c))
      omega

/- Digits that fit a word are all kept. -/
theorem accumulate_of_fits
    (hFits : append m s ≤ maxSignificand) :
    accumulate m s = (append m s, []) := by
  induction s generalizing m with
  | nil => rfl
  | cons c s ih =>
      have hNext :
          10 * m + digitValue c ≤ maxSignificand :=
        (le_append _ s).trans hFits
      unfold accumulate
      dsimp only
      rw [if_neg (by omega)]
      exact ih hFits

theorem significand_eq (n : Numeral) :
    n.significand = append (append 0 n.whole) n.fraction :=
  List.foldl_append

/- Scale a number by a power of ten, unless the result is too large. -/
def scaled?
    (x : Float)
    (k : ℤ) : Option Float :=
  if 0 ≤ k then multiplyByPower? x k.toNat
  else some (divideByPower x k.natAbs)

/- A numeral whose digits fit a word is read as what they are scaled to. -/
theorem value?_of_fits
    (hFits : n.significand ≤ maxSignificand) :
    n.value? =
      (scaled? (Float.ofScientific n.significand false 0)
        n.scale).map fun y => if n.negative then -y else y := by
  rw [significand_eq] at hFits
  have hWhole := accumulate_of_fits ((le_append _ _).trans hFits)
  have hAll := accumulate_of_fits hFits
  have hScale :
      ((([] : List Char).length : ℤ) -
          (n.fraction.length - ([] : List Char).length) +
            n.writtenExponent) =
        n.scale := by
    unfold scale
    rw [List.length_nil]
    omega
  unfold value?
  rw [hWhole]
  dsimp only
  rw [hAll]
  dsimp only
  rw [hScale, significand_eq]
  rfl

end Numeral

end Json

end Rowstore

------------------------------------------------------------
-- Scaled Amounts
------------------------------------------------------------

namespace Rowstore

namespace Json

open Decimal

/-
  The number is next to the amount times the number next to
  the power of ten; zero stays zero however large that is.
-/
def Multiplied
    (q : ℚ)
    (k : ℕ)
    (z : Float) : Prop :=
  q = 0 ∧ Nearest z 0 ∨
    ∃ p, Nearest p (10 ^ k) ∧ Nearest z (q * amount p)

/-
  The number is next to the amount over the number next to
  the power of ten, or is so after steps of the largest power.
-/
inductive Divided : ℚ → ℕ → Float → Prop
| last
    {q : ℚ}
    {k : ℕ}
    {p z : Float}
    (hSmall : k ≤ Numeral.maxPower)
    (hPower : Nearest p (10 ^ k))
    (hResult : Nearest z (q / amount p)) :
    Divided q k z
| more
    {q : ℚ}
    {k : ℕ}
    {p y z : Float}
    (hLarge : Numeral.maxPower < k)
    (hPower : Nearest p (10 ^ Numeral.maxPower))
    (hStep : Nearest y (q / amount p))
    (hRest : Divided (amount y) (k - Numeral.maxPower) z) :
    Divided q k z

/- The number is what the amount is rounded to when it is scaled. -/
def Scaled
    (q : ℚ)
    (k : ℤ)
    (z : Float) : Prop :=
  if 0 ≤ k then Multiplied q k.toNat z
  else Divided q k.natAbs z

/- The magnitude of a number is the one that is computed. -/
def Gives
    (y? : Option Float)
    (z : Float) : Prop :=
  ∃ y, y? = some y ∧ z.isFinite = true ∧
    Binary.ofFloat z = Binary.ofFloat y

namespace Numeral

open Binary

variable {x y z : Float} {k : ℕ}

theorem not_gives_none : ¬Gives none z := by
  rintro ⟨y, hNone, _⟩
  cases hNone

/- What is nearest to an amount gives all the numbers that are. -/
theorem gives_some_iff
    {q : ℚ}
    (hNearest : Nearest y q) :
    Gives (some y) z ↔ Nearest z q := by
  constructor
  · rintro ⟨y', hSame, hFinite, hNumber⟩
    cases hSame
    refine ⟨hFinite, ?_⟩
    rw [hNumber]
    exact hNearest.covers
  · intro hResult
    exact
      ⟨y, rfl, hResult.isFinite, hResult.ofFloat_eq hNearest⟩

------------------------------------------------------------
-- Powers Of Ten
------------------------------------------------------------

theorem rounded_powerOfTen
    (hSmall : k ≤ maxPower) :
    Rounded .positive (10 ^ k) (powerOfTen k) := by
  have hRounded :=
    rounded_ofScientific 1 (hSmall.trans (by decide : 308 ≤ 2048))
  rw [Nat.cast_one, one_mul] at hRounded
  exact hRounded

theorem nearest_powerOfTen
    (hSmall : k ≤ maxPower) :
    Nearest (powerOfTen k) (10 ^ k) :=
  (rounded_powerOfTen hSmall).nearest (isFinite_powerOfTen hSmall)

theorem signOf_powerOfTen
    (hSmall : k ≤ maxPower) :
    signOf (powerOfTen k) = .positive :=
  (rounded_powerOfTen hSmall).signOf_eq
    (isFinite_powerOfTen hSmall)

theorem amount_powerOfTen_ne_zero
    (hSmall : k ≤ maxPower) :
    amount (powerOfTen k) ≠ 0 := by
  intro hZero
  have hOne := atLeastOne_powerOfTen k
  rw [unpack_eq (isFinite_powerOfTen hSmall)] at hOne
  unfold unpacked at hOne
  rw [dif_pos (amount_eq_zero_iff.mp hZero)] at hOne
  exact hOne

------------------------------------------------------------
-- Multiplication
------------------------------------------------------------

theorem rounded_mul_powerOfTen
    (hFinite : x.isFinite = true)
    (hSign : signOf x = .positive)
    (hSmall : k ≤ maxPower) :
    Rounded .positive (amount x * amount (powerOfTen k))
      (x * powerOfTen k) := by
  have hProduct :=
    rounded_mul hFinite (isFinite_powerOfTen hSmall)
  rw [hSign, signOf_powerOfTen hSmall] at hProduct
  exact hProduct

theorem multiplied_iff
    (hSmall : k ≤ maxPower)
    (q : ℚ) :
    Multiplied q k z ↔
      Nearest z (q * amount (powerOfTen k)) := by
  constructor
  · rintro (⟨rfl, hZero⟩ | ⟨p, hPower, hResult⟩)
    · rw [zero_mul]
      exact hZero
    · rw [← hPower.amount_eq (nearest_powerOfTen hSmall)]
      exact hResult
  · intro hResult
    exact .inr ⟨_, nearest_powerOfTen hSmall, hResult⟩

/- Beyond the powers of the format, only zero can be multiplied. -/
theorem multiplied_iff_of_large
    (hLarge : maxPower < k)
    (q : ℚ) :
    Multiplied q k z ↔ q = 0 ∧ Nearest z 0 := by
  unfold Multiplied
  apply or_iff_left
  rintro ⟨p, hPower, _⟩
  have hLess := lt_of_nearest_ten_pow hPower
  unfold maxPower at hLarge
  omega

/- Multiplying gives the numbers that the relation allows. -/
theorem gives_multiplyByPower?
    (hFinite : x.isFinite = true)
    (hSign : signOf x = .positive) :
    Gives (multiplyByPower? x k) z ↔
      Multiplied (amount x) k z := by
  unfold multiplyByPower?
  split
  · rename_i hSmall
    have hRounded := rounded_mul_powerOfTen hFinite hSign hSmall
    rw [multiplied_iff hSmall]
    dsimp only
    split
    · rename_i hInf
      rw [hRounded.nearest_iff]
      refine iff_of_false not_gives_none fun hResult => ?_
      exact not_isFinite_of_isInf hInf hResult.1
    · rename_i hNotInf
      exact
        gives_some_iff
          (hRounded.nearest
            (isFinite_mul_of_not_isInf hFinite
              (isFinite_powerOfTen hSmall) hNotInf))
  · rename_i hLarge
    rw [multiplied_iff_of_large (not_le.mp hLarge)]
    split
    · rename_i hZero
      have hAmount := (beq_zero_iff hFinite).mp hZero
      have hNearest := nearest_amount hFinite
      rw [hAmount] at hNearest
      rw [and_iff_right hAmount]
      exact gives_some_iff hNearest
    · rename_i hSome
      refine iff_of_false not_gives_none fun hResult => hSome ?_
      exact (beq_zero_iff hFinite).mpr hResult.1

theorem signOf_multiplyByPower?
    (hFinite : x.isFinite = true)
    (hSign : signOf x = .positive)
    (hProduct : multiplyByPower? x k = some y) :
    signOf y = .positive := by
  have hResult := isFinite_of_multiplyByPower? hFinite hProduct
  unfold multiplyByPower? at hProduct
  split at hProduct
  · rename_i hSmall
    dsimp only at hProduct
    split at hProduct
    · cases hProduct
    · cases hProduct
      exact
        (rounded_mul_powerOfTen hFinite hSign hSmall).signOf_eq
          hResult
  · split at hProduct
    · cases hProduct
      exact hSign
    · cases hProduct

------------------------------------------------------------
-- Division
------------------------------------------------------------

theorem rounded_div_powerOfTen
    (hFinite : x.isFinite = true)
    (hSign : signOf x = .positive)
    (hSmall : k ≤ maxPower) :
    Rounded .positive (amount x / amount (powerOfTen k))
      (x / powerOfTen k) := by
  have hQuotient :=
    rounded_div hFinite (isFinite_powerOfTen hSmall)
      (amount_powerOfTen_ne_zero hSmall)
  rw [hSign, signOf_powerOfTen hSmall] at hQuotient
  exact hQuotient

theorem nearest_div_powerOfTen
    (hFinite : x.isFinite = true)
    (hSign : signOf x = .positive)
    (hSmall : k ≤ maxPower) :
    Nearest (x / powerOfTen k)
      (amount x / amount (powerOfTen k)) :=
  (rounded_div_powerOfTen hFinite hSign hSmall).nearest
    (isFinite_div_powerOfTen hFinite k)

theorem signOf_div_powerOfTen
    (hFinite : x.isFinite = true)
    (hSign : signOf x = .positive)
    (hSmall : k ≤ maxPower) :
    signOf (x / powerOfTen k) = .positive :=
  (rounded_div_powerOfTen hFinite hSign hSmall).signOf_eq
    (isFinite_div_powerOfTen hFinite k)

/- Zero is divided into zero, in however many steps. -/
theorem nearest_zero_of_divided
    {q : ℚ}
    (hZero : q = 0)
    (hDivided : Divided q k z) :
    Nearest z 0 := by
  induction hDivided with
  | last hSmall hPower hResult =>
      rw [hZero, zero_div] at hResult
      exact hResult
  | more hLarge hPower hStep hRest ih =>
      rw [hZero, zero_div] at hStep
      exact ih hStep.amount_eq_zero

theorem divided_zero
    (hZero : Nearest z 0)
    (k : ℕ) :
    Divided 0 k z := by
  induction k using Nat.strong_induction_on with
  | _ k ih =>
      rcases Nat.lt_or_ge maxPower k with hLarge | hSmall
      · apply Divided.more hLarge
          (nearest_powerOfTen (Nat.le_refl maxPower)) (y := z)
        · rw [zero_div]
          exact hZero
        · rw [hZero.amount_eq_zero]
          apply ih
          unfold maxPower at *
          omega
      · apply Divided.last hSmall (nearest_powerOfTen hSmall)
        rw [zero_div]
        exact hZero

theorem divided_iff
    (hSmall : k ≤ maxPower)
    (q : ℚ) :
    Divided q k z ↔ Nearest z (q / amount (powerOfTen k)) := by
  constructor
  · intro hDivided
    cases hDivided with
    | last _ hPower hResult =>
        rw [← hPower.amount_eq (nearest_powerOfTen hSmall)]
        exact hResult
    | more hLarge => exact absurd hSmall (by omega)
  · exact Divided.last hSmall (nearest_powerOfTen hSmall)

theorem divided_zero_iff : Divided 0 k z ↔ Nearest z 0 :=
  ⟨nearest_zero_of_divided rfl, fun hZero => divided_zero hZero k⟩

/- One step of a long division leaves the rest of it. -/
theorem divided_iff_of_step
    {q : ℚ}
    (hLarge : maxPower < k)
    (hStep : Nearest y (q / amount (powerOfTen maxPower))) :
    Divided q k z ↔ Divided (amount y) (k - maxPower) z := by
  have hPower := nearest_powerOfTen (Nat.le_refl maxPower)
  constructor
  · intro hDivided
    cases hDivided with
    | last hSmall => exact absurd hSmall (by omega)
    | more _ hPower' hStep' hRest =>
        rw [hPower'.amount_eq hPower] at hStep'
        rw [← hStep'.amount_eq hStep]
        exact hRest
  · exact Divided.more hLarge hPower hStep

/- Dividing gives the numbers that the relation allows. -/
theorem gives_divideByPower
    (hFinite : x.isFinite = true)
    (hSign : signOf x = .positive) :
    Gives (some (divideByPower x k)) z ↔
      Divided (amount x) k z := by
  fun_induction divideByPower x k with
  | case1 x k hSmall =>
      rw [divided_iff hSmall]
      exact
        gives_some_iff (nearest_div_powerOfTen hFinite hSign hSmall)
  | case2 x k hLarge hZero =>
      have hNearest := nearest_amount hFinite
      rw [(beq_zero_iff hFinite).mp hZero] at hNearest ⊢
      rw [divided_zero_iff]
      exact gives_some_iff hNearest
  | case3 x k hLarge hSome ih =>
      have hStep :=
        nearest_div_powerOfTen hFinite hSign (Nat.le_refl maxPower)
      rw [divided_iff_of_step (not_le.mp hLarge) hStep]
      exact
        ih (isFinite_div_powerOfTen hFinite maxPower)
          (signOf_div_powerOfTen hFinite hSign (Nat.le_refl _))

theorem signOf_divideByPower
    (hFinite : x.isFinite = true)
    (hSign : signOf x = .positive) :
    signOf (divideByPower x k) = .positive := by
  fun_induction divideByPower x k with
  | case1 x k hSmall =>
      exact signOf_div_powerOfTen hFinite hSign hSmall
  | case2 x k hLarge hZero => exact hSign
  | case3 x k hLarge hSome ih =>
      exact
        ih (isFinite_div_powerOfTen hFinite maxPower)
          (signOf_div_powerOfTen hFinite hSign (Nat.le_refl _))

------------------------------------------------------------
-- Numerals
------------------------------------------------------------

variable {k' : ℤ}

theorem gives_scaled?
    (hFinite : x.isFinite = true)
    (hSign : signOf x = .positive) :
    Gives (scaled? x k') z ↔ Scaled (amount x) k' z := by
  unfold scaled? Scaled
  split
  · exact gives_multiplyByPower? hFinite hSign
  · exact gives_divideByPower hFinite hSign

/- What is scaled is finite and not negative. -/
theorem scaled?_parts
    (hFinite : x.isFinite = true)
    (hSign : signOf x = .positive)
    (hScaled : scaled? x k' = some y) :
    y.isFinite = true ∧ signOf y = .positive := by
  unfold scaled? at hScaled
  split at hScaled
  · exact
      ⟨isFinite_of_multiplyByPower? hFinite hScaled,
        signOf_multiplyByPower? hFinite hSign hScaled⟩
  · cases hScaled
    exact
      ⟨isFinite_divideByPower hFinite _,
        signOf_divideByPower hFinite hSign⟩

/- The sign that is written is put in front of a magnitude. -/
theorem signed_eq_iff
    (hFinite : y.isFinite = true)
    (hSign : signOf y = .positive)
    (negative : Bool) :
    (if negative then -y else y) = z ↔
      isNegative z = negative ∧ z.isFinite = true ∧
        Binary.ofFloat z = Binary.ofFloat y := by
  have hPositive := signOf_eq_positive_iff.mp hSign
  cases negative with
  | false =>
      constructor
      · rintro rfl
        exact ⟨hPositive, hFinite, rfl⟩
      · rintro ⟨hSame, _, hNumber⟩
        exact
          eq_of_ofFloat hNumber.symm (hPositive.trans hSame.symm)
  | true =>
      constructor
      · intro hNeg
        have hResult : z.isFinite = true := by
          rw [← hNeg]
          exact isFinite_neg hFinite
        rcases (neg_eq_iff hFinite hResult).mp hNeg with
          ⟨hNumber, hOther⟩
        rw [hSign] at hOther
        refine ⟨?_, hResult, hNumber⟩
        by_contra hSame
        rw [Bool.not_eq_true, ← signOf_eq_positive_iff,
          hOther] at hSame
        cases hSame
      · rintro ⟨hSame, hResult, hNumber⟩
        apply (neg_eq_iff hFinite hResult).mpr
        refine ⟨hNumber, ?_⟩
        rw [hSign]
        unfold signOf
        rw [hSame]
        rfl

theorem rounded_significand
    (m : ℕ) :
    Rounded .positive m (Float.ofScientific m false 0) := by
  have hRounded := rounded_ofScientific m (Nat.zero_le 2048)
  rw [pow_zero, mul_one] at hRounded
  exact hRounded

/-
  A numeral is read as the number with its sign that its
  digits are scaled to, starting from the number next to them.
-/
theorem value?_eq_some_iff
    {n : Numeral}
    (hFits : n.significand ≤ maxSignificand) :
    n.value? = some z ↔
      isNegative z = n.negative ∧
        ∃ s, Nearest s n.significand ∧
          Scaled (amount s) n.scale z := by
  have hRounded := rounded_significand n.significand
  have hFinite := isFinite_significand hFits
  have hSign := hRounded.signOf_eq hFinite
  have hNearest := hRounded.nearest hFinite
  have hScaled :
      (∃ s, Nearest s n.significand ∧
          Scaled (amount s) n.scale z) ↔
        Gives
          (scaled? (Float.ofScientific n.significand false 0)
            n.scale) z := by
    rw [gives_scaled? hFinite hSign]
    constructor
    · rintro ⟨s, hOther, hResult⟩
      rw [← hOther.amount_eq hNearest]
      exact hResult
    · intro hResult
      exact ⟨_, hNearest, hResult⟩
  rw [hScaled, value?_of_fits hFits, Option.map_eq_some_iff]
  unfold Gives
  constructor
  · rintro ⟨y, hResult, hSame⟩
    rcases scaled?_parts hFinite hSign hResult with
      ⟨hMagnitude, hPositive⟩
    rcases (signed_eq_iff hMagnitude hPositive _).mp hSame with
      ⟨hNegative, hNumber⟩
    exact ⟨hNegative, y, hResult, hNumber⟩
  · rintro ⟨hNegative, y, hResult, hNumber⟩
    rcases scaled?_parts hFinite hSign hResult with
      ⟨hMagnitude, hPositive⟩
    exact
      ⟨y, hResult,
        (signed_eq_iff hMagnitude hPositive _).mpr
          ⟨hNegative, hNumber⟩⟩

end Numeral

end Json

end Rowstore
