import Rowstore.Proofs.Decimal.Rounding

/-
  The number nearest to an amount.

  The fields of a word give a number of the format and a
  sign, and they give nothing else, so that two words with
  the same number and the same sign are equal.  What an
  operation returns is the number nearest to the exact
  result, or an infinity if no finite number is nearest.

  Main declarations:
    * `Binary.canonical_ofFloat`
    * `Binary.eq_of_ofFloat`
    * `Decimal.amount` and `Decimal.Nearest`
    * `Decimal.Rounded.nearest_iff`
    * `Decimal.rounded_mul`, `Decimal.rounded_div` and
      `Decimal.rounded_ofScientific`
-/

------------------------------------------------------------
-- Words
------------------------------------------------------------

namespace Rowstore

namespace Binary

open Float.Model Float.Model.UnpackedFloat

variable {x y : Float}

/- The number with a biased exponent and the digits behind the first one. -/
def ofFields (e f : ℕ) : Binary :=
  if e = 0 then ofParts f (-1074)
  else ofParts (2 ^ 52 + f) (e - 1075)

theorem canonical_ofFields
    {e f : ℕ}
    (hBelow : f < 2 ^ 52) :
    (ofFields e f).Canonical := by
  unfold ofFields
  split
  · exact
      canonical_ofParts (by omega) (Int.le_refl _)
        (fun hMore => absurd hMore (Int.lt_irrefl _))
  · exact canonical_ofParts (by omega) (by omega) (by omega)

theorem ofFloat_eq (x : Float) :
    ofFloat x =
      ofFields (x.toBits.toNat / 2 ^ 52 % 2048)
        (x.toBits.toNat % 2 ^ 52) := by
  have hLeast : leastNormal = 2 ^ 52 := rfl
  have hBelow : x.toBits.toNat % 2 ^ 52 < 2 ^ 52 :=
    Nat.mod_lt _ (Nat.two_pow_pos 52)
  unfold ofFloat ofFields ofParts
  rw [hLeast]
  dsimp only
  generalize x.toBits.toNat / 2 ^ 52 % 2048 = e
  generalize x.toBits.toNat % 2 ^ 52 = f at hBelow ⊢
  split
  · congr 1
    rw [eq_comm, decide_eq_false_iff_not]
    omega
  · congr 1
    rw [Bool.eq_iff_iff, Bool.and_eq_true, beq_iff_eq,
      decide_eq_true_iff, decide_eq_true_iff]
    omega

/- Every word holds a number of the format. -/
theorem canonical_ofFloat (x : Float) :
    (ofFloat x).Canonical := by
  rw [ofFloat_eq]
  exact canonical_ofFields (Nat.mod_lt _ (Nat.two_pow_pos 52))

theorem fields_eq_of_ofFields
    {e f e' f' : ℕ}
    (hBelow : f < 2 ^ 52)
    (hBelow' : f' < 2 ^ 52)
    (hSame : ofFields e f = ofFields e' f') :
    e = e' ∧ f = f' := by
  have hSignificand := congrArg Binary.significand hSame
  have hExponent := congrArg Binary.exponent hSame
  unfold ofFields ofParts at hSignificand hExponent
  split at hSignificand <;> split at hSignificand <;>
    simp only [*, if_true, if_false] at hExponent <;>
    dsimp only at hSignificand hExponent <;> omega

/- A word is given by its number and its sign. -/
theorem eq_of_ofFloat
    (hSame : ofFloat x = ofFloat y)
    (hSign : Decimal.isNegative x = Decimal.isNegative y) :
    x = y := by
  rw [ofFloat_eq, ofFloat_eq] at hSame
  rcases fields_eq_of_ofFields (Nat.mod_lt _ (Nat.two_pow_pos 52))
      (Nat.mod_lt _ (Nat.two_pow_pos 52)) hSame with
    ⟨hExponent, hDigits⟩
  unfold Decimal.isNegative at hSign
  have hSign' :
      2 ^ 63 ≤ x.toBits.toNat ↔ 2 ^ 63 ≤ y.toBits.toNat := by
    rw [← decide_eq_true_iff (p := 2 ^ 63 ≤ x.toBits.toNat),
      ← decide_eq_true_iff (p := 2 ^ 63 ≤ y.toBits.toNat)]
    exact Bool.eq_iff_iff.mp hSign
  have hWord := x.toBits.toNat_lt
  have hWord' := y.toBits.toNat_lt
  have hBits : x.toBits = y.toBits := by
    apply UInt64.toNat_inj.mp
    omega
  rcases x with ⟨⟨bits, hValid⟩⟩
  rcases y with ⟨⟨bits', hValid'⟩⟩
  obtain rfl : bits = bits' := hBits
  rfl

------------------------------------------------------------
-- Unpacked Forms
------------------------------------------------------------

theorem toNat_unpackMantissa
    (w : BitVec Format.binary64.numBits) :
    (unpackMantissa w).toNat = w.toNat % 2 ^ 52 := by
  unfold unpackMantissa
  rw [BitVec.toNat_cast, BitVec.extractLsb_toNat]
  rfl

theorem toNat_unpackExponent
    (w : BitVec Format.binary64.numBits) :
    (unpackExponent w).toNat = w.toNat / 2 ^ 52 % 2048 := by
  unfold unpackExponent
  rw [BitVec.toNat_cast, BitVec.extractLsb_toNat,
    Nat.shiftRight_eq_div_pow]
  rfl

theorem toNat_unpackSign
    (w : BitVec Format.binary64.numBits) :
    (unpackSign w).toNat = w.toNat / 2 ^ 63 % 2 := by
  unfold unpackSign
  rw [BitVec.toNat_cast, BitVec.extractLsb_toNat,
    Nat.shiftRight_eq_div_pow]
  rfl

/- The word of a number. -/
def word (x : Float) : BitVec Format.binary64.numBits :=
  x.toModel.toBits.toBitVec

theorem toNat_word (x : Float) :
    (word x).toNat = x.toBits.toNat :=
  rfl

/- The sign of a number; a zero has one too. -/
def signOf (x : Float) : Sign :=
  if Decimal.isNegative x then .negative else .positive

theorem ofBitVec_unpackSign (x : Float) :
    Sign.ofBitVec (unpackSign (word x)) = signOf x := by
  have hWord := x.toBits.toNat_lt
  have hBit := toNat_unpackSign (word x)
  rw [toNat_word] at hBit
  unfold Sign.ofBitVec signOf Decimal.isNegative
  by_cases hNegative : 2 ^ 63 ≤ x.toBits.toNat
  · have hOne : ¬unpackSign (word x) = 0#1 := by
      intro hZero
      rw [hZero, BitVec.toNat_zero] at hBit
      omega
    rw [if_neg hOne]
    exact (if_pos (decide_eq_true hNegative)).symm
  · have hZero : unpackSign (word x) = 0#1 := by
      apply BitVec.eq_of_toNat_eq
      rw [hBit, BitVec.toNat_zero]
      omega
    rw [if_pos hZero]
    exact
      (if_neg fun hTrue =>
        hNegative (of_decide_eq_true hTrue)).symm

/- A finite word is unpacked into the number that its fields give. -/
theorem unpack_word
    {w : BitVec Format.binary64.numBits}
    (hFinite :
      (UnpackedFloat.unpack Format.binary64 w).isFinite = true) :
    UnpackedFloat.unpack Format.binary64 w =
      (ofFields (unpackExponent w).toNat
        (unpackMantissa w).toNat).unpacked
          (Sign.ofBitVec (unpackSign w)) := by
  unfold UnpackedFloat.unpack at hFinite ⊢
  dsimp only at hFinite ⊢
  generalize unpackExponent w = b at hFinite ⊢
  by_cases hOnes : b = -1#11
  · rw [if_pos hOnes] at hFinite
    split at hFinite
    · cases hFinite
    · cases hFinite
  · rw [if_neg hOnes]
    by_cases hZero : b = 0#11
    · subst hZero
      rw [if_pos rfl]
      change _ =
        (ofParts (unpackMantissa w).toNat (-1074)).unpacked _
      by_cases hNone : unpackMantissa w = 0#52
      · rw [dif_pos hNone, hNone]
        rfl
      · rw [dif_neg hNone,
          unpacked_ofParts (toNat_pos_of_ne_zero hNone)]
        rfl
    · have hSome : b.toNat ≠ 0 := fun hSame =>
        hZero (BitVec.eq_of_toNat_eq hSame)
      rw [if_neg hZero]
      unfold ofFields
      rw [if_neg hSome,
        unpacked_ofParts (Nat.add_pos_left (Nat.two_pow_pos 52) _)]
      simp only [toNat_implicit]
      rfl

/- A finite number is unpacked into its sign and its magnitude. -/
theorem unpack_eq
    (hFinite : x.isFinite = true) :
    x.toModel.unpack = (ofFloat x).unpacked (signOf x) := by
  have hWord := unpack_word (w := word x) hFinite
  rw [toNat_unpackExponent, toNat_unpackMantissa, toNat_word,
    ofBitVec_unpackSign, ← ofFloat_eq] at hWord
  exact hWord

theorem Canonical.exponent_of_zero
    {b : Binary}
    (hCanonical : b.Canonical)
    (hZero : b.significand = 0) :
    b.exponent = -1074 := by
  have hLeast := hCanonical.le_exponent
  have hDigits := hCanonical.le_significand
  omega

/- The unpacked form tells the number and the sign. -/
theorem eq_of_unpacked
    {b c : Binary}
    {s s' : Sign}
    (hFirst : b.Canonical)
    (hSecond : c.Canonical)
    (hSame : b.unpacked s = c.unpacked s') :
    b = c ∧ s = s' := by
  unfold unpacked at hSame
  split at hSame
  · rename_i hZero
    split at hSame
    · rename_i hZero'
      cases hSame
      refine ⟨hFirst.eq_of_parts hSecond ?_ ?_, rfl⟩
      · rw [hZero, hZero']
      · rw [hFirst.exponent_of_zero hZero,
          hSecond.exponent_of_zero hZero']
    · cases hSame
  · split at hSame
    · cases hSame
    · injection hSame with hSign hSignificand hExponent
      exact
        ⟨hFirst.eq_of_parts hSecond hSignificand hExponent,
          hSign⟩

/- A number of the format is packed and unpacked without a change. -/
theorem unpack_pack_unpacked
    {b : Binary}
    (hCanonical : b.Canonical)
    (hMost : b.exponent ≤ 971)
    (s : Sign) :
    (Float.Model.pack (b.unpacked s)).unpack = b.unpacked s := by
  unfold unpacked
  split
  · cases s with
    | negative => rfl
    | positive => rfl
  · rename_i hSome
    have hPos := Nat.pos_of_ne_zero hSome
    by_cases hLog : b.significand.log2 = 52
    · exact
        unpack_pack_normal s hPos hLog hCanonical.le_exponent
          hMost
    · have hLess : b.significand < 2 ^ 52 := by
        have hBelow := hCanonical.significand_lt
        by_contra hDigits
        apply hLog
        rw [Nat.log2_eq_iff hSome]
        omega
      have hLeast : b.exponent = -1074 := by
        have hBound := hCanonical.le_exponent
        have hDigits := hCanonical.le_significand
        omega
      have hDigits :
          (BitVec.ofNat 52 b.significand).toNat =
            b.significand := by
        rw [BitVec.toNat_ofNat, Nat.mod_eq_of_lt hLess]
      have hBits : ¬BitVec.ofNat 52 b.significand = 0#52 := by
        intro hZero
        rw [hZero, BitVec.toNat_zero] at hDigits
        exact hSome hDigits.symm
      rw [unpack_pack_subnormal s hPos hLog hMost, dif_neg hBits]
      simp only [hDigits, hLeast]

------------------------------------------------------------
-- Packed Forms
------------------------------------------------------------

/- The number with a sign, packed into a word. -/
def toFloat
    (s : Sign)
    (b : Binary) : Float :=
  .ofModel (.pack (b.unpacked s))

variable {b : Binary} {s : Sign}

theorem unpack_toFloat
    (hCanonical : b.Canonical)
    (hMost : b.exponent ≤ 971) :
    (b.toFloat s).toModel.unpack = b.unpacked s :=
  unpack_pack_unpacked hCanonical hMost s

theorem isFinite_toFloat
    (hCanonical : b.Canonical)
    (hMost : b.exponent ≤ 971) :
    (b.toFloat s).isFinite = true := by
  change (b.toFloat s).toModel.unpack.isFinite = true
  rw [unpack_toFloat hCanonical hMost]
  unfold unpacked
  split
  · rfl
  · rfl

/- A number of the format is found again in its word, with its sign. -/
theorem parts_toFloat
    (hCanonical : b.Canonical)
    (hMost : b.exponent ≤ 971) :
    ofFloat (b.toFloat s) = b ∧ signOf (b.toFloat s) = s := by
  have hUnpacked :=
    unpack_eq (isFinite_toFloat (s := s) hCanonical hMost)
  rw [unpack_toFloat hCanonical hMost] at hUnpacked
  rcases eq_of_unpacked hCanonical (canonical_ofFloat _)
      hUnpacked with ⟨hSame, hSign⟩
  exact ⟨hSame.symm, hSign.symm⟩

/- Too large an exponent makes an infinity. -/
theorem isInf_toFloat
    (hCanonical : b.Canonical)
    (hMore : 971 < b.exponent) :
    (b.toFloat s).isInf = true := by
  have hDigits := hCanonical.le_significand (by omega)
  have hSome : b.significand ≠ 0 := by omega
  change (Float.Model.pack (b.unpacked s)).unpack.isInf = true
  unfold unpacked
  rw [dif_neg hSome,
    unpack_pack_overflow s (Nat.pos_of_ne_zero hSome) hMore]
  rfl

theorem not_isFinite_of_isInf
    (hInf : x.isInf = true) :
    ¬x.isFinite = true := by
  change x.toModel.unpack.isInf = true at hInf
  change ¬x.toModel.unpack.isFinite = true
  generalize x.toModel.unpack = u at hInf ⊢
  cases u with
  | infinity s => exact Bool.false_ne_true
  | notANumber => exact Bool.false_ne_true
  | zero s => cases hInf
  | finite s m e hm => cases hInf

theorem isFinite_toFloat_iff
    (hCanonical : b.Canonical) :
    (b.toFloat s).isFinite = true ↔ b.exponent ≤ 971 := by
  constructor
  · intro hFinite
    by_contra hMore
    exact
      not_isFinite_of_isInf
        (isInf_toFloat hCanonical (by omega)) hFinite
  · exact isFinite_toFloat hCanonical

theorem exponent_le_of_isFinite
    (hFinite : x.isFinite = true) :
    (ofFloat x).exponent ≤ 971 := by
  have hWithin := within_of_isFinite hFinite
  rw [unpack_eq hFinite] at hWithin
  unfold unpacked at hWithin
  split at hWithin
  · rename_i hZero
    rw [(canonical_ofFloat x).exponent_of_zero hZero]
    decide
  · exact hWithin.2.1

theorem signOf_eq_positive_iff :
    signOf x = .positive ↔ Decimal.isNegative x = false := by
  unfold signOf
  cases Decimal.isNegative x with
  | false => exact ⟨fun _ => rfl, fun _ => rfl⟩
  | true => exact ⟨nofun, nofun⟩

theorem isNegative_eq_of_signOf
    (hSign : signOf x = signOf y) :
    Decimal.isNegative x = Decimal.isNegative y := by
  unfold signOf at hSign
  revert hSign
  cases Decimal.isNegative x <;> cases Decimal.isNegative y <;>
    simp

theorem toFloat_ofFloat
    (hFinite : x.isFinite = true) :
    (ofFloat x).toFloat (signOf x) = x := by
  rcases parts_toFloat (s := signOf x) (canonical_ofFloat x)
      (exponent_le_of_isFinite hFinite) with
    ⟨hSame, hSign⟩
  exact eq_of_ofFloat hSame (isNegative_eq_of_signOf hSign)

/- The opposite number differs in the sign only. -/
theorem neg_toFloat
    (hCanonical : b.Canonical)
    (hMost : b.exponent ≤ 971) :
    -b.toFloat s = b.toFloat (-s) := by
  change Float.ofModel
    (.pack (b.toFloat s).toModel.unpack.neg) = _
  rw [unpack_toFloat hCanonical hMost]
  unfold toFloat unpacked
  split
  · rfl
  · rfl

end Binary

end Rowstore

------------------------------------------------------------
-- Nearest Numbers
------------------------------------------------------------

namespace Rowstore

namespace Decimal

open Binary Float.Model Float.Model.UnpackedFloat

variable {x y z : Float} {q : ℚ} {s : Sign}

/- The amount that a number stands for, without its sign. -/
def amount (x : Float) : ℚ :=
  (ofFloat x).amount

/- The number is finite, and an amount is rounded to it. -/
structure Nearest
    (x : Float)
    (q : ℚ) : Prop where
  isFinite : x.isFinite = true
  covers : (ofFloat x).Covers q

/- A finite number is the nearest one to its own amount. -/
theorem nearest_amount
    (hFinite : x.isFinite = true) :
    Nearest x (amount x) :=
  ⟨hFinite, covers_amount _⟩

/- Numbers that are nearest to one amount differ in the sign only. -/
theorem Nearest.ofFloat_eq
    (hFirst : Nearest x q)
    (hSecond : Nearest y q) :
    ofFloat x = ofFloat y :=
  eq_of_covers (canonical_ofFloat x) (canonical_ofFloat y)
    hFirst.covers hSecond.covers

theorem Nearest.amount_eq
    (hFirst : Nearest x q)
    (hSecond : Nearest y q) :
    amount x = amount y :=
  congrArg Binary.amount (hFirst.ofFloat_eq hSecond)

/- The result of an operation, which may have overflowed. -/
def Rounded
    (s : Sign)
    (q : ℚ)
    (y : Float) : Prop :=
  ∃ b : Binary, b.Canonical ∧ b.Covers q ∧ y = b.toFloat s

theorem rounded_of_roundsTo
    {u : UnpackedFloat}
    (hRounds : RoundsTo s q u) :
    Rounded s q (.ofModel (.pack u)) := by
  rcases hRounds with ⟨b, hCanonical, hCovers, rfl⟩
  exact ⟨b, hCanonical, hCovers, rfl⟩

theorem Rounded.signOf_eq
    (hRounded : Rounded s q y)
    (hFinite : y.isFinite = true) :
    signOf y = s := by
  rcases hRounded with ⟨b, hCanonical, _, rfl⟩
  rw [isFinite_toFloat_iff hCanonical] at hFinite
  exact (parts_toFloat hCanonical hFinite).2

/- What is returned is the nearest number, if there is one. -/
theorem Rounded.nearest_iff
    (hRounded : Rounded s q y) :
    Nearest z q ↔
      y.isFinite = true ∧ z.isFinite = true ∧
        ofFloat z = ofFloat y := by
  rcases hRounded with ⟨b, hCanonical, hCovers, rfl⟩
  rw [isFinite_toFloat_iff hCanonical]
  constructor
  · rintro ⟨hFinite, hNumber⟩
    have hSame : ofFloat z = b :=
      eq_of_covers (canonical_ofFloat z) hCanonical hNumber
        hCovers
    have hMost := exponent_le_of_isFinite hFinite
    rw [hSame] at hMost
    rw [(parts_toFloat hCanonical hMost).1]
    exact ⟨hMost, hFinite, hSame⟩
  · rintro ⟨hMost, hFinite, hSame⟩
    rw [(parts_toFloat hCanonical hMost).1] at hSame
    rw [← hSame] at hCovers
    exact ⟨hFinite, hCovers⟩

theorem Rounded.nearest
    (hRounded : Rounded s q y)
    (hFinite : y.isFinite = true) :
    Nearest y q :=
  hRounded.nearest_iff.mpr ⟨hFinite, hFinite, rfl⟩

/- An amount that is a number is not changed. -/
theorem Rounded.exact
    (hRounded : Rounded s (amount x) y)
    (hFinite : x.isFinite = true) :
    y.isFinite = true ∧ amount y = amount x := by
  rcases hRounded.nearest_iff.mp (nearest_amount hFinite) with
    ⟨hResult, _, hSame⟩
  exact ⟨hResult, congrArg Binary.amount hSame.symm⟩

------------------------------------------------------------
-- Operations
------------------------------------------------------------

theorem rounded_mul
    (hLeft : x.isFinite = true)
    (hRight : y.isFinite = true) :
    Rounded (signOf x * signOf y) (amount x * amount y)
      (x * y) := by
  change Rounded _ _
    (.ofModel (.pack
      (UnpackedFloat.mul Format.binary64 x.toModel.unpack
        y.toModel.unpack)))
  rw [unpack_eq hLeft, unpack_eq hRight]
  exact
    rounded_of_roundsTo
      (roundsTo_mul (canonical_ofFloat x) (canonical_ofFloat y)
        _ _)

theorem rounded_div
    (hLeft : x.isFinite = true)
    (hRight : y.isFinite = true)
    (hSome : amount y ≠ 0) :
    Rounded (signOf x / signOf y) (amount x / amount y)
      (x / y) := by
  have hDigits : (ofFloat y).significand ≠ 0 :=
    fun hZero => hSome (amount_eq_zero_iff.mpr hZero)
  change Rounded _ _
    (.ofModel (.pack
      (UnpackedFloat.div Format.binary64 x.toModel.unpack
        y.toModel.unpack)))
  rw [unpack_eq hLeft, unpack_eq hRight]
  exact rounded_of_roundsTo (roundsTo_div hDigits _ _)

/- The opposite of a finite number has its magnitude and the other sign. -/
theorem neg_eq_iff
    (hLeft : x.isFinite = true)
    (hRight : y.isFinite = true) :
    -x = y ↔ ofFloat y = ofFloat x ∧ signOf y = -signOf x := by
  have hMost := exponent_le_of_isFinite hLeft
  have hCanonical := canonical_ofFloat x
  have hNeg : -x = (ofFloat x).toFloat (-signOf x) := by
    conv_lhs => rw [← toFloat_ofFloat hLeft]
    exact neg_toFloat hCanonical hMost
  constructor
  · rintro rfl
    rw [hNeg]
    exact parts_toFloat hCanonical hMost
  · rintro ⟨hSame, hSign⟩
    rw [hNeg, ← hSame, ← hSign]
    exact toFloat_ofFloat hRight

------------------------------------------------------------
-- Exact Numbers
------------------------------------------------------------

/- A number with at most 53 digits before its last zeros is a number of the format. -/
theorem exists_amount_eq
    {m k : ℕ}
    (hBelow : m < 2 ^ 53)
    (hMost : k ≤ 971) :
    ∃ x : Float, x.isFinite = true ∧ amount x = m * 2 ^ k := by
  have hExists :
      ∃ b : Binary, b.Canonical ∧ b.exponent ≤ 971 ∧
        b.amount = m * 2 ^ k := by
    by_cases hZero : m = 0
    · refine
        ⟨ofParts 0 (-1074), canonical_zero,
          (by decide : (-1074 : ℤ) ≤ 971), ?_⟩
      rw [hZero, Nat.cast_zero, zero_mul]
      exact amount_zeroParts
    · have hLog : m.log2 < 53 := (Nat.log2_lt hZero).mpr hBelow
      have hDigits : (m * 2 ^ (52 - m.log2)).log2 = 52 := by
        rw [log2_mul_two_pow hZero]
        omega
      have hSome : m * 2 ^ (52 - m.log2) ≠ 0 :=
        Nat.mul_ne_zero hZero (Nat.two_pow_pos _).ne'
      rw [Nat.log2_eq_iff hSome] at hDigits
      refine
        ⟨ofParts (m * 2 ^ (52 - m.log2))
            (k - (52 - m.log2 : ℕ)),
          canonical_ofParts hDigits.2 (by omega)
            (fun _ => hDigits.1),
          (by omega : (k : ℤ) - (52 - m.log2 : ℕ) ≤ 971), ?_⟩
      change ((m * 2 ^ (52 - m.log2) : ℕ) : ℚ) *
        2 ^ ((k : ℤ) - (52 - m.log2 : ℕ)) = _
      rw [zpow_sub₀ (by norm_num), zpow_natCast, zpow_natCast]
      push_cast
      field_simp
  rcases hExists with ⟨b, hCanonical, hExponent, hAmount⟩
  refine
    ⟨b.toFloat .positive,
      isFinite_toFloat hCanonical hExponent, ?_⟩
  unfold amount
  rw [(parts_toFloat hCanonical hExponent).1, hAmount]

/- The powers of ten whose power of five has 53 digits are numbers. -/
theorem exists_amount_eq_ten_pow
    {k : ℕ}
    (hSmall : k ≤ 22) :
    ∃ x : Float, x.isFinite = true ∧ amount x = 10 ^ k := by
  have hFive : 5 ^ k < 2 ^ 53 :=
    lt_of_le_of_lt (Nat.pow_le_pow_right (by decide) hSmall)
      (by decide)
  rcases exists_amount_eq hFive (show k ≤ 971 by omega) with
    ⟨x, hFinite, hAmount⟩
  refine ⟨x, hFinite, ?_⟩
  rw [hAmount]
  push_cast
  rw [← mul_pow]
  norm_num

/- What rounds to a finite number is in range. -/
theorem Nearest.lt_ten_pow
    (hNearest : Nearest x q) :
    q < 10 ^ 309 := by
  have hMost := exponent_le_of_isFinite hNearest.isFinite
  have hBelow := (canonical_ofFloat x).significand_lt
  have hDigits : ((ofFloat x).significand : ℚ) ≤ 2 ^ 53 - 1 := by
    rw [le_sub_iff_add_le]
    exact_mod_cast hBelow
  have hQuarter : (ofFloat x).quarter ≤ 2 ^ (969 : ℤ) :=
    zpow_le_zpow_right₀ (by norm_num) (by omega)
  have hFar : (2 : ℚ) ^ 55 * 2 ^ (969 : ℤ) < 10 ^ 309 := by
    have hWhole : 2 ^ 55 * 2 ^ 969 < 10 ^ 309 := by
      decide +kernel
    exact_mod_cast hWhole
  calc
    q ≤ (ofFloat x).high := hNearest.covers.le_high
    _ ≤ 2 ^ 55 * 2 ^ (969 : ℤ) :=
      mul_le_mul (by linarith) hQuarter
        (ofFloat x).quarter_pos.le (by positivity)
    _ < 10 ^ 309 := hFar

theorem lt_of_nearest_ten_pow
    {k : ℕ}
    (hPower : Nearest x (10 ^ k)) :
    k < 309 :=
  (pow_lt_pow_iff_right₀ (by norm_num)).mp hPower.lt_ten_pow

------------------------------------------------------------
-- Conversions
------------------------------------------------------------

theorem rounded_toFloat (w : UInt64) :
    Rounded .positive w.toNat w.toFloat :=
  rounded_of_roundsTo (roundsTo_ofUInt64 w)

/- The powers of ten in the table are exact. -/
theorem powersOfTen_parts :
    ∀ k : Fin Float.exactlyRepresentablePowersOfTen.size,
      let x := Float.exactlyRepresentablePowersOfTen[k]
      x.isFinite = true ∧ isNegative x = false ∧
        (ofFloat x).significand *
            2 ^ (ofFloat x).exponent.toNat =
          10 ^ k.val * 2 ^ (-(ofFloat x).exponent).toNat := by
  decide +kernel

theorem amount_powersOfTen
    (k : Fin Float.exactlyRepresentablePowersOfTen.size) :
    amount Float.exactlyRepresentablePowersOfTen[k] =
      10 ^ k.val := by
  have hParts := (powersOfTen_parts k).2.2
  unfold amount Binary.amount
  generalize ofFloat Float.exactlyRepresentablePowersOfTen[k] =
    b at hParts ⊢
  have hScaled :
      (b.significand * 2 ^ b.exponent.toNat : ℚ) =
        10 ^ k.val * 2 ^ (-b.exponent).toNat := by
    exact_mod_cast hParts
  rw [← zpow_mul_toNat (by norm_num), ← mul_assoc] at hScaled
  exact mul_right_cancel₀ (by positivity) hScaled

/- A decimal amount is converted with one rounding. -/
theorem rounded_ofScientific
    (m : ℕ)
    {k : ℕ}
    (hSmall : k ≤ 2048) :
    Rounded .positive (m * 10 ^ k)
      (Float.ofScientific m false k) := by
  unfold Float.ofScientific
  split
  · rename_i hFast
    let entry : Fin Float.exactlyRepresentablePowersOfTen.size :=
      ⟨k, Nat.lt_succ_iff.mpr hFast.2⟩
    rcases powersOfTen_parts entry with ⟨hFinite, hSign, _⟩
    have hWord : m.toUInt64.toNat = m :=
      Nat.mod_eq_of_lt (hFast.1.trans (by decide))
    have hWhole := rounded_toFloat m.toUInt64
    rcases exists_amount_eq hFast.1 (Nat.zero_le 971) with
      ⟨x, hNumber, hAmount⟩
    rw [pow_zero, mul_one] at hAmount
    rw [hWord, ← hAmount] at hWhole
    rcases hWhole.exact hNumber with ⟨hConverted, hSame⟩
    have hProduct := rounded_mul hConverted hFinite
    rw [hWhole.signOf_eq hConverted,
      signOf_eq_positive_iff.mpr hSign, hSame, hAmount,
      amount_powersOfTen entry] at hProduct
    exact hProduct
  · exact rounded_of_roundsTo (roundsTo_ofScientific m hSmall)

theorem isFinite_zero : (0 : Float).isFinite = true := by
  decide +kernel

theorem ofFloat_zero : ofFloat 0 = ofParts 0 (-1074) := by
  decide +kernel

theorem unpack_zero :
    (0 : Float).toModel.unpack = .zero .positive := by
  have hSign : isNegative 0 = false := by
    decide +kernel
  rw [unpack_eq isFinite_zero, ofFloat_zero,
    signOf_eq_positive_iff.mpr hSign]
  rfl

theorem amount_zero : amount 0 = 0 := by
  unfold amount
  rw [ofFloat_zero]
  exact amount_zeroParts

theorem Nearest.amount_eq_zero
    (hNearest : Nearest x 0) :
    amount x = 0 := by
  have hZero := nearest_amount isFinite_zero
  rw [amount_zero] at hZero
  rw [hNearest.amount_eq hZero, amount_zero]

/- A finite number equals zero if its amount does, whatever its sign. -/
theorem beq_zero_iff
    (hFinite : x.isFinite = true) :
    (x == 0) = true ↔ amount x = 0 := by
  change x.toModel.unpack.beq (0 : Float).toModel.unpack =
    true ↔ _
  rw [unpack_zero, unpack_eq hFinite]
  unfold amount unpacked
  rw [amount_eq_zero_iff]
  split
  · rename_i hZero
    exact ⟨fun _ => hZero, fun _ => rfl⟩
  · rename_i hSome
    refine ⟨?_, fun hZero => absurd hZero hSome⟩
    cases signOf x with
    | negative => nofun
    | positive => nofun

end Decimal

end Rowstore
