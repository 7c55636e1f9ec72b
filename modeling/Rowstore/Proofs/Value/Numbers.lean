import Rowstore.Proofs.Json.Records
import Rowstore.Proofs.Json.Rereading
import Rowstore.Proofs.Table.Document

/-
  Which numbers are read as they were written.

  What is written for a number rounds to it.  Reading rounds
  the digits, the power of ten and their product one after
  the other, and a number survives exactly if these three
  roundings lead back to it.

  Main declarations:
    * `Value.reread?`
    * `Value.number_survives_iff`
-/

namespace Rowstore

namespace Value

open Json Decimal

/- Write a value as a text and read the text. -/
def reread? (v : Value) : Option Value :=
  (Json.read? v.toJson.compact).bind ofJson?

variable {x : Float}

theorem reread?_number
    (hFinite : x.isFinite = true) :
    reread? (.number x) = (written x).value?.map .number := by
  unfold reread?
  rw [read?_compact (proper_toJson _), Option.bind_some]
  change ofJson? (ofFloat x) = _
  unfold ofFloat
  rw [if_pos hFinite]
  rfl

/-
  A finite number is read again as a finite number of its
  sign.  The digits that are written for it round to it, and
  it is read as itself exactly if it is what the number next
  to the digits is scaled to by the number next to the power
  of ten.  It is so if these two are exact.
-/
theorem number_survives_iff
    (hFinite : x.isFinite = true) :
    (∃ y, reread? (.number x) = some (.number y) ∧
        y.isFinite = true ∧ isNegative y = isNegative x) ∧
      Nearest x
        ((written x).significand * 10 ^ (written x).scale) ∧
      (reread? (.number x) = some (.number x) ↔
        ∃ s, Nearest s (written x).significand ∧
          Scaled (amount s) (written x).scale x) ∧
      ((written x).significand ≤ 2 ^ 53 →
        (written x).scale.natAbs ≤ 22 →
          reread? (.number x) = some (.number x)) := by
  have hNearest := nearest_written hFinite
  have hFits := significand_written_le hFinite
  have hSurvives :
      reread? (.number x) = some (.number x) ↔
        ∃ s, Nearest s (written x).significand ∧
          Scaled (amount s) (written x).scale x := by
    have hRead := Numeral.value?_eq_some_iff (z := x) hFits
    rw [reread?_number hFinite, Option.map_eq_some_iff]
    constructor
    · rintro ⟨y, hValue, hSame⟩
      cases hSame
      exact (hRead.mp hValue).2
    · intro hScaled
      have hSign := (negative_written x).symm
      exact ⟨x, hRead.mpr ⟨hSign, hScaled⟩, rfl⟩
  refine ⟨?_, hNearest, hSurvives, ?_⟩
  · rcases exists_value?_written hFinite with
      ⟨y, hValue, hParts⟩
    refine ⟨y, ?_, hParts⟩
    rw [reread?_number hFinite, hValue, Option.map_some]
  · intro hSmall hScale
    rcases exists_nearest_of_le hSmall with
      ⟨s, hExact, hAmount⟩
    rw [← hAmount] at hNearest
    exact
      hSurvives.mpr ⟨s, hExact, scaled_of_nearest hScale hNearest⟩

/- A tenth is written as a single digit, and read again. -/
theorem tenth_survives :
    (0.1 : Float).isFinite = true ∧
      reread? (.number 0.1) = some (.number 0.1) := by
  have hFinite : (0.1 : Float).isFinite = true := by
    decide +kernel
  exact
    ⟨hFinite,
      (number_survives_iff hFinite).2.2.2 (by decide +kernel)
        (by decide +kernel)⟩

/- The largest odd number is written with seventeen digits, and read as the number before it. -/
theorem largest_odd_number_drifts :
    (9007199254740991 : Float).isFinite = true ∧
      reread? (.number 9007199254740991) =
        some (.number 9007199254740990) ∧
      (9007199254740990 : Float) ≠ 9007199254740991 := by
  decide +kernel

end Value

end Rowstore
