import Rowstore.Proofs.Text.Lowering
import Rowstore.Statement.Token

/-
  Raising the basic letters of a text.

  A raised text has the bytes of the text itself, and the same
  small letters.  So what is known of a text in small letters
  holds of the text and of the raised one alike.

  Main declarations:
    * `Text.eq_toUpper_of_smallLetters`
    * `Text.toUpper_eq_iff`
    * `Text.lowerBasic_upperBasic`
    * `Text.byteSize_upperBasic`
-/

namespace Rowstore

namespace Text

------------------------------------------------------------
-- Characters
------------------------------------------------------------

/- The letters that raising changes. -/
def smallLetters : List Char :=
  "abcdefghijklmnopqrstuvwxyz".toList

theorem toUpper_eq_or_mem_smallLetters (c : Char) :
    c.toUpper = c ∨ c ∈ smallLetters := by
  have hBasic :
      ∀ n < 128,
        (Char.ofNat n).toUpper = Char.ofNat n ∨
          Char.ofNat n ∈ smallLetters := by
    decide +kernel
  by_cases hCode : c.toNat < 128
  · have hSame := hBasic c.toNat hCode
    rwa [Char.ofNat_toNat] at hSame
  · left
    unfold Char.toUpper
    rw [dif_neg]
    rintro ⟨_, hLast⟩
    rw [UInt32.le_iff_toNat_le] at hLast
    change c.toNat ≤ 122 at hLast
    omega

/- What is the same for each small letter and its capital is the same after raising. -/
theorem eq_toUpper_of_smallLetters
    {α : Type}
    {f : Char → α}
    (hLetters :
      (smallLetters.map fun c => f c.toUpper) =
        smallLetters.map f)
    (c : Char) :
    f c.toUpper = f c := by
  rcases toUpper_eq_or_mem_smallLetters c with hSame | hMem
  · rw [hSame]
  · exact List.map_inj_left.mp hLetters c hMem

theorem toLower_toUpper (c : Char) :
    c.toUpper.toLower = c.toLower :=
  eq_toUpper_of_smallLetters (by decide +kernel) c

theorem utf8Size_toUpper (c : Char) :
    c.toUpper.utf8Size = c.utf8Size :=
  eq_toUpper_of_smallLetters (by decide +kernel) c

/- Raising neither makes nor takes away a character that is no letter. -/
theorem toUpper_eq_iff
    {mark : Char}
    (hMark : mark.isAlpha = false)
    (c : Char) :
    c.toUpper = mark ↔ c = mark := by
  rw [← toLower_eq_iff hMark, toLower_toUpper,
    toLower_eq_iff hMark]

------------------------------------------------------------
-- Texts
------------------------------------------------------------

theorem upperBasic_cons
    (c : Char)
    (s : List Char) :
    upperBasic (c :: s) = c.toUpper :: upperBasic s := rfl

theorem upperBasic_append (s t : List Char) :
    upperBasic (s ++ t) = upperBasic s ++ upperBasic t :=
  List.map_append

theorem length_upperBasic (s : List Char) :
    (upperBasic s).length = s.length :=
  List.length_map _

/- A raised text has the small letters of the text itself. -/
theorem lowerBasic_upperBasic (s : List Char) :
    lowerBasic (upperBasic s) = lowerBasic s := by
  unfold lowerBasic upperBasic
  rw [List.map_map]
  exact List.map_congr_left fun c _ => toLower_toUpper c

theorem byteSize_upperBasic (s : List Char) :
    Lexeme.byteSize (upperBasic s) = Lexeme.byteSize s := by
  induction s with
  | nil => rfl
  | cons c s ih =>
      rw [upperBasic_cons, Lexeme.byteSize, Lexeme.byteSize,
        utf8Size_toUpper, ih]

end Text

end Rowstore
