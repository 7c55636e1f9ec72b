import Mathlib.Data.List.Basic
import Rowstore.Identity
import Rowstore.Proofs.Json.Strings

/-
  Identifiers are read as they were written: in groups of
  hexadecimal digits with hyphens between them.

  Main declarations:
    * `Uuid.hexNumber?_hexText`
    * `Uuid.joined?_hyphenated`
    * `Uuid.parse?_text`
    * `Uuid.ofJson?_toJson`
-/

------------------------------------------------------------
-- Hexadecimal Digits
------------------------------------------------------------

namespace Rowstore

namespace Json

theorem hexValue?_hexDigit
    {n : Nat}
    (hDigit : n < 16) :
    hexValue? (hexDigit n) = some n := by
  have hAll : ∀ m < 16, hexValue? (hexDigit m) = some m := by
    decide
  exact hAll n hDigit

/- The last digit counts once, and those before it sixteen times. -/
theorem hexNumber?_concat
    {s : List Char}
    {n : Nat}
    (hNumber : hexNumber? s = some n)
    {m : Nat}
    (hDigit : m < 16) :
    hexNumber? (s ++ [hexDigit m]) = some (16 * n + m) := by
  unfold hexNumber? at hNumber ⊢
  rw [List.foldl_append, hNumber]
  simp [hexValue?_hexDigit hDigit]

end Json

namespace Uuid

open Json

theorem length_hexText (count n : Nat) :
    (hexText count n).length = count := by
  induction count generalizing n with
  | zero => rfl
  | succ k ih =>
      rw [hexText, List.length_append, ih]
      rfl

theorem hexNumber?_hexText
    {count n : Nat}
    (hFits : n < Nat.pow 16 count) :
    hexNumber? (hexText count n) = some n := by
  induction count generalizing n with
  | zero =>
      have hZero : n = 0 := Nat.lt_one_iff.mp hFits
      rw [hZero]
      rfl
  | succ k ih =>
      have hRest : n / 16 < Nat.pow 16 k :=
        Nat.div_lt_of_lt_mul (by rwa [Nat.mul_comm])
      rw [hexText, hexNumber?_concat (ih hRest)
        (Nat.mod_lt n (by decide)), Nat.div_add_mod]

/- Digits are none of the marks that a form may start with. -/
theorem ne_brace_of_mem_hexText
    {count n : Nat}
    {c : Char}
    (hMem : c ∈ hexText count n) :
    c ≠ '\x7b' := by
  have hAll : ∀ m < 16, hexDigit m ≠ '\x7b' := by decide
  induction count generalizing n with
  | zero => cases hMem
  | succ k ih =>
      rcases List.mem_append.mp hMem with hBefore | hLast
      · exact ih hBefore
      · rw [List.mem_singleton.mp hLast]
        exact hAll _ (Nat.mod_lt n (by decide))

------------------------------------------------------------
-- Groups
------------------------------------------------------------

/- The number of digits in groups of given lengths. -/
def groupTotal (ns : List Nat) : Nat :=
  ns.foldr (· + ·) 0

/- Hyphens that were put between groups are taken out again. -/
theorem joined?_hyphenated
    {ns : List Nat}
    {s : List Char}
    (hLength : s.length = groupTotal ns) :
    joined? ns (hyphenated ns s) = some s := by
  induction ns generalizing s with
  | nil =>
      have hNone : s = [] := List.eq_nil_of_length_eq_zero hLength
      subst hNone
      rfl
  | cons n ns ih =>
      cases ns with
      | nil =>
          have hWhole : s.length = n := hLength
          rw [hyphenated, List.take_of_length_le hWhole.le,
            joined?, if_pos hWhole]
      | cons m ms =>
          have hTotal :
              s.length = n + groupTotal (m :: ms) := hLength
          have hFirst : (s.take n).length = n := by
            rw [List.length_take]
            omega
          have hRest :
              (s.drop n).length = groupTotal (m :: ms) := by
            rw [List.length_drop]
            omega
          rw [hyphenated, joined?]
          · rw [List.drop_left' hFirst, List.take_left' hFirst]
            simp only [ih hRest, Option.map_some,
              List.take_append_drop]
          · simp
          · simp

------------------------------------------------------------
-- Identifiers
------------------------------------------------------------

theorem length_digits (u : Uuid) : u.digits.length = 32 :=
  length_hexText 32 u.bits.toNat

theorem ofDigits?_digits (u : Uuid) :
    ofDigits? u.digits = some u := by
  have hFits : u.bits.toNat < Nat.pow 16 32 := by
    have hWord := u.bits.isLt
    have hSame : Nat.pow 16 32 = 2 ^ 128 := by decide
    omega
  have hNumber : hexNumber? u.digits = some u.bits.toNat :=
    hexNumber?_hexText hFits
  unfold ofDigits?
  rw [if_pos u.length_digits, hNumber]
  simp

theorem ofGroups?_text (u : Uuid) :
    ofGroups? u.text = some u := by
  have hLength : u.digits.length = groupTotal groups :=
    u.length_digits
  unfold ofGroups? text
  rw [joined?_hyphenated hLength, Option.bind_some,
    u.ofDigits?_digits]

/- An identifier is written as a group, a hyphen and the other groups. -/
theorem text_eq (u : Uuid) :
    ∃ first rest,
      u.text = first ++ '-' :: rest ∧
        first.length = 8 ∧ rest.length = 27 ∧
        ∀ c ∈ first, c ≠ '\x7b' := by
  have hLength := u.length_digits
  have hMark : ∀ c ∈ u.digits, c ≠ '\x7b' := fun _ hMem =>
    ne_brace_of_mem_hexText hMem
  unfold text
  generalize u.digits = s at hLength hMark ⊢
  refine ⟨s.take 8, _, rfl, ?_, ?_, ?_⟩
  · rw [List.length_take, hLength]
    rfl
  · simp [hyphenated, hLength]
  · intro c hMem
    exact hMark c (List.mem_of_mem_take hMem)

theorem scheme_eq :
    scheme = ['u', 'r', 'n', ':', 'u', 'u', 'i', 'd', ':'] := rfl

/- The ninth character tells the scheme from a first group. -/
theorem sameLetters_scheme
    {first : List Char}
    (hFirst : first.length = 8)
    (rest : List Char) :
    Text.sameLetters
        ((first ++ '-' :: rest).take scheme.length) scheme =
      false := by
  have hTake :
      (first ++ '-' :: rest).take scheme.length =
        first ++ ['-'] := by
    have hNine : scheme.length = first.length + 1 := by
      rw [hFirst, scheme_eq]
      rfl
    rw [hNine, List.take_length_add_append]
    rfl
  rw [hTake, Bool.eq_false_iff, ne_eq, Text.sameLetters_iff]
  intro hSame
  have hLast := congrArg List.getLast? hSame
  simp [Text.lowerBasic, scheme_eq] at hLast

theorem parse?_text (u : Uuid) : parse? u.text = some u := by
  have hGroups := u.ofGroups?_text
  rcases u.text_eq with ⟨first, rest, hText, hFirst, hRest, hMark⟩
  rw [hText] at hGroups ⊢
  have hScheme := sameLetters_scheme hFirst rest
  have hLength : (first ++ '-' :: rest).length ≠ 32 := by
    rw [List.length_append, List.length_cons, hFirst, hRest]
    decide
  rcases first with _ | ⟨c, first⟩
  · cases hFirst
  have hBrace : c ≠ '\x7b' := hMark c List.mem_cons_self
  rw [List.cons_append] at hGroups hScheme hLength ⊢
  unfold parse?
  split
  · rename_i heq
    cases heq
    exact absurd rfl hBrace
  · -- With its hyphens the text is too long for digits alone.
    rw [hScheme, if_neg Bool.false_ne_true, if_neg hLength]
    exact hGroups

theorem ofJson?_toJson (u : Uuid) : ofJson? u.toJson = some u := by
  unfold ofJson? toJson
  rw [text?_ofText]
  simp only [Option.bind_eq_bind, Option.bind_some,
    String.toList_ofList]
  exact u.parse?_text

end Uuid

end Rowstore
