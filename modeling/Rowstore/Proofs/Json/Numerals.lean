import Rowstore.Json.Number
import Rowstore.Json.Reader
import Rowstore.Json.Writer
import Rowstore.Proofs.Decimal.Digits

/-
  Numbers in documents are read as they are written.

  Main declarations:
    * `Json.Numeral.Proper`
    * `Json.EndsNumeral`
    * `Json.readNumeral_text`
    * `Json.Numeral.proper_ofDecimal`
-/

------------------------------------------------------------
-- Reading
------------------------------------------------------------

namespace Rowstore

namespace Json

/- The text does not go on as a number could. -/
def EndsNumeral (s : List Char) : Prop :=
  ∀ c ∈ s.head?,
    Decimal.isDigit c = false ∧ c ≠ '.' ∧ c ≠ 'e' ∧ c ≠ 'E'

/-
  The written form is one of a number: there are digits, no
  zero is in front of others, and an exponent has digits.
-/
structure Numeral.Proper (n : Numeral) : Prop where
  whole_ne_nil : n.whole ≠ []
  whole_digits : ∀ c ∈ n.whole, Decimal.isDigit c = true
  whole_start : n.whole = ['0'] ∨ n.whole.head? ≠ some '0'
  fraction_digits :
    ∀ c ∈ n.fraction, Decimal.isDigit c = true
  exponent_digits :
    ∀ e ∈ n.exponent,
      e.2 ≠ [] ∧ ∀ c ∈ e.2, Decimal.isDigit c = true

variable {rest : List Char}

theorem readWhole_append
    {digits : List Char}
    (hSome : digits ≠ [])
    (hDigits : ∀ c ∈ digits, Decimal.isDigit c = true)
    (hStart : digits = ['0'] ∨ digits.head? ≠ some '0')
    (hRest : ∀ c ∈ rest.head?, Decimal.isDigit c = false) :
    readWhole (digits ++ rest) = some (digits, rest) := by
  unfold readWhole
  rw [Decimal.splitDigits_append hDigits hRest]
  rcases hStart with rfl | hStart
  · rfl
  · cases digits with
    | nil => exact absurd rfl hSome
    | cons c digits =>
        have hOther : c ≠ '0' := by simpa using hStart
        split
        · rename_i hSplit
          cases hSplit
        · rename_i hSplit
          cases hSplit
          exact absurd rfl hOther
        · rename_i hSplit
          cases hSplit
          exact absurd rfl hOther
        · rename_i hSplit
          cases hSplit
          rfl

/- The text of the digits after the point. -/
def fractionText (digits : List Char) : List Char :=
  if digits.isEmpty then [] else '.' :: digits

theorem readFraction_append
    {digits : List Char}
    (hDigits : ∀ c ∈ digits, Decimal.isDigit c = true)
    (hRest :
      ∀ c ∈ rest.head?, Decimal.isDigit c = false ∧ c ≠ '.') :
    readFraction (fractionText digits ++ rest) =
      some (digits, rest) := by
  cases digits with
  | nil =>
      cases rest with
      | nil => rfl
      | cons c rest =>
          have hPoint : c ≠ '.' := (hRest c rfl).2
          simp [fractionText, readFraction, hPoint]
  | cons c digits =>
      have hSplit :=
        Decimal.splitDigits_append hDigits
          fun d hHead => (hRest d hHead).1
      simp [fractionText, readFraction] at hSplit ⊢
      simp [hSplit]

/- The text of an exponent. -/
def exponentText :
    Option (Bool × List Char) → List Char
| none => []
| some (negative, digits) =>
  'e' :: (if negative then '-' else '+') :: digits

theorem readExponent_append
    {exponent : Option (Bool × List Char)}
    (hDigits :
      ∀ e ∈ exponent,
        e.2 ≠ [] ∧ ∀ c ∈ e.2, Decimal.isDigit c = true)
    (hRest : EndsNumeral rest) :
    readExponent (exponentText exponent ++ rest) =
      some (exponent, rest) := by
  rcases exponent with _ | ⟨negative, digits⟩
  · cases rest with
    | nil => rfl
    | cons c rest =>
        rcases hRest c rfl with ⟨_, _, hSmall, hCapital⟩
        simp [exponentText, readExponent, hSmall, hCapital]
  · rcases hDigits _ rfl with ⟨hSome, hDigits⟩
    have hSplit :=
      Decimal.splitDigits_append hDigits
        fun c hHead => (hRest c hHead).1
    cases negative with
    | true =>
        simp [exponentText, readExponent, Decimal.splitSign,
          readExponentDigits, hSplit, hSome]
    | false =>
        simp [exponentText, readExponent, Decimal.splitSign,
          readExponentDigits, hSplit, hSome]

theorem Numeral.text_eq (n : Numeral) :
    n.text =
      (if n.negative then ['-'] else []) ++
        (n.whole ++
          (fractionText n.fraction ++
            exponentText n.exponent)) := by
  unfold Numeral.text fractionText
  simp only [List.append_assoc]
  rcases n.exponent with _ | ⟨negative, digits⟩
  · rfl
  · rfl

/- After the digits of a fraction there is no digit and no point. -/
theorem head?_exponentText
    (exponent : Option (Bool × List Char))
    (hRest : EndsNumeral rest) :
    ∀ c ∈ (exponentText exponent ++ rest).head?,
      Decimal.isDigit c = false ∧ c ≠ '.' := by
  intro c hHead
  rcases exponent with _ | ⟨negative, digits⟩
  · rcases hRest c hHead with ⟨hDigit, hPoint, _⟩
    exact ⟨hDigit, hPoint⟩
  · cases hHead
    decide

/- After the digits before the point there is no digit. -/
theorem head?_fractionText
    (fraction : List Char)
    (exponent : Option (Bool × List Char))
    (hRest : EndsNumeral rest) :
    ∀ c ∈ (fractionText fraction ++
        (exponentText exponent ++ rest)).head?,
      Decimal.isDigit c = false := by
  intro c hHead
  cases fraction with
  | nil => exact (head?_exponentText exponent hRest c hHead).1
  | cons d fraction =>
      cases hHead
      decide

theorem readUnsigned_append
    {n : Numeral}
    (hProper : n.Proper)
    (hRest : EndsNumeral rest) :
    readUnsigned n.negative
        (n.whole ++
          (fractionText n.fraction ++
            (exponentText n.exponent ++ rest))) =
      some (n, rest) := by
  have hWhole :=
    readWhole_append hProper.whole_ne_nil
      hProper.whole_digits hProper.whole_start
      (head?_fractionText n.fraction n.exponent hRest)
  have hFraction :=
    readFraction_append hProper.fraction_digits
      (head?_exponentText n.exponent hRest)
  have hExponent :=
    readExponent_append hProper.exponent_digits hRest
  simp only [readUnsigned, hWhole, hFraction, hExponent,
    Option.bind_eq_bind, Option.bind_some]
  rfl

/- A number is read as it is written, up to where it ends. -/
theorem readNumeral_text
    {n : Numeral}
    (hProper : n.Proper)
    (hRest : EndsNumeral rest) :
    readNumeral (n.text ++ rest) = some (n, rest) := by
  have hUnsigned := readUnsigned_append hProper hRest
  rw [n.text_eq]
  simp only [List.append_assoc]
  cases hNegative : n.negative with
  | true =>
      rw [hNegative] at hUnsigned
      exact hUnsigned
  | false =>
      rw [hNegative] at hUnsigned
      have hDigits := hProper.whole_digits
      cases hWhole : n.whole with
      | nil => exact absurd hWhole hProper.whole_ne_nil
      | cons c digits =>
          rw [hWhole] at hUnsigned hDigits
          have hSign : c ≠ '-' := by
            rintro rfl
            exact absurd (hDigits '-' List.mem_cons_self)
              (by decide)
          simpa [readNumeral, hSign] using hUnsigned

/- A written number begins with a sign or a digit. -/
theorem Numeral.text_eq_cons
    {n : Numeral}
    (hProper : n.Proper) :
    ∃ c s,
      n.text = c :: s ∧
        (c = '-' ∨ Decimal.isDigit c = true) := by
  rw [n.text_eq]
  cases n.negative with
  | true => exact ⟨'-', _, rfl, .inl rfl⟩
  | false =>
      have hDigits := hProper.whole_digits
      cases hWhole : n.whole with
      | nil => exact absurd hWhole hProper.whole_ne_nil
      | cons c digits =>
          rw [hWhole] at hDigits
          exact
            ⟨c, _, rfl, .inr (hDigits c List.mem_cons_self)⟩

end Json

end Rowstore

------------------------------------------------------------
-- Written Numbers
------------------------------------------------------------

namespace Rowstore

namespace Json

namespace Numeral

/- The digits of a number are those of a numeral. -/
theorem start_digitsText (n : Nat) :
    Decimal.digitsText n = ['0'] ∨
      (Decimal.digitsText n).head? ≠ some '0' := by
  rcases Nat.eq_zero_or_pos n with rfl | hPositive
  · exact .inl rfl
  · exact .inr (Decimal.head?_digitsText hPositive)

theorem proper_ofNat (n : Nat) :
    Proper
      { negative := false
        whole := Decimal.digitsText n
        fraction := []
        exponent := none } where
  whole_ne_nil := Decimal.digitsText_ne_nil n
  whole_digits := fun _ hMem =>
    Decimal.isDigit_of_mem_digitsText hMem
  whole_start := start_digitsText n
  fraction_digits := fun _ hMem => by cases hMem
  exponent_digits := fun _ hMem => by cases hMem

theorem isDigit_of_mem_replicate
    {k : Nat}
    {c : Char}
    (hMem : c ∈ List.replicate k '0') :
    Decimal.isDigit c = true := by
  rw [(List.mem_replicate.mp hMem).2]
  decide

/- The first digits of a numeral make up a numeral. -/
theorem start_take
    {s : List Char}
    (hStart : s = ['0'] ∨ s.head? ≠ some '0')
    {k : Nat}
    (hPositive : 0 < k) :
    s.take k = ['0'] ∨ (s.take k).head? ≠ some '0' := by
  rcases hStart with rfl | hStart
  · exact .inl (List.take_of_length_le hPositive)
  · rw [List.head?_take, if_neg hPositive.ne']
    exact .inr hStart

/- Zeros may follow digits, unless those are zero. -/
theorem start_append
    {d : Decimal}
    (hZero : d.digits = 0 → d.exponent = 0) :
    let whole :=
      Decimal.digitsText d.digits ++
        List.replicate d.exponent.toNat '0'
    whole = ['0'] ∨ whole.head? ≠ some '0' := by
  intro whole
  rcases Nat.eq_zero_or_pos d.digits with hNone | hPositive
  · refine .inl ?_
    simp only [whole, hNone, hZero hNone]
    rfl
  · refine .inr ?_
    rw [List.head?_append_of_ne_nil _
      (Decimal.digitsText_ne_nil d.digits)]
    exact Decimal.head?_digitsText hPositive

/- A decimal is written as a number if its only form with zero is zero itself. -/
theorem proper_ofDecimal
    {d : Decimal}
    (hZero : d.digits = 0 → d.exponent = 0) :
    (ofDecimal d).Proper := by
  have hDigits :
      ∀ {c}, c ∈ Decimal.digitsText d.digits →
        Decimal.isDigit c = true :=
    fun hMem => Decimal.isDigit_of_mem_digitsText hMem
  have hSome := Decimal.digitsText_ne_nil d.digits
  have hStart := start_digitsText d.digits
  have hWhole := start_append hZero
  have hSingle : ∀ c ∈ ['0'], Decimal.isDigit c = true :=
    List.forall_mem_singleton.mpr (by decide)
  unfold ofDecimal
  simp only
  split
  · exact
      { whole_ne_nil := by simp [hSome]
        whole_digits := by
          intro c hMem
          rcases List.mem_append.mp hMem with hMem | hMem
          · exact hDigits hMem
          · exact isDigit_of_mem_replicate hMem
        whole_start := hWhole
        fraction_digits := hSingle
        exponent_digits := fun _ hMem => by cases hMem }
  · generalize Decimal.digitsText d.digits = s at *
    split
    · rename_i hPoint
      have hPositive : 0 < (s.length + d.exponent).toNat := by
        omega
      exact
        { whole_ne_nil := by
            simp [hSome, hPositive.ne']
          whole_digits := fun _ hMem =>
            hDigits (List.mem_of_mem_take hMem)
          whole_start := start_take hStart hPositive
          fraction_digits := fun _ hMem =>
            hDigits (List.mem_of_mem_drop hMem)
          exponent_digits := fun _ hMem => by cases hMem }
    · split
      · exact
          { whole_ne_nil := List.cons_ne_nil _ _
            whole_digits := hSingle
            whole_start := .inl rfl
            fraction_digits := by
              intro c hMem
              rcases List.mem_append.mp hMem with hMem | hMem
              · exact isDigit_of_mem_replicate hMem
              · exact hDigits hMem
            exponent_digits := fun _ hMem => by cases hMem }
      · exact
          { whole_ne_nil := by simp [hSome]
            whole_digits := fun _ hMem =>
              hDigits (List.mem_of_mem_take hMem)
            whole_start := start_take hStart Nat.one_pos
            fraction_digits := fun _ hMem =>
              hDigits (List.mem_of_mem_drop hMem)
            exponent_digits := by
              intro e hMem
              cases hMem
              exact
                ⟨Decimal.digitsText_ne_nil _, fun _ hMem =>
                  Decimal.isDigit_of_mem_digitsText hMem⟩ }

end Numeral

end Json

end Rowstore
