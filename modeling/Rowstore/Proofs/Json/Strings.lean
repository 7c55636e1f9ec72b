import Mathlib.Data.List.Basic
import Rowstore.Json.Reader
import Rowstore.Proofs.Decimal.Digits

/-
  Escaped texts are read as they are written, up to the
  closing quote, and stand for the texts that were escaped.

  Main declarations:
    * `Json.IsBody`
    * `Json.isBody_escape`
    * `Json.unescape_escape`
    * `Json.text?_ofText`
-/

------------------------------------------------------------
-- Single Characters
------------------------------------------------------------

namespace Rowstore

namespace Json

/- The two last digits of a control character stand for it. -/
theorem hexNumber?_control
    {n : Nat}
    (hControl : n < 0x20) :
    hexNumber? ['0', '0', hexDigit (n / 16), hexDigit (n % 16)] =
      some n := by
  have hAll :
      ∀ m < 0x20,
        hexNumber?
            ['0', '0', hexDigit (m / 16), hexDigit (m % 16)] =
          some m := by
    decide
  exact hAll n hControl

/- The three forms in which a character can be written. -/
inductive Escaped (c : Char) : List Char → Prop where
| letter
    {e : Char}
    (hLetter : e ≠ 'u')
    (hStands : escapedChar? e = some c) :
    Escaped c ['\\', e]
| control
    (hControl : c.toNat < 0x20) :
    Escaped c
      ['\\', 'u', '0', '0', hexDigit (c.toNat / 16),
       hexDigit (c.toNat % 16)]
| plain
    (hQuote : c ≠ '"')
    (hBackslash : c ≠ '\\')
    (hVisible : ¬c.toNat < 0x20) :
    Escaped c [c]

theorem escaped_escapeChar (c : Char) :
    Escaped c (escapeChar c) := by
  unfold escapeChar
  split
  · subst c
    exact .letter (by decide) rfl
  rename_i hQuote
  split
  · subst c
    exact .letter (by decide) rfl
  rename_i hBackslash
  split
  · subst c
    exact .letter (by decide) rfl
  split
  · subst c
    exact .letter (by decide) rfl
  split
  · subst c
    exact .letter (by decide) rfl
  split
  · subst c
    exact .letter (by decide) rfl
  split
  · subst c
    exact .letter (by decide) rfl
  split
  · rename_i hControl
    exact .control hControl
  · rename_i hVisible
    exact .plain hQuote hBackslash hVisible

variable {c : Char} {form : List Char}

/- A character is read in any of its forms. -/
theorem readString_append
    (hForm : Escaped c form)
    (s : List Char) :
    readString (form ++ s) =
      (readString s).map fun (body, rest) =>
        (form ++ body, rest) := by
  cases hForm with
  | @letter e hLetter hStands =>
      change readString ('\\' :: e :: s) = _
      rw [readString.eq_4 e s
        (fun _ _ _ _ _ hMark _ => hLetter hMark), hStands]
      cases readString s with
      | none => rfl
      | some found => rfl
  | control hControl =>
      simp only [List.cons_append, List.nil_append]
      rw [readString.eq_3, hexNumber?_control hControl]
      cases readString s with
      | none => rfl
      | some found => rfl
  | plain hQuote hBackslash hVisible =>
      change readString (c :: s) = _
      rw [readString.eq_5 c s hQuote
        (fun _ _ _ _ _ hMark _ => hBackslash hMark)
        (fun _ _ hMark _ => hBackslash hMark)]
      simp only [hBackslash, hVisible, decide_false,
        Bool.or_false, Bool.false_eq_true, if_false]
      cases readString s with
      | none => rfl
      | some found => rfl

/- Each form of a character stands for it. -/
theorem unescape_append
    (hForm : Escaped c form)
    (s : List Char) :
    unescape (form ++ s) = (unescape s).map (c :: ·) := by
  cases hForm with
  | @letter e hLetter hStands =>
      change unescape ('\\' :: e :: s) = _
      rw [unescape.eq_3 e s
        (fun _ _ _ _ _ hMark _ => hLetter hMark), hStands]
      rfl
  | control hControl =>
      have hTrail : isTrailUnit c.toNat = false := by
        simp [isTrailUnit]
        omega
      have hLead : isLeadUnit c.toNat = false := by
        simp [isLeadUnit]
        omega
      simp only [List.cons_append, List.nil_append]
      rw [unescape.eq_2, hexNumber?_control hControl]
      simp only [Option.bind_eq_bind, Option.bind_some,
        hTrail, hLead, Bool.false_eq_true, if_false,
        Char.ofNat_toNat]
  | plain hQuote hBackslash hVisible =>
      change unescape (c :: s) = _
      rw [unescape.eq_4 c s
        (fun _ _ _ _ _ hMark _ => hBackslash hMark)
        (fun _ _ hMark _ => hBackslash hMark)]

end Json

end Rowstore

------------------------------------------------------------
-- Texts
------------------------------------------------------------

namespace Rowstore

namespace Json

variable {c : Char}

/- What stands between quotes is read up to the closing one. -/
def IsBody (body : List Char) : Prop :=
  ∀ rest, readString (body ++ '"' :: rest) = some (body, rest)

theorem isBody_escape (s : List Char) :
    IsBody (escape s) := by
  intro rest
  induction s with
  | nil => rfl
  | cons c s ih =>
      unfold escape at ih ⊢
      rw [List.flatMap_cons, List.append_assoc,
        readString_append (escaped_escapeChar c), ih]
      rfl

/- A digit is written as it is. -/
theorem escaped_digit
    (hDigit : Decimal.isDigit c = true) :
    Escaped c [c] := by
  apply Escaped.plain
  · rintro rfl
    exact absurd hDigit (by decide)
  · rintro rfl
    exact absurd hDigit (by decide)
  · intro hControl
    simp only [Decimal.isDigit, Bool.and_eq_true,
      decide_eq_true_eq, Char.le_def,
      UInt32.le_iff_toNat_le] at hDigit
    have hLeast : ('0' : Char).val.toNat ≤ c.toNat :=
      hDigit.1
    have hZero : ('0' : Char).val.toNat = 48 := rfl
    omega

/- Digits need no escape. -/
theorem isBody_digitsText (n : Nat) :
    IsBody (Decimal.digitsText n) := by
  intro rest
  have hDigits :
      ∀ c ∈ Decimal.digitsText n,
        Decimal.isDigit c = true :=
    fun _ hMem => Decimal.isDigit_of_mem_digitsText hMem
  generalize Decimal.digitsText n = digits at hDigits ⊢
  induction digits with
  | nil => rfl
  | cons c digits ih =>
      rw [List.forall_mem_cons] at hDigits
      have hStep :=
        readString_append (escaped_digit hDigits.1)
          (digits ++ '"' :: rest)
      rw [ih hDigits.2] at hStep
      exact hStep

theorem unescape_escape (s : List Char) :
    unescape (escape s) = some s := by
  induction s with
  | nil => rfl
  | cons c s ih =>
      unfold escape at ih ⊢
      rw [List.flatMap_cons,
        unescape_append (escaped_escapeChar c), ih]
      rfl

/- A text is read from its string. -/
theorem text?_ofText (s : String) :
    (ofText s).text? = some s := by
  simp only [ofText, text?, unescape_escape,
    Option.map_some, String.ofList_toList]

end Json

end Rowstore
