import Rowstore.Proofs.Text.Lowering
import Rowstore.Proofs.Value.Quoting

/-
  Which texts are taken as quoted, and which as numbers.

  The quotes at the ends of a text are taken off whatever
  stands between them.  What stands between them is the
  doubled form of a text exactly if no run of quotes in it is
  odd.  A text that spells a decimal holds nothing but digits,
  signs, points and exponent marks, so it is neither quoted
  nor a word.

  Main declarations:
    * `Value.Stray` and `Value.exists_doubled_iff`
    * `Value.unquote_eq_some_iff`
    * `Decimal.isNumeric_of_ofText?`
    * `Value.ofLiteral_of_ofText?`
-/

------------------------------------------------------------
-- Stray Quotes
------------------------------------------------------------

namespace Rowstore

namespace Value

variable {q c : Char} {s t v : List Char}

/- The text has a run of an odd number of quotes. -/
def Stray
    (q : Char)
    (v : List Char) : Prop :=
  ∃ a n b,
    v = a ++ (List.replicate (2 * n + 1) q ++ b) ∧
      a.getLast? ≠ some q ∧ b.head? ≠ some q

theorem not_stray_nil (q : Char) : ¬Stray q [] := by
  rintro ⟨a, n, b, hSplit, _⟩
  cases a with
  | nil => cases hSplit
  | cons => cases hSplit

theorem getLast?_cons_ne
    (hOther : c ≠ q)
    (hLast : s.getLast? ≠ some q) :
    (c :: s).getLast? ≠ some q := by
  cases s with
  | nil => simpa using hOther
  | cons d s => rwa [List.getLast?_cons_cons]

theorem getLast?_ne_of_cons
    (hLast : (c :: s).getLast? ≠ some q) :
    s.getLast? ≠ some q := by
  cases s with
  | nil => simp
  | cons d s => rwa [List.getLast?_cons_cons] at hLast

/- Another character in front is part of no run. -/
theorem stray_cons_iff (hOther : c ≠ q) :
    Stray q (c :: s) ↔ Stray q s := by
  constructor
  · rintro ⟨a, n, b, hSplit, hLast, hHead⟩
    cases a with
    | nil =>
        rw [List.nil_append, List.replicate_succ,
          List.cons_append, List.cons.injEq] at hSplit
        exact absurd hSplit.1 hOther
    | cons d a =>
        rw [List.cons_append, List.cons.injEq] at hSplit
        exact
          ⟨a, n, b, hSplit.2, getLast?_ne_of_cons hLast, hHead⟩
  · rintro ⟨a, n, b, rfl, hLast, hHead⟩
    exact
      ⟨c :: a, n, b, rfl, getLast?_cons_ne hOther hLast, hHead⟩

/- Two more quotes in front make no run odd or even. -/
theorem stray_quotes_iff :
    Stray q (q :: q :: s) ↔ Stray q s := by
  constructor
  · rintro ⟨a, n, b, hSplit, hLast, hHead⟩
    cases a with
    | nil =>
        cases n with
        | zero =>
            have hNext : b = q :: s := by simpa using hSplit.symm
            exact absurd (by rw [hNext]; rfl) hHead
        | succ n =>
            -- The run begins the text, and loses two quotes.
            refine ⟨[], n, b, ?_, by simp, hHead⟩
            simpa [Nat.mul_add, List.replicate_succ] using hSplit
    | cons d a =>
        rw [List.cons_append, List.cons.injEq] at hSplit
        rcases hSplit with ⟨rfl, hSplit⟩
        cases a with
        | nil => exact absurd rfl hLast
        | cons e a =>
            rw [List.cons_append, List.cons.injEq] at hSplit
            rcases hSplit with ⟨rfl, hSplit⟩
            exact
              ⟨a, n, b, hSplit,
                getLast?_ne_of_cons (getLast?_ne_of_cons hLast),
                hHead⟩
  · rintro ⟨a, n, b, rfl, hLast, hHead⟩
    cases a with
    | nil =>
        refine ⟨[], n + 1, b, ?_, by simp, hHead⟩
        simp [Nat.mul_add, List.replicate_succ]
    | cons d a =>
        refine ⟨q :: q :: d :: a, n, b, rfl, ?_, hHead⟩
        rwa [List.getLast?_cons_cons, List.getLast?_cons_cons]

theorem not_stray_doubled
    (q : Char)
    (s : List Char) :
    ¬Stray q (doubled q s) := by
  induction s with
  | nil => exact not_stray_nil q
  | cons c s ih =>
      unfold doubled
      split
      · rwa [stray_quotes_iff]
      · rename_i hOther
        rwa [stray_cons_iff hOther]

/- Without a stray quote, every quote is one of two. -/
theorem doubled_undouble
    (hNone : ¬Stray q v) :
    doubled q (undouble q v) = v := by
  fun_induction undouble q v with
  | case1 a b s hBoth ih =>
      rcases hBoth with ⟨rfl, rfl⟩
      rw [stray_quotes_iff] at hNone
      rw [doubled, if_pos rfl, ih hNone]
  | case2 a b s hNot ih =>
      by_cases hQuote : a = q
      · -- A single quote in front of another character is a run.
        subst hQuote
        have hOther : b ≠ a := fun h => hNot ⟨rfl, h⟩
        refine absurd ⟨[], 0, b :: s, rfl, by simp, ?_⟩ hNone
        simpa using hOther
      · rw [stray_cons_iff hQuote] at hNone
        rw [doubled, if_neg hQuote, ih hNone]
  | case3 s hShort =>
      cases s with
      | nil => rfl
      | cons a s =>
          cases s with
          | cons b s => exact absurd rfl (hShort a b s)
          | nil =>
              by_cases hQuote : a = q
              · subst hQuote
                exact
                  absurd ⟨[], 0, [], rfl, by simp, by simp⟩ hNone
              · rw [doubled, if_neg hQuote]
                rfl

/- A text is the doubled form of another exactly if no quote in it is stray. -/
theorem exists_doubled_iff :
    (∃ s, v = doubled q s) ↔ ¬Stray q v := by
  constructor
  · rintro ⟨s, rfl⟩
    exact not_stray_doubled q s
  · intro hNone
    exact ⟨undouble q v, (doubled_undouble hNone).symm⟩

------------------------------------------------------------
-- Texts Between Quotes
------------------------------------------------------------

/- Quotes are taken off a text that begins and ends with the same one, as a character of its own. -/
theorem unquote_eq_some_iff :
    unquote t = some s ↔
      ∃ q v,
        isQuote q = true ∧ t = q :: (v ++ [q]) ∧
          s = undouble q v := by
  constructor
  · intro hUnquote
    cases t with
    | nil => cases hUnquote
    | cons q t =>
        rw [unquote] at hUnquote
        split at hUnquote
        · rename_i hEnds
          rw [Bool.and_eq_true, beq_iff_eq] at hEnds
          rcases List.getLast?_eq_some_iff.mp hEnds.2 with
            ⟨v, rfl⟩
          rw [List.dropLast_concat] at hUnquote
          exact
            ⟨q, v, hEnds.1, rfl,
              (Option.some.inj hUnquote).symm⟩
        · cases hUnquote
  · rintro ⟨q, v, hQuote, rfl, rfl⟩
    have hEnds :
        (isQuote q && (v ++ [q]).getLast? == some q) =
          true := by
      simp [hQuote]
    rw [unquote, if_pos hEnds, List.dropLast_concat]

end Value

end Rowstore

------------------------------------------------------------
-- Numbers
------------------------------------------------------------

namespace Rowstore

open Text

namespace Decimal

open Value

variable {c : Char} {s : List Char} {d : Decimal}

theorem isNumeric_of_isDigit
    (hDigit : isDigit c = true) :
    isNumeric c = true := by
  simp [isNumeric, hDigit]

theorem splitSign_split (s : List Char) :
    ∃ sign,
      s = sign ++ (splitSign s).2 ∧
        ∀ c ∈ sign, isNumeric c = true := by
  unfold splitSign
  split
  · exact ⟨['-'], rfl, List.forall_mem_singleton.mpr rfl⟩
  · exact ⟨['+'], rfl, List.forall_mem_singleton.mpr rfl⟩
  · exact ⟨[], rfl, by simp⟩

theorem splitDigits_split (s : List Char) :
    s = (splitDigits s).1 ++ (splitDigits s).2 ∧
      ∀ c ∈ (splitDigits s).1, isDigit c = true :=
  ⟨List.takeWhile_append_dropWhile.symm,
    List.all_eq_true.mp List.all_takeWhile⟩

theorem splitFraction_split (s : List Char) :
    ∃ point,
      s = point ++ ((splitFraction s).1 ++ (splitFraction s).2) ∧
        (∀ c ∈ point, isNumeric c = true) ∧
          ∀ c ∈ (splitFraction s).1, isDigit c = true := by
  unfold splitFraction
  split
  · rename_i t
    rcases splitDigits_split t with ⟨hSplit, hDigits⟩
    refine
      ⟨['.'], ?_, List.forall_mem_singleton.mpr rfl, hDigits⟩
    rw [← hSplit]
    rfl
  · exact ⟨[], rfl, by simp, by simp⟩

theorem isNumeric_of_exponent?
    {e : Int}
    (hExponent : exponent? s = some e) :
    ∀ c ∈ s, isNumeric c = true := by
  cases s with
  | nil => simp
  | cons c s =>
      rw [exponent?] at hExponent
      by_cases hMark :
          (decide (c = 'e') || decide (c = 'E')) = true
      · rw [if_pos hMark] at hExponent
        rcases splitSign_split s with ⟨sign, hSign, hSigned⟩
        rcases splitDigits_split (splitSign s).2 with
          ⟨hSplit, hDigits⟩
        generalize splitSign s = signed at *
        rcases signed with ⟨negative, t⟩
        dsimp only at hExponent hSign hSplit hDigits
        generalize splitDigits t = parts at *
        rcases parts with ⟨digits, rest⟩
        dsimp only at hExponent hSplit hDigits
        split at hExponent
        · cases hExponent
        · rename_i hAll
          have hNone : rest = [] := by
            simp at hAll
            exact hAll.2
          have hFirst : isNumeric c = true := by
            simp at hMark
            rcases hMark with rfl | rfl <;> decide
          rw [hNone, List.append_nil] at hSplit
          rw [hSign, hSplit, List.forall_mem_cons,
            List.forall_mem_append]
          exact
            ⟨hFirst, hSigned,
              fun d hMember =>
                isNumeric_of_isDigit (hDigits d hMember)⟩
      · rw [if_neg hMark] at hExponent
        cases hExponent

/- A text that spells a decimal has the characters of numbers, and a digit. -/
theorem isNumeric_of_ofText?
    (hText : ofText? s = some d) :
    (∀ c ∈ s, isNumeric c = true) ∧
      ∃ c ∈ s, isDigit c = true := by
  rw [ofText?_eq] at hText
  rcases splitSign_split s with ⟨sign, hSign, hSigned⟩
  rcases splitDigits_split (splitSign s).2 with
    ⟨hWhole, hDigits⟩
  rcases splitFraction_split (splitDigits (splitSign s).2).2
    with ⟨point, hPoint, hMarks, hDigits'⟩
  generalize splitSign s = signed at *
  rcases signed with ⟨negative, t⟩
  dsimp only at hText hSign hWhole hPoint hDigits hDigits'
  generalize splitDigits t = parts at *
  rcases parts with ⟨whole, afterWhole⟩
  dsimp only at hText hWhole hPoint hDigits hDigits'
  generalize splitFraction afterWhole = parts at *
  rcases parts with ⟨fraction, rest⟩
  dsimp only at hText hPoint hDigits'
  split at hText
  · cases hText
  · rename_i hSome
    rw [Option.map_eq_some_iff] at hText
    rcases hText with ⟨e, hExponent, _⟩
    have hRest := isNumeric_of_exponent? hExponent
    rw [hSign, hWhole, hPoint]
    constructor
    · simp only [List.forall_mem_append]
      exact
        ⟨hSigned,
          fun c hMember =>
            isNumeric_of_isDigit (hDigits c hMember),
          hMarks,
          fun c hMember =>
            isNumeric_of_isDigit (hDigits' c hMember),
          hRest⟩
    · rw [Bool.and_eq_true, not_and_or] at hSome
      rcases hSome with hSome | hSome
      · rw [List.isEmpty_iff] at hSome
        rcases List.exists_mem_of_ne_nil _ hSome with
          ⟨c, hMember⟩
        exact ⟨c, by simp [hMember], hDigits c hMember⟩
      · rw [List.isEmpty_iff] at hSome
        rcases List.exists_mem_of_ne_nil _ hSome with
          ⟨c, hMember⟩
        exact ⟨c, by simp [hMember], hDigits' c hMember⟩

end Decimal

namespace Value

variable {c : Char} {s w : List Char}

/- The characters of numbers are no blanks and no quotes. -/
theorem plain_of_isNumeric
    (hNumeric : isNumeric c = true) :
    isBlank c = false ∧ isQuote c = false := by
  rw [Bool.eq_false_iff, Bool.eq_false_iff]
  simp [isNumeric, Decimal.isDigit, isBlank, blankRanges,
    isQuote, Char.le_def, UInt32.le_iff_toNat_le,
    ← Char.toNat_inj] at hNumeric ⊢
  have hCode : c.val.toNat = c.toNat := rfl
  omega

/- A text with a digit is none of the words, which have none. -/
theorem sameLetters_of_digit
    (hDigit : ∃ c ∈ s, Decimal.isDigit c = true)
    (hWord : w.any Decimal.isDigit = false) :
    sameLetters s w = false := by
  have hAny (t : List Char) :
      (lowerBasic t).any Decimal.isDigit =
        t.any Decimal.isDigit := by
    unfold lowerBasic
    rw [List.any_map]
    exact congrArg t.any (funext caseBlind_isDigit)
  rw [Bool.eq_false_iff, Ne, sameLetters_iff]
  intro hSame
  have hSome := hAny s
  rw [hSame, hAny, hWord, eq_comm, List.any_eq_false] at hSome
  rcases hDigit with ⟨c, hMember, hDigit⟩
  exact hSome c hMember hDigit

/- A text that spells a finite number denotes this number. -/
theorem ofLiteral_of_ofText?
    {d : Decimal}
    (hText : Decimal.ofText? s = some d)
    (hFinite : d.toFloat.isFinite = true) :
    ofLiteral s = .number d.toFloat := by
  rcases Decimal.isNumeric_of_ofText? hText with
    ⟨hNumeric, hDigit⟩
  have hTight : Tight s :=
    { first := fun c hFirst =>
        (plain_of_isNumeric
          (hNumeric c (List.mem_of_mem_head? hFirst))).1
      last := fun c hLast =>
        (plain_of_isNumeric
          (hNumeric c (List.mem_of_mem_getLast? hLast))).1 }
  have hPlain : unquote s = none := by
    rw [Option.eq_none_iff_forall_ne_some]
    intro u hQuoted
    rcases unquote_eq_some_iff.mp hQuoted with
      ⟨q, v, hQuote, rfl, _⟩
    have hOther := hNumeric q List.mem_cons_self
    rw [(plain_of_isNumeric hOther).2] at hQuote
    cases hQuote
  have hNumber : parseNumber s = some d.toFloat := by
    have hAll :
        (s.all isNumeric && s.any Decimal.isDigit) = true := by
      rw [Bool.and_eq_true, List.all_eq_true, List.any_eq_true]
      exact ⟨hNumeric, hDigit⟩
    unfold parseNumber
    rw [trim_of_tight hTight]
    dsimp only
    rw [if_pos hAll, hText, Option.map_some, Option.filter_some,
      if_pos hFinite]
  unfold ofLiteral
  rw [trim_of_tight hTight]
  simp only [hPlain, hNumber,
    sameLetters_of_digit hDigit (w := "true".toList) (by decide),
    sameLetters_of_digit hDigit (w := "false".toList) (by decide),
    sameLetters_of_digit hDigit (w := "null".toList) (by decide)]
  rfl

end Value

end Rowstore
