import Rowstore.Proofs.Statement.Lexing
import Rowstore.Proofs.Text.Lowering

/-
  A text in small letters is cut into the lexemes of the text
  itself, each in small letters: no character class, quote,
  comment or comparison depends on letter case, keywords and
  numbers are the same in any case, and names and strings hold
  the letters that were lowered.

  Main declarations:
    * `Token.lowered` and `Lexeme.lowered`
    * `Lexer.scan_lowerBasic`
    * `Lexer.lexemes_lowerBasic`
-/

------------------------------------------------------------
-- Lowered Tokens
------------------------------------------------------------

namespace Rowstore

open Text

/- The token with its letters lowered. -/
def Token.lowered : Token → Token
| .string q content => .string q (lowerBasic content)
| .name text => .name (lowerBasic text)
| .quotedName text => .quotedName (lowerBasic text)
| t => t

/- The lexeme with its letters lowered. -/
def Lexeme.lowered (l : Lexeme) : Lexeme :=
  { gap := lowerBasic l.gap
    text := lowerBasic l.text
    token := l.token.lowered }

/- The piece with its letters lowered. -/
def Lexer.Piece.lowered (p : Piece) : Piece :=
  { token? := p.token?.map Token.lowered
    text := lowerBasic p.text }

namespace Lexer

------------------------------------------------------------
-- Lengths
------------------------------------------------------------

variable {p : Char → Bool}

theorem caseBlind_isGapBlank : CaseBlind isGapBlank :=
  caseBlind_of_capitals (by decide +kernel)

theorem caseBlind_isWordStart : CaseBlind isWordStart :=
  caseBlind_of_capitals (by decide +kernel)

theorem caseBlind_isWordPart : CaseBlind isWordPart :=
  caseBlind_of_capitals (by decide +kernel)

theorem runLength_lowerBasic
    (hBlind : CaseBlind p)
    (s : List Char) :
    runLength p (lowerBasic s) = runLength p s := by
  unfold runLength
  rw [takeWhile_lowerBasic hBlind]
  exact List.length_map _

theorem startsWith_lowerBasic
    (hBlind : CaseBlind p)
    (s : List Char) :
    startsWith p (lowerBasic s) = startsWith p s := by
  cases s with
  | nil => rfl
  | cons c s => exact hBlind c

theorem exponentLength_lowerBasic (s : List Char) :
    exponentLength (lowerBasic s) = exponentLength s := by
  cases s with
  | nil => rfl
  | cons c s =>
      have hMark :
          (c.toLower == 'e' || c.toLower == 'E') =
            (c == 'e' || c == 'E') :=
        eq_toLower_of_capitals
          (f := fun c => c == 'e' || c == 'E')
          (by decide +kernel) c
      have hSign :
          CaseBlind fun d => d == '+' || d == '-' :=
        caseBlind_of_capitals (by decide +kernel)
      rw [lowerBasic_cons]
      simp only [exponentLength, hMark,
        startsWith_lowerBasic hSign, ← lowerBasic_drop,
        ← apply_ite lowerBasic,
        runLength_lowerBasic caseBlind_isDigit]

theorem fractionLength_lowerBasic
    (whole : Nat)
    (s : List Char) :
    fractionLength whole (lowerBasic s) =
      fractionLength whole s := by
  cases s with
  | nil => rfl
  | cons c s =>
      rw [lowerBasic_cons]
      by_cases hPoint : c = '.'
      · rw [hPoint]
        simp only [fractionLength,
          show '.'.toLower = '.' from rfl,
          runLength_lowerBasic caseBlind_isDigit]
      · have hNoPoint := mt (toLower_eq_iff rfl c).mp hPoint
        simp [fractionLength, hPoint, hNoPoint]

theorem unsignedLength_lowerBasic (s : List Char) :
    unsignedLength (lowerBasic s) = unsignedLength s := by
  simp only [unsignedLength_eq, ← lowerBasic_drop,
    runLength_lowerBasic caseBlind_isDigit,
    fractionLength_lowerBasic, exponentLength_lowerBasic]

theorem numberLength_lowerBasic (s : List Char) :
    numberLength (lowerBasic s) = numberLength s := by
  cases s with
  | nil => rfl
  | cons c s =>
      by_cases hMinus : c = '-'
      · rw [hMinus]
        simp only [lowerBasic_cons, numberLength,
          show '-'.toLower = '-' from rfl,
          unsignedLength_lowerBasic]
      · have hNoMinus := mt (toLower_eq_iff rfl c).mp hMinus
        have hWhole := unsignedLength_lowerBasic (c :: s)
        rw [lowerBasic_cons] at hWhole ⊢
        simp [numberLength, hMinus, hNoMinus, hWhole]

theorem stringLength_lowerBasic
    {mark : Char}
    (hMark : mark.isAlpha = false)
    (s : List Char) :
    stringLength mark (lowerBasic s) =
      stringLength mark s := by
  have hSeen : ∀ c : Char, (c.toLower == mark) = (c == mark) :=
    caseBlind_eq hMark
  fun_induction stringLength mark s with
  | case1 => rfl
  | case2 c => simp [lowerBasic, stringLength, hSeen]
  | case3 c d s hEnd hDouble n closed hRest ih =>
      simp only [lowerBasic_cons, stringLength, hSeen, hEnd,
        hDouble, if_true, ih, hRest]
  | case4 c d s hEnd hSingle =>
      simp only [lowerBasic_cons, stringLength, hSeen, hEnd,
        hSingle, if_true, Bool.false_eq_true, if_false]
  | case5 c d s hInside n closed hRest ih =>
      rw [lowerBasic_cons] at ih
      simp only [lowerBasic_cons, stringLength, hSeen,
        hInside, Bool.false_eq_true, if_false, ih, hRest]

/- Stars and strokes, which close a comment, are no letters. -/
theorem commentLength_lowerBasic (s : List Char) :
    commentLength (lowerBasic s) = commentLength s := by
  fun_induction commentLength s with
  | case1 => rfl
  | case2 => rfl
  | case3 => rfl
  | case4 c s hOpen n closed hRest ih =>
      have hStill := mt (toLower_eq_iff rfl c).mp hOpen
      rw [lowerBasic_cons, lowerBasic_cons,
        show '*'.toLower = '*' from rfl]
      simp only [commentLength, ih, hRest]
  | case5 c s hLast hClosed hStar n closed hRest ih =>
      have hOther : c ≠ '*' := by
        intro hIs
        cases s with
        | nil => exact hLast hIs rfl
        | cons d t => exact hStar d t hIs rfl
      have hStill := mt (toLower_eq_iff rfl c).mp hOther
      rw [lowerBasic_cons]
      simp [commentLength, hStill, ih, hRest]

------------------------------------------------------------
-- Tokens
------------------------------------------------------------

/- Keywords are spelled in any letter case. -/
theorem wordToken_lowerBasic (word : List Char) :
    wordToken (lowerBasic word) =
      (wordToken word).lowered := by
  unfold wordToken Keyword.ofWord?
  rw [upperBasic_lowerBasic]
  split
  · rfl
  · rfl

theorem numberToken_lowerBasic (s : List Char) :
    numberToken (lowerBasic s) = (numberToken s).lowered := by
  unfold numberToken
  rw [Decimal.ofText?_lowerBasic]
  split
  · rfl
  · rfl

theorem scanString_lowerBasic
    (q : Quote)
    (s : List Char) :
    scanString q (lowerBasic s) =
      ((scanString q s).1.lowered, (scanString q s).2) := by
  have hMark : q.char.isAlpha = false := by
    cases q
    · rfl
    · rfl
  unfold scanString
  rw [stringLength_lowerBasic hMark]
  dsimp only
  split
  · simp only [Token.lowered, ← lowerBasic_take,
      Value.undouble_lowerBasic hMark]
  · rfl

theorem scanQuotedName_lowerBasic (s : List Char) :
    scanQuotedName (lowerBasic s) =
      ((scanQuotedName s).1.lowered,
        (scanQuotedName s).2) := by
  have hInside : CaseBlind fun c => c != '\x60' :=
    (caseBlind_eq rfl).not
  have hEnd : CaseBlind fun c => c == '\x60' :=
    caseBlind_eq rfl
  unfold scanQuotedName
  simp only [runLength_lowerBasic hInside, ← lowerBasic_drop,
    startsWith_lowerBasic hEnd, ← lowerBasic_take]
  split
  · rfl
  · rfl

/- Marks and comparisons hold no letters. -/
theorem scanMark_lowerBasic
    (c : Char)
    (s : List Char) :
    scanMark c (lowerBasic s) =
      ((scanMark c s).1.lowered, (scanMark c s).2) := by
  have hToken :
      (scanMark c s).1.lowered = (scanMark c s).1 := by
    unfold scanMark
    split <;> rfl
  rw [hToken]
  cases s with
  | nil => rfl
  | cons d s =>
      exact
        scanMark_congr c (toLower_eq_iff rfl d)
          (toLower_eq_iff rfl d) (lowerBasic s) s

/- A character that starts no word is no letter. -/
theorem toLower_of_not_isWordStart
    {c : Char}
    (hStart : ¬isWordStart c = true) :
    c.toLower = c := by
  have hLetters : capitals.all isWordStart = true := by
    decide +kernel
  rcases toLower_eq_or_mem_capitals c with hSame | hMem
  · exact hSame
  · exact (hStart (List.all_eq_true.mp hLetters c hMem)).elim

theorem scanToken_lowerBasic
    (c : Char)
    (s : List Char) :
    scanToken c.toLower (lowerBasic s) =
      ((scanToken c s).1.lowered, (scanToken c s).2) := by
  unfold scanToken
  rw [caseBlind_isWordStart c]
  by_cases hStart : isWordStart c = true
  · rw [if_pos hStart, if_pos hStart,
      runLength_lowerBasic caseBlind_isWordPart]
    dsimp only
    rw [← lowerBasic_take, ← lowerBasic_cons,
      wordToken_lowerBasic]
  rw [if_neg hStart, if_neg hStart,
    toLower_of_not_isWordStart hStart]
  split
  · exact scanString_lowerBasic .single s
  split
  · exact scanString_lowerBasic .double s
  split
  · exact scanQuotedName_lowerBasic s
  have hLine : lowerBasic (c :: s) = c :: lowerBasic s := by
    rw [lowerBasic_cons, toLower_of_not_isWordStart hStart]
  rw [← hLine, numberLength_lowerBasic]
  dsimp only
  split
  · exact scanMark_lowerBasic c s
  · have hText :
        c :: (lowerBasic s).take (numberLength (c :: s) - 1) =
          lowerBasic
            (c :: s.take (numberLength (c :: s) - 1)) := by
      rw [lowerBasic_cons, toLower_of_not_isWordStart hStart,
        lowerBasic_take]
    rw [hText, numberToken_lowerBasic]

theorem head?_lowerBasic_eq_iff
    {mark : Char}
    (hMark : mark.isAlpha = false)
    (s : List Char) :
    (lowerBasic s).head? = some mark ↔
      s.head? = some mark := by
  cases s with
  | nil => rfl
  | cons c s => simp [lowerBasic_cons, toLower_eq_iff hMark]

/- A piece of a lowered text is as long as that of the text. -/
theorem scan_lowerBasic
    (c : Char)
    (s : List Char) :
    scan c.toLower (lowerBasic s) =
      ((scan c s).1.map Token.lowered, (scan c s).2) := by
  by_cases hGap : isGapBlank c = true
  · unfold scan
    rw [caseBlind_isGapBlank c, if_pos hGap, if_pos hGap,
      runLength_lowerBasic caseBlind_isGapBlank]
    rfl
  have hStill : ¬isGapBlank c.toLower = true := by
    rwa [caseBlind_isGapBlank c]
  by_cases hLine : c = '-' ∧ s.head? = some '-'
  · rcases s with _ | ⟨d, s⟩
    · cases hLine.2
    · rcases hLine with ⟨rfl, hHead⟩
      cases hHead
      have hInside : CaseBlind fun d => d != '\n' :=
        (caseBlind_eq rfl).not
      simp only [lowerBasic_cons,
        show '-'.toLower = '-' from rfl, scan, if_neg hGap,
        runLength_lowerBasic hInside, Option.map_none]
  by_cases hBlock : c = '/' ∧ s.head? = some '*'
  · rcases s with _ | ⟨d, s⟩
    · cases hBlock.2
    · rcases hBlock with ⟨rfl, hHead⟩
      cases hHead
      simp only [lowerBasic_cons,
        show '/'.toLower = '/' from rfl,
        show '*'.toLower = '*' from rfl, scan, if_neg hGap,
        commentLength_lowerBasic]
      split
      · rfl
      · rfl
  · rw [scan_of_token hGap hLine hBlock,
      scan_of_token hStill, scanToken_lowerBasic]
    · rfl
    · rwa [toLower_eq_iff rfl, head?_lowerBasic_eq_iff rfl]
    · rwa [toLower_eq_iff rfl, head?_lowerBasic_eq_iff rfl]

------------------------------------------------------------
-- Pieces And Lexemes
------------------------------------------------------------

theorem pieces_lowerBasic (s : List Char) :
    pieces (lowerBasic s) =
      (pieces s).map Piece.lowered := by
  fun_induction pieces s with
  | case1 =>
      rw [show lowerBasic [] = [] from rfl, pieces]
      rfl
  | case2 c s token? n hScan ih =>
      rw [lowerBasic_cons, pieces_cons, scan_lowerBasic,
        hScan]
      simp only [← lowerBasic_drop, ih, List.map_cons,
        Piece.lowered, lowerBasic_cons, lowerBasic_take]

/- Changing tokens and characters one by one changes the lexemes alike. -/
theorem lexemesFrom_map
    (f : Token → Token)
    (g : Char → Char)
    (gap : List Char)
    (ps : List Piece) :
    lexemesFrom (gap.map g)
        (ps.map fun p =>
          { token? := p.token?.map f
            text := p.text.map g }) =
      (lexemesFrom gap ps).map fun l =>
        { gap := l.gap.map g
          text := l.text.map g
          token := f l.token } := by
  induction ps generalizing gap with
  | nil => rfl
  | cons p ps ih =>
      cases hToken : p.token? with
      | none =>
          simp only [List.map_cons, lexemesFrom, hToken,
            Option.map_none, ← List.map_append, ih]
      | some t =>
          have hRest := ih []
          simp only [List.map_cons, lexemesFrom, hToken,
            Option.map_some]
          exact congrArg _ hRest

/- The lexemes of a lowered text are those of the text, lowered. -/
theorem lexemes_lowerBasic (s : List Char) :
    lexemes (lowerBasic s) =
      (lexemes s).map Lexeme.lowered := by
  unfold lexemes
  rw [pieces_lowerBasic]
  exact lexemesFrom_map Token.lowered Char.toLower [] (pieces s)

end Lexer

end Rowstore
