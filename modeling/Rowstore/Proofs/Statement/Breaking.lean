import Rowstore.Proofs.Statement.Cutting
import Rowstore.Proofs.Text.Trimming
import Rowstore.Statement.Parser

/-
  Blanks, semicolons and closing parentheses at the end of a
  text.

  They are lexemes of their own or join a gap, unless they
  are taken in by something that has no end mark: a string, a
  quoted name or a comment that is not closed.

  Main declarations:
    * `Lexer.isBreak` and `Lexer.scan_break`
    * `Lexer.IsBreakOf`
    * `Lexer.TakesBreaks` and `Lexer.takesBreaks_append`
    * `Statement.normalize_split`
-/

------------------------------------------------------------
-- Breaks
------------------------------------------------------------

namespace Rowstore

namespace Lexer

variable {c d : Char} {w rest : List Char}

/- Blanks, semicolons and closing parentheses. -/
def isBreak (c : Char) : Bool :=
  Text.isBlank c || c == ';' || c == ')'

theorem ne_of_isBreak
    (hBreak : isBreak d = true)
    (hOther : isBreak c = false) :
    d ≠ c := by
  rintro rfl
  rw [hBreak] at hOther
  cases hOther

/- What is dropped at the end of a statement is a break. -/
theorem isBreak_of_dropped
    (hDropped : Text.isBlank d = true ∨ d = ';') :
    isBreak d = true := by
  rcases hDropped with hBlank | rfl
  · simp [isBreak, hBlank]
  · rfl

theorem isWordPart_of_isBreak
    (hBreak : isBreak d = true) :
    isWordPart d = false := by
  rw [Bool.eq_false_iff]
  intro hPart
  have hCode : d.val.toNat = d.toNat := rfl
  have hLetter :
      d.isAlpha =
        (decide (65 ≤ d.val ∧ d.val ≤ 90) ||
          decide (97 ≤ d.val) && decide (d.val ≤ 122)) := rfl
  simp [isBreak, isWordPart, Text.isBlank, Text.blankRanges,
    Char.isAlphanum, hLetter, Char.isDigit,
    UInt32.le_iff_toNat_le, ← Char.toNat_inj] at hBreak hPart
  omega

theorem isDigit_of_isBreak
    (hBreak : isBreak d = true) :
    Decimal.isDigit d = false := by
  have hPart := isWordPart_of_isBreak hBreak
  rw [Bool.eq_false_iff]
  intro hDigit
  simp [Decimal.isDigit, isWordPart, Char.isAlphanum,
    Char.isDigit, Char.le_def, UInt32.le_iff_toNat_le]
    at hPart hDigit
  omega

/- A run of characters of another kind ends before a break. -/
theorem runLength_break
    {p : Char → Bool}
    (hOther : p d = false)
    (w rest : List Char) :
    runLength p (w ++ d :: rest) ≤ w.length := by
  induction w with
  | nil => simp [runLength_cons, hOther]
  | cons c w ih =>
      rw [List.cons_append, runLength_cons,
        List.length_cons]
      split <;> omega

theorem signedLength_break
    (hBreak : isBreak d = true)
    (w rest : List Char) :
    signedLength (w ++ d :: rest) ≤ w.length := by
  have hDigit := isDigit_of_isBreak hBreak
  cases w with
  | nil =>
      have hPlus := ne_of_isBreak hBreak (c := '+') (by decide)
      have hDash := ne_of_isBreak hBreak (c := '-') (by decide)
      simp [signedLength_cons, runLength_cons, hDigit, hPlus,
        hDash]
  | cons c w =>
      have hLater := runLength_break hDigit w rest
      have hAll := runLength_break hDigit (c :: w) rest
      rw [List.cons_append, List.length_cons] at hAll
      rw [List.cons_append, signedLength_cons,
        List.length_cons]
      split
      · split <;> omega
      · exact hAll

theorem exponentLength_break
    (hBreak : isBreak d = true)
    (w rest : List Char) :
    exponentLength (w ++ d :: rest) ≤ w.length := by
  cases w with
  | nil =>
      have hSmall := ne_of_isBreak hBreak (c := 'e') (by decide)
      have hCapital :=
        ne_of_isBreak hBreak (c := 'E') (by decide)
      simp [exponentLength_cons, hSmall, hCapital]
  | cons c w =>
      have hLater := signedLength_break hBreak w rest
      rw [List.cons_append, exponentLength_cons,
        List.length_cons]
      split
      · split <;> omega
      · exact Nat.zero_le _

theorem fractionLength_break
    (hBreak : isBreak d = true)
    (n : Nat)
    (w rest : List Char) :
    fractionLength n (w ++ d :: rest) ≤ w.length := by
  cases w with
  | nil =>
      have hPoint := ne_of_isBreak hBreak (c := '.') (by decide)
      simp [fractionLength_cons, hPoint]
  | cons c w =>
      have hLater :=
        runLength_break (isDigit_of_isBreak hBreak) w rest
      rw [List.cons_append, fractionLength_cons,
        List.length_cons]
      split
      · split <;> omega
      · exact Nat.zero_le _

theorem unsignedLength_break
    (hBreak : isBreak d = true)
    (w rest : List Char) :
    unsignedLength (w ++ d :: rest) ≤ w.length := by
  rw [unsignedLength_eq]
  dsimp only
  have hWhole :=
    runLength_break (isDigit_of_isBreak hBreak) w rest
  generalize
    runLength Decimal.isDigit (w ++ d :: rest) = n at hWhole ⊢
  rw [List.drop_append_of_le_length hWhole]
  have hFraction :=
    fractionLength_break hBreak n (w.drop n) rest
  generalize
    fractionLength n (w.drop n ++ d :: rest) = m
    at hFraction ⊢
  rw [List.drop_append_of_le_length hFraction]
  have hExponent :=
    exponentLength_break hBreak ((w.drop n).drop m) rest
  simp only [List.length_drop] at hFraction hExponent
  split <;> omega

theorem numberLength_break
    (hBreak : isBreak d = true)
    (w rest : List Char) :
    numberLength (w ++ d :: rest) ≤ w.length := by
  cases w with
  | nil =>
      have hDash := ne_of_isBreak hBreak (c := '-') (by decide)
      have hNone := unsignedLength_break hBreak [] rest
      rw [List.nil_append, numberLength_cons, if_neg hDash]
      exact hNone
  | cons c w =>
      have hLater := unsignedLength_break hBreak w rest
      have hAll := unsignedLength_break hBreak (c :: w) rest
      rw [List.cons_append, List.length_cons] at hAll
      rw [List.cons_append, numberLength_cons,
        List.length_cons]
      split
      · split <;> omega
      · exact hAll

/- A string that ends in a break has no end mark. -/
theorem stringLength_break
    {q : Char}
    (hQuote : d ≠ q)
    {closed : Bool}
    (hLength :
      stringLength q (w ++ d :: rest) =
        (w.length + 1, closed)) :
    closed = false ∧ rest = [] := by
  have hAlone
      {closed : Bool}
      (hOne : stringLength q (d :: rest) = (1, closed)) :
      closed = false ∧ rest = [] := by
    cases rest with
    | nil =>
        simp only [stringLength, Prod.mk.injEq] at hOne
        rw [← hOne.2, beq_eq_false_iff_ne]
        exact ⟨hQuote, rfl⟩
    | cons e rest =>
        have hSome := stringLength_pos q e rest
        rw [stringLength_cons_of_ne hQuote (by simp),
          Prod.mk.injEq] at hOne
        omega
  fun_induction stringLength q w generalizing closed with
  | case1 => exact hAlone hLength
  | case2 c =>
      rw [List.singleton_append, List.length_singleton]
        at hLength
      by_cases hEnd : c = q
      · subst hEnd
        rw [stringLength_end] at hLength
        · cases hLength
        · simpa [startsWith] using hQuote
      · rw [stringLength_cons_of_ne hEnd (by simp),
          Prod.mk.injEq] at hLength
        exact hAlone (Prod.ext (by omega) hLength.2)
  | case3 c e s hQuoted hDoubled n closed' hRest ih =>
      simp only [List.cons_append, stringLength, hQuoted,
        hDoubled, if_true, List.length_cons,
        Prod.mk.injEq] at hLength
      exact ih (Prod.ext (by omega) hLength.2)
  | case4 c e s hQuoted hSingle =>
      simp [stringLength, hQuoted, hSingle] at hLength
  | case5 c e s hOther n closed' hRest ih =>
      simp only [List.cons_append, stringLength, hOther,
        Bool.false_eq_true, if_false, List.length_cons,
        Prod.mk.injEq] at hLength
      exact
        ih (Prod.ext (by simpa using hLength.1) hLength.2)

/- A comment that ends in a break has no end mark. -/
theorem commentLength_break
    (hBreak : isBreak d = true)
    {closed : Bool}
    (hLength :
      commentLength (w ++ d :: rest) =
        (w.length + 1, closed)) :
    closed = false ∧ (rest = [] ∨ rest = ['*']) := by
  have hStar := ne_of_isBreak hBreak (c := '*') (by decide)
  have hSlash := ne_of_isBreak hBreak (c := '/') (by decide)
  have hAfter
      {closed : Bool}
      (hNone : (commentLength rest).1 = 0)
      (hClosed : (commentLength rest).2 = closed) :
      closed = false ∧ (rest = [] ∨ rest = ['*']) := by
    rw [commentLength_eq_zero_iff] at hNone
    rcases hNone with rfl | rfl
    · exact ⟨hClosed.symm, .inl rfl⟩
    · exact ⟨hClosed.symm, .inr rfl⟩
  fun_induction commentLength w generalizing closed with
  | case1 =>
      rw [List.nil_append, commentLength_plain hStar,
        Prod.mk.injEq, List.length_nil] at hLength
      exact hAfter (by omega) hLength.2
  | case2 =>
      rw [List.singleton_append, commentLength_pair hSlash,
        Prod.mk.injEq, List.length_singleton] at hLength
      exact hAfter (by omega) hLength.2
  | case3 s => cases hLength
  | case4 c s hOpen n closed' hRest ih =>
      simp only [List.cons_append, commentLength_pair hOpen,
        List.length_cons, Prod.mk.injEq] at hLength
      exact ih (Prod.ext (by omega) hLength.2)
  | case5 c s hAlone hClosing hPair n closed' hRest ih =>
      have hPlain : c ≠ '*' := by
        rintro rfl
        cases s with
        | nil => exact hAlone rfl rfl
        | cons d s => exact hPair d s rfl rfl
      simp only [List.cons_append,
        commentLength_plain hPlain, List.length_cons,
        Prod.mk.injEq] at hLength
      exact ih (Prod.ext (by omega) hLength.2)

theorem scanString_break
    {q : Quote}
    (hBreak : isBreak d = true)
    {t : Token}
    (hScan :
      scanString q (w ++ d :: rest) = (t, w.length + 1)) :
    t = .unknown ∧ rest = [] := by
  have hQuote : d ≠ q.char :=
    ne_of_isBreak hBreak (by cases q <;> decide)
  have hLength :
      stringLength q.char (w ++ d :: rest) =
        (w.length + 1,
          (stringLength q.char (w ++ d :: rest)).2) := by
    refine Prod.ext ?_ rfl
    unfold scanString at hScan
    dsimp only at hScan
    split at hScan <;> exact congrArg Prod.snd hScan
  rcases stringLength_break hQuote hLength with
    ⟨hOpen, hRest⟩
  rw [hOpen] at hLength
  unfold scanString at hScan
  rw [hLength] at hScan
  exact ⟨(congrArg Prod.fst hScan).symm, hRest⟩

theorem scanQuotedName_break
    (hBreak : isBreak d = true)
    {t : Token}
    (hScan :
      scanQuotedName (w ++ d :: rest) = (t, w.length + 1)) :
    t = .unknown ∧ rest = [] := by
  have hAccent := ne_of_isBreak hBreak (c := '\x60') (by decide)
  unfold scanQuotedName at hScan
  dsimp only at hScan
  generalize hRun :
    runLength (fun c => c != '\x60') (w ++ d :: rest) = n
    at hScan
  split at hScan
  · rename_i hClosed
    have hLength : n = w.length := by
      have hNext := congrArg Prod.snd hScan
      dsimp only at hNext
      omega
    rw [hLength, List.drop_left, startsWith] at hClosed
    simp [hAccent] at hClosed
  · rename_i hOpen
    rw [Prod.mk.injEq] at hScan
    rcases hScan with ⟨rfl, rfl⟩
    have hSplit (r : List Char) :
        w ++ d :: r = (w ++ [d]) ++ r := by
      simp
    have hLength : (w ++ [d]).length = w.length + 1 := by
      simp
    rw [hSplit, ← hLength, runLength_append_iff] at hRun
    rw [hSplit, ← hLength, List.drop_left] at hOpen
    refine ⟨rfl, ?_⟩
    cases rest with
    | nil => rfl
    | cons e rest =>
        have hEnd : (e != '\x60') = false := hRun.2
        simp [startsWith, bne_eq_false_iff_eq.mp hEnd]
          at hOpen

/- A mark of two characters ends in an equals or a greater-than sign. -/
theorem scanMark_break
    (hBreak : isBreak d = true)
    {t : Token} :
    scanMark c (w ++ d :: rest) ≠ (t, w.length + 1) := by
  have hEqual := ne_of_isBreak hBreak (c := '=') (by decide)
  have hGreater := ne_of_isBreak hBreak (c := '>') (by decide)
  intro hScan
  unfold scanMark at hScan
  split at hScan <;> cases w <;> simp_all

theorem scanToken_break
    (hBreak : isBreak d = true)
    {t : Token}
    (hScan :
      scanToken c (w ++ d :: rest) = (t, w.length + 1)) :
    t = .unknown ∧ rest = [] := by
  unfold scanToken at hScan
  split at hScan
  · have hLe :=
      runLength_break (isWordPart_of_isBreak hBreak) w rest
    rw [Prod.mk.injEq] at hScan
    omega
  split at hScan
  · exact scanString_break hBreak hScan
  split at hScan
  · exact scanString_break hBreak hScan
  split at hScan
  · exact scanQuotedName_break hBreak hScan
  have hLe := numberLength_break hBreak (c :: w) rest
  rw [List.cons_append, List.length_cons] at hLe
  dsimp only at hScan
  split at hScan
  · exact absurd hScan (scanMark_break hBreak)
  · rw [Prod.mk.injEq] at hScan
    omega

/-
  A piece of several characters that ends in a break is a run
  of blanks, a comment up to the end of its line, or something
  without an end mark.
-/
theorem scan_break
    (hBreak : isBreak d = true)
    {token? : Option Token}
    (hScan :
      scan c (w ++ d :: rest) = (token?, w.length + 1)) :
    isGapBlank c = true ∨
      (c = '-' ∧ w.head? = some '-' ∧ token? = none) ∨
      token? = some .unknown ∧ (rest = [] ∨ rest = ['*']) := by
  by_cases hGap : isGapBlank c = true
  · exact .inl hGap
  by_cases hLine :
      c = '-' ∧ (w ++ d :: rest).head? = some '-'
  · rcases hLine with ⟨rfl, hHead⟩
    cases w with
    | nil =>
        cases hHead
        cases hBreak
    | cons e w =>
        cases hHead
        rw [List.cons_append, scan_line, Prod.mk.injEq]
          at hScan
        exact .inr (.inl ⟨rfl, rfl, hScan.1.symm⟩)
  by_cases hBlock :
      c = '/' ∧ (w ++ d :: rest).head? = some '*'
  · rcases hBlock with ⟨rfl, hHead⟩
    cases w with
    | nil =>
        cases hHead
        cases hBreak
    | cons e w =>
        cases hHead
        rw [List.cons_append, scan_comment, Prod.mk.injEq,
          List.length_cons] at hScan
        have hLength :
            commentLength (w ++ d :: rest) =
              (w.length + 1,
                (commentLength (w ++ d :: rest)).2) :=
          Prod.ext (by omega) rfl
        rcases commentLength_break hBreak hLength with
          ⟨hOpen, hRest⟩
        rw [hOpen] at hScan
        exact .inr (.inr ⟨hScan.1.symm, hRest⟩)
  · rw [scan_of_token hGap hLine hBlock, Prod.mk.injEq]
      at hScan
    have hPair :
        scanToken c (w ++ d :: rest) =
          ((scanToken c (w ++ d :: rest)).1, w.length + 1) :=
      Prod.ext rfl hScan.2
    rcases scanToken_break hBreak hPair with
      ⟨hToken, hRest⟩
    rw [hToken] at hScan
    exact .inr (.inr ⟨hScan.1.symm, .inl hRest⟩)

/- A break that is no blank between lexemes is a piece of its own. -/
theorem scan_of_isBreak
    (hBreak : isBreak d = true)
    (hGap : ¬isGapBlank d = true)
    (s : List Char) :
    scan d s = (some (scanMark d []).1, 0) := by
  have hPart := isWordPart_of_isBreak hBreak
  have hStart : ¬isWordStart d = true := by
    intro hStart
    rw [isWordPart_of_isWordStart hStart] at hPart
    cases hPart
  have hOther (c : Char) (hPlain : isBreak c = false) :
      ¬(d == c) = true := by
    rw [beq_iff_eq]
    exact ne_of_isBreak hBreak hPlain
  have hNumber : numberLength (d :: s) = 0 :=
    Nat.eq_zero_of_le_zero (numberLength_break hBreak [] s)
  have hMark : scanMark d s = ((scanMark d []).1, 0) := by
    have hEqual := ne_of_isBreak hBreak (c := '=') (by decide)
    have hLess := ne_of_isBreak hBreak (c := '<') (by decide)
    have hGreater :=
      ne_of_isBreak hBreak (c := '>') (by decide)
    have hNot := ne_of_isBreak hBreak (c := '!') (by decide)
    unfold scanMark
    split <;> simp_all
  have hToken : scanToken d s = ((scanMark d []).1, 0) := by
    unfold scanToken
    rw [if_neg hStart, if_neg (hOther _ (by decide)),
      if_neg (hOther _ (by decide)),
      if_neg (hOther _ (by decide))]
    dsimp only
    rw [if_pos hNumber, hMark]
  rw [scan_of_token hGap, hToken]
  · exact fun hLine => hOther '-' (by decide) (by simp [hLine.1])
  · exact fun hBlock =>
      hOther '/' (by decide) (by simp [hBlock.1])

------------------------------------------------------------
-- Breaks At The End
------------------------------------------------------------

/- The lexeme is one of the breaks in a text. -/
def IsBreakOf
    (z : List Char)
    (l : Lexeme) : Prop :=
  ∃ d ∈ z,
    isBreak d = true ∧ l.text = [d] ∧
      l.token = (scanMark d []).1

variable {z : List Char}

theorem IsBreakOf.of_suffix
    {y : List Char}
    {l : Lexeme}
    (hBreak : IsBreakOf z l) :
    IsBreakOf (y ++ z) l := by
  rcases hBreak with ⟨d, hMember, hRest⟩
  exact ⟨d, List.mem_append_right _ hMember, hRest⟩

theorem IsBreakOf.no_open
    {l : Lexeme}
    (hBreak : IsBreakOf z l) :
    l.token ≠ .mark .openParen := by
  rcases hBreak with ⟨d, _, hBreak, _, hToken⟩
  have hOther := ne_of_isBreak hBreak (c := '(') (by decide)
  rw [hToken]
  unfold scanMark
  split <;> simp_all

theorem isBreakOf_of_mem
    (hBreaks : ∀ d ∈ z, isBreak d = true)
    (gap : List Char) :
    ∀ l ∈ lexemesFrom gap (pieces z), IsBreakOf z l := by
  induction z using pieces_induction generalizing gap with
  | hNil =>
      rw [pieces_nil]
      simp [lexemesFrom]
  | hCons c w rest token? hScan ih =>
      have hFirst : isBreak c = true := hBreaks c (by simp)
      have hLater (gap : List Char) :
          ∀ l ∈ lexemesFrom gap (pieces rest),
            IsBreakOf (c :: w ++ rest) l := by
        intro l hMember
        refine (ih ?_ gap l hMember).of_suffix
        exact fun d hInside => hBreaks d (by simp [hInside])
      rw [pieces_append hScan]
      by_cases hGap : isGapBlank c = true
      · unfold scan at hScan
        rw [if_pos hGap, Prod.mk.injEq] at hScan
        simp only [lexemesFrom, ← hScan.1]
        exact hLater _
      · rw [scan_of_isBreak hFirst hGap, Prod.mk.injEq] at hScan
        have hAlone : w = [] :=
          List.length_eq_zero_iff.mp hScan.2.symm
        simp only [lexemesFrom, ← hScan.1,
          List.forall_mem_cons]
        exact
          ⟨⟨c, by simp, hFirst, by rw [hAlone], rfl⟩,
            hLater []⟩

/- A run of blanks, or a comment up to the end of its line, is still one if it is cut off. -/
theorem lexemesFrom_of_cut
    {v : List Char}
    {token? : Option Token}
    (hScan :
      scan c (w ++ (v ++ rest)) = (token?, (w ++ v).length))
    (hOpen :
      isGapBlank c = true ∨ c = '-' ∧ w.head? = some '-')
    (gap : List Char) :
    token? = none ∧ lexemesFrom gap (pieces (c :: w)) = [] := by
  have hNone :
      scan c w = (none, w.length) →
        lexemesFrom gap (pieces (c :: w)) = [] := by
    intro hAlone
    rw [← List.append_nil w] at hAlone
    rw [← List.append_nil (c :: w),
      pieces_append (by simpa using hAlone), pieces]
    rfl
  have hAll
      {p : Char → Bool}
      {u : List Char}
      (hInside : ∀ d ∈ u ++ v, p d = true) :
      runLength p u = u.length := by
    have hRun : runLength p (u ++ []) = u.length :=
      runLength_append
        (fun d hMember =>
          hInside d (List.mem_append_left _ hMember))
        rfl
    rwa [List.append_nil] at hRun
  rw [← List.append_assoc] at hScan
  rcases hOpen with hBlank | ⟨rfl, hHead⟩
  · unfold scan at hScan hNone
    rw [if_pos hBlank, Prod.mk.injEq, runLength_append_iff]
      at hScan
    rw [if_pos hBlank] at hNone
    exact ⟨hScan.1.symm, hNone (by rw [hAll hScan.2.1])⟩
  · cases w with
    | nil => cases hHead
    | cons d w =>
        cases hHead
        rw [List.cons_append, List.cons_append, scan_line,
          Prod.mk.injEq, List.length_cons, Nat.add_comm,
          Nat.add_right_cancel_iff, runLength_append_iff]
          at hScan
        refine ⟨hScan.1.symm, hNone ?_⟩
        rw [scan_line, hAll hScan.2.1, List.length_cons,
          Nat.add_comm]

/-
  The text and breaks behind it: what the lexemes of both are.
  Each break behind it adds a lexeme, or the last lexeme takes
  breaks in because it has no end mark.  It is then longer
  than the breaks that it ends in.
-/
def TakesBreaks
    (z : List Char)
    (ls all : List Lexeme) : Prop :=
  (∃ extra,
    all = ls ++ extra ∧ ∀ l ∈ extra, IsBreakOf z l) ∨
    ∃ l ∈ all.getLast?,
      l.token = .unknown ∧
        ∃ d ∈ l.text.getLast?, d ∈ z ∧ l.text ≠ [d]

/- A piece that begins in a text and ends in the breaks behind it. -/
theorem takesBreaks_of_piece
    {v : List Char}
    (hBreaks : ∀ e ∈ v ++ d :: rest, isBreak e = true)
    {token? : Option Token}
    (hScan :
      scan c (w ++ (v ++ d :: rest)) =
        (token?, (w ++ v).length + 1))
    (gap : List Char) :
    TakesBreaks (v ++ d :: rest)
      (lexemesFrom gap (pieces (c :: w)))
      (lexemesFrom gap
        (pieces (c :: w ++ (v ++ d :: rest)))) := by
  have hPieces :
      pieces (c :: w ++ (v ++ d :: rest)) =
        { token? := token?
          text := c :: (w ++ (v ++ [d])) } :: pieces rest := by
    have hText :
        c :: w ++ (v ++ d :: rest) =
          c :: (w ++ (v ++ [d])) ++ rest := by
      simp
    rw [hText, pieces_append]
    simpa [Nat.add_assoc] using hScan
  have hCut
      (hOpen :
        isGapBlank c = true ∨ c = '-' ∧ w.head? = some '-') :
      TakesBreaks (v ++ d :: rest)
        (lexemesFrom gap (pieces (c :: w)))
        (lexemesFrom gap
          (pieces (c :: w ++ (v ++ d :: rest)))) := by
    have hLonger :
        scan c (w ++ ((v ++ [d]) ++ rest)) =
          (token?, (w ++ (v ++ [d])).length) := by
      simpa [Nat.add_assoc] using hScan
    rcases lexemesFrom_of_cut hLonger hOpen gap with
      ⟨rfl, hNone⟩
    rw [hPieces, hNone]
    refine .inl ⟨_, rfl, ?_⟩
    intro l hMember
    have hLater : ∀ e ∈ rest, isBreak e = true :=
      fun e hInside => hBreaks e (by simp [hInside])
    have hSuffix :
        v ++ d :: rest = (v ++ [d]) ++ rest := by
      simp
    rw [hSuffix]
    exact (isBreakOf_of_mem hLater _ l hMember).of_suffix
  have hBreak : isBreak d = true := hBreaks d (by simp)
  rw [← List.append_assoc] at hScan
  rcases scan_break hBreak hScan with
    hBlank | ⟨hLine, hHead, _⟩ | ⟨rfl, hRest⟩
  · exact hCut (.inl hBlank)
  · refine hCut (.inr ⟨hLine, ?_⟩)
    cases w with
    | cons e w => exact hHead
    | nil =>
        cases v with
        | nil => cases hHead
        | cons e v =>
            cases hHead
            exact absurd (hBreaks '-' (by simp)) (by decide)
  · rcases hRest with rfl | rfl
    · rw [hPieces, pieces_nil]
      refine .inr ⟨_, rfl, rfl, d, ?_, by simp, ?_⟩
      · simp [lexemesFrom, List.getLast?_cons]
      · simp [lexemesFrom]
    · exact absurd (hBreaks '*' (by simp)) (by decide)

/- Breaks behind a text add lexemes, or the last lexeme takes them in. -/
theorem takesBreaks_append
    (hBreaks : ∀ d ∈ z, isBreak d = true)
    (x gap : List Char) :
    TakesBreaks z (lexemesFrom gap (pieces x))
      (lexemesFrom gap (pieces (x ++ z))) := by
  generalize hText : x ++ z = y
  induction y using pieces_induction generalizing x gap with
  | hNil =>
      rw [List.append_eq_nil_iff] at hText
      rw [hText.1]
      exact .inl ⟨[], by simp, by simp⟩
  | hCons c w rest token? hScan ih =>
      have hInside
          (x' : List Char)
          (hRest : rest = x' ++ z) :
          TakesBreaks z
            (lexemesFrom gap (pieces (c :: w ++ x')))
            (lexemesFrom gap (pieces (c :: w ++ rest))) := by
        rw [pieces_append hScan]
        rw [hRest] at hScan
        rw [pieces_append (scan_of_append hScan)]
        cases token? with
        | none => exact ih x' (gap ++ (c :: w)) hRest.symm
        | some t =>
            simp only [lexemesFrom]
            rcases ih x' [] hRest.symm with
              ⟨extra, hExtra, hAll⟩ | ⟨l, hLast, hOpen⟩
            · exact .inl ⟨extra, by rw [hExtra]; rfl, hAll⟩
            · refine .inr ⟨l, ?_, hOpen⟩
              rw [List.getLast?_cons, hLast]
              rfl
      rw [List.append_eq_append_iff] at hText
      rcases hText with ⟨z', hPiece, rfl⟩ | ⟨x', rfl, hRest⟩
      · rcases List.eq_nil_or_concat z' with rfl | ⟨v, d, rfl⟩
        · rw [List.append_nil] at hPiece
          subst hPiece
          simpa using hInside [] rfl
        · cases x with
          | nil =>
              refine .inl ⟨_, ?_, isBreakOf_of_mem hBreaks gap⟩
              rw [pieces_nil, hPiece]
              rfl
          | cons e x =>
              rw [List.concat_eq_append, List.cons_append,
                List.cons.injEq] at hPiece
              rcases hPiece with ⟨rfl, rfl⟩
              have hStraddles :=
                takesBreaks_of_piece (w := x) (v := v) (d := d)
                  (by simpa using hBreaks)
                  (by simpa [Nat.add_assoc] using hScan) gap
              simpa using hStraddles
      · exact hInside x' hRest

end Lexer

end Rowstore

------------------------------------------------------------
-- Normalised Text
------------------------------------------------------------

namespace Rowstore

namespace Statement

open Text

/- Leave out blanks and the semicolons before them at the end. -/
def stripped (s : List Char) : List Char :=
  trimEnd (dropEndWhile (fun c => c == ';') (trimEnd s))

theorem stripped_split (s : List Char) :
    ∃ y,
      s = stripped s ++ y ∧
        ∀ c ∈ y, isBlank c = true ∨ c = ';' := by
  rcases dropEndWhile_split isBlank s with
    ⟨y₁, hFirst, hBlank₁⟩
  rcases dropEndWhile_split (fun c => c == ';') (trimEnd s)
    with ⟨y₂, hSecond, hMark⟩
  rcases dropEndWhile_split isBlank
      (dropEndWhile (fun c => c == ';') (trimEnd s))
    with ⟨y₃, hThird, hBlank₃⟩
  refine ⟨y₃ ++ y₂ ++ y₁, ?_, ?_⟩
  · calc
      s = trimEnd s ++ y₁ := hFirst
      _ = stripped s ++ (y₃ ++ y₂ ++ y₁) := by
        rw [hSecond, hThird]
        simp [stripped, trimEnd]
  · intro c hMember
    simp only [List.mem_append] at hMember
    rcases hMember with (hMember | hMember) | hMember
    · exact .inl (hBlank₃ c hMember)
    · exact .inr (beq_iff_eq.mp (hMark c hMember))
    · exact .inl (hBlank₁ c hMember)

/- Blanks are left out in front, and blanks and semicolons at the end. -/
theorem normalize_split (s : List Char) :
    ∃ y,
      s = s.takeWhile isBlank ++ (normalize s ++ y) ∧
        ∀ c ∈ y, isBlank c = true ∨ c = ';' := by
  rcases stripped_split (trimStart s) with ⟨y, hSplit, hBreaks⟩
  refine ⟨y, ?_, hBreaks⟩
  calc
    s = s.takeWhile isBlank ++ trimStart s :=
      List.takeWhile_append_dropWhile.symm
    _ = s.takeWhile isBlank ++ (normalize s ++ y) :=
      congrArg _ hSplit

end Statement

end Rowstore
