import Rowstore.Statement.Lexer

/-
  How a text is cut into lexemes from its start.

  A text of lexemes is cut into these lexemes again if each
  of them stands before the text that follows it: its gap is
  blank, and its own text is the longest piece there.  A gap
  in front of a text moves the byte ranges of its tokens.

  Main declarations:
    * `Lexer.pieces_cons` and `Lexer.tokens_lexemesFrom`
    * `Lexer.spannedTokens` and
      `Lexer.spannedTokens_of_gap`
    * `Lexer.scan_of_token`
    * `Lexeme.StandsBefore` and `Lexer.lexemes_append`
    * `Lexeme.Standing` and `Lexer.lexemes_fullText`
-/

------------------------------------------------------------
-- Byte Ranges
------------------------------------------------------------

namespace Rowstore

namespace Lexeme

theorem byteSize_append (s t : List Char) :
    byteSize (s ++ t) = byteSize s + byteSize t := by
  induction s with
  | nil => exact (Nat.zero_add _).symm
  | cons c s ih =>
      simp only [List.cons_append, byteSize, ih,
        Nat.add_assoc]

theorem byteSpansFrom_add
    (m n : Nat)
    (ls : List Lexeme) :
    byteSpansFrom (m + n) ls =
      (byteSpansFrom m ls).map fun r =>
        (r.1 + n, r.2 + n) := by
  induction ls generalizing m with
  | nil => rfl
  | cons l ls ih =>
      have hStart :
          m + n + byteSize l.gap =
            m + byteSize l.gap + n := by
        omega
      have hEnd :
          m + byteSize l.gap + n + byteSize l.text =
            m + byteSize l.gap + byteSize l.text + n := by
        omega
      simp only [byteSpansFrom, List.map_cons, hStart, hEnd,
        ih]

theorem length_byteSpansFrom
    (n : Nat)
    (ls : List Lexeme) :
    (byteSpansFrom n ls).length = ls.length := by
  induction ls generalizing n with
  | nil => rfl
  | cons l ls ih =>
      simp only [byteSpansFrom, List.length_cons, ih]

/- Put a text in front of the first gap. -/
def prependGap (s : List Char) : List Lexeme → List Lexeme :=
  List.modifyHead fun l => { l with gap := s ++ l.gap }

theorem tokens_prependGap
    (s : List Char)
    (ls : List Lexeme) :
    (prependGap s ls).map token = ls.map token := by
  cases ls with
  | nil => rfl
  | cons l ls => rfl

theorem byteSpansFrom_prependGap
    (s : List Char)
    (n : Nat)
    (ls : List Lexeme) :
    byteSpansFrom n (prependGap s ls) =
      byteSpansFrom (n + byteSize s) ls := by
  cases ls with
  | nil => rfl
  | cons l ls =>
      simp only [prependGap, List.modifyHead_cons,
        byteSpansFrom, byteSize_append, Nat.add_assoc]

end Lexeme

end Rowstore

------------------------------------------------------------
-- Pieces And Gaps
------------------------------------------------------------

namespace Rowstore

namespace Lexer

theorem lexemes_nil : lexemes [] = [] := by
  unfold lexemes
  rw [pieces]
  rfl

theorem pieces_cons
    (c : Char)
    (s : List Char) :
    pieces (c :: s) =
      { token? := (scan c s).1
        text := c :: s.take (scan c s).2 } ::
        pieces (s.drop (scan c s).2) := by
  rw [pieces]

/- The first piece of a text, when it is known where it ends. -/
theorem pieces_append
    {c : Char}
    {s rest : List Char}
    {token? : Option Token}
    (hScan : scan c (s ++ rest) = (token?, s.length)) :
    pieces (c :: s ++ rest) =
      { token? := token?
        text := c :: s } :: pieces rest := by
  rw [List.cons_append, pieces_cons, hScan]
  simp only [List.take_left, List.drop_left]

theorem lexemesFrom_append
    (s gap : List Char)
    (ps : List Piece) :
    lexemesFrom (s ++ gap) ps =
      Lexeme.prependGap s (lexemesFrom gap ps) := by
  induction ps generalizing gap with
  | nil => rfl
  | cons p ps ih =>
      cases hToken : p.token? with
      | none =>
          simp only [lexemesFrom, hToken]
          rw [List.append_assoc, ih]
      | some t =>
          simp only [lexemesFrom, hToken, Lexeme.prependGap,
            List.modifyHead_cons]

/- The tokens of a text are those of its pieces, whatever the gaps. -/
theorem tokens_lexemesFrom
    (gap : List Char)
    (ps : List Piece) :
    (lexemesFrom gap ps).map Lexeme.token =
      ps.filterMap Piece.token? := by
  induction ps generalizing gap with
  | nil => rfl
  | cons p ps ih =>
      cases hToken : p.token? with
      | none => simp [lexemesFrom, hToken, ih]
      | some t => simp [lexemesFrom, hToken, ih]

/- A piece without a token is a gap before what follows it. -/
theorem lexemes_of_gap
    {s rest gap : List Char}
    (hPieces :
      pieces s =
        { token? := none
          text := gap } :: pieces rest) :
    lexemes s = Lexeme.prependGap gap (lexemes rest) := by
  unfold lexemes
  rw [hPieces]
  simp only [lexemesFrom, List.nil_append]
  rw [← lexemesFrom_append, List.append_nil]

/- The tokens of a text, each with its byte range. -/
def spannedTokens
    (s : List Char) : List (Token × (Nat × Nat)) :=
  ((lexemes s).map Lexeme.token).zip
    (Lexeme.byteSpans (lexemes s))

theorem map_fst_spannedTokens (s : List Char) :
    (spannedTokens s).map Prod.fst =
      (lexemes s).map Lexeme.token := by
  apply List.map_fst_zip
  rw [List.length_map]
  exact Nat.le_of_eq
    (Lexeme.length_byteSpansFrom 0 (lexemes s)).symm

/- The same token some bytes later. -/
def shiftSpan
    (n : Nat)
    (t : Token × (Nat × Nat)) : Token × (Nat × Nat) :=
  (t.1, t.2.1 + n, t.2.2 + n)

/- After a longer gap the same tokens come later. -/
theorem spannedTokens_of_gap
    {s rest gap : List Char}
    (hGap :
      lexemes s = Lexeme.prependGap gap (lexemes rest)) :
    spannedTokens s =
      (spannedTokens rest).map
        (shiftSpan (Lexeme.byteSize gap)) := by
  unfold spannedTokens Lexeme.byteSpans
  rw [hGap, Lexeme.tokens_prependGap,
    Lexeme.byteSpansFrom_prependGap,
    Lexeme.byteSpansFrom_add, List.zip_map_right]
  rfl

end Lexer

end Rowstore

------------------------------------------------------------
-- Single Pieces
------------------------------------------------------------

namespace Rowstore

namespace Lexer

/- The length of a fraction after some digits. -/
def fractionLength
    (whole : Nat) : List Char → Nat
| '.' :: t =>
  let digits := runLength Decimal.isDigit t
  if whole = 0 && digits = 0 then 0 else 1 + digits
| _ => 0

theorem unsignedLength_eq (s : List Char) :
    unsignedLength s =
      let whole := runLength Decimal.isDigit s
      let afterWhole := s.drop whole
      let fraction := fractionLength whole afterWhole
      if whole + fraction = 0 then 0
      else
        whole + fraction +
          exponentLength (afterWhole.drop fraction) := rfl

theorem stringLength_cons_of_ne
    {q c : Char}
    (hOther : c ≠ q)
    {s : List Char}
    (hMore : s ≠ []) :
    stringLength q (c :: s) =
      ((stringLength q s).1 + 1, (stringLength q s).2) := by
  cases s with
  | nil => contradiction
  | cons d s =>
      rw [stringLength, if_neg (by simpa using hOther)]

theorem stringLength_end
    {q : Char}
    {rest : List Char}
    (hEnd : startsWith (fun c => c == q) rest = false) :
    stringLength q (q :: rest) = (1, true) := by
  cases rest with
  | nil => simp [stringLength]
  | cons c rest =>
      have hOther : (c == q) = false := hEnd
      simp [stringLength, hOther]

/- A second character counts only where it is an equals or a greater-than sign. -/
theorem scanMark_congr
    (c : Char)
    {d e : Char}
    (hEqual : d = '=' ↔ e = '=')
    (hGreater : d = '>' ↔ e = '>')
    (s t : List Char) :
    scanMark c (d :: s) = scanMark c (e :: t) := by
  unfold scanMark
  split <;> simp_all

theorem isWordPart_of_isWordStart
    {c : Char}
    (hStart : isWordStart c = true) :
    isWordPart c = true := by
  unfold isWordStart at hStart
  unfold isWordPart Char.isAlphanum
  rw [Bool.or_eq_true] at hStart
  rcases hStart with hLetter | hLine
  · rw [hLetter]
    rfl
  · rw [hLine]
    simp

/- What starts no gap and no comment starts a token. -/
theorem scan_of_token
    {c : Char}
    {s : List Char}
    (hGap : ¬isGapBlank c = true)
    (hLine : ¬(c = '-' ∧ s.head? = some '-'))
    (hBlock : ¬(c = '/' ∧ s.head? = some '*')) :
    scan c s =
      (some (scanToken c s).1, (scanToken c s).2) := by
  unfold scan
  rw [if_neg hGap]
  split
  · exact (hLine ⟨rfl, rfl⟩).elim
  · exact (hBlock ⟨rfl, rfl⟩).elim
  · rfl

end Lexer

end Rowstore

------------------------------------------------------------
-- Texts Of Lexemes
------------------------------------------------------------

namespace Rowstore

/-
  In front of a text, a lexeme is read from its own text: its
  gap is blank, and no longer piece starts behind the gap.
-/
structure Lexeme.StandsBefore
    (rest : List Char)
    (l : Lexeme) : Prop where
  gap : ∀ c ∈ l.gap, Lexer.isGapBlank c = true
  text :
    ∃ c s,
      l.text = c :: s ∧
        Lexer.scan c (s ++ rest) = (some l.token, s.length)

/- Each lexeme stands before the text of those behind it. -/
inductive Lexeme.Standing : List Lexeme → Prop where
| nil : Standing []
| cons
    {l : Lexeme}
    {ls : List Lexeme}
    (hStands : l.StandsBefore (fullText ls))
    (hRest : Standing ls) :
    Standing (l :: ls)

namespace Lexer

theorem take_runLength
    (p : Char → Bool)
    (s : List Char) :
    s.take (runLength p s) = s.takeWhile p :=
  (List.prefix_iff_eq_take.mp
    (List.takeWhile_prefix p)).symm

theorem drop_runLength
    (p : Char → Bool)
    (s : List Char) :
    s.drop (runLength p s) = s.dropWhile p := by
  have hSplit :
      s.takeWhile p ++ s.drop (runLength p s) =
        s.takeWhile p ++ s.dropWhile p := by
    rw [← take_runLength, List.take_append_drop,
      take_runLength, List.takeWhile_append_dropWhile]
  exact List.append_cancel_left hSplit

/- A run of characters ends where the next one is of another kind. -/
theorem runLength_append
    {p : Char → Bool}
    {s rest : List Char}
    (hRun : ∀ c ∈ s, p c = true)
    (hEnd : startsWith p rest = false) :
    runLength p (s ++ rest) = s.length := by
  have hRest : rest.takeWhile p = [] := by
    cases rest with
    | nil => rfl
    | cons c rest =>
        rw [List.takeWhile_cons_of_neg]
        rw [Bool.not_eq_true]
        exact hEnd
  unfold runLength
  rw [List.takeWhile_append_of_pos hRun, hRest,
    List.append_nil]

/- No token starts with a blank. -/
theorem isGapBlank_eq_false_of_scan
    {c : Char}
    {s : List Char}
    {t : Token}
    {n : Nat}
    (hScan : scan c s = (some t, n)) :
    isGapBlank c = false := by
  rw [Bool.eq_false_iff]
  intro hBlank
  unfold scan at hScan
  rw [if_pos hBlank] at hScan
  cases hScan

/- A lexeme that stands before a text is the first one that is read. -/
theorem lexemes_append
    {l : Lexeme}
    {rest : List Char}
    (hStands : l.StandsBefore rest) :
    lexemes (l.gap ++ (l.text ++ rest)) =
      l :: lexemes rest := by
  rcases l with ⟨gap, text, token⟩
  rcases hStands with ⟨hGap, c, s, rfl, hScan⟩
  have hToken :
      lexemes (c :: s ++ rest) =
        { gap := []
          text := c :: s
          token := token } :: lexemes rest := by
    unfold lexemes
    rw [pieces_append hScan]
    rfl
  cases gap with
  | nil => exact hToken
  | cons g gap =>
      rw [List.forall_mem_cons] at hGap
      have hEnd :
          startsWith isGapBlank (c :: s ++ rest) = false :=
        isGapBlank_eq_false_of_scan hScan
      have hBlank :
          scan g (gap ++ (c :: s ++ rest)) =
            (none, gap.length) := by
        unfold scan
        rw [if_pos hGap.1, runLength_append hGap.2 hEnd]
      rw [lexemes_of_gap (pieces_append hBlank), hToken]
      simp [Lexeme.prependGap]

/- A text is cut into the lexemes it was made of. -/
theorem lexemes_fullText
    {ls : List Lexeme}
    (hStanding : Lexeme.Standing ls) :
    lexemes (Lexeme.fullText ls) = ls := by
  induction hStanding with
  | nil => exact lexemes_nil
  | @cons l ls hStands _ ih =>
      have hText :
          Lexeme.fullText (l :: ls) =
            l.gap ++ (l.text ++ Lexeme.fullText ls) :=
        List.append_assoc _ _ _
      rw [hText, lexemes_append hStands, ih]

end Lexer

end Rowstore
