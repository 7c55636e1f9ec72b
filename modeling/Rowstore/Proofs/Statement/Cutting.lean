import Rowstore.Proofs.Statement.Scanning

/-
  How the cut of a text depends on its parts.

  The pieces in front of a text are those of the text that
  they make up.  Blanks in front of a piece join the gap
  before it, and a comment between two pieces may just as
  well be a blank.

  Main declarations:
    * `Lexer.pieces_eq_cons_iff` and
      `Lexer.pieces_induction`
    * `Lexer.pieces_of_append`
    * `Lexer.lexemesFrom_blanks` and
      `Lexer.lexemesFrom_spaced`
-/

------------------------------------------------------------
-- Pieces
------------------------------------------------------------

namespace Rowstore

namespace Lexer

variable {c : Char} {w rest : List Char}

theorem pieces_nil : pieces [] = [] := by
  rw [pieces]

/- The first piece of a text, and those of the text behind it. -/
theorem pieces_eq_cons_iff
    {s : List Char}
    {piece : Piece}
    {ps : List Piece} :
    pieces s = piece :: ps ↔
      ∃ c w rest,
        s = c :: w ++ rest ∧ piece.text = c :: w ∧
          scan c (w ++ rest) = (piece.token?, w.length) ∧
            pieces rest = ps := by
  constructor
  · intro hPieces
    cases s with
    | nil =>
        rw [pieces] at hPieces
        cases hPieces
    | cons c s =>
        rw [pieces_cons, List.cons.injEq] at hPieces
        rcases hPieces with ⟨rfl, hRest⟩
        refine ⟨c, _, _, ?_, rfl, ?_, hRest⟩
        · rw [List.cons_append, List.take_append_drop]
        · rw [List.take_append_drop, List.length_take,
            Nat.min_eq_left (scan_le_length c s)]
  · rintro ⟨c, w, rest, rfl, hText, hScan, rfl⟩
    rw [pieces_append hScan, ← hText]

/- A text is done with, or it is a piece with a text behind it. -/
theorem pieces_induction
    {motive : List Char → Prop}
    (hNil : motive [])
    (hCons :
      ∀ c w rest token?,
        scan c (w ++ rest) = (token?, w.length) →
          motive rest → motive (c :: w ++ rest))
    (s : List Char) :
    motive s := by
  generalize hPieces : pieces s = ps
  induction ps generalizing s with
  | nil =>
      cases s with
      | nil => exact hNil
      | cons c s =>
          rw [pieces_cons] at hPieces
          cases hPieces
  | cons piece ps ih =>
      rcases pieces_eq_cons_iff.mp hPieces with
        ⟨c, w, rest, rfl, _, hScan, hRest⟩
      exact hCons c w rest _ hScan (ih rest hRest)

/- Every piece is scanned somewhere in the text. -/
theorem scan_of_mem_pieces
    {s : List Char}
    {p : Piece}
    (hMember : p ∈ pieces s) :
    ∃ c w rest,
      p.text = c :: w ∧
        scan c (w ++ rest) = (p.token?, w.length) := by
  induction s using pieces_induction with
  | hNil =>
      rw [pieces_nil] at hMember
      cases hMember
  | hCons c w rest token? hScan ih =>
      rw [pieces_append hScan] at hMember
      rcases List.mem_cons.mp hMember with rfl | hLater
      · exact ⟨c, w, rest, rfl, hScan⟩
      · exact ih hLater

/- A piece does not change if the text behind it is cut off. -/
theorem scan_of_append
    {b : List Char}
    {token? : Option Token}
    (hScan : scan c (w ++ (rest ++ b)) = (token?, w.length)) :
    scan c (w ++ rest) = (token?, w.length) := by
  by_cases hGap : isGapBlank c = true
  · unfold scan at hScan ⊢
    rw [if_pos hGap, Prod.mk.injEq, runLength_append_iff]
      at hScan
    rcases hScan with ⟨hToken, hInside, hEnd⟩
    have hEnd' : startsWith isGapBlank rest = false := by
      cases rest with
      | nil => rfl
      | cons d rest => exact hEnd
    rw [if_pos hGap, runLength_append hInside hEnd', hToken]
  · have hMilder : Milder (rest ++ b) rest := by
      simpa using (Milder.ends b).append rest
    exact scan_milder hMilder hGap hScan

/- The pieces of a text in front of others are the pieces of that text. -/
theorem pieces_of_append
    {a b : List Char}
    {ps qs : List Piece}
    (hPieces : pieces (a ++ b) = ps ++ qs)
    (hText : ps.flatMap Piece.text = a) :
    pieces a = ps := by
  subst hText
  induction ps with
  | nil =>
      rw [List.flatMap_nil, pieces]
  | cons piece ps ih =>
      rw [List.cons_append] at hPieces
      rcases pieces_eq_cons_iff.mp hPieces with
        ⟨c, w, rest, hSplit, hText, hScan, hRest⟩
      rw [List.flatMap_cons, hText, List.append_assoc,
        List.append_cancel_left_eq] at hSplit
      subst hSplit
      rw [pieces_eq_cons_iff]
      exact
        ⟨c, w, _, by rw [List.flatMap_cons, hText], hText,
          scan_of_append hScan, ih hRest⟩

------------------------------------------------------------
-- Blanks For Comments
------------------------------------------------------------

/- Blanks in front of a text join the gap. -/
theorem lexemesFrom_skipped
    (gap s : List Char) :
    lexemesFrom gap (pieces s) =
      lexemesFrom (gap ++ s.takeWhile isGapBlank)
        (pieces (s.dropWhile isGapBlank)) := by
  cases s with
  | nil =>
      rw [List.takeWhile_nil, List.dropWhile_nil,
        List.append_nil]
  | cons c s =>
      by_cases hGap : isGapBlank c = true
      · rw [List.takeWhile_cons_of_pos hGap,
          List.dropWhile_cons_of_pos hGap, pieces_cons]
        unfold scan
        rw [if_pos hGap, take_runLength, drop_runLength]
        rfl
      · rw [List.takeWhile_cons_of_neg hGap,
          List.dropWhile_cons_of_neg hGap, List.append_nil]

theorem lexemesFrom_blanks
    {b : List Char}
    (hBlank : ∀ c ∈ b, isGapBlank c = true)
    (gap s : List Char) :
    lexemesFrom gap (pieces (b ++ s)) =
      lexemesFrom (gap ++ b) (pieces s) := by
  rw [lexemesFrom_skipped,
    List.takeWhile_append_of_pos hBlank,
    List.dropWhile_append_of_pos hBlank,
    lexemesFrom_skipped _ s, List.append_assoc]

theorem lexemes_blanks
    {b : List Char}
    (hBlank : ∀ c ∈ b, isGapBlank c = true)
    (s : List Char) :
    lexemes (b ++ s) = Lexeme.prependGap b (lexemes s) := by
  unfold lexemes
  rw [lexemesFrom_blanks hBlank, ← lexemesFrom_append]
  simp

/- A blank may take the place of a comment. -/
theorem lexemesFrom_spaced
    {s k : List Char}
    {ps qs : List Piece}
    (hPieces :
      pieces s =
        ps ++
          { token? := none
            text := k } :: qs)
    (hComment : ∃ c ∈ k.head?, c = '-' ∨ c = '/')
    (gap : List Char) :
    lexemesFrom gap
        (pieces
          (ps.flatMap Piece.text ++
            ' ' :: qs.flatMap Piece.text)) =
      lexemesFrom gap
        (ps ++
          { token? := none
            text := [' '] } :: qs) := by
  induction ps generalizing s gap with
  | nil =>
      rcases pieces_eq_cons_iff.mp hPieces with
        ⟨_, _, rest, _, _, _, rfl⟩
      rw [flatMap_text_pieces]
      refine lexemesFrom_blanks (b := [' ']) ?_ gap rest
      simp [isGapBlank]
  | cons piece ps ih =>
      rcases pieces_eq_cons_iff.mp hPieces with
        ⟨c, w, rest, rfl, hText, hScan, hRest⟩
      have hSource :
          rest =
            ps.flatMap Piece.text ++
              (k ++ qs.flatMap Piece.text) := by
        rw [← flatMap_text_pieces rest, hRest]
        simp
      rw [List.flatMap_cons, hText, List.append_assoc]
      by_cases hGap : isGapBlank c = true
      · unfold scan at hScan
        rw [if_pos hGap, Prod.mk.injEq,
          runLength_append_iff] at hScan
        rw [lexemesFrom_blanks, ih hRest, List.cons_append]
        · simp only [lexemesFrom, ← hScan.1, hText]
        · exact List.forall_mem_cons.mpr ⟨hGap, hScan.2.1⟩
      · have hMilder :
            Milder rest
              (ps.flatMap Piece.text ++
                ' ' :: qs.flatMap Piece.text) := by
          rw [hSource]
          apply Milder.append
          rcases hComment with ⟨d, hHead, hOpens⟩
          cases k with
          | nil => cases hHead
          | cons e k =>
              cases hHead
              exact .blank hOpens _
        rw [pieces_append (scan_milder hMilder hGap hScan),
          List.cons_append]
        simp only [lexemesFrom, hText, ih hRest]

end Lexer

end Rowstore
