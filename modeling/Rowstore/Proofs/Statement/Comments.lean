import Mathlib.Algebra.Group.Nat.Even
import Rowstore.Proofs.Statement.Lexing

/-
  Where block comments end.

  Inside of a comment, a star is read together with the
  character after it.  So a comment ends at its first closing
  mark only if the number of stars right before that mark is
  even.  After an odd number the closing mark is passed over,
  and the comment goes on as if it had been opened there.

  Main declarations:
    * `Lexer.endStars`
    * `Lexer.commentLength_append`
    * `Lexer.comment_ends_iff_even`
-/

------------------------------------------------------------
-- Stars At The End
------------------------------------------------------------

namespace Rowstore

namespace Lexer

/- The number of stars at the end of a text. -/
def endStars (s : List Char) : Nat :=
  (s.reverse.takeWhile fun c => c == '*').length

theorem endStars_le (s : List Char) :
    endStars s ≤ s.length := by
  have hLength :=
    (List.takeWhile_sublist (l := s.reverse)
      fun c => c == '*').length_le
  rwa [List.length_reverse] at hLength

/- A further star in front counts only if there is nothing else. -/
theorem endStars_cons
    (c : Char)
    (s : List Char) :
    endStars (c :: s) =
      if c = '*' ∧ endStars s = s.length then
        endStars s + 1
      else endStars s := by
  unfold endStars
  rw [List.reverse_cons, List.takeWhile_append,
    List.length_reverse]
  by_cases hAll :
      (s.reverse.takeWhile fun c => c == '*').length =
        s.length
  · by_cases hStar : c = '*'
    · simp [hAll, hStar]
    · simp [hAll, hStar]
  · simp [hAll]

theorem endStars_plain
    {c : Char}
    (hPlain : c ≠ '*')
    (s : List Char) :
    endStars (c :: s) = endStars s := by
  rw [endStars_cons, if_neg fun h => hPlain h.1]

/- A star and what is read with it add two stars at the end, or none. -/
theorem even_endStars_pair
    (c : Char)
    (s : List Char) :
    Even (endStars ('*' :: c :: s)) ↔
      Even (endStars s) := by
  have hLe := endStars_le s
  rw [endStars_cons, endStars_cons, List.length_cons]
  by_cases hAll : c = '*' ∧ endStars s = s.length
  · rw [if_pos hAll, if_pos ⟨rfl, by omega⟩, Nat.even_iff,
      Nat.even_iff]
    omega
  · rw [if_neg hAll, if_neg (by omega)]

------------------------------------------------------------
-- The Length Of A Comment
------------------------------------------------------------

theorem commentLength_plain
    {c : Char}
    (hPlain : c ≠ '*')
    (s : List Char) :
    commentLength (c :: s) =
      ((commentLength s).1 + 1, (commentLength s).2) := by
  rw [commentLength]
  · exact fun h _ => hPlain h
  · exact fun _ h _ => hPlain h
  · exact fun _ _ h _ => hPlain h

theorem commentLength_pair
    {c : Char}
    (hOpen : c ≠ '/')
    (s : List Char) :
    commentLength ('*' :: c :: s) =
      ((commentLength s).1 + 2, (commentLength s).2) := by
  rw [commentLength]
  exact hOpen

/-
  A text without a closing mark, and a closing mark: either
  this mark closes the comment, or it is passed over like any
  other text.
-/
theorem commentLength_append
    {body : List Char}
    (hOpen : ¬['*', '/'] <:+: body)
    (rest : List Char) :
    commentLength (body ++ '*' :: '/' :: rest) =
      if Even (endStars body) then (body.length + 2, true)
      else
        (body.length + 2 + (commentLength rest).1,
          (commentLength rest).2) := by
  fun_induction commentLength body with
  | case1 => rfl
  | case2 =>
      -- The only star hides the closing mark.
      have hStep :
          commentLength ('*' :: '*' :: '/' :: rest) =
            ((commentLength rest).1 + 3,
              (commentLength rest).2) := by
        rw [commentLength_pair (by decide),
          commentLength_plain (by decide)]
      rw [List.singleton_append, hStep, if_neg (by decide),
        Nat.add_comm]
      rfl
  | case3 s =>
      have hInfix : ['*', '/'] <:+: '*' :: '/' :: s :=
        (List.prefix_append ['*', '/'] s).isInfix
      exact absurd hInfix hOpen
  | case4 c s hNoSlash n closed hRest ih =>
      have hLater : ¬['*', '/'] <:+: s := fun hInfix =>
        hOpen
          (hInfix.trans
            (List.suffix_append ['*', c] s).isInfix)
      simp only [List.cons_append,
        commentLength_pair hNoSlash, ih hLater,
        even_endStars_pair, List.length_cons]
      split
      · rfl
      · rw [Prod.mk.injEq]
        exact ⟨by omega, rfl⟩
  | case5 c s hAlone hClosing hPair n closed hRest ih =>
      have hPlain : c ≠ '*' := by
        rintro rfl
        cases s with
        | nil => exact hAlone rfl rfl
        | cons d s => exact hPair d s rfl rfl
      have hLater : ¬['*', '/'] <:+: s := fun hInfix =>
        hOpen (hInfix.trans (List.suffix_cons c s).isInfix)
      simp only [List.cons_append,
        commentLength_plain hPlain, ih hLater,
        endStars_plain hPlain, List.length_cons]
      split
      · rfl
      · rw [Prod.mk.injEq]
        exact ⟨by omega, rfl⟩

------------------------------------------------------------
-- Tokens After A Comment
------------------------------------------------------------

/- A text between the marks of a block comment. -/
def blockComment (body : List Char) : List Char :=
  '/' :: '*' :: body ++ ['*', '/']

theorem blockComment_append
    (body rest : List Char) :
    blockComment body ++ rest =
      '/' :: '*' :: (body ++ '*' :: '/' :: rest) := by
  simp [blockComment]

theorem scan_comment (s : List Char) :
    scan '/' ('*' :: s) =
      (if (commentLength s).2 then none
        else some .unknown,
        1 + (commentLength s).1) := rfl

/- After a comment that is closed the tokens are those of the rest. -/
theorem lexemes_blockComment
    {body : List Char}
    (hOpen : ¬['*', '/'] <:+: body)
    (hEven : Even (endStars body))
    (rest : List Char) :
    lexemes (blockComment body ++ rest) =
      Lexeme.prependGap (blockComment body)
        (lexemes rest) := by
  have hLength := commentLength_append hOpen rest
  rw [if_pos hEven] at hLength
  apply lexemes_of_gap
  apply pieces_append (s := '*' :: body ++ ['*', '/'])
  have hText :
      '*' :: body ++ ['*', '/'] ++ rest =
        '*' :: (body ++ '*' :: '/' :: rest) := by
    simp
  rw [hText, scan_comment, hLength]
  simp [Nat.add_comm]

/-
  The tokens of a text that begins a comment, by where the
  comment ends.
-/
theorem tokens_comment (s : List Char) :
    (lexemes ('/' :: '*' :: s)).map Lexeme.token =
      (if (commentLength s).2 then [] else [.unknown]) ++
        (lexemes (s.drop (commentLength s).1)).map
          Lexeme.token := by
  have hDrop :
      ('*' :: s).drop (1 + (commentLength s).1) =
        s.drop (commentLength s).1 := by
    rw [Nat.add_comm]
    rfl
  unfold lexemes
  rw [tokens_lexemesFrom, tokens_lexemesFrom, pieces_cons,
    scan_comment]
  simp only [hDrop]
  cases (commentLength s).2 with
  | true => rfl
  | false => rfl

/- A closing mark after an odd number of stars is passed over. -/
theorem tokens_blockComment_of_odd
    {body : List Char}
    (hOpen : ¬['*', '/'] <:+: body)
    (hOdd : ¬Even (endStars body))
    (rest : List Char) :
    (lexemes (blockComment body ++ rest)).map
        Lexeme.token =
      (lexemes ('/' :: '*' :: rest)).map Lexeme.token := by
  have hLength := commentLength_append hOpen rest
  rw [if_neg hOdd] at hLength
  have hDrop :
      (body ++ '*' :: '/' :: rest).drop
          (body.length + 2 + (commentLength rest).1) =
        rest.drop (commentLength rest).1 := by
    rw [Nat.add_assoc, List.drop_length_add_append,
      Nat.add_comm]
    rfl
  rw [blockComment_append, tokens_comment, tokens_comment,
    hLength]
  simp only [hDrop]

/-
  A block comment ends at its first closing mark, whatever
  follows, exactly if an even number of stars stands before
  that mark.  After an odd number the tokens are those of a
  comment that is opened only behind the mark.
-/
theorem comment_ends_iff_even
    {body : List Char}
    (hOpen : ¬['*', '/'] <:+: body) :
    ((∀ rest,
      spannedTokens (blockComment body ++ rest) =
        (spannedTokens rest).map
          (shiftSpan
            (Lexeme.byteSize (blockComment body)))) ↔
      Even (endStars body)) ∧
      (¬Even (endStars body) →
        ∀ rest,
          (lexemes (blockComment body ++ rest)).map
              Lexeme.token =
            (lexemes ('/' :: '*' :: rest)).map
              Lexeme.token) := by
  refine ⟨⟨?_, ?_⟩, tokens_blockComment_of_odd hOpen⟩
  · intro hEnds
    by_contra hOdd
    -- With nothing behind it, the comment is never closed.
    have hOne :
        (lexemes (blockComment body ++ [])).map
            Lexeme.token = [.unknown] := by
      rw [tokens_blockComment_of_odd hOpen hOdd,
        tokens_comment, List.drop_nil, lexemes_nil]
      rfl
    rw [← map_fst_spannedTokens, hEnds [], spannedTokens,
      lexemes_nil] at hOne
    cases hOne
  · intro hEven rest
    exact spannedTokens_of_gap
      (lexemes_blockComment hOpen hEven rest)

/- Two stars before the closing mark do not hide it. -/
theorem comment_with_two_stars_ends :
    ¬['*', '/'] <:+: [' ', '*', '*'] ∧
      ∀ rest,
        spannedTokens
            (blockComment [' ', '*', '*'] ++ rest) =
          (spannedTokens rest).map (shiftSpan 7) := by
  have hOpen : ¬['*', '/'] <:+: [' ', '*', '*'] := by
    decide
  exact
    ⟨hOpen,
      (comment_ends_iff_even hOpen).1.mpr (by decide)⟩

/- One star before the closing mark hides it, and the word behind it is lost. -/
theorem comment_with_one_star_goes_on :
    ¬['*', '/'] <:+: ['*'] ∧
      (spannedTokens ['x']).map
          (shiftSpan (Lexeme.byteSize (blockComment ['*']))) =
        [(.name ['x'], (5, 6))] ∧
      spannedTokens (blockComment ['*'] ++ ['x']) =
        [(.unknown, (0, 6))] := by
  decide +kernel

end Lexer

end Rowstore
