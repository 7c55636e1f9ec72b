import Rowstore.Proofs.Statement.Lowering
import Rowstore.Proofs.Statement.Payloads
import Rowstore.Proofs.Text.Raising

/-
  A text in capitals is cut into the tokens of the text
  itself, with capitals in what they carry.

  Both texts have the same small letters, so their pieces are
  equally long and of the same kinds; and what a token carries
  is settled by its own text.

  Main declarations:
    * `Token.raised`
    * `Lexer.scan_upperBasic`
    * `Lexer.spannedTokens_upperBasic`
-/

------------------------------------------------------------
-- Raised Tokens
------------------------------------------------------------

namespace Rowstore

open Text

/- The token with capitals in the string or name that it carries. -/
def Token.raised : Token → Token
| .string q content => .string q (upperBasic content)
| .name text => .name (upperBasic text)
| .quotedName text => .quotedName (upperBasic text)
| t => t

/- The lexeme with its letters raised. -/
def Lexeme.raised (l : Lexeme) : Lexeme :=
  { gap := upperBasic l.gap
    text := upperBasic l.text
    token := l.token.raised }

/- The piece with its letters raised. -/
def Lexer.Piece.raised (p : Piece) : Piece :=
  { token? := p.token?.map Token.raised
    text := upperBasic p.text }

theorem Value.doubled_upperBasic
    {mark : Char}
    (hMark : mark.isAlpha = false)
    (s : List Char) :
    doubled mark (upperBasic s) =
      upperBasic (doubled mark s) := by
  have hSame : mark.toUpper = mark :=
    (toUpper_eq_iff hMark mark).mpr rfl
  induction s with
  | nil => rfl
  | cons c s ih =>
      rw [upperBasic_cons, doubled, doubled, ih]
      simp only [toUpper_eq_iff hMark]
      split
      · rw [upperBasic_cons, upperBasic_cons, hSame]
      · rfl

namespace Token

/- A token of the raised text that is the same in small letters is the raised token. -/
theorem eq_raised
    {t t' : Token}
    {text : List Char}
    (hText : t.WrittenAs text)
    (hRaised : t'.WrittenAs (upperBasic text))
    (hLowered : t'.lowered = t.lowered) :
    t' = t.raised := by
  cases t with
  | string q content =>
      cases t' with
      | string q' content' =>
          have hQuote : q' = q := (Token.string.inj hLowered).1
          subst hQuote
          have hMark : q'.char.isAlpha = false := by
            cases q' <;> rfl
          have hSame : q'.char.toUpper = q'.char :=
            (toUpper_eq_iff hMark _).mpr rfl
          have hEnd : upperBasic [q'.char] = [q'.char] :=
            congrArg (fun c => [c]) hSame
          have hDoubled :
              Value.doubled q'.char (upperBasic content) =
                Value.doubled q'.char content' := by
            rw [WrittenAs] at hText hRaised
            rw [hText, upperBasic_cons, upperBasic_append,
              hSame, hEnd, List.cons.injEq] at hRaised
            rw [Value.doubled_upperBasic hMark]
            exact List.append_cancel_right hRaised.2
          have hContent :=
            congrArg (Value.undouble q'.char) hDoubled
          rw [Value.undouble_doubled, Value.undouble_doubled]
            at hContent
          rw [raised, hContent]
      | _ => cases hLowered
  | name word =>
      cases t' with
      | name word' =>
          rw [WrittenAs] at hText hRaised
          rw [raised, ← hText, hRaised]
      | _ => cases hLowered
  | quotedName word =>
      cases t' with
      | quotedName word' =>
          rw [WrittenAs] at hText hRaised
          rw [hText, upperBasic_cons, upperBasic_append,
            List.cons.injEq] at hRaised
          rw [raised,
            List.append_cancel_right hRaised.2]
      | _ => cases hLowered
  | keyword | comparison | mark | number | unknown =>
      cases t' <;> first | exact hLowered | cases hLowered

end Token

namespace Lexer

/- A piece of a raised text is as long as that of the text. -/
theorem scan_upperBasic
    {c : Char}
    {w rest : List Char}
    {token? : Option Token}
    (hScan : scan c (w ++ rest) = (token?, w.length)) :
    scan c.toUpper (upperBasic (w ++ rest)) =
      (token?.map Token.raised, w.length) := by
  have hBoth :=
    (scan_lowerBasic c.toUpper (upperBasic (w ++ rest))).symm
  rw [toLower_toUpper, lowerBasic_upperBasic,
    scan_lowerBasic, hScan, Prod.mk.injEq] at hBoth
  rcases hBoth with ⟨hToken, hLength⟩
  dsimp only at hToken
  refine Prod.ext ?_ hLength
  dsimp only
  cases hRaised :
      (scan c.toUpper (upperBasic (w ++ rest))).1 with
  | none =>
      rw [hRaised, Option.map_none, eq_comm,
        Option.map_eq_none_iff] at hToken
      rw [hToken]
      rfl
  | some t' =>
      rw [hRaised, Option.map_some, eq_comm,
        Option.map_eq_some_iff] at hToken
      rcases hToken with ⟨t, rfl, hLowered⟩
      have hOwn :
          scan c.toUpper (upperBasic w ++ upperBasic rest) =
            (some t', (upperBasic w).length) := by
        rw [← upperBasic_append, length_upperBasic]
        exact Prod.ext hRaised hLength
      exact
        congrArg some
          (Token.eq_raised (writtenAs_of_scan hScan)
            (writtenAs_of_scan hOwn) hLowered.symm)

theorem pieces_upperBasic (s : List Char) :
    pieces (upperBasic s) = (pieces s).map Piece.raised := by
  induction s using pieces_induction with
  | hNil =>
      rw [show upperBasic [] = [] from rfl, pieces_nil]
      rfl
  | hCons c w rest token? hScan ih =>
      have hRaised := scan_upperBasic hScan
      rw [upperBasic_append, ← length_upperBasic w] at hRaised
      rw [pieces_append hScan, upperBasic_append,
        upperBasic_cons, pieces_append hRaised, ih]
      rfl

theorem byteSpansFrom_raised
    (n : Nat)
    (ls : List Lexeme) :
    Lexeme.byteSpansFrom n (ls.map Lexeme.raised) =
      Lexeme.byteSpansFrom n ls := by
  induction ls generalizing n with
  | nil => rfl
  | cons l ls ih =>
      simp only [List.map_cons, Lexeme.byteSpansFrom,
        Lexeme.raised, byteSize_upperBasic, ih]

theorem lexemes_upperBasic (s : List Char) :
    lexemes (upperBasic s) = (lexemes s).map Lexeme.raised := by
  unfold lexemes
  rw [pieces_upperBasic]
  exact lexemesFrom_map Token.raised Char.toUpper [] (pieces s)

/-
  A text in capitals has the tokens of the text itself, at the
  same places: of the same kinds, with the same numbers, and
  with the strings and names in capitals.
-/
theorem spannedTokens_upperBasic (s : List Char) :
    spannedTokens (upperBasic s) =
      (spannedTokens s).map fun t => (t.1.raised, t.2) := by
  have hTokens :
      ((lexemes s).map Lexeme.raised).map Lexeme.token =
        ((lexemes s).map Lexeme.token).map Token.raised := by
    rw [List.map_map, List.map_map]
    rfl
  unfold spannedTokens Lexeme.byteSpans
  rw [lexemes_upperBasic, byteSpansFrom_raised, hTokens,
    List.zip_map_left]
  rfl

end Lexer

end Rowstore
