import Rowstore.Proofs.Statement.Cutting
import Rowstore.Proofs.Statement.Naming
import Rowstore.Proofs.Value.Quoting

/-
  What tokens carry.

  The name, string or number that a token carries is settled
  by the text of the token alone: a string is its text without
  the quotes around it and with single quotes for doubled
  ones.

  Main declarations:
    * `Lexer.stringLength_eq_closed`
    * `Token.WrittenAs`
    * `Lexer.writtenAs_of_scan` and
      `Lexer.writtenAs_of_mem_lexemes`
-/

namespace Rowstore

/- The text spells what the token carries, if it carries something. -/
def Token.WrittenAs (text : List Char) : Token → Prop
| .string q content =>
  text = q.char :: (Value.doubled q.char content ++ [q.char])
| .name word => text = word
| .quotedName word => text = '\x60' :: (word ++ ['\x60'])
| .number x => Lexer.numberToken text = .number x
| _ => True

namespace Lexer

variable {c : Char} {s w rest : List Char} {t : Token}

/- A string that is closed is a text with doubled quotes, and one more quote. -/
theorem stringLength_eq_closed
    {q : Char}
    (hLength : stringLength q (w ++ rest) = (w.length, true)) :
    ∃ content, w = Value.doubled q content ++ [q] := by
  fun_induction stringLength q w with
  | case1 =>
      cases rest with
      | nil => cases hLength
      | cons c rest =>
          have hSome := stringLength_pos q c rest
          rw [List.nil_append] at hLength
          rw [hLength] at hSome
          cases hSome
  | case2 c =>
      by_cases hEnd : c = q
      · exact ⟨[], by rw [hEnd]; rfl⟩
      · cases rest with
        | nil =>
            rw [List.append_nil, stringLength, Prod.mk.injEq]
              at hLength
            exact absurd (beq_iff_eq.mp hLength.2) hEnd
        | cons d rest =>
            have hSome := stringLength_pos q d rest
            rw [List.singleton_append,
              stringLength_cons_of_ne hEnd (by simp)]
              at hLength
            simp only [List.length_singleton, Prod.mk.injEq]
              at hLength
            omega
  | case3 c d s hQuoted hDoubled n closed hRest ih =>
      simp only [List.cons_append, stringLength, hQuoted,
        hDoubled, if_true, List.length_cons,
        Prod.mk.injEq] at hLength
      rcases ih (Prod.ext (by omega) hLength.2) with
        ⟨content, rfl⟩
      refine ⟨q :: content, ?_⟩
      rw [beq_iff_eq.mp hQuoted, beq_iff_eq.mp hDoubled,
        Value.doubled, if_pos rfl]
      rfl
  | case4 c d s hQuoted hAlone =>
      simp [stringLength, hQuoted, hAlone] at hLength
  | case5 c d s hOther n closed hRest ih =>
      simp only [List.cons_append, stringLength, hOther,
        Bool.false_eq_true, if_false, List.length_cons,
        Prod.mk.injEq] at hLength
      rcases ih (Prod.ext (by simpa using hLength.1) hLength.2)
        with ⟨content, hContent⟩
      refine ⟨c :: content, ?_⟩
      rw [hContent, Value.doubled,
        if_neg (by simpa using hOther)]
      rfl

theorem writtenAs_of_scanString
    {q : Quote}
    (hScan : scanString q (w ++ rest) = (t, w.length)) :
    t.WrittenAs (q.char :: w) := by
  unfold scanString at hScan
  dsimp only at hScan
  split at hScan
  · rename_i hClosed
    rw [Prod.mk.injEq] at hScan
    rcases hScan with ⟨rfl, hLength⟩
    rcases stringLength_eq_closed
      (Prod.ext hLength hClosed) with ⟨content, rfl⟩
    rw [hLength, List.length_append, List.length_singleton,
      Nat.add_sub_cancel, List.append_assoc, List.take_left,
      Value.undouble_doubled]
    rfl
  · rw [Prod.mk.injEq] at hScan
    rw [← hScan.1]
    trivial

theorem writtenAs_of_scanQuotedName
    (hScan : scanQuotedName (w ++ rest) = (t, w.length)) :
    t.WrittenAs ('\x60' :: w) := by
  unfold scanQuotedName at hScan
  dsimp only at hScan
  generalize runLength (fun c => c != '\x60') (w ++ rest) = n
    at hScan
  split at hScan
  · rename_i hClosed
    rw [Prod.mk.injEq] at hScan
    rcases hScan with ⟨rfl, hLength⟩
    rw [Bool.and_eq_true] at hClosed
    rcases List.eq_nil_or_concat w with rfl | ⟨u, d, rfl⟩
    · cases hLength
    · have hWhole : n = u.length := by
        simpa using hLength
      subst hWhole
      have hAccent := hClosed.2
      simp only [List.concat_eq_append, List.append_assoc,
        List.drop_left, List.singleton_append, startsWith,
        beq_iff_eq] at hAccent
      subst hAccent
      simp [Token.WrittenAs]
  · rw [Prod.mk.injEq] at hScan
    rw [← hScan.1]
    trivial

theorem writtenAs_wordToken (word : List Char) :
    (wordToken word).WrittenAs word := by
  unfold wordToken
  split
  · trivial
  · rfl

theorem writtenAs_numberToken (text : List Char) :
    (numberToken text).WrittenAs text := by
  cases hToken : numberToken text with
  | number x => exact hToken
  | keyword | comparison | mark | unknown => trivial
  | string | name | quotedName =>
      unfold numberToken at hToken
      split at hToken <;> cases hToken

theorem writtenAs_scanMark
    (c : Char)
    (s text : List Char) :
    (scanMark c s).1.WrittenAs text := by
  unfold scanMark
  split <;> trivial

/- The text of a token spells what the token carries. -/
theorem writtenAs_of_scan
    (hScan : scan c (w ++ rest) = (some t, w.length)) :
    t.WrittenAs (c :: w) := by
  rcases scan_cases c (w ++ rest) with
    hNone | hUnknown | hToken
  · rw [hScan] at hNone
    cases hNone
  · rw [hScan] at hUnknown
    cases hUnknown
    trivial
  rw [hScan, Prod.mk.injEq, Option.some.injEq] at hToken
  rcases hToken with ⟨rfl, hLength⟩
  unfold scanToken at hLength ⊢
  split
  · rename_i hStart
    rw [if_pos hStart] at hLength
    dsimp only at hLength ⊢
    rw [← hLength, List.take_left]
    exact writtenAs_wordToken (c :: w)
  rename_i hStart
  rw [if_neg hStart] at hLength
  split
  · rename_i hSingle
    rw [if_pos hSingle] at hLength
    rw [beq_iff_eq.mp hSingle]
    exact
      writtenAs_of_scanString (q := .single)
        (Prod.ext rfl hLength.symm)
  rename_i hSingle
  rw [if_neg hSingle] at hLength
  split
  · rename_i hDouble
    rw [if_pos hDouble] at hLength
    rw [beq_iff_eq.mp hDouble]
    exact
      writtenAs_of_scanString (q := .double)
        (Prod.ext rfl hLength.symm)
  rename_i hDouble
  rw [if_neg hDouble] at hLength
  split
  · rename_i hAccent
    rw [if_pos hAccent] at hLength
    rw [beq_iff_eq.mp hAccent]
    exact
      writtenAs_of_scanQuotedName (Prod.ext rfl hLength.symm)
  rename_i hAccent
  rw [if_neg hAccent] at hLength
  dsimp only at hLength ⊢
  split
  · exact writtenAs_scanMark c _ _
  · rename_i hSome
    rw [if_neg hSome] at hLength
    dsimp only at hLength ⊢
    rw [← hLength, List.take_left]
    exact writtenAs_numberToken (c :: w)

theorem writtenAs_of_mem_lexemes
    {l : Lexeme}
    (hMember : l ∈ lexemes s) :
    l.token.WrittenAs l.text := by
  rcases mem_lexemesFrom hMember with
    ⟨p, hPiece, hToken, hText⟩
  rcases scan_of_mem_pieces hPiece with
    ⟨c, w, rest, hStart, hScan⟩
  rw [hToken] at hScan
  rw [← hText, hStart]
  exact writtenAs_of_scan hScan

end Lexer

end Rowstore
