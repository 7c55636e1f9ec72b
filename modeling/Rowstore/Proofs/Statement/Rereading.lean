import Rowstore.Condition
import Rowstore.Proofs.Statement.Slicing
import Rowstore.Proofs.Statement.Trimming

/-
  Conditions that are cut into tokens once more.

  A condition is kept as a stretch of the statement, and is
  read from it later, without the blanks at its ends.  Some of
  these blanks are tokens, since only five kinds are skipped
  between tokens.  All other tokens are those that were read
  as a part of the statement.

  Main declarations:
    * `Lexeme.IsBlank` and `Lexeme.EndsShut`
    * `Lexer.lexemes_trim`
    * `Lexer.spannedTokens_trim`
    * `Statement.slices_keep_tokens`
-/

------------------------------------------------------------
-- Blanks That Are Tokens
------------------------------------------------------------

namespace Rowstore

namespace Lexeme

variable {s : List Char} {l : Lexeme} {ls ms : List Lexeme}

/- The lexeme is a blank that is not skipped between tokens. -/
def IsBlank (l : Lexeme) : Prop :=
  ∃ d, Text.isBlank d = true ∧ l.text = [d] ∧
    l.token = .unknown

/- The last lexeme takes in no blank: it ends in none, or is one. -/
def EndsShut (ls : List Lexeme) : Prop :=
  ∀ t ∈ (ls.map text).getLast?,
    ∀ d ∈ t.getLast?, Text.isBlank d = true → t = [d]

theorem texts_prependGap
    (s : List Char)
    (ls : List Lexeme) :
    (prependGap s ls).map text = ls.map text := by
  cases ls with
  | nil => rfl
  | cons l ls => rfl

theorem prependGap_nil (ls : List Lexeme) :
    prependGap [] ls = ls := by
  cases ls with
  | nil => rfl
  | cons l ls => rfl

theorem prependGap_prependGap
    (s t : List Char)
    (ls : List Lexeme) :
    prependGap s (prependGap t ls) =
      prependGap (s ++ t) ls := by
  cases ls with
  | nil => rfl
  | cons l ls => simp [prependGap]

theorem prependGap_append
    (s : List Char)
    (ls ms : List Lexeme) :
    ∃ s',
      prependGap s (ls ++ ms) =
        prependGap s ls ++ prependGap s' ms := by
  cases ls with
  | nil => exact ⟨s, rfl⟩
  | cons l ls => exact ⟨[], by rw [prependGap_nil]; rfl⟩

theorem isBlank_prependGap
    (hBlank : ∀ l ∈ ls, l.IsBlank)
    (s : List Char) :
    ∀ l ∈ prependGap s ls, l.IsBlank := by
  cases ls with
  | nil => exact hBlank
  | cons l ls =>
      rw [List.forall_mem_cons] at hBlank
      exact List.forall_mem_cons.mpr ⟨hBlank.1, hBlank.2⟩

/- The end of lexemes is that of the last of them. -/
theorem EndsShut.of_append
    (hShut : EndsShut (ls ++ ms)) :
    EndsShut ms := by
  intro t hLast
  apply hShut
  rw [List.map_append, List.getLast?_append, hLast]
  rfl

theorem endsShut_prependGap_iff :
    EndsShut (prependGap s ls) ↔ EndsShut ls := by
  unfold EndsShut
  rw [texts_prependGap]

end Lexeme

end Rowstore

------------------------------------------------------------
-- Tokens Without The Blanks At The Ends
------------------------------------------------------------

namespace Rowstore

namespace Lexer

open Lexeme

variable {s : List Char} {ls before after : List Lexeme}

theorem scanMark_of_isBlank
    {d : Char}
    (hBlank : Text.isBlank d = true) :
    (scanMark d []).1 = .unknown := by
  unfold scanMark
  split <;> first | rfl | cases hBlank

theorem IsBreakOf.isBlank
    {z : List Char}
    {l : Lexeme}
    (hBreak : IsBreakOf z l)
    (hBlank : ∀ d ∈ z, Text.isBlank d = true) :
    l.IsBlank := by
  rcases hBreak with ⟨d, hMember, _, hText, hToken⟩
  refine ⟨d, hBlank d hMember, hText, ?_⟩
  rw [hToken, scanMark_of_isBlank (hBlank d hMember)]

/- A blank at the start is skipped, or is a token of its own. -/
theorem lexemes_trimStart_split (s : List Char) :
    ∃ lead gap,
      lexemes s =
          lead ++ prependGap gap (lexemes (Text.trimStart s)) ∧
        ∀ l ∈ lead, l.IsBlank := by
  induction s with
  | nil => exact ⟨[], [], (prependGap_nil _).symm, by simp⟩
  | cons c s ih =>
      by_cases hBlank : Text.isBlank c = true
      · have hTrim :
            Text.trimStart (c :: s) = Text.trimStart s :=
          List.dropWhile_cons_of_pos hBlank
        rcases ih with ⟨lead, gap, hLexemes, hLead⟩
        rw [hTrim]
        by_cases hGap : isGapBlank c = true
        · have hRest := lexemes_blanks (b := [c]) (by simpa) s
          rcases
            prependGap_append [c] lead
              (prependGap gap (lexemes (Text.trimStart s)))
            with ⟨g, hSplit⟩
          refine
            ⟨prependGap [c] lead, g ++ gap, ?_,
              isBlank_prependGap hLead [c]⟩
          rw [← List.singleton_append, hRest, hLexemes, hSplit,
            prependGap_prependGap]
        · have hScan :=
            scan_of_isBreak (by simp [isBreak, hBlank]) hGap s
          have hFirst := pieces_append (s := []) hScan
          rw [scanMark_of_isBlank hBlank, List.singleton_append]
            at hFirst
          refine
            ⟨{ gap := []
               text := [c]
               token := .unknown } :: lead, gap, ?_, ?_⟩
          · unfold lexemes at hLexemes ⊢
            rw [hFirst]
            simp only [lexemesFrom, hLexemes, List.cons_append]
          · rw [List.forall_mem_cons]
            exact ⟨⟨c, hBlank, rfl, rfl⟩, hLead⟩
      · have hTrim : Text.trimStart (c :: s) = c :: s :=
          List.dropWhile_cons_of_neg hBlank
        rw [hTrim]
        exact ⟨[], [], (prependGap_nil _).symm, by simp⟩

/- Blanks at the end are skipped, or are tokens of their own, unless the last token takes them in. -/
theorem lexemes_trimEnd_split
    (hShut : EndsShut (lexemes s)) :
    ∃ trail,
      lexemes s = lexemes (Text.trimEnd s) ++ trail ∧
        ∀ l ∈ trail, l.IsBlank := by
  rcases Text.dropEndWhile_split Text.isBlank s with
    ⟨z, hSplit, hBlank⟩
  have hBreaks : ∀ d ∈ z, isBreak d = true := by
    intro d hMember
    exact isBreak_of_dropped (.inl (hBlank d hMember))
  have hTakes :=
    takesBreaks_append hBreaks (Text.trimEnd s) []
  change s = Text.trimEnd s ++ z at hSplit
  rw [← hSplit] at hTakes
  rcases hTakes with
    ⟨trail, hTrail, hNew⟩ |
      ⟨l, hLast, _, d, hEnd, hInside, hLonger⟩
  · exact
      ⟨trail, hTrail,
        fun l hMember => (hNew l hMember).isBlank hBlank⟩
  · refine
      absurd (hShut l.text ?_ d hEnd (hBlank d hInside)) hLonger
    rw [List.getLast?_map]
    exact Option.mem_map_of_mem _ hLast

/- The lexemes without the blanks at the ends of the text, and those of these blanks. -/
theorem lexemes_trim
    (hShut : EndsShut (lexemes s)) :
    ∃ lead gap trail,
      lexemes s =
          lead ++ prependGap gap (lexemes (Text.trim s)) ++
            trail ∧
        ∀ l ∈ lead ++ trail, l.IsBlank := by
  rcases lexemes_trimStart_split s with
    ⟨lead, gap, hStart, hLead⟩
  rw [hStart] at hShut
  have hShut' := endsShut_prependGap_iff.mp hShut.of_append
  rcases lexemes_trimEnd_split hShut' with
    ⟨trail, hEnd, hTrail⟩
  rcases
    prependGap_append gap
      (lexemes (Text.trimEnd (Text.trimStart s))) trail
    with ⟨gap', hSplit⟩
  refine ⟨lead, gap, prependGap gap' trail, ?_, ?_⟩
  · rw [hStart, hEnd, hSplit, List.append_assoc]
    rfl
  · rw [List.forall_mem_append]
    exact ⟨hLead, isBlank_prependGap hTrail gap'⟩

/- A longer token ends in a blank only at the end of the text, or in front of a last star. -/
theorem rest_of_blank_end
    {c d : Char}
    {w rest : List Char}
    {t : Token}
    (hBlank : Text.isBlank d = true)
    (hScan :
      scan c (w ++ d :: rest) = (some t, w.length + 1)) :
    rest = [] ∨ rest = ['*'] := by
  have hBreak : isBreak d = true :=
    isBreak_of_dropped (.inl hBlank)
  rcases scan_break hBreak hScan with
    hGap | ⟨_, _, hNone⟩ | ⟨_, hRest⟩
  · unfold scan at hScan
    rw [if_pos hGap] at hScan
    cases hScan
  · cases hNone
  · exact hRest

/- The last token of a text that does not end in a blank takes in no blank at its own end. -/
theorem endsShut_lexemes
    (hEnd : ∀ c ∈ s.getLast?, Text.isBlank c = false) :
    EndsShut (lexemes s) := by
  intro t hLast d hMember hBlank
  rcases List.eq_nil_or_concat (lexemes s) with
    hNone | ⟨front, m, hSplit⟩
  · rw [hNone] at hLast
    cases hLast
  rw [List.concat_eq_append] at hSplit
  have hText : m.text = t := by
    rw [hSplit] at hLast
    simpa using hLast
  rcases lexemesFrom_split hSplit with
    ⟨pieces', back, hPieces, hBack⟩
  rcases pieces_eq_cons_iff.mp (pieces_of_suffix hPieces) with
    ⟨c, w, rest, _, hStart, hScan, hRest⟩
  change m.text = c :: w at hStart
  rw [← hText, hStart] at hMember ⊢
  rcases List.eq_nil_or_concat w with rfl | ⟨w, e, rfl⟩
  · cases hMember
    rfl
  · rw [List.concat_eq_append] at hStart hScan hMember
    have hSame : e = d := by
      rw [← List.cons_append, List.getLast?_concat] at hMember
      exact Option.some.inj hMember
    subst hSame
    rw [List.append_assoc, List.singleton_append,
      List.length_append, List.length_singleton] at hScan
    rcases rest_of_blank_end hBlank hScan with rfl | rfl
    · -- The token ends the text, which ends in no blank.
      have hWhole := flatMap_text_pieces s
      rw [hPieces, ← hRest, pieces_nil, List.flatMap_append,
        List.flatMap_singleton, hStart, ← List.cons_append,
        ← List.append_assoc] at hWhole
      rw [← hWhole, List.getLast?_concat] at hEnd
      rw [hEnd e rfl] at hBlank
      cases hBlank
    · -- The star is a later token.
      have hStar : lexemes ['*'] ≠ [] := by decide +kernel
      rw [← hRest] at hBack
      exact absurd hBack hStar

/- The token is a blank in a text. -/
def IsBlankIn
    (s : List Char)
    (t : Token × (Nat × Nat)) : Prop :=
  t.1 = .unknown ∧
    ∃ d, Text.isBlank d = true ∧
      Text.slice? t.2.1 t.2.2 s = some [d]

theorem isBlankIn_of_mem
    (hBlank : ∀ l ∈ ls, l.IsBlank)
    (hSplit : lexemes s = before ++ ls ++ after) :
    ∀ t ∈ spannedFrom (byteSize (fullText before)) ls,
      IsBlankIn s t := by
  intro t hMember
  have hText :
      s =
        fullText before ++
          (fullText ls ++ (fullText after ++ trailingGap s)) :=
    calc
      s = fullText (lexemes s) ++ trailingGap s :=
        (fullText_lexemes s).symm
      _ = _ := by
        rw [hSplit]
        simp [fullText]
  rcases slice?_of_mem_spannedFrom hText t hMember with
    ⟨l, hInside, hToken, hSlice⟩
  rcases hBlank l hInside with ⟨d, hBlank, hAlone, hUnknown⟩
  rw [hAlone] at hSlice
  exact ⟨hToken.trans hUnknown, d, hBlank, hSlice⟩

/- The tokens without the blanks at the ends of the text, and those of these blanks. -/
theorem spannedTokens_trim
    (hShut : EndsShut (lexemes s)) :
    ∃ lead n trail,
      spannedTokens s =
          lead ++
              (spannedTokens (Text.trim s)).map (shiftSpan n) ++
            trail ∧
        ∀ t ∈ lead ++ trail, IsBlankIn s t := by
  rcases lexemes_trim hShut with
    ⟨lead, gap, trail, hSplit, hBlank⟩
  rw [List.forall_mem_append] at hBlank
  have hTokens := spannedTokens_eq s
  rw [hSplit, spannedFrom_append, spannedFrom_append,
    spannedFrom_prependGap, Nat.zero_add, Nat.zero_add]
    at hTokens
  have hKept :=
    spannedFrom_add 0
      (byteSize (fullText lead) + byteSize gap)
      (lexemes (Text.trim s))
  rw [Nat.zero_add] at hKept
  rw [hKept] at hTokens
  refine ⟨_, _, _, hTokens, ?_⟩
  rw [List.forall_mem_append]
  constructor
  · rw [List.append_assoc] at hSplit
    exact @isBlankIn_of_mem s lead [] _ hBlank.1 hSplit
  · rw [← List.append_nil (_ ++ trail)] at hSplit
    exact isBlankIn_of_mem hBlank.2 hSplit

/- The last tokens of a text that does not end in a blank, in a text of their own. -/
theorem spannedTokens_trim_sourceText
    {l : Lexeme}
    (hEnd : ∀ c ∈ s.getLast?, Text.isBlank c = false)
    (hSplit : lexemes s = before ++ l :: ls) :
    ∃ lead n trail,
      spannedTokens (sourceText (l :: ls)) =
          lead ++
              (spannedTokens
                (Text.trim (sourceText (l :: ls)))).map
                  (shiftSpan n) ++
            trail ∧
        ∀ t ∈ lead ++ trail,
          IsBlankIn (sourceText (l :: ls)) t := by
  apply spannedTokens_trim
  have hShut := endsShut_lexemes hEnd
  rw [hSplit] at hShut
  rw [lexemes_sourceText
    (hSplit.trans (List.append_nil _).symm)]
  exact hShut.of_append

end Lexer

end Rowstore

------------------------------------------------------------
-- Conditions
------------------------------------------------------------

namespace Rowstore

namespace Statement

open Lexer

theorem getLast?_normalize (s : List Char) :
    ∀ c ∈ (normalize s).getLast?, Text.isBlank c = false :=
  Text.getLast?_dropEndWhile Text.isBlank _

/-
  The text `w` is the stretch of the statement text `s` behind
  the word of a condition, up to the last token.  It has the
  tokens that the statement has there.  Without the blanks at
  its ends, it has the same ones without these blanks, and a
  condition is read from what is then left.
-/
def KeepsTokens (s w : List Char) : Prop :=
  ∃ before clause tokens start finish lead n trail,
    spannedTokens s = before ++ clause :: tokens ∧
      clause.1 = .keyword .«where» ∧
      Text.slice? start finish s = some w ∧
      (spannedTokens w).map (shiftSpan start) = tokens ∧
      spannedTokens w =
        lead ++
            (spannedTokens (Text.trim w)).map (shiftSpan n) ++
          trail ∧
      ∀ t ∈ lead ++ trail, IsBlankIn w t

theorem keepsTokens_of_condition
    {text : String}
    {c : Command}
    {w : String}
    (hParse : parse text = .ok (.command c))
    (hCondition : c.condition? = some (some w)) :
    KeepsTokens (normalize text.toList) w.toList := by
  rw [parse_eq_ok_iff] at hParse
  cases hParse with
  | command hWritten =>
      rcases hWritten.clause hCondition with
        ⟨front, clause, hSplit, hClause, _⟩
      cases hClause with
      | @present k l ls hWord =>
          rw [List.append_cons] at hSplit
          have hAll := hSplit.trans (List.append_nil _).symm
          rcases spannedTokens_sourceText hAll rfl with
            ⟨hSlice, hOwn⟩
          rcases
            spannedTokens_trim_sourceText
              (getLast?_normalize text.toList) hSplit
            with ⟨lead, n, trail, hTrim, hBlank⟩
          have hTokens :=
            spannedTokens_eq (normalize text.toList)
          rw [hSplit, spannedFrom_append, spannedFrom_append,
            Nat.zero_add, Nat.zero_add, List.append_assoc]
            at hTokens
          rw [Lexeme.source, String.toList_ofList]
          exact
            ⟨_, _, _, _, _, lead, n, trail, hTokens, hWord,
              hSlice, hOwn, hTrim, hBlank⟩

/-
  The stretch of a text from one of its tokens to another has
  exactly the tokens in between, at the same distances.  So a
  condition is read from tokens of the statement.
-/
theorem slices_keep_tokens :
    (∀ (s : List Char) (i j : Nat)
        (first last : Token × (Nat × Nat)),
      i < j →
        (spannedTokens s)[i]? = some first →
          (spannedTokens s)[j - 1]? = some last →
            ∃ t,
              Text.slice? first.2.1 last.2.2 s = some t ∧
                (spannedTokens t).map (shiftSpan first.2.1) =
                  ((spannedTokens s).take j).drop i) ∧
      ∀ (text : String) (c : Command) (w : String),
        parse text = .ok (.command c) →
          c.condition? = some (some w) →
            KeepsTokens (normalize text.toList) w.toList :=
  ⟨fun _ _ _ _ _ hRange hFirst hLast =>
      spannedTokens_slice hRange hFirst hLast,
    fun _ _ _ hParse hCondition =>
      keepsTokens_of_condition hParse hCondition⟩

/- A quoted name and a string behind a blank that is a token. -/
theorem quoted_condition_keeps_tokens :
    (∃ t,
      Text.slice? 21 35
          "DELETE FROM t WHERE\u00a0`a b` = 'x''y'".toList =
          some t ∧
        (spannedTokens t).map (shiftSpan 21) =
          ((spannedTokens
              "DELETE FROM t WHERE\u00a0`a b` = 'x''y'".toList).take
            8).drop 5) ∧
      KeepsTokens
        (normalize
          "DELETE FROM t WHERE\u00a0`a b` = 'x''y'".toList)
        "\u00a0`a b` = 'x''y'".toList := by
  have hParse :
      parse "DELETE FROM t WHERE\u00a0`a b` = 'x''y'" =
        .ok (.command
          (.delete "t" (some "\u00a0`a b` = 'x''y'"))) := by
    decide +kernel
  exact
    ⟨slices_keep_tokens.1 _ 5 8
        (.quotedName "a b".toList, (21, 26))
        (.string .single "x'y".toList, (29, 35)) (by decide)
        (by decide +kernel) (by decide +kernel),
      slices_keep_tokens.2 _ _ _ hParse rfl⟩

end Statement

end Rowstore
