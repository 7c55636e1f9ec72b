import Mathlib.Control.Monad.Basic
import Rowstore.Condition
import Rowstore.Proofs.Execution
import Rowstore.Proofs.Statement.Paralleling
import Rowstore.Proofs.Statement.Rereading

/-
  Comments as white space.

  If a blank takes the place of a comment that the lexer
  skips, then the lexemes differ in one gap, and the text is
  read as a statement of the same kind.  Texts that the
  statement keeps as they are written keep the comments inside
  of them, and so may mean something else.

  Main declarations:
    * `Lexer.OpensComment` and `Lexer.spaced_of_comment`
    * `Condition.Spaced` and `Condition.sameKind_parse_spaced`
    * `Statement.SkipsComment` and `Statement.parse_blank`
-/

------------------------------------------------------------
-- Skipped Comments
------------------------------------------------------------

namespace Rowstore

namespace Lexer

variable {s gap : List Char} {ps qs : List Piece}

/- The text begins with the mark of a comment. -/
def OpensComment (k : List Char) : Prop :=
  "--".toList <+: k ∨ "/*".toList <+: k

instance (k : List Char) : Decidable (OpensComment k) :=
  inferInstanceAs (Decidable (_ ∨ _))

variable {k : List Char}

theorem OpensComment.head?
    (hOpens : OpensComment k) :
    ∃ c ∈ k.head?, c = '-' ∨ c = '/' := by
  rcases hOpens with ⟨r, rfl⟩ | ⟨r, rfl⟩
  · exact ⟨'-', rfl, .inl rfl⟩
  · exact ⟨'/', rfl, .inr rfl⟩

theorem OpensComment.ne_nil
    (hOpens : OpensComment k) :
    k ≠ [] := by
  rcases hOpens with ⟨r, rfl⟩ | ⟨r, rfl⟩
  · exact List.cons_ne_nil _ _
  · exact List.cons_ne_nil _ _

theorem lexemesFrom_spaced_gap
    (k g h : List Char)
    (qs : List Piece) :
    Lexeme.Spaced k (lexemesFrom (g ++ (k ++ h)) qs)
      (lexemesFrom (g ++ ' ' :: h) qs) := by
  induction qs generalizing h with
  | nil => exact .same []
  | cons q qs ih =>
      cases hToken : q.token? with
      | some t =>
          simp only [lexemesFrom, hToken]
          exact .here g h q.text t _
      | none =>
          simp only [lexemesFrom, hToken]
          simpa using ih (h ++ q.text)

theorem lexemesFrom_spaced_piece
    (k gap : List Char)
    (ps qs : List Piece) :
    Lexeme.Spaced k
      (lexemesFrom gap
        (ps ++
          { token? := none
            text := k } :: qs))
      (lexemesFrom gap
        (ps ++
          { token? := none
            text := [' '] } :: qs)) := by
  induction ps generalizing gap with
  | nil =>
      simpa [lexemesFrom] using
        lexemesFrom_spaced_gap k gap [] qs
  | cons p ps ih =>
      cases hToken : p.token? with
      | some t =>
          simp only [List.cons_append, lexemesFrom, hToken]
          exact .later _ (ih [])
      | none =>
          simp only [List.cons_append, lexemesFrom, hToken]
          exact ih (gap ++ p.text)

theorem lexemesFrom_concat
    (gap k : List Char)
    (ps : List Piece) :
    lexemesFrom gap
        (ps ++
          [{ token? := none
             text := k }]) =
      lexemesFrom gap ps := by
  induction ps generalizing gap with
  | nil => rfl
  | cons p ps ih =>
      cases hToken : p.token? with
      | some t =>
          simp only [List.cons_append, lexemesFrom, hToken, ih]
      | none =>
          simp only [List.cons_append, lexemesFrom, hToken, ih]

/- The lexemes of a text, and those with a blank for one of its comments. -/
theorem spaced_of_comment
    (hPieces :
      pieces s =
        ps ++
          { token? := none
            text := k } :: qs)
    (hOpens : OpensComment k) :
    Lexeme.Spaced k (lexemes s)
      (lexemes
        (ps.flatMap Piece.text ++
          ' ' :: qs.flatMap Piece.text)) := by
  unfold lexemes
  rw [lexemesFrom_spaced hPieces hOpens.head?, hPieces]
  exact lexemesFrom_spaced_piece k [] ps qs

theorem eq_nil_of_no_text
    (hPieces : pieces s = ps ++ qs)
    (hNone : qs.flatMap Piece.text = []) :
    qs = [] := by
  have hOwn := pieces_of_suffix hPieces
  rw [hNone, pieces_nil] at hOwn
  exact hOwn.symm

/- A comment at the end adds no lexeme. -/
theorem lexemes_of_last_comment
    (hPieces :
      pieces s =
        ps ++
          [{ token? := none
             text := k }]) :
    lexemes (ps.flatMap Piece.text) = lexemes s := by
  have hText := flatMap_text_pieces s
  rw [hPieces, List.flatMap_append] at hText
  rw [← hText] at hPieces
  unfold lexemes
  rw [← hText, hPieces, lexemesFrom_concat,
    pieces_of_append hPieces rfl]

/- Blanks in front of a keyword are a gap. -/
theorem lexemes_trimStart
    {w : Lexeme}
    {ls : List Lexeme}
    {word : Keyword}
    (hLexemes : lexemes s = w :: ls)
    (hWord : w.token = .keyword word) :
    ∃ m,
      lexemes (Text.trimStart s) = m :: ls ∧
        Lexeme.SameWord w m := by
  rcases lexemes_trimStart_split s with
    ⟨lead, gap, hSplit, hBlank⟩
  rw [hLexemes] at hSplit
  cases lead with
  | cons l lead =>
      rw [List.cons_append, List.cons.injEq] at hSplit
      rcases hBlank l List.mem_cons_self with ⟨_, _, _, hToken⟩
      rw [← hSplit.1, hWord] at hToken
      cases hToken
  | nil =>
      rw [List.nil_append] at hSplit
      cases hTrimmed : lexemes (Text.trimStart s) with
      | nil =>
          rw [hTrimmed] at hSplit
          cases hSplit
      | cons m ms =>
          rw [hTrimmed] at hSplit
          change w :: ls = { m with gap := gap ++ m.gap } :: ms
            at hSplit
          rw [List.cons.injEq] at hSplit
          rcases hSplit with ⟨rfl, rfl⟩
          exact ⟨m, rfl, rfl, rfl⟩

end Lexer

end Rowstore

------------------------------------------------------------
-- Conditions
------------------------------------------------------------

namespace Rowstore

namespace Condition

open Execution

variable {k : List Char} {l m : Lexeme}
variable {ls ms : List Lexeme}

/-
  The same comparison of the same column, with literals from
  texts that are the same or have a blank for `k`.
-/
structure Spaced
    (k : List Char)
    (c d : Condition) : Prop where
  column : d.column = c.column
  op : d.op = c.op
  literal :
    ∃ x y,
      Text.Spaced k x y ∧ c.literal = Value.ofLiteral x ∧
        d.literal = Value.ofLiteral y

theorem sameKind_literalOf_spaced
    (s s' : List Char)
    (op : Comparison)
    (hSpaced : Lexeme.Spaced k ls ms) :
    SameKind
      (fun a b =>
        ∃ x y,
          Text.Spaced k x y ∧ a = Value.ofLiteral x ∧
            b = Value.ofLiteral y)
      (literalOf s op ls) (literalOf s' op ms) := by
  have hEmpty : ms.isEmpty = ls.isEmpty := by
    cases hSpaced with
    | same => rfl
    | here => rfl
    | later => rfl
  have hBreaks :
      ms.any (fun l => breaksLiteral l.token) =
        ls.any fun l => breaksLiteral l.token := by
    have hTokens :=
      congrArg (List.any · breaksLiteral) hSpaced.tokens
    simpa only [List.any_map, Function.comp_def] using hTokens
  unfold literalOf
  rw [hEmpty, hBreaks]
  split
  · exact .error rfl
  · split
    · exact .error rfl
    · exact .ok ⟨_, _, hSpaced.sourceText, rfl, rfl⟩

theorem sameKind_ofLexemes_spaced
    (s s' : List Char)
    (hWord : Lexeme.SameWord l m)
    (hSpaced : Lexeme.Spaced k ls ms) :
    SameKind (Spaced k) (ofLexemes s (l :: ls))
      (ofLexemes s' (m :: ms)) := by
  unfold ofLexemes
  simp only [List.head?_cons, Option.bind_some, hWord.name?]
  cases l.name? with
  | none => exact .error rfl
  | some column =>
      cases ls with
      | nil =>
          rw [hSpaced.nil_inv]
          exact .error rfl
      | cons o rest =>
          rcases hSpaced.cons_inv with
            ⟨o', rest', rfl, hSign, hRest⟩
          simp only [List.getElem?_cons_succ,
            List.getElem?_cons_zero, Option.bind_some, hSign.token]
          cases comparison? o.token with
          | none => exact .error rfl
          | some op =>
              refine
                .bind (sameKind_literalOf_spaced s s' op hRest)
                  ?_
              rintro a b ⟨x, y, hText, rfl, rfl⟩
              exact .ok ⟨rfl, rfl, x, y, hText, rfl, rfl⟩

/- A gap that is respaced is not at the end of a text. -/
theorem getLast?_fullText_spaced
    (hSpaced : Lexeme.Spaced k ls ms)
    (hTexts : ∀ l ∈ ls, l.text ≠ []) :
    (Lexeme.fullText ms).getLast? =
      (Lexeme.fullText ls).getLast? := by
  induction hSpaced with
  | same => rfl
  | here g h text token ls =>
      have hText : text ++ Lexeme.fullText ls ≠ [] := by
        have hNonempty : text ≠ [] :=
          hTexts _ List.mem_cons_self
        simp [hNonempty]
      change
        (g ++ ' ' :: h ++ text ++ Lexeme.fullText ls).getLast? =
          (g ++ (k ++ h) ++ text ++
            Lexeme.fullText ls).getLast?
      rw [List.append_assoc, List.append_assoc _ text,
        List.getLast?_append_of_ne_nil _ hText,
        List.getLast?_append_of_ne_nil _ hText]
  | @later l ls ms _ ih =>
      have hRest :=
        ih fun m hMember =>
          hTexts m (List.mem_cons_of_mem l hMember)
      change
        (l.gap ++ l.text ++ Lexeme.fullText ms).getLast? =
          (l.gap ++ l.text ++ Lexeme.fullText ls).getLast?
      rw [List.getLast?_append, hRest, ← List.getLast?_append]

/- The ends of a run of lexemes are those of its first and last words. -/
theorem tight_sourceText_spaced
    (hWord : Lexeme.SameWord l m)
    (hSpaced : Lexeme.Spaced k ls ms)
    (hTexts : ∀ n ∈ l :: ls, n.text ≠ [])
    (hTight : Text.Tight (Lexeme.sourceText (l :: ls))) :
    Text.Tight (Lexeme.sourceText (m :: ms)) := by
  rw [List.forall_mem_cons] at hTexts
  rcases hTight with ⟨hFirst, hLast⟩
  simp only [Lexeme.sourceText] at hFirst hLast ⊢
  rw [hWord.text]
  constructor
  · rw [List.head?_append_of_ne_nil _ hTexts.1] at hFirst ⊢
    exact hFirst
  · rw [List.getLast?_append] at hLast ⊢
    rw [getLast?_fullText_spaced hSpaced hTexts.2]
    exact hLast

/-
  The source texts of corresponding runs are read as the same
  comparison, or both are rejected.
-/
theorem sameKind_parse_spaced
    {s s' : List Char}
    {before before' : List Lexeme}
    (hLeft : Lexer.lexemes s = before ++ l :: ls)
    (hRight : Lexer.lexemes s' = before' ++ m :: ms)
    (hWord : Lexeme.SameWord l m)
    (hSpaced : Lexeme.Spaced k ls ms)
    (hTight : Text.Tight (Lexeme.sourceText (l :: ls))) :
    SameKind (Spaced k) (parse (Lexeme.source (l :: ls)))
      (parse (Lexeme.source (m :: ms))) := by
  have hTexts : ∀ n ∈ l :: ls, n.text ≠ [] := by
    intro n hMember
    apply Lexer.text_ne_nil_of_mem_lexemes (s := s)
    rw [hLeft]
    exact List.mem_append_right before hMember
  have hTight' :=
    tight_sourceText_spaced hWord hSpaced hTexts hTight
  unfold parse Lexeme.source
  dsimp only
  rw [String.toList_ofList, String.toList_ofList,
    Text.trim_of_tight hTight, Text.trim_of_tight hTight',
    Lexer.lexemes_sourceText
      (hLeft.trans (List.append_nil _).symm),
    Lexer.lexemes_sourceText
      (hRight.trans (List.append_nil _).symm)]
  exact
    sameKind_ofLexemes_spaced _ _ ⟨hWord.text, hWord.token⟩
      hSpaced

/-
  The same text, or one with a blank for `k`.  Unless blanks
  stand at its ends, it is read as the same comparison.
-/
def SpacedTexts
    (k : List Char)
    (u v : String) : Prop :=
  SpacedText k u v ∧
    (Text.Tight u.toList →
      SameKind (Spaced k) (parse u) (parse v))

theorem spacedTexts_of_spacedConditions
    {s s' : List Char}
    {u v : String}
    (hSpaced :
      Lexeme.SpacedConditions k (Lexer.lexemes s)
        (Lexer.lexemes s') u v) :
    SpacedTexts k u v := by
  rcases hSpaced with
    ⟨run, run', hNonempty, ⟨before, hLeft⟩,
      ⟨before', hRight⟩, hRun, rfl, rfl⟩
  refine ⟨hRun.source, fun hTight => ?_⟩
  cases run with
  | nil => contradiction
  | cons l ls =>
      rcases hRun.cons_inv with ⟨m, ms, rfl, hWord, hRest⟩
      unfold Lexeme.source at hTight
      rw [String.toList_ofList] at hTight
      exact
        sameKind_parse_spaced hLeft.symm hRight.symm hWord
          hRest hTight

end Condition

end Rowstore

------------------------------------------------------------
-- Statements
------------------------------------------------------------

namespace Rowstore

/-
  The same name, and a type and a definition that are the same
  or have a blank for `k`.  The text of the definition is
  searched for the words of a key.
-/
structure ColumnDefinition.Spaced
    (k : List Char)
    (ls ms : List Lexeme)
    (c d : ColumnDefinition) : Prop where
  name : d.name = c.name
  type : SpacedText k c.typeText d.typeText
  definition :
    ∃ piece piece',
      piece <:+: ls ∧ piece' <:+: ms ∧
        Reader.columnDefinition piece = .ok c ∧
        Reader.columnDefinition piece' = .ok d ∧
        Lexeme.Spaced k piece piece' ∧
        Text.Spaced k (Lexeme.sourceText piece)
          (Lexeme.sourceText piece') ∧
        c.primaryKey =
          Reader.declaresKey (Lexeme.sourceText piece) ∧
        d.primaryKey =
          Reader.declaresKey (Lexeme.sourceText piece')

theorem ColumnDefinition.spaced_of_spacedColumns
    {k : List Char}
    {ls ms : List Lexeme}
    {c d : ColumnDefinition}
    (hColumns : Lexeme.SpacedColumns k ls ms c d) :
    Spaced k ls ms c d := by
  rcases hColumns with
    ⟨piece, piece', hLeft, hRight, hSpaced, hFirst, hSecond⟩
  rcases hSpaced.columnDefinition hFirst with
    ⟨d', hSecond', hName, hType⟩
  have hSame : d' = d :=
    Except.ok.inj (hSecond'.symm.trans hSecond)
  subst hSame
  rcases Reader.columnDefinition_eq_ok_iff.mp hFirst with
    ⟨_, _, _, _, _, _, _, hKey⟩
  rcases Reader.columnDefinition_eq_ok_iff.mp hSecond with
    ⟨_, _, _, _, _, _, _, hKey'⟩
  exact
    { name := hName
      type := hType
      definition :=
        ⟨piece, piece', hLeft, hRight, hFirst, hSecond,
          hSpaced, hSpaced.sourceText, hKey, hKey'⟩ }

namespace Statement

open Lexer

variable {st st' : Statement} {ls : List Lexeme}

/- A statement begins with a keyword. -/
theorem Written.first_keyword
    (hWritten : st.Written ls) :
    ∃ w rest word,
      ls = w :: rest ∧ w.token = .keyword word := by
  cases hWritten with
  | command hCommand =>
      cases hCommand with
      | select hWord _ => exact ⟨_, _, _, rfl, hWord⟩
      | insert hWord _ => exact ⟨_, _, _, rfl, hWord⟩
      | update hWord _ => exact ⟨_, _, _, rfl, hWord⟩
      | delete hWord _ => exact ⟨_, _, _, rfl, hWord⟩
      | create hWord _ => exact ⟨_, _, _, rfl, hWord⟩
      | drop hWord _ => exact ⟨_, _, _, rfl, hWord⟩
      | alter hWord _ => exact ⟨_, _, _, rfl, hWord⟩
      | permission _ hWord _ => exact ⟨_, _, _, rfl, hWord⟩
      | use hWord _ => exact ⟨_, _, _, rfl, hWord⟩
      | listing hWord _ => exact ⟨_, _, _, rfl, hWord⟩
      | describe hWord _ => exact ⟨_, _, _, rfl, hWord⟩
  | control hWord _ => exact ⟨_, _, _, rfl, hWord⟩

/-
  The text `x ++ (k ++ y)` is cut into pieces, one of which is
  the comment `k` that stands between `x` and `y`.
-/
structure SkipsComment
    (x k y : List Char)
    (ps qs : List Piece) : Prop where
  opens : OpensComment k
  cut :
    pieces (normalize (x ++ (k ++ y))) =
      ps ++
        { token? := none
          text := k } :: qs
  place :
    ∃ lead,
      x = lead ++ ps.flatMap Piece.text ∧
        ∀ c ∈ lead, Text.isBlank c = true

theorem exists_parallel_of_spaced
    {k : List Char}
    {t t' : List Char}
    (hSpaced : Lexeme.Spaced k (lexemes t) (lexemes t'))
    (hWritten : st.Written (lexemes t)) :
    ∃ st',
      st'.Written (lexemes (Text.trimStart t')) ∧
        st.Parallel (SpacedText k) (Condition.SpacedTexts k)
          (ColumnDefinition.Spaced k (lexemes t)
            (lexemes (Text.trimStart t'))) st' := by
  rcases hWritten.first_keyword with
    ⟨w, rest, word, hLexemes, hFirst⟩
  rw [hLexemes] at hSpaced
  rcases hSpaced.cons_inv with
    ⟨w', rest', hLexemes', hWord, hRest⟩
  rcases lexemes_trimStart hLexemes' (hWord.token.trans hFirst)
    with ⟨m, hTrimmed, hSame⟩
  have hWords : Lexeme.SameWord w m :=
    ⟨hSame.text.trans hWord.text,
      hSame.token.trans hWord.token⟩
  rw [hLexemes] at hWritten
  rcases hWritten.spaced hWords hRest with
    ⟨st', hWritten', hParallel⟩
  rw [← hLexemes, ← hTrimmed] at hParallel
  rw [← hTrimmed] at hWritten'
  exact
    ⟨st', hWritten',
      hParallel.mono (fun _ _ hText => hText)
        (fun _ _ => Condition.spacedTexts_of_spacedConditions)
        (fun _ _ => ColumnDefinition.spaced_of_spacedColumns)⟩

/-
  If the last lexeme ends with no blank and no semicolon, then
  it does not matter whether these follow.
-/
theorem lexemes_of_breaks
    {n r : List Char}
    (hBreaks : ∀ c ∈ r, Text.isBlank c = true ∨ c = ';')
    (hLast :
      ∀ l ∈ (lexemes (n ++ r)).getLast?,
        ∀ c ∈ l.text.getLast?,
          Text.isBlank c = false ∧ c ≠ ';') :
    lexemes (n ++ r) = lexemes n := by
  have hNot {c : Char} (hMember : c ∈ r) :
      ¬(Text.isBlank c = false ∧ c ≠ ';') := by
    rintro ⟨hBlank, hMark⟩
    rcases hBreaks c hMember with hBlank' | rfl
    · rw [hBlank'] at hBlank
      cases hBlank
    · exact hMark rfl
  have hTakes :=
    takesBreaks_append (z := r)
      (fun c hMember => isBreak_of_dropped (hBreaks c hMember))
      n []
  change TakesBreaks r (lexemes n) (lexemes (n ++ r)) at hTakes
  rcases hTakes with
    ⟨extra, hExtra, hNew⟩ | ⟨l, hEnd, _, c, hEnds, hMember, _⟩
  · rcases List.eq_nil_or_concat extra with rfl | ⟨e, l, rfl⟩
    · rw [hExtra, List.append_nil]
    · rcases hNew l (by simp) with ⟨c, hMember, _, hText, _⟩
      refine absurd (hLast l ?_ c ?_) (hNot hMember)
      · simp [hExtra]
      · simp [hText]
  · exact absurd (hLast l hEnd c hEnds) (hNot hMember)

/-
  If a statement is read from a text, and a blank takes the
  place of a comment in it, then a statement of the same kind
  with the same names is read.  Values, assigned texts, types
  and privileges are the same, or have the blank for the
  comment.  So do the definitions of columns, which are
  searched for the words of a key, and the literals of
  conditions that do not begin or end with a blank.

  Behind a comment at the end of the text, blanks and
  semicolons may have been kept that are now left out.
-/
theorem parse_blank
    {x k y : List Char}
    {ps qs : List Piece}
    (hSkips : SkipsComment x k y ps qs)
    (hParse : parse (String.ofList (x ++ (k ++ y))) = .ok st)
    (hEnd :
      qs = [] →
        ∀ l ∈ (lexemes (normalize (x ++ (k ++ y)))).getLast?,
          ∀ c ∈ l.text.getLast?,
            Text.isBlank c = false ∧ c ≠ ';') :
    ∃ st',
      parse (String.ofList (x ++ ' ' :: y)) = .ok st' ∧
        st.Parallel (SpacedText k) (Condition.SpacedTexts k)
          (ColumnDefinition.Spaced k
            (lexemes (normalize (x ++ (k ++ y))))
            (lexemes (normalize (x ++ ' ' :: y)))) st' := by
  rcases hSkips with ⟨hOpens, hPieces, lead, rfl, hLead⟩
  simp only [parse_eq_ok_iff, String.toList_ofList] at hParse ⊢
  have hText := flatMap_text_pieces
    (normalize (lead ++ ps.flatMap Piece.text ++ (k ++ y)))
  rw [hPieces, List.flatMap_append, List.flatMap_cons] at hText
  rw [List.append_assoc] at hText
  rcases normalize_blank hText.symm hLead hOpens.ne_nil with
    ⟨_, hBlank⟩ | ⟨hNone, r, hSplit, hBreaks⟩
  · rw [← List.append_assoc] at hBlank
    rw [hBlank]
    exact
      exists_parallel_of_spaced
        (spaced_of_comment hPieces hOpens) hParse
  · have hLast : qs = [] := by
      rw [List.append_cons] at hPieces
      exact eq_nil_of_no_text hPieces hNone
    subst hLast
    have hSame := lexemes_of_last_comment hPieces
    rw [← hSame] at hEnd hParse ⊢
    rw [← List.append_assoc] at hSplit
    rw [hSplit] at hEnd hParse
    have hKept := lexemes_of_breaks hBreaks (hEnd rfl)
    rw [hKept] at hParse
    refine ⟨st, hParse, ?_⟩
    cases st with
    | control c => exact .control c
    | command c => exact .command (.same c)

/- A comment up to the end of a line, inside of a condition. -/
theorem line_comment_is_blank :
    let x := "SELECT * FROM t WHERE a ".toList
    let k := "-- or b".toList
    let y := "\n= 1".toList
    let ps := (pieces (normalize (x ++ (k ++ y)))).take 12
    let qs := (pieces (normalize (x ++ (k ++ y)))).drop 13
    let st :=
      Statement.command
        (.select .all "t" (some "a -- or b\n= 1"))
    SkipsComment x k y ps qs ∧
      parse (String.ofList (x ++ (k ++ y))) = .ok st ∧
      (qs = [] →
        ∀ l ∈ (lexemes (normalize (x ++ (k ++ y)))).getLast?,
          ∀ c ∈ l.text.getLast?,
            Text.isBlank c = false ∧ c ≠ ';') ∧
      ∃ st',
        parse (String.ofList (x ++ ' ' :: y)) = .ok st' ∧
          st.Parallel (SpacedText k) (Condition.SpacedTexts k)
            (ColumnDefinition.Spaced k
              (lexemes (normalize (x ++ (k ++ y))))
              (lexemes (normalize (x ++ ' ' :: y)))) st' := by
  intro x k y ps qs st
  have hSkips : SkipsComment x k y ps qs :=
    { opens := by decide +kernel
      cut := by decide +kernel
      place := ⟨[], by decide +kernel, by simp⟩ }
  have hParse :
      parse (String.ofList (x ++ (k ++ y))) = .ok st := by
    decide +kernel
  have hLater : qs ≠ [] := by
    decide +kernel
  have hEnd :
      qs = [] →
        ∀ l ∈ (lexemes (normalize (x ++ (k ++ y)))).getLast?,
          ∀ c ∈ l.text.getLast?,
            Text.isBlank c = false ∧ c ≠ ';' :=
    fun hNone => absurd hNone hLater
  exact
    ⟨hSkips, hParse, hEnd, parse_blank hSkips hParse hEnd⟩

/- A comment inside of a definition is searched for the words of a key, too. -/
theorem key_in_comment_is_declared :
    let x := "CREATE TABLE t (a INT ".toList
    let k := "/* no PRIMARY KEY */".toList
    let y := " NULL)".toList
    SkipsComment x k y
        ((pieces (normalize (x ++ (k ++ y)))).take 11)
        ((pieces (normalize (x ++ (k ++ y)))).drop 12) ∧
      parse (String.ofList (x ++ (k ++ y))) =
        .ok (.command (.createTable "t"
          [{ name := "a"
             typeText := "INT"
             primaryKey := true }] [])) ∧
      parse (String.ofList (x ++ ' ' :: y)) =
        .ok (.command (.createTable "t"
          [{ name := "a"
             typeText := "INT"
             primaryKey := false }] [])) := by
  intro x k y
  refine ⟨?_, by decide +kernel, by decide +kernel⟩
  exact
    { opens := by decide +kernel
      cut := by decide +kernel
      place := ⟨[], by decide +kernel, by simp⟩ }

end Statement

end Rowstore
