import Mathlib.Control.Monad.Basic
import Rowstore.Proofs.Statement.Grammar

/-
  The grammar of the commands that are read word by word.

  Lists of values are divided at the commas outside of
  parentheses, so a list that is balanced consists of balanced
  pieces without such a comma.  With this the commands that
  begin with these words are exactly those that are derived
  from a grammar over tokens.

  Main declarations:
    * `Lexeme.Balanced` and `Lexeme.balanced_iff_closes`
    * `Lexeme.Whole`, `Lexeme.PieceList` and
      `Lexeme.pieceList_iff`
    * `Lexer.fullText_lexemes`
    * `Lexeme.Leads` and `Statement.Derivation`
    * `Statement.parse_eq_ok_iff_derivation`
-/

------------------------------------------------------------
-- Balanced Lexemes
------------------------------------------------------------

namespace Rowstore

namespace Lexeme

variable {l : Lexeme} {ls rest inner : List Lexeme}
variable {m n : Nat}

/- Every parenthesis has its partner. -/
inductive Balanced : List Lexeme → Prop where
| nil : Balanced []
| plain
    {l : Lexeme}
    {ls : List Lexeme}
    (hNoOpen : l.token ≠ .mark .openParen)
    (hNoClose : l.token ≠ .mark .closeParen)
    (hRest : Balanced ls) :
    Balanced (l :: ls)
| group
    {o c : Lexeme}
    {inner rest : List Lexeme}
    (hOpen : o.token = .mark .openParen)
    (hInner : Balanced inner)
    (hClose : c.token = .mark .closeParen)
    (hRest : Balanced rest) :
    Balanced (o :: (inner ++ c :: rest))

theorem Balanced.append
    (hFirst : Balanced ls)
    (hSecond : Balanced rest) :
    Balanced (ls ++ rest) := by
  induction hFirst with
  | nil => exact hSecond
  | plain hNoOpen hNoClose _ ih =>
      exact .plain hNoOpen hNoClose ih
  | group hOpen hInner hClose _ _ ih =>
      rw [List.cons_append, List.append_assoc,
        List.cons_append]
      exact .group hOpen hInner hClose ih

theorem Closes.append
    (hFirst : Closes m ls)
    (hSecond : Closes n rest) :
    Closes (m + n) (ls ++ rest) := by
  induction hFirst with
  | nil => simpa using hSecond
  | opening hOpen _ ih =>
      refine .opening hOpen ?_
      rwa [Nat.add_right_comm] at ih
  | closing hClose _ ih =>
      rw [Nat.add_right_comm]
      exact .closing hClose ih
  | plain hNoOpen hNoClose _ ih =>
      exact .plain hNoOpen hNoClose ih

theorem Balanced.closes
    (hBalanced : Balanced ls) :
    Closes 0 ls := by
  induction hBalanced with
  | nil => exact .nil
  | plain hNoOpen hNoClose _ ih =>
      exact .plain hNoOpen hNoClose ih
  | group hOpen _ hClose _ ihInner ihRest =>
      have hTail := ihInner.append (.closing hClose ihRest)
      rw [Nat.zero_add] at hTail
      exact .opening hOpen hTail

/-
  Balanced lexemes before each of the parentheses that are
  closed without a partner, and after the last one.
-/
def Levels : Nat → List Lexeme → Prop
| 0, ls => Balanced ls
| n + 1, ls =>
  ∃ inner c rest,
    ls = inner ++ c :: rest ∧ Balanced inner ∧
      c.token = .mark .closeParen ∧ Levels n rest

theorem Levels.append
    (hFirst : Balanced ls)
    (hSecond : Levels n rest) :
    Levels n (ls ++ rest) := by
  cases n with
  | zero => exact Balanced.append hFirst hSecond
  | succ n =>
      rcases hSecond with
        ⟨inner, c, rest, rfl, hInner, hClose, hRest⟩
      exact
        ⟨ls ++ inner, c, rest, by simp, hFirst.append hInner,
          hClose, hRest⟩

theorem Closes.levels
    (hCloses : Closes n ls) :
    Levels n ls := by
  induction hCloses with
  | nil => exact Balanced.nil
  | opening hOpen _ ih =>
      -- The partner is the first parenthesis that is left.
      rcases ih with
        ⟨inner, c, rest, rfl, hInner, hClose, hRest⟩
      have hGroup :=
        Levels.append (.group hOpen hInner hClose .nil) hRest
      simpa using hGroup
  | @closing n l ls hClose _ ih =>
      exact ⟨[], l, ls, rfl, .nil, hClose, ih⟩
  | plain hNoOpen hNoClose _ ih =>
      exact Levels.append (.plain hNoOpen hNoClose .nil) ih

/- The count of open parentheses comes to balance. -/
theorem balanced_iff_closes :
    Balanced ls ↔ Closes 0 ls :=
  ⟨Balanced.closes, Closes.levels⟩

------------------------------------------------------------
-- Pieces Between Commas
------------------------------------------------------------

/- Balanced lexemes without a comma outside of parentheses. -/
inductive Whole : List Lexeme → Prop where
| nil : Whole []
| plain
    {l : Lexeme}
    {ls : List Lexeme}
    (hNoOpen : l.token ≠ .mark .openParen)
    (hNoClose : l.token ≠ .mark .closeParen)
    (hNoComma : l.token ≠ .mark .comma)
    (hRest : Whole ls) :
    Whole (l :: ls)
| group
    {o c : Lexeme}
    {inner rest : List Lexeme}
    (hOpen : o.token = .mark .openParen)
    (hInner : Balanced inner)
    (hClose : c.token = .mark .closeParen)
    (hRest : Whole rest) :
    Whole (o :: (inner ++ c :: rest))

/- Pieces, which may be empty, with commas between them. -/
inductive PieceList :
    List (List Lexeme) → List Lexeme → Prop where
| single
    {p : List Lexeme}
    (hWhole : Whole p) :
    PieceList [p] p
| cons
    {p : List Lexeme}
    {ps : List (List Lexeme)}
    {c : Lexeme}
    {ls : List Lexeme}
    (hWhole : Whole p)
    (hComma : c.token = .mark .comma)
    (hRest : PieceList ps ls) :
    PieceList (p :: ps) (p ++ c :: ls)

theorem Whole.append
    (hFirst : Whole ls)
    (hSecond : Whole rest) :
    Whole (ls ++ rest) := by
  induction hFirst with
  | nil => exact hSecond
  | plain hNoOpen hNoClose hNoComma _ ih =>
      exact .plain hNoOpen hNoClose hNoComma ih
  | group hOpen hInner hClose _ ih =>
      rw [List.cons_append, List.append_assoc,
        List.cons_append]
      exact .group hOpen hInner hClose ih

theorem Whole.balanced
    (hWhole : Whole ls) :
    Balanced ls := by
  induction hWhole with
  | nil => exact .nil
  | plain hNoOpen hNoClose _ _ ih =>
      exact .plain hNoOpen hNoClose ih
  | group hOpen hInner hClose _ ih =>
      exact .group hOpen hInner hClose ih

theorem PieceList.balanced
    {pieces : List (List Lexeme)}
    (hPieces : PieceList pieces ls) :
    Balanced ls := by
  induction hPieces with
  | single hWhole => exact hWhole.balanced
  | cons hWhole hComma _ ih =>
      refine hWhole.balanced.append (.plain ?_ ?_ ih)
      · simp [hComma]
      · simp [hComma]

/- Lexemes that belong to the first piece. -/
theorem PieceList.append
    {pieces : List (List Lexeme)}
    (hFirst : Whole ls)
    (hPieces : PieceList pieces rest) :
    PieceList (pieces.modifyHead (ls ++ ·)) (ls ++ rest) := by
  cases hPieces with
  | single hWhole => exact .single (hFirst.append hWhole)
  | cons hWhole hComma hRest =>
      rw [← List.append_assoc]
      exact .cons (hFirst.append hWhole) hComma hRest

theorem modifyHead_modifyHead_append
    (first second : List Lexeme)
    (pieces : List (List Lexeme)) :
    (pieces.modifyHead (second ++ ·)).modifyHead
        (first ++ ·) =
      pieces.modifyHead (first ++ second ++ ·) := by
  cases pieces <;> simp

/- Inside of parentheses nothing is divided. -/
theorem splitCommas_balanced
    (hBalanced : Balanced ls)
    (n : Nat)
    (rest : List Lexeme) :
    splitCommas (n + 1) (ls ++ rest) =
      (splitCommas (n + 1) rest).modifyHead (ls ++ ·) := by
  induction hBalanced generalizing n rest with
  | nil =>
      rw [List.nil_append]
      exact (congrFun List.modifyHead_id _).symm
  | @plain l ls hNoOpen hNoClose _ ih =>
      rw [List.cons_append, splitCommas_cons (by simp),
        depthAfter_plain hNoOpen hNoClose, ih]
      exact modifyHead_modifyHead_append [l] ls _
  | @group o c inner ls hOpen _ hClose _ ihInner ih =>
      rw [List.cons_append, splitCommas_cons (by simp),
        depthAfter_open hOpen, List.append_assoc, ihInner,
        List.cons_append, splitCommas_cons (by simp),
        depthAfter_close hClose, Nat.add_sub_cancel, ih]
      cases splitCommas (n + 1) rest <;> simp

/- A whole piece is not divided. -/
theorem splitCommas_whole
    (hWhole : Whole ls)
    (rest : List Lexeme) :
    splitCommas 0 (ls ++ rest) =
      (splitCommas 0 rest).modifyHead (ls ++ ·) := by
  induction hWhole with
  | nil =>
      rw [List.nil_append]
      exact (congrFun List.modifyHead_id _).symm
  | @plain l ls hNoOpen hNoClose hNoComma _ ih =>
      rw [List.cons_append,
        splitCommas_cons (fun h => hNoComma h.2),
        depthAfter_plain hNoOpen hNoClose, ih]
      exact modifyHead_modifyHead_append [l] ls _
  | @group o c inner ls hOpen hInner hClose _ ih =>
      rw [List.cons_append, splitCommas_cons (by simp [hOpen]),
        depthAfter_open hOpen, List.append_assoc,
        splitCommas_balanced hInner, List.cons_append,
        splitCommas_cons (by simp), depthAfter_close hClose,
        Nat.zero_add, Nat.sub_self, ih]
      cases splitCommas 0 rest <;> simp

/- The pieces of balanced lexemes are what their commas leave. -/
theorem Balanced.pieceList
    (hBalanced : Balanced ls) :
    PieceList (splitCommas 0 ls) ls := by
  induction hBalanced with
  | nil => exact .single .nil
  | @plain l ls hNoOpen hNoClose _ ih =>
      by_cases hComma : l.token = .mark .comma
      · rw [splitCommas_comma hComma]
        exact .cons .nil hComma ih
      · have hOne : Whole [l] :=
          .plain hNoOpen hNoClose hComma .nil
        have hSplit := splitCommas_whole hOne ls
        rw [List.singleton_append] at hSplit
        rw [hSplit]
        exact PieceList.append hOne ih
  | @group o c inner ls hOpen hInner hClose _ _ ih =>
      have hGroup : Whole (o :: (inner ++ [c])) :=
        .group hOpen hInner hClose .nil
      have hText :
          o :: (inner ++ c :: ls) =
            o :: (inner ++ [c]) ++ ls := by
        simp
      rw [hText, splitCommas_whole hGroup]
      exact PieceList.append hGroup ih

theorem PieceList.splitCommas_eq
    {pieces : List (List Lexeme)}
    (hPieces : PieceList pieces ls) :
    splitCommas 0 ls = pieces := by
  induction hPieces with
  | @single p hWhole =>
      have hSplit := splitCommas_whole hWhole []
      simpa [splitCommas] using hSplit
  | @cons p ps c ls hWhole hComma _ ih =>
      rw [splitCommas_whole hWhole, splitCommas_comma hComma,
        ih]
      simp

/- Splitting at commas finds the pieces of balanced lexemes. -/
theorem pieceList_iff
    {pieces : List (List Lexeme)} :
    PieceList pieces ls ↔
      Closes 0 ls ∧ splitCommas 0 ls = pieces := by
  rw [← balanced_iff_closes]
  constructor
  · intro hPieces
    exact ⟨hPieces.balanced, hPieces.splitCommas_eq⟩
  · rintro ⟨hBalanced, rfl⟩
    exact hBalanced.pieceList

end Lexeme

end Rowstore

------------------------------------------------------------
-- Stretches Of Source Text
------------------------------------------------------------

namespace Rowstore

namespace Lexer

theorem fullText_lexemesFrom
    (gap : List Char)
    (ps : List Piece) :
    Lexeme.fullText (lexemesFrom gap ps) ++
        trailingFrom gap ps =
      gap ++ ps.flatMap Piece.text := by
  induction ps generalizing gap with
  | nil => simp [lexemesFrom, trailingFrom, Lexeme.fullText]
  | cons p ps ih =>
      cases hToken : p.token? with
      | none =>
          simp only [lexemesFrom, trailingFrom, hToken]
          rw [ih]
          simp
      | some t =>
          have hRest := ih []
          simp only [lexemesFrom, trailingFrom, hToken]
          rw [List.nil_append] at hRest
          rw [List.flatMap_cons, ← hRest]
          simp [Lexeme.fullText]

/- Lexemes and the gap behind them make up the text. -/
theorem fullText_lexemes (s : List Char) :
    Lexeme.fullText (lexemes s) ++ trailingGap s = s := by
  have hText := fullText_lexemesFrom [] (pieces s)
  rwa [flatMap_text_pieces, List.nil_append] at hText

/- The source text of lexemes is the stretch of text they come from. -/
theorem stretch_of_lexemes
    {s : List Char}
    {before taken after : List Lexeme}
    {l : Lexeme}
    (hSplit : lexemes s = before ++ l :: taken ++ after) :
    s =
      Lexeme.fullText before ++ l.gap ++
        Lexeme.sourceText (l :: taken) ++
        (Lexeme.fullText after ++ trailingGap s) := by
  calc
    s = Lexeme.fullText (lexemes s) ++ trailingGap s :=
      (fullText_lexemes s).symm
    _ = _ := by
      rw [hSplit]
      simp [Lexeme.fullText, Lexeme.sourceText]

end Lexer

end Rowstore

------------------------------------------------------------
-- Derivations
------------------------------------------------------------

namespace Rowstore

namespace Lexeme

/- The words that begin the commands derived here, a creation apart. -/
def leadingKeywords : List Keyword :=
  [.select, .insert, .delete, .drop, .use, .describe,
    .«show», .begin, .commit, .rollback]

/- The lexemes begin with such a word, or with `CREATE DATABASE`. -/
def Leads : List Lexeme → Prop
| [] => False
| w :: ls =>
  (∃ k ∈ leadingKeywords, w.token = .keyword k) ∨
    w.token = .keyword .create ∧
      ∃ d ∈ ls.head?, d.token = .keyword .database

instance (ls : List Lexeme) : Decidable (Leads ls) := by
  cases ls <;> unfold Leads <;> infer_instance

end Lexeme

namespace Statement

open Lexeme

/-
  The grammar of statements over tokens.  A name is a name
  token, a quoted name or a soft keyword; a condition is the
  word `WHERE` with at least one token after it; and values
  are pieces that are not empty, up to the last token.
-/
inductive Derivation : Statement → List Lexeme → Prop where
| select
    {projection : Projection}
    {table : String}
    {condition : Option String}
    {w f t : Lexeme}
    {shown clause : List Lexeme}
    (hSelect : w.token = .keyword .select)
    (hShown : Projected projection shown)
    (hFrom : f.token = .keyword .«from»)
    (hTable : t.name? = some table)
    (hClause : Clause condition clause) :
    Derivation (.command (.select projection table condition))
      (w :: (shown ++ f :: t :: clause))
| insert
    {table : String}
    {columns : List String}
    {w i t o c v p q : Lexeme}
    {listed inner : List Lexeme}
    {pieces : List (List Lexeme)}
    (hInsert : w.token = .keyword .insert)
    (hInto : i.token = .keyword .into)
    (hTable : t.name? = some table)
    (hOpen : o.token = .mark .openParen)
    (hColumns : NameList columns listed)
    (hClose : c.token = .mark .closeParen)
    (hValues : v.token = .keyword .values)
    (hBegin : p.token = .mark .openParen)
    (hPieces : PieceList pieces inner)
    (hFilled : [] ∉ pieces)
    (hEnd : q.token = .mark .closeParen) :
    Derivation
      (.command (.insert table columns (pieces.map source)))
      (w :: i :: t :: o :: (listed ++
        c :: v :: p :: (inner ++ [q])))
| delete
    {table : String}
    {condition : Option String}
    {w f t : Lexeme}
    {clause : List Lexeme}
    (hDelete : w.token = .keyword .delete)
    (hFrom : f.token = .keyword .«from»)
    (hTable : t.name? = some table)
    (hClause : Clause condition clause) :
    Derivation (.command (.delete table condition))
      (w :: f :: t :: clause)
| createDatabase
    {database : String}
    {w k d : Lexeme}
    (hCreate : w.token = .keyword .create)
    (hKind : k.token = .keyword .database)
    (hDatabase : d.name? = some database) :
    Derivation (.command (.createDatabase database false))
      [w, k, d]
| createMissingDatabase
    {database : String}
    {w k i n e d : Lexeme}
    (hCreate : w.token = .keyword .create)
    (hKind : k.token = .keyword .database)
    (hIf : i.token = .keyword .«if»)
    (hNot : n.token = .keyword .not)
    (hExists : e.token = .keyword .«exists»)
    (hDatabase : d.name? = some database) :
    Derivation (.command (.createDatabase database true))
      [w, k, i, n, e, d]
| dropTable
    {table : String}
    {w k t : Lexeme}
    (hDrop : w.token = .keyword .drop)
    (hKind : k.token = .keyword .table)
    (hTable : t.name? = some table) :
    Derivation (.command (.dropTable table)) [w, k, t]
| dropDatabase
    {database : String}
    {w k d : Lexeme}
    (hDrop : w.token = .keyword .drop)
    (hKind : k.token = .keyword .database)
    (hDatabase : d.name? = some database) :
    Derivation (.command (.dropDatabase database)) [w, k, d]
| use
    {database : String}
    {w d : Lexeme}
    (hUse : w.token = .keyword .use)
    (hDatabase : d.name? = some database) :
    Derivation (.command (.use database)) [w, d]
| describe
    {table : String}
    {w t : Lexeme}
    (hDescribe : w.token = .keyword .describe)
    (hTable : t.name? = some table) :
    Derivation (.command (.describe table)) [w, t]
| showDatabases
    {w k : Lexeme}
    (hShow : w.token = .keyword .«show»)
    (hKind : k.token = .keyword .databases) :
    Derivation (.command .showDatabases) [w, k]
| showTables
    {w k : Lexeme}
    (hShow : w.token = .keyword .«show»)
    (hKind : k.token = .keyword .tables) :
    Derivation (.command .showTables) [w, k]
| control
    {c : Control}
    {w : Lexeme}
    (hControl : w.token = .keyword c.keyword) :
    Derivation (.control c) [w]
| controlTransaction
    {c : Control}
    {w t : Lexeme}
    (hControl : w.token = .keyword c.keyword)
    (hWord : t.token = .keyword .transaction) :
    Derivation (.control c) [w, t]

variable {st : Statement} {ls : List Lexeme}

theorem Derivation.written
    (hDerivation : Derivation st ls) :
    st.Written ls := by
  cases hDerivation with
  | select hSelect hShown hFrom hTable hClause =>
      exact
        .command
          (.select hSelect
            (.intro hShown hFrom hTable hClause))
  | insert hInsert hInto hTable hOpen hColumns hClose hValues
      hBegin hPieces hFilled hEnd =>
      rw [pieceList_iff] at hPieces
      rcases hPieces with ⟨hInner, rfl⟩
      exact
        .command
          (.insert hInsert
            (.intro hInto hTable hOpen hColumns hClose
              hValues hBegin hInner hFilled hEnd))
  | delete hDelete hFrom hTable hClause =>
      exact
        .command
          (.delete hDelete (.intro hFrom hTable hClause))
  | createDatabase hCreate hKind hDatabase =>
      exact
        .command
          (.create hCreate
            (.database hKind (.always hDatabase)))
  | createMissingDatabase hCreate hKind hIf hNot hExists
      hDatabase =>
      exact
        .command
          (.create hCreate
            (.database hKind
              (.ifMissing hIf hNot hExists hDatabase)))
  | dropTable hDrop hKind hTable =>
      exact .command (.drop hDrop (.table hKind hTable))
  | dropDatabase hDrop hKind hDatabase =>
      exact .command (.drop hDrop (.database hKind hDatabase))
  | use hUse hDatabase => exact .command (.use hUse hDatabase)
  | describe hDescribe hTable =>
      exact .command (.describe hDescribe hTable)
  | showDatabases hShow hKind =>
      exact .command (.listing hShow (.databases hKind))
  | showTables hShow hKind =>
      exact .command (.listing hShow (.tables hKind))
  | control hControl =>
      exact .control hControl (.inr ⟨rfl, by simp⟩)
  | controlTransaction hControl hWord =>
      exact .control hControl (.inl (by simp [Spell, hWord]))

/- A command whose first word is another one does not lead. -/
theorem not_leads_of_keyword
    {w : Lexeme}
    {k : Keyword}
    (hWord : w.token = .keyword k)
    (hOther : k ∉ leadingKeywords)
    (hNoCreate : k ≠ .create) :
    ¬Leads (w :: ls) := by
  rintro (⟨k', hMember, hToken⟩ | ⟨hToken, _⟩)
  · rw [hWord, Token.keyword.injEq] at hToken
    exact hOther (hToken ▸ hMember)
  · rw [hWord, Token.keyword.injEq] at hToken
    exact hNoCreate hToken

/- What is written with such a first word is derived. -/
theorem Written.derivation
    (hWritten : st.Written ls)
    (hLeads : Leads ls) :
    Derivation st ls := by
  cases hWritten with
  | command hCommand =>
      cases hCommand with
      | select hWord hRest =>
          rcases hRest with ⟨hShown, hFrom, hTable, hClause⟩
          exact .select hWord hShown hFrom hTable hClause
      | insert hWord hRest =>
          rcases hRest with
            ⟨hInto, hTable, hOpen, hColumns, hClose, hValues,
              hBegin, hInner, hFilled, hEnd⟩
          exact
            .insert hWord hInto hTable hOpen hColumns hClose
              hValues hBegin (pieceList_iff.mpr ⟨hInner, rfl⟩)
              hFilled hEnd
      | delete hWord hRest =>
          rcases hRest with ⟨hFrom, hTable, hClause⟩
          exact .delete hWord hFrom hTable hClause
      | create hWord hRest =>
          cases hRest with
          | table hKind _ =>
              rcases hLeads with
                ⟨k, hMember, hToken⟩ | ⟨_, d, hFirst, hToken⟩
              · rw [hWord, Token.keyword.injEq] at hToken
                subst hToken
                exact absurd hMember (by decide)
              · cases hFirst
                rw [hKind] at hToken
                cases hToken
          | database hKind hRest =>
              cases hRest with
              | always hDatabase =>
                  exact .createDatabase hWord hKind hDatabase
              | ifMissing hIf hNot hExists hDatabase =>
                  exact
                    .createMissingDatabase hWord hKind hIf
                      hNot hExists hDatabase
      | drop hWord hRest =>
          cases hRest with
          | table hKind hTable =>
              exact .dropTable hWord hKind hTable
          | database hKind hDatabase =>
              exact .dropDatabase hWord hKind hDatabase
      | update hWord _ =>
          exact
            absurd hLeads
              (not_leads_of_keyword hWord (by decide)
                (by decide))
      | alter hWord _ =>
          exact
            absurd hLeads
              (not_leads_of_keyword hWord (by decide)
                (by decide))
      | permission action hWord _ =>
          cases action with
          | grant =>
              exact
                absurd hLeads
                  (not_leads_of_keyword hWord (by decide)
                    (by decide))
          | revoke =>
              exact
                absurd hLeads
                  (not_leads_of_keyword hWord (by decide)
                    (by decide))
      | use hWord hDatabase => exact .use hWord hDatabase
      | listing hWord hRest =>
          cases hRest with
          | databases hKind => exact .showDatabases hWord hKind
          | tables hKind => exact .showTables hWord hKind
      | describe hWord hTable => exact .describe hWord hTable
  | control hWord hRest =>
      rcases hRest with hSpell | ⟨rfl, _⟩
      · rw [spell_singleton_iff] at hSpell
        rcases hSpell with ⟨t, rfl, hToken⟩
        exact .controlTransaction hWord hToken
      · exact .control hWord

/-
  A text that begins with one of these words is read as a
  statement exactly if the statement is derived from its
  tokens.  Every text that a derivation takes from lexemes is
  the stretch of the source text that they come from.
-/
theorem parse_eq_ok_iff_derivation
    {text : String}
    (hLeads : Leads (Lexer.lexemes (normalize text.toList))) :
    (parse text = .ok st ↔
      Derivation st
        (Lexer.lexemes (normalize text.toList))) ∧
      ∀ before l taken after,
        Lexer.lexemes (normalize text.toList) =
            before ++ l :: taken ++ after →
          ∃ front back,
            normalize text.toList =
                front ++ sourceText (l :: taken) ++ back ∧
              front = fullText before ++ l.gap := by
  constructor
  · rw [parse_eq_ok_iff]
    exact
      ⟨fun hWritten => hWritten.derivation hLeads,
        Derivation.written⟩
  · intro before l taken after hSplit
    exact ⟨_, _, Lexer.stretch_of_lexemes hSplit, rfl⟩

/- Commas in parentheses, in strings and in comments divide no values. -/
theorem insertion_is_derived :
    let text :=
      "insert INTO `my t` (Key) VALUES (f(1, 2), 'x, y' /* , */ z);"
    let st :=
      Statement.command
        (.insert "my t" ["Key"]
          ["f(1, 2)", "'x, y' /* , */ z"])
    Leads (Lexer.lexemes (normalize text.toList)) ∧
      parse text = .ok st ∧
      Derivation st
        (Lexer.lexemes (normalize text.toList)) := by
  intro text st
  have hLeads :
      Leads (Lexer.lexemes (normalize text.toList)) := by
    decide +kernel
  have hParse : parse text = .ok st := by
    decide +kernel
  exact
    ⟨hLeads, hParse,
      (parse_eq_ok_iff_derivation hLeads).1.mp hParse⟩

end Statement

end Rowstore
