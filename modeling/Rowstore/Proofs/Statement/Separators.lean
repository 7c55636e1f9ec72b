import Mathlib.Control.Monad.Basic
import Rowstore.Proofs.Statement.Grammar

/-
  Where semicolons may stand in a statement.

  Some parts of statements are kept as they are written: the
  values of an insertion, assignments, conditions, column
  definitions and privileges.  Semicolons are accepted only
  in such a part, and a condition accepts them anywhere.

  Main declarations:
    * `Statement.TakesText`
    * `Statement.semicolons_in_taken_text`
-/

------------------------------------------------------------
-- Taken Text
------------------------------------------------------------

namespace Rowstore

open Lexeme

/- The parts of a command that are kept as written come from these lexemes. -/
def Command.TakesText : Command → List Lexeme → Prop
| .select _ _ condition, ls => Clause condition ls
| .delete _ condition, ls => Clause condition ls
| .insert _ _ values, ls =>
  values = (splitCommas 0 ls).map source
| .update _ changes condition, ls =>
  ∃ body clause,
    ls = body ++ clause ∧
      (splitCommas 0 body).map Reader.assignment? =
        changes.map some ∧
      Clause condition clause
| .createTable _ columns key, ls =>
  Reader.tablePieces (splitCommas 0 ls) = .ok (columns, key)
| .alterTable _ (.addColumn column), ls =>
  Reader.columnDefinition ls = .ok column
| .permission _ clause, ls => clause.privilege = source ls
| _, ls => ls = []

/- The parts of a statement that are kept as written come from these lexemes. -/
def Statement.TakesText : Statement → List Lexeme → Prop
| .control _, ls => ls = []
| .command c, ls => c.TakesText ls

end Rowstore

------------------------------------------------------------
-- Lexemes Without Semicolons
------------------------------------------------------------

namespace Rowstore

namespace Lexeme

variable {l : Lexeme} {ls ms : List Lexeme}

/- The lexemes hold no semicolon. -/
def Unseparated (ls : List Lexeme) : Prop :=
  ∀ l ∈ ls, l.token ≠ .mark .semicolon

theorem unseparated_nil : Unseparated [] := by
  simp [Unseparated]

theorem unseparated_cons_iff :
    Unseparated (l :: ls) ↔
      l.token ≠ .mark .semicolon ∧ Unseparated ls :=
  List.forall_mem_cons

theorem unseparated_append_iff :
    Unseparated (ls ++ ms) ↔
      Unseparated ls ∧ Unseparated ms :=
  List.forall_mem_append

/- A word or a mark that is known is no semicolon. -/
theorem unseparated_spell
    {ts : List Token}
    (hSpell : Spell ts ls)
    (hOther : .mark .semicolon ∉ ts) :
    Unseparated ls := by
  rintro l hMember hToken
  rw [← hSpell] at hOther
  exact hOther (hToken ▸ List.mem_map_of_mem hMember)

theorem Optionally.unseparated
    {t : Token}
    (hWord : Optionally t ls ms)
    (hOther : t ≠ .mark .semicolon) :
    Unseparated ls := by
  rcases hWord with hSpell | ⟨rfl, _⟩
  · exact unseparated_spell hSpell (by simpa using hOther.symm)
  · exact unseparated_nil

theorem NameList.unseparated
    {names : List String}
    (hNames : NameList names ls) :
    Unseparated ls := by
  intro l hMember
  rcases hNames.mem hMember with hComma | ⟨name, hName⟩
  · simp [hComma]
  · exact not_mark_of_name hName .semicolon

theorem Projected.unseparated
    {projection : Projection}
    (hShown : Projected projection ls) :
    Unseparated ls := by
  intro l hMember
  rcases hShown.mem hMember with
    hStar | hComma | ⟨name, hName⟩
  · simp [hStar]
  · simp [hComma]
  · exact not_mark_of_name hName .semicolon

/- A name in front adds no semicolon. -/
theorem unseparated_name_cons_iff
    {name : String}
    (hName : l.name? = some name) :
    Unseparated (l :: ls) ↔ Unseparated ls := by
  rw [unseparated_cons_iff]
  exact and_iff_right (not_mark_of_name hName .semicolon)

theorem not_semicolon_of_user
    {user : String}
    (hUser : l.user? = some user) :
    l.token ≠ .mark .semicolon := by
  intro hToken
  simp [user?, name?, hToken] at hUser

end Lexeme

end Rowstore

------------------------------------------------------------
-- Statements
------------------------------------------------------------

namespace Rowstore

open Lexeme

theorem Command.split_of_unseparated
    {c : Command}
    {ls : List Lexeme}
    (hTakes : c.TakesText [])
    (hNone : Unseparated ls) :
    ∃ before taken after,
      ls = before ++ taken ++ after ∧
        c.TakesText taken ∧
        Unseparated before ∧ Unseparated after :=
  ⟨ls, [], [], by simp, hTakes, hNone, unseparated_nil⟩

/- The semicolons of a command stand in the text that it takes. -/
theorem Command.Written.split
    {c : Command}
    {ls : List Lexeme}
    (hWritten : c.Written ls) :
    ∃ before taken after,
      ls = before ++ taken ++ after ∧
        c.TakesText taken ∧
        Unseparated before ∧ Unseparated after := by
  cases hWritten with
  | @select _ w _ hWord hRest =>
      rcases hRest with
        @⟨_, _, _, f, t, shown, clause, hShown, hFrom,
          hTable, hClause⟩
      refine
        ⟨w :: (shown ++ [f, t]), clause, [], by simp,
          hClause, ?_, unseparated_nil⟩
      simp [unseparated_cons_iff, unseparated_append_iff,
        unseparated_name_cons_iff hTable, unseparated_nil,
        hShown.unseparated, hWord, hFrom]
  | @insert _ w _ hWord hRest =>
      rcases hRest with
        @⟨_, _, i, t, o, p, v, b, q, listed, inner, hInto,
          hTable, hOpen, hColumns, hClose, hValues, hBegin,
          hInner, hPieces, hEnd⟩
      refine
        ⟨w :: i :: t :: o :: (listed ++ [p, v, b]), inner,
          [q], by simp, rfl, ?_, ?_⟩
      · simp [unseparated_cons_iff, unseparated_append_iff,
          unseparated_name_cons_iff hTable, unseparated_nil,
          hColumns.unseparated, hWord, hInto, hOpen, hClose,
          hValues, hBegin]
      · simp [unseparated_cons_iff, unseparated_nil, hEnd]
  | @update _ w _ hWord hRest =>
      rcases hRest with
        @⟨_, _, _, t, s, body, clause, hTable, hSet, _, _,
          hChanges, hClause⟩
      refine
        ⟨[w, t, s], body ++ clause, [], by simp,
          ⟨body, clause, rfl, hChanges, hClause⟩, ?_,
          unseparated_nil⟩
      simp [unseparated_cons_iff, unseparated_nil,
        unseparated_name_cons_iff hTable, hWord, hSet]
  | @delete _ w _ hWord hRest =>
      rcases hRest with
        @⟨_, _, f, t, clause, hFrom, hTable, hClause⟩
      refine
        ⟨[w, f, t], clause, [], by simp, hClause, ?_,
          unseparated_nil⟩
      simp [unseparated_cons_iff, unseparated_nil,
        unseparated_name_cons_iff hTable, hWord, hFrom]
  | @create _ w _ hWord hRest =>
      cases hRest with
      | @table k _ hKind hRest =>
          rcases hRest with
            @⟨_, _, _, t, o, q, inner, hTable, hOpen,
              hInner, hPieces, hEnd⟩
          refine
            ⟨[w, k, t, o], inner, [q], by simp, hPieces, ?_,
              ?_⟩
          · simp [unseparated_cons_iff, unseparated_nil,
              unseparated_name_cons_iff hTable, hWord, hKind,
              hOpen]
          · simp [unseparated_cons_iff, unseparated_nil, hEnd]
      | database hKind hRest =>
          cases hRest with
          | always hDatabase =>
              refine Command.split_of_unseparated rfl ?_
              simp [unseparated_cons_iff, unseparated_nil,
                unseparated_name_cons_iff hDatabase, hWord,
                hKind]
          | ifMissing hIf hNot hExists hDatabase =>
              refine Command.split_of_unseparated rfl ?_
              simp [unseparated_cons_iff, unseparated_nil,
                unseparated_name_cons_iff hDatabase, hWord,
                hKind, hIf, hNot, hExists]
  | drop hWord hRest =>
      cases hRest with
      | table hKind hName =>
          refine Command.split_of_unseparated rfl ?_
          simp [unseparated_cons_iff, unseparated_nil,
            unseparated_name_cons_iff hName, hWord, hKind]
      | database hKind hName =>
          refine Command.split_of_unseparated rfl ?_
          simp [unseparated_cons_iff, unseparated_nil,
            unseparated_name_cons_iff hName, hWord, hKind]
  | @alter _ w _ hWord hRest =>
      rcases hRest with
        @⟨_, _, k, t, _, hKind, hTable, hAction⟩
      cases hAction with
      | @addColumn _ a word definition hAdd hOption
          hDefinition =>
          refine
            ⟨w :: k :: t :: a :: word, definition, [],
              by simp, hDefinition, ?_, unseparated_nil⟩
          simp [unseparated_cons_iff,
            unseparated_name_cons_iff hTable,
            hOption.unseparated, hWord, hKind, hAdd]
      | dropColumn hDrop hOption hColumn =>
          refine Command.split_of_unseparated rfl ?_
          simp [unseparated_cons_iff, unseparated_append_iff,
            unseparated_nil, unseparated_name_cons_iff hTable,
            unseparated_name_cons_iff hColumn,
            hOption.unseparated, hWord, hKind, hDrop]
      | renameTo hRename hTo hName =>
          refine Command.split_of_unseparated rfl ?_
          simp [unseparated_cons_iff, unseparated_nil,
            unseparated_name_cons_iff hTable,
            unseparated_name_cons_iff hName, hWord, hKind,
            hRename, hTo]
  | @permission _ _ w _ hWord hRest =>
      rcases hRest with
        @⟨_, _, _, o, s, n, t, u, privilege, _, _, _, hOn,
          hScope, hName, hTo, hUser⟩
      refine
        ⟨[w], privilege, [o, s, n, t, u], by simp, rfl, ?_,
          ?_⟩
      · simp [unseparated_cons_iff, unseparated_nil, hWord]
      · simp [unseparated_cons_iff, unseparated_nil,
          unseparated_name_cons_iff hName, hOn, hScope, hTo,
          not_semicolon_of_user hUser]
  | listing hWord hRest =>
      cases hRest with
      | databases hKind =>
          refine Command.split_of_unseparated rfl ?_
          simp [unseparated_cons_iff, unseparated_nil, hWord,
            hKind]
      | tables hKind =>
          refine Command.split_of_unseparated rfl ?_
          simp [unseparated_cons_iff, unseparated_nil, hWord,
            hKind]
  | use hWord hName =>
      refine Command.split_of_unseparated rfl ?_
      simp [unseparated_cons_iff, unseparated_nil,
        unseparated_name_cons_iff hName, hWord]
  | describe hWord hName =>
      refine Command.split_of_unseparated rfl ?_
      simp [unseparated_cons_iff, unseparated_nil,
        unseparated_name_cons_iff hName, hWord]

namespace Statement

/-
  The semicolons of an accepted text stand in the part of it
  that the statement takes as it is written.
-/
theorem semicolons_in_taken_text
    {text : String}
    {st : Statement}
    (hParse : parse text = .ok st) :
    ∃ before taken after,
      Lexer.lexemes (normalize text.toList) =
          before ++ taken ++ after ∧
        st.TakesText taken ∧
        ∀ l ∈ before ++ after,
          l.token ≠ .mark .semicolon := by
  rw [parse_eq_ok_iff] at hParse
  generalize Lexer.lexemes (normalize text.toList) = ls
    at hParse
  cases hParse with
  | command hWritten =>
      rcases hWritten.split with
        ⟨before, taken, after, hSplit, hTaken, hBefore,
          hAfter⟩
      exact
        ⟨before, taken, after, hSplit, hTaken,
          unseparated_append_iff.mpr ⟨hBefore, hAfter⟩⟩
  | @control _ w ls hWord hRest =>
      refine ⟨w :: ls, [], [], by simp, rfl, ?_⟩
      rw [List.append_nil]
      exact
        unseparated_cons_iff.mpr
          ⟨by simp [hWord], hRest.unseparated (by simp)⟩

/- A value takes the only semicolon of an insertion. -/
theorem semicolon_in_value :
    parse "INSERT INTO t (a) VALUES (x; 'y;z')" =
        .ok (.command (.insert "t" ["a"] ["x; 'y;z'"])) ∧
      ∃ before taken after,
        Lexer.lexemes
            (normalize
              "INSERT INTO t (a) VALUES (x; 'y;z')".toList) =
            before ++ taken ++ after ∧
          TakesText
            (.command (.insert "t" ["a"] ["x; 'y;z'"]))
            taken ∧
          ∀ l ∈ before ++ after,
            l.token ≠ .mark .semicolon := by
  have hParse :
      parse "INSERT INTO t (a) VALUES (x; 'y;z')" =
        .ok (.command (.insert "t" ["a"] ["x; 'y;z'"])) := by
    decide +kernel
  exact ⟨hParse, semicolons_in_taken_text hParse⟩

/- The condition takes the tail of the text, a second statement included. -/
theorem second_statement_is_taken :
    parse "SELECT * FROM t WHERE a = 1; DROP TABLE t" =
        .ok (.command (.select .all "t"
          (some "a = 1; DROP TABLE t"))) ∧
      ∃ l ∈ Lexer.lexemes
          (normalize
            "SELECT * FROM t WHERE a = 1; DROP TABLE t".toList),
        l.token = .mark .semicolon := by
  decide +kernel

end Statement

end Rowstore
