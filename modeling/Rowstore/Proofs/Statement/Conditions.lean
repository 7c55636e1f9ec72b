import Mathlib.Control.Monad.Basic
import Rowstore.Proofs.Statement.Grammar

/-
  Where the condition of a command is written.

  A selection, an update or a deletion has no condition
  exactly if its lexemes hold no `WHERE` outside of
  parentheses.  Only the assignments of an update may hold
  this word inside of parentheses, where it belongs to the
  text of a value.

  Main declarations:
    * `Lexeme.Bare`
    * `Command.condition?`
    * `Command.Written.clause`
    * `Statement.condition_none_iff`
-/

------------------------------------------------------------
-- Bare Lexemes
------------------------------------------------------------

namespace Rowstore

namespace Lexeme

variable {l : Lexeme} {ls ms : List Lexeme}

/- The lexemes hold neither parentheses nor the word of a condition. -/
structure Bare (ls : List Lexeme) : Prop where
  plain : Plain ls
  no_where : ∀ l ∈ ls, l.token ≠ .keyword .«where»

theorem bare_iff :
    Bare ls ↔
      ∀ l ∈ ls,
        l.token ≠ .mark .openParen ∧
          l.token ≠ .mark .closeParen ∧
            l.token ≠ .keyword .«where» := by
  constructor
  · rintro ⟨hPlain, hNoWhere⟩ l hMember
    rcases hPlain l hMember with ⟨hNoOpen, hNoClose⟩
    exact ⟨hNoOpen, hNoClose, hNoWhere l hMember⟩
  · intro hBare
    constructor
    · intro l hMember
      rcases hBare l hMember with ⟨hNoOpen, hNoClose, _⟩
      exact ⟨hNoOpen, hNoClose⟩
    · intro l hMember
      exact (hBare l hMember).2.2

theorem bare_nil : Bare [] := by
  simp [bare_iff]

theorem bare_cons_iff :
    Bare (l :: ls) ↔
      (l.token ≠ .mark .openParen ∧
        l.token ≠ .mark .closeParen ∧
          l.token ≠ .keyword .«where») ∧ Bare ls := by
  rw [bare_iff, bare_iff, List.forall_mem_cons]

theorem bare_append_iff :
    Bare (ls ++ ms) ↔ Bare ls ∧ Bare ms := by
  rw [bare_iff, bare_iff, bare_iff, List.forall_mem_append]

/- A name in front adds neither of them. -/
theorem bare_name_cons_iff
    {name : String}
    (hName : l.name? = some name) :
    Bare (l :: ls) ↔ Bare ls := by
  rw [bare_cons_iff]
  exact
    and_iff_right
      ⟨not_mark_of_name hName .openParen,
        not_mark_of_name hName .closeParen,
        not_keyword_of_name hName rfl⟩

theorem Projected.bare
    {projection : Projection}
    (hShown : Projected projection ls) :
    Bare ls := by
  rw [bare_iff]
  intro l hMember
  rcases hShown.mem hMember with
    hStar | hComma | ⟨name, hName⟩
  · simp [hStar]
  · simp [hComma]
  · exact
      ⟨not_mark_of_name hName .openParen,
        not_mark_of_name hName .closeParen,
        not_keyword_of_name hName rfl⟩

theorem Bare.noneAtTop
    (hBare : Bare ls) :
    NoneAtTop .«where» 0 ls :=
  noneAtTop_of_forall hBare.no_where

theorem Bare.depthFrom
    (hBare : Bare ls) :
    depthFrom 0 ls = 0 :=
  depthFrom_of_plain hBare.plain 0

/- A condition is there exactly if its lexemes begin with its word. -/
theorem Clause.noneAtTop_iff
    {condition : Option String}
    (hClause : Clause condition ls) :
    condition = none ↔ NoneAtTop .«where» 0 ls := by
  cases hClause with
  | absent => simp [noneAtTop_nil]
  | present hWord =>
      simp [noneAtTop_cons_iff, hWord]

end Lexeme

end Rowstore

------------------------------------------------------------
-- Commands With Conditions
------------------------------------------------------------

namespace Rowstore

namespace Command

open Lexeme

/- The condition of a command that may have one. -/
def condition? : Command → Option (Option String)
| select _ _ condition => some condition
| update _ _ condition => some condition
| delete _ condition => some condition
| _ => none

variable {c : Command} {ls : List Lexeme}
variable {condition : Option String}

/-
  A condition is written at the end, after lexemes that hold
  its word only inside of parentheses, if at all.
-/
theorem Written.clause
    (hWritten : c.Written ls)
    (hCondition : c.condition? = some condition) :
    ∃ front clause,
      ls = front ++ clause ∧ Clause condition clause ∧
        NoneAtTop .«where» 0 front ∧
        (clause = [] ∨ depthFrom 0 front = 0) ∧
        (c.keyword ≠ "UPDATE" → Plain front) := by
  cases hWritten with
  | @select _ w _ hWord hRest =>
      rcases hRest with
        @⟨_, _, _, f, t, shown, clause, hShown, hFrom,
          hTable, hClause⟩
      cases hCondition
      have hBare : Bare (w :: (shown ++ [f, t])) := by
        simp [bare_cons_iff, bare_append_iff,
          bare_name_cons_iff hTable, bare_nil, hShown.bare,
          hWord, hFrom]
      exact
        ⟨_, clause, by simp, hClause, hBare.noneAtTop,
          .inr hBare.depthFrom, fun _ => hBare.plain⟩
  | @update _ w _ hWord hRest =>
      rcases hRest with
        @⟨_, _, _, t, s, body, clause, hTable, hSet, hBody,
          hTop, _, hClause⟩
      cases hCondition
      have hBare : Bare [w, t, s] := by
        simp [bare_cons_iff, bare_name_cons_iff hTable,
          bare_nil, hWord, hSet]
      have hFront :
          depthFrom 0 ([w, t, s] ++ body) =
            depthFrom 0 body := by
        rw [depthFrom_append, hBare.depthFrom]
      refine
        ⟨[w, t, s] ++ body, clause, rfl, hClause, ?_, ?_, ?_⟩
      · rw [noneAtTop_append_iff, hBare.depthFrom]
        exact ⟨hBare.noneAtTop, hBody⟩
      · rw [hFront]
        exact hTop
      · intro hOther
        exact absurd rfl hOther
  | @delete _ w _ hWord hRest =>
      rcases hRest with
        @⟨_, _, f, t, clause, hFrom, hTable, hClause⟩
      cases hCondition
      have hBare : Bare [w, f, t] := by
        simp [bare_cons_iff, bare_name_cons_iff hTable,
          bare_nil, hWord, hFrom]
      exact
        ⟨_, clause, rfl, hClause, hBare.noneAtTop,
          .inr hBare.depthFrom, fun _ => hBare.plain⟩
  | insert _ hRest =>
      cases hRest
      cases hCondition
  | create _ hRest =>
      cases hRest with
      | table _ hRest =>
          cases hRest
          cases hCondition
      | database _ hRest => cases hRest <;> cases hCondition
  | drop _ hRest => cases hRest <;> cases hCondition
  | alter _ hRest =>
      cases hRest
      cases hCondition
  | permission _ _ hRest =>
      cases hRest
      cases hCondition
  | listing _ hRest => cases hRest <;> cases hCondition
  | use => cases hCondition
  | describe => cases hCondition

end Command

end Rowstore

------------------------------------------------------------
-- Statements Without A Condition
------------------------------------------------------------

namespace Rowstore

namespace Statement

open Lexeme

/-
  A command that may have a condition is read without one
  exactly if no `WHERE` stands outside of parentheses.  Other
  than an update it then holds this word nowhere.
-/
theorem condition_none_iff
    {text : String}
    {c : Command}
    {condition : Option String}
    (hParse : parse text = .ok (.command c))
    (hCondition : c.condition? = some condition) :
    (condition = none ↔
      NoneAtTop .«where» 0
        (Lexer.lexemes (normalize text.toList))) ∧
      (condition = none → c.keyword ≠ "UPDATE" →
        ∀ l ∈ Lexer.lexemes (normalize text.toList),
          l.token ≠ .keyword .«where») := by
  rw [parse_eq_ok_iff] at hParse
  cases hParse with
  | command hWritten =>
      rcases hWritten.clause hCondition with
        ⟨front, clause, hSplit, hClause, hNone, hTop,
          hPlain⟩
      rw [hSplit]
      constructor
      · rw [hClause.noneAtTop_iff, noneAtTop_append_iff,
          and_iff_right hNone]
        rcases hTop with rfl | hTop
        · exact iff_of_true noneAtTop_nil noneAtTop_nil
        · rw [hTop]
      · intro hAbsent hOther
        subst hAbsent
        cases hClause
        rw [List.append_nil]
        exact forall_of_noneAtTop (hPlain hOther) hNone

/- A word inside of a string or a comment is no clause. -/
theorem update_without_where :
    parse "UPDATE t SET a = (b, 'WHERE') /* WHERE */" =
        .ok (.command (.update "t"
          [{ column := "a", value := "(b, 'WHERE')" }]
          none)) ∧
      NoneAtTop .«where» 0
        (Lexer.lexemes
          (normalize
            "UPDATE t SET a = (b, 'WHERE') /* WHERE */".toList)) := by
  have hParse :
      parse "UPDATE t SET a = (b, 'WHERE') /* WHERE */" =
        .ok (.command (.update "t"
          [{ column := "a", value := "(b, 'WHERE')" }]
          none)) := by
    decide +kernel
  exact
    ⟨hParse, (condition_none_iff hParse rfl).1.mp rfl⟩

/- Inside of parentheses the word is part of a value, and the update has no condition. -/
theorem where_in_parentheses_is_value :
    parse "UPDATE t SET a = (b WHERE c)" =
        .ok (.command (.update "t"
          [{ column := "a", value := "(b WHERE c)" }]
          none)) ∧
      ∃ l ∈ Lexer.lexemes
          (normalize "UPDATE t SET a = (b WHERE c)".toList),
        l.token = .keyword .«where» := by
  decide +kernel

end Statement

end Rowstore
