import Rowstore.Proofs.Statement.Respacing

/-
  Statements whose lexemes differ in one gap.

  If a blank takes the place of a comment in one gap, the
  lexemes write a statement of the same kind, with the same
  names.  What the statement keeps as it is written has the
  blank for the comment, too, where the gap is inside of it.

  Main declarations:
    * `Command.Parallel` and `Statement.Parallel`
    * `Command.Selection.spaced` and its siblings
    * `Statement.Written.spaced`
-/

------------------------------------------------------------
-- Commands With A Blank For A Comment
------------------------------------------------------------

namespace Rowstore

/-
  The commands are of one kind and have the same names, and
  what they keep as it is written corresponds: texts of values
  and privileges, conditions, and columns.
-/
inductive Command.Parallel
    (text condition : String → String → Prop)
    (column : ColumnDefinition → ColumnDefinition → Prop) :
    Command → Command → Prop where
| same (c : Command) : Parallel text condition column c c
| select
    (projection : Projection)
    (table : String)
    {u v : Option String}
    (hCondition : Option.Rel condition u v) :
    Parallel text condition column
      (.select projection table u)
      (.select projection table v)
| insert
    (table : String)
    (columns : List String)
    {values values' : List String}
    (hValues : List.Forall₂ text values values') :
    Parallel text condition column
      (.insert table columns values)
      (.insert table columns values')
| update
    (table : String)
    {changes changes' : List Assignment}
    {u v : Option String}
    (hChanges :
      List.Forall₂
        (fun a b =>
          b.column = a.column ∧ text a.value b.value)
        changes changes')
    (hCondition : Option.Rel condition u v) :
    Parallel text condition column
      (.update table changes u) (.update table changes' v)
| delete
    (table : String)
    {u v : Option String}
    (hCondition : Option.Rel condition u v) :
    Parallel text condition column
      (.delete table u) (.delete table v)
| createTable
    (table : String)
    {columns columns' : List ColumnDefinition}
    (key : List String)
    (hColumns : List.Forall₂ column columns columns') :
    Parallel text condition column
      (.createTable table columns key)
      (.createTable table columns' key)
| addColumn
    (table : String)
    {c d : ColumnDefinition}
    (hColumn : column c d) :
    Parallel text condition column
      (.alterTable table (.addColumn c))
      (.alterTable table (.addColumn d))
| permission
    (action : PermissionAction)
    (scope : Scope)
    (name user : String)
    {privilege privilege' : String}
    (hPrivilege : text privilege privilege') :
    Parallel text condition column
      (.permission action
        { privilege := privilege
          scope := scope
          name := name
          user := user })
      (.permission action
        { privilege := privilege'
          scope := scope
          name := name
          user := user })

/- Statements that are equal, or parallel commands. -/
inductive Statement.Parallel
    (text condition : String → String → Prop)
    (column : ColumnDefinition → ColumnDefinition → Prop) :
    Statement → Statement → Prop where
| control (c : Control) :
    Parallel text condition column (.control c) (.control c)
| command
    {c d : Command}
    (hCommand : c.Parallel text condition column d) :
    Parallel text condition column (.command c) (.command d)

namespace Command

open Lexeme

variable {text text' condition condition' :
  String → String → Prop}
variable {column column' :
  ColumnDefinition → ColumnDefinition → Prop}
variable {c d : Command}

theorem Parallel.mono
    (hParallel : c.Parallel text condition column d)
    (hText : ∀ a b, text a b → text' a b)
    (hCondition : ∀ u v, condition u v → condition' u v)
    (hColumn : ∀ a b, column a b → column' a b) :
    c.Parallel text' condition' column' d := by
  have hClause
      {u v : Option String}
      (hRel : Option.Rel condition u v) :
      Option.Rel condition' u v := by
    cases hRel with
    | some hSome => exact .some (hCondition _ _ hSome)
    | none => exact .none
  cases hParallel with
  | same => exact .same c
  | select projection table hRel =>
      exact .select projection table (hClause hRel)
  | insert table columns hValues =>
      exact
        .insert table columns
          (hValues.imp fun a b => hText a b)
  | update table hChanges hRel =>
      exact
        .update table
          (hChanges.imp fun a b hSame =>
            ⟨hSame.1, hText _ _ hSame.2⟩)
          (hClause hRel)
  | delete table hRel => exact .delete table (hClause hRel)
  | createTable table key hColumns =>
      exact
        .createTable table key
          (hColumns.imp fun a b => hColumn a b)
  | addColumn table hDefinition =>
      exact .addColumn table (hColumn _ _ hDefinition)
  | permission action scope name user hPrivilege =>
      exact
        .permission action scope name user
          (hText _ _ hPrivilege)

/- The commands are written in corresponding lexemes. -/
def Spaced
    (k : List Char)
    (all all' : List Lexeme)
    (c d : Command) : Prop :=
  c.Parallel (SpacedText k) (SpacedConditions k all all')
    (SpacedColumns k all all') d

variable {k : List Char}
variable {ls ms all all' : List Lexeme}
variable (hSpaced : Lexeme.Spaced k ls ms)
variable (hLeft : ls <:+ all) (hRight : ms <:+ all')

include hSpaced hLeft hRight

theorem Selection.spaced
    (hWritten : Selection c ls) :
    ∃ d, Selection d ms ∧ c.Spaced k all all' d := by
  rcases hWritten with
    @⟨projection, table, u, f, t, shown, clause, hShown, hFrom,
      hTable, hClause⟩
  rcases hSpaced.append_inv with
    ⟨shown', _, rfl, hFirst, hRest⟩
  rcases hRest.cons_inv with ⟨f', _, rfl, hFrom', hRest⟩
  rcases hRest.cons_inv with ⟨t', clause', rfl, hWord, hRest⟩
  rcases hRest.clause
      (.trans ⟨shown ++ [f, t], by simp⟩ hLeft)
      (.trans ⟨shown' ++ [f', t'], by simp⟩ hRight) hClause
    with ⟨v, hClause', hSame⟩
  exact
    ⟨_,
      .intro (hFirst.projected hShown)
        (hFrom'.token.trans hFrom) (hWord.name?.trans hTable)
        hClause',
      .select projection table hSame⟩

omit hLeft hRight in
theorem Insertion.spaced
    (hWritten : Insertion c ls) :
    ∃ d, Insertion d ms ∧ c.Spaced k all all' d := by
  rcases hWritten with
    @⟨table, columns, i, t, o, p, v, b, q, listed, inner,
      hInto, hTable, hOpen, hColumns, hClose, hValues, hBegin,
      hInner, hPieces, hEnd⟩
  rcases hSpaced.cons_inv with ⟨i', _, rfl, hInto', hRest⟩
  rcases hRest.cons_inv with ⟨t', _, rfl, hTable', hRest⟩
  rcases hRest.cons_inv with ⟨o', _, rfl, hOpen', hRest⟩
  rcases hRest.append_inv with
    ⟨listed', _, rfl, hListed, hRest⟩
  rcases hRest.cons_inv with ⟨p', _, rfl, hClose', hRest⟩
  rcases hRest.cons_inv with ⟨v', _, rfl, hValues', hRest⟩
  rcases hRest.cons_inv with ⟨b', _, rfl, hBegin', hRest⟩
  rcases hRest.append_inv with
    ⟨inner', _, rfl, hInside, hLast⟩
  rcases hLast.cons_inv with ⟨q', _, rfl, hEnd', hNil⟩
  rw [hNil.nil_inv]
  have hSplit := hInside.splitCommas 0
  exact
    ⟨_,
      .intro (hInto'.token.trans hInto)
        (hTable'.name?.trans hTable) (hOpen'.token.trans hOpen)
        (hListed.nameList hColumns) (hClose'.token.trans hClose)
        (hValues'.token.trans hValues) (hBegin'.token.trans hBegin)
        (hInside.closes hInner)
        (nil_not_mem_of_spaced hSplit hPieces)
        (hEnd'.token.trans hEnd),
      .insert table columns (sources_of_spaced hSplit)⟩

theorem Update.spaced
    (hWritten : Update c ls) :
    ∃ d, Update d ms ∧ c.Spaced k all all' d := by
  rcases hWritten with
    @⟨table, changes, u, t, s, body, clause, hTable, hSet,
      hBody, hTop, hChanges, hClause⟩
  rcases hSpaced.cons_inv with ⟨t', _, rfl, hTable', hRest⟩
  rcases hRest.cons_inv with ⟨s', _, rfl, hSet', hRest⟩
  rcases hRest.append_inv with
    ⟨body', clause', rfl, hInside, hRest⟩
  rcases hRest.clause
      (.trans ⟨t :: s :: body, by simp⟩ hLeft)
      (.trans ⟨t' :: s' :: body', by simp⟩ hRight) hClause
    with ⟨v, hClause', hSame⟩
  rcases assignments_of_spaced (hInside.splitCommas 0)
      hChanges with ⟨changes', hChanges', hAll⟩
  have hTop' : clause' = [] ∨ depthFrom 0 body' = 0 := by
    rcases hTop with rfl | hTop
    · exact .inl hRest.nil_inv
    · exact .inr ((hInside.depthFrom 0).trans hTop)
  exact
    ⟨_,
      .intro (hTable'.name?.trans hTable)
        (hSet'.token.trans hSet) (hInside.noneAtTop hBody) hTop'
        hChanges' hClause',
      .update table hAll hSame⟩

theorem Deletion.spaced
    (hWritten : Deletion c ls) :
    ∃ d, Deletion d ms ∧ c.Spaced k all all' d := by
  rcases hWritten with
    @⟨table, u, f, t, clause, hFrom, hTable, hClause⟩
  rcases hSpaced.cons_inv with ⟨f', _, rfl, hFrom', hRest⟩
  rcases hRest.cons_inv with
    ⟨t', clause', rfl, hTable', hRest⟩
  rcases hRest.clause
      (.trans ⟨[f, t], rfl⟩ hLeft)
      (.trans ⟨[f', t'], rfl⟩ hRight) hClause
    with ⟨v, hClause', hSame⟩
  exact
    ⟨_,
      .intro (hFrom'.token.trans hFrom)
        (hTable'.name?.trans hTable) hClause',
      .delete table hSame⟩

theorem TableCreation.spaced
    (hWritten : TableCreation c ls) :
    ∃ d, TableCreation d ms ∧ c.Spaced k all all' d := by
  rcases hWritten with
    @⟨table, columns, key, t, o, q, inner, hTable, hOpen,
      hInner, hPieces, hEnd⟩
  rcases hSpaced.cons_inv with ⟨t', _, rfl, hTable', hRest⟩
  rcases hRest.cons_inv with ⟨o', _, rfl, hOpen', hRest⟩
  rcases hRest.append_inv with
    ⟨inner', _, rfl, hInside, hLast⟩
  rcases hLast.cons_inv with ⟨q', _, rfl, hEnd', hNil⟩
  rw [hNil.nil_inv] at hRight ⊢
  have hStretch : inner <:+: all :=
    .trans ⟨[t, o], [q], by simp⟩ hLeft.isInfix
  have hStretch' : inner' <:+: all' :=
    .trans ⟨[t', o'], [q'], by simp⟩ hRight.isInfix
  rcases tablePieces_of_spaced (hInside.splitCommas 0)
      (fun p hPiece =>
        (infix_of_mem_splitCommas hPiece).trans hStretch)
      (fun p hPiece =>
        (infix_of_mem_splitCommas hPiece).trans hStretch')
      hPieces with ⟨columns', hPieces', hColumns⟩
  exact
    ⟨_,
      .intro (hTable'.name?.trans hTable)
        (hOpen'.token.trans hOpen) (hInside.closes hInner)
        hPieces' (hEnd'.token.trans hEnd),
      .createTable table key hColumns⟩

omit hLeft hRight in
theorem DatabaseCreation.spaced
    (hWritten : DatabaseCreation c ls) :
    DatabaseCreation c ms := by
  cases hWritten with
  | always hDatabase =>
      rcases hSpaced.cons_inv with ⟨d', _, rfl, hWord, hNil⟩
      rw [hNil.nil_inv]
      exact .always (hWord.name?.trans hDatabase)
  | ifMissing hIf hNot hExists hDatabase =>
      rcases hSpaced.cons_inv with
        ⟨i', _, rfl, hIf', hRest⟩
      rcases hRest.cons_inv with ⟨n', _, rfl, hNot', hRest⟩
      rcases hRest.cons_inv with ⟨e', _, rfl, hExists', hRest⟩
      rcases hRest.cons_inv with ⟨d', _, rfl, hDatabase', hNil⟩
      rw [hNil.nil_inv]
      exact
        .ifMissing (hIf'.token.trans hIf) (hNot'.token.trans hNot)
          (hExists'.token.trans hExists)
          (hDatabase'.name?.trans hDatabase)

theorem Creation.spaced
    (hWritten : Creation c ls) :
    ∃ d, Creation d ms ∧ c.Spaced k all all' d := by
  cases hWritten with
  | table hKind hTable =>
      rcases hSpaced.cons_inv with ⟨m, ms, rfl, hWord, hRest⟩
      rcases TableCreation.spaced hRest
          ((List.suffix_cons _ _).trans hLeft)
          ((List.suffix_cons _ _).trans hRight) hTable with
        ⟨d, hTable', hSame⟩
      exact ⟨d, .table (hWord.token.trans hKind) hTable', hSame⟩
  | database hKind hDatabase =>
      rcases hSpaced.cons_inv with ⟨m, ms, rfl, hWord, hRest⟩
      exact
        ⟨c,
          .database (hWord.token.trans hKind)
            (DatabaseCreation.spaced hRest hDatabase),
          .same c⟩

omit hLeft hRight in
theorem Removal.spaced
    (hWritten : Removal c ls) :
    Removal c ms := by
  cases hWritten with
  | table hKind hTable =>
      rcases hSpaced.cons_inv with ⟨m, _, rfl, hKind', hRest⟩
      rcases hRest.cons_inv with ⟨t', _, rfl, hTable', hNil⟩
      rw [hNil.nil_inv]
      exact
        .table (hKind'.token.trans hKind)
          (hTable'.name?.trans hTable)
  | database hKind hDatabase =>
      rcases hSpaced.cons_inv with ⟨m, _, rfl, hKind', hRest⟩
      rcases hRest.cons_inv with ⟨d', _, rfl, hDatabase', hNil⟩
      rw [hNil.nil_inv]
      exact
        .database (hKind'.token.trans hKind)
          (hDatabase'.name?.trans hDatabase)

theorem Alteration.spaced
    (hWritten : Alteration c ls) :
    ∃ d, Alteration d ms ∧ c.Spaced k all all' d := by
  rcases hWritten with
    @⟨table, action, w, t, rest, hKind, hTable, hAction⟩
  rcases hSpaced.cons_inv with ⟨w', _, rfl, hKind', hRest⟩
  rcases hRest.cons_inv with ⟨t', rest', rfl, hTable', hRest⟩
  have hIntro
      {action' : AlterAction}
      (hAction' : action'.Written rest') :
      Alteration (.alterTable table action')
        (w' :: t' :: rest') :=
    .intro (hKind'.token.trans hKind) (hTable'.name?.trans hTable)
      hAction'
  cases hAction with
  | @addColumn column a word piece hAdd hWord hPiece =>
      rcases hRest.cons_inv with
        ⟨a', _, rfl, hAdd', hRest⟩
      rcases hRest.append_inv with
        ⟨word', piece', rfl, hFirst, hRest⟩
      rcases hRest.columnDefinition hPiece with
        ⟨d, hPiece', _⟩
      refine
        ⟨_,
          hIntro
            (.addColumn (hAdd'.token.trans hAdd)
              (hFirst.optionally hRest hWord) hPiece'),
          .addColumn table
            ⟨piece, piece', ?_, ?_, hRest, hPiece, hPiece'⟩⟩
      · exact
          .trans ⟨w :: t :: a :: word, [], by simp⟩
            hLeft.isInfix
      · exact
          .trans ⟨w' :: t' :: a' :: word', [], by simp⟩
            hRight.isInfix
  | dropColumn hDrop hWord hColumn =>
      rcases hRest.cons_inv with
        ⟨d', _, rfl, hDrop', hRest⟩
      rcases hRest.append_inv with
        ⟨word', _, rfl, hFirst, hRest⟩
      have hOptional := hFirst.optionally hRest hWord
      rcases hRest.cons_inv with
        ⟨c', _, rfl, hColumn', hNil⟩
      rw [hNil.nil_inv] at hIntro hOptional ⊢
      exact
        ⟨_,
          hIntro
            (.dropColumn (hDrop'.token.trans hDrop) hOptional
              (hColumn'.name?.trans hColumn)),
          .same _⟩
  | renameTo hRename hTo hName =>
      rcases hRest.cons_inv with
        ⟨r', _, rfl, hRename', hRest⟩
      rcases hRest.cons_inv with
        ⟨o', _, rfl, hTo', hRest⟩
      rcases hRest.cons_inv with
        ⟨n', _, rfl, hName', hNil⟩
      rw [hNil.nil_inv] at hIntro ⊢
      exact
        ⟨_,
          hIntro
            (.renameTo (hRename'.token.trans hRename)
              (hTo'.token.trans hTo)
              (hName'.name?.trans hName)),
          .same _⟩

omit hLeft hRight in
theorem Permission.spaced
    {action : PermissionAction}
    (hWritten : Permission action c ls) :
    ∃ d, Permission action d ms ∧ c.Spaced k all all' d := by
  rcases hWritten with
    @⟨scope, name, user, o, s, n, t, u, privilege, hPrivilege,
      hNoOn, hTop, hOn, hScope, hName, hTo, hUser⟩
  rcases hSpaced.append_inv with
    ⟨privilege', _, rfl, hFirst, hRest⟩
  rcases hRest.cons_inv with ⟨o', _, rfl, hOn', hRest⟩
  rcases hRest.cons_inv with ⟨s', _, rfl, hScope', hRest⟩
  rcases hRest.cons_inv with ⟨n', _, rfl, hName', hRest⟩
  rcases hRest.cons_inv with ⟨t', _, rfl, hTo', hRest⟩
  rcases hRest.cons_inv with ⟨u', _, rfl, hUser', hNil⟩
  rw [hNil.nil_inv]
  have hFilled : privilege' ≠ [] := by
    rintro rfl
    cases hFirst
    exact hPrivilege rfl
  exact
    ⟨_,
      .intro hFilled (hFirst.noneAtTop hNoOn)
        ((hFirst.depthFrom 0).trans hTop)
        (hOn'.token.trans hOn) (hScope'.token.trans hScope)
        (hName'.name?.trans hName) (hTo'.token.trans hTo)
        (hUser'.user?.trans hUser),
      .permission action scope name user hFirst.source⟩

omit hLeft hRight in
theorem Listing.spaced
    (hWritten : Listing c ls) :
    Listing c ms := by
  cases hWritten with
  | databases hKind =>
      rcases hSpaced.cons_inv with ⟨m, _, rfl, hWord, hNil⟩
      rw [hNil.nil_inv]
      exact .databases (hWord.token.trans hKind)
  | tables hKind =>
      rcases hSpaced.cons_inv with ⟨m, _, rfl, hWord, hNil⟩
      rw [hNil.nil_inv]
      exact .tables (hWord.token.trans hKind)

omit hSpaced hLeft hRight

/- Commands that are written in corresponding lexemes correspond. -/
theorem Written.spaced
    {w m : Lexeme}
    (hWord : SameWord w m)
    (hSpaced : Lexeme.Spaced k ls ms)
    (hWritten : c.Written (w :: ls)) :
    ∃ d,
      d.Written (m :: ms) ∧
        c.Spaced k (w :: ls) (m :: ms) d := by
  have hLeft := List.suffix_cons w ls
  have hRight := List.suffix_cons m ms
  cases hWritten with
  | select hFirst hRest =>
      rcases hRest.spaced hSpaced hLeft hRight with
        ⟨d, hRest', hSame⟩
      exact
        ⟨d, .select (hWord.token.trans hFirst) hRest', hSame⟩
  | insert hFirst hRest =>
      rcases hRest.spaced hSpaced with ⟨d, hRest', hSame⟩
      exact
        ⟨d, .insert (hWord.token.trans hFirst) hRest', hSame⟩
  | update hFirst hRest =>
      rcases hRest.spaced hSpaced hLeft hRight with
        ⟨d, hRest', hSame⟩
      exact
        ⟨d, .update (hWord.token.trans hFirst) hRest', hSame⟩
  | delete hFirst hRest =>
      rcases hRest.spaced hSpaced hLeft hRight with
        ⟨d, hRest', hSame⟩
      exact
        ⟨d, .delete (hWord.token.trans hFirst) hRest', hSame⟩
  | create hFirst hRest =>
      rcases hRest.spaced hSpaced hLeft hRight with
        ⟨d, hRest', hSame⟩
      exact
        ⟨d, .create (hWord.token.trans hFirst) hRest', hSame⟩
  | drop hFirst hRest =>
      exact
        ⟨c,
          .drop (hWord.token.trans hFirst) (hRest.spaced hSpaced),
          .same c⟩
  | alter hFirst hRest =>
      rcases hRest.spaced hSpaced hLeft hRight with
        ⟨d, hRest', hSame⟩
      exact ⟨d, .alter (hWord.token.trans hFirst) hRest', hSame⟩
  | permission action hFirst hRest =>
      rcases hRest.spaced hSpaced with ⟨d, hRest', hSame⟩
      exact
        ⟨d, .permission action (hWord.token.trans hFirst) hRest',
          hSame⟩
  | use hFirst hDatabase =>
      rcases hSpaced.cons_inv with ⟨d', _, rfl, hName, hNil⟩
      rw [hNil.nil_inv]
      exact
        ⟨_,
          .use (hWord.token.trans hFirst)
            (hName.name?.trans hDatabase),
          .same _⟩
  | listing hFirst hRest =>
      exact
        ⟨c,
          .listing (hWord.token.trans hFirst)
            (hRest.spaced hSpaced),
          .same c⟩
  | describe hFirst hTable =>
      rcases hSpaced.cons_inv with ⟨t', _, rfl, hName, hNil⟩
      rw [hNil.nil_inv]
      exact
        ⟨_,
          .describe (hWord.token.trans hFirst)
            (hName.name?.trans hTable),
          .same _⟩

end Command

theorem Statement.Parallel.mono
    {text text' condition condition' : String → String → Prop}
    {column column' :
      ColumnDefinition → ColumnDefinition → Prop}
    {st st' : Statement}
    (hParallel : st.Parallel text condition column st')
    (hText : ∀ a b, text a b → text' a b)
    (hCondition : ∀ u v, condition u v → condition' u v)
    (hColumn : ∀ a b, column a b → column' a b) :
    st.Parallel text' condition' column' st' := by
  cases hParallel with
  | control c => exact .control c
  | command hCommand =>
      exact .command (hCommand.mono hText hCondition hColumn)

/- Statements that are written in corresponding lexemes correspond. -/
theorem Statement.Written.spaced
    {k : List Char}
    {st : Statement}
    {w m : Lexeme}
    {ls ms : List Lexeme}
    (hWord : Lexeme.SameWord w m)
    (hSpaced : Lexeme.Spaced k ls ms)
    (hWritten : st.Written (w :: ls)) :
    ∃ st',
      st'.Written (m :: ms) ∧
        st.Parallel (SpacedText k)
          (Lexeme.SpacedConditions k (w :: ls) (m :: ms))
          (Lexeme.SpacedColumns k (w :: ls) (m :: ms)) st' := by
  cases hWritten with
  | command hCommand =>
      rcases hCommand.spaced hWord hSpaced with
        ⟨d, hCommand', hSame⟩
      exact ⟨.command d, .command hCommand', .command hSame⟩
  | control hFirst hRest =>
      refine
        ⟨_, .control (hWord.token.trans hFirst) ?_, .control _⟩
      exact hSpaced.optionally (.same []) hRest

end Rowstore
