import Rowstore.Proofs.Statement.LetterCase
import Rowstore.Proofs.Table.Naming
import Rowstore.Proofs.Table.Selecting
import Rowstore.Proofs.Workspace.Effects

/-
  Two commands that differ in no more than the letter case of
  names, and whose literals have the same values, do the same:
  from each workspace they end in the same one and answer the
  same, or they fail with failures of the same kind.

  Tables and columns are looked up by names up to letter case.
  The text of a condition is read when rows are selected, so
  that it is cut into lexemes a second time; the lexemes of
  texts in different letter case correspond there as well.

  Main declarations:
    * `Command.literals`
    * `Command.Alike`
    * `Edit.resembles_updateLiterals`
    * `Work.resembles_onTable`
    * `Work.resembles_execute`
-/

------------------------------------------------------------
-- Conditions
------------------------------------------------------------

namespace Rowstore

open Execution Text

namespace Condition

theorem comparison?_lowered (t : Token) :
    comparison? t.lowered = comparison? t := by
  cases t <;> rfl

theorem breaksLiteral_lowered (t : Token) :
    breaksLiteral t.lowered = breaksLiteral t := by
  cases t <;> rfl

theorem sameKind_literalOf
    (text text' : List Char)
    (op : Comparison)
    (ls : List Lexeme) :
    SameKind (fun _ _ => True) (literalOf text op ls)
      (literalOf text' op (ls.map Lexeme.lowered)) := by
  unfold literalOf
  rw [List.isEmpty_map, List.any_map]
  simp only [Function.comp_def, Lexeme.token_lowered,
    breaksLiteral_lowered]
  split
  · exact .error rfl
  split
  · exact .error rfl
  · exact .ok trivial

/- The second condition has the column of the first one, lowered, and its operator. -/
def LoweredTo (c d : Condition) : Prop :=
  d.column = lowerName c.column ∧ d.op = c.op

theorem sameKind_ofLexemes
    (text text' : List Char)
    (ls : List Lexeme) :
    SameKind LoweredTo (ofLexemes text ls)
      (ofLexemes text' (ls.map Lexeme.lowered)) := by
  have hColumn :
      (ls.map Lexeme.lowered).head?.bind Lexeme.name? =
        (ls.head?.bind Lexeme.name?).map lowerName := by
    cases ls with
    | nil => rfl
    | cons l ls => exact l.name?_lowered
  have hOperator :
      ((ls.map Lexeme.lowered)[1]?.bind fun l =>
          comparison? l.token) =
        ls[1]?.bind fun l => comparison? l.token := by
    rw [List.getElem?_map]
    cases ls[1]? with
    | none => rfl
    | some l => exact comparison?_lowered l.token
  unfold ofLexemes
  rw [hColumn, hOperator, ← List.map_drop]
  cases ls.head?.bind Lexeme.name? with
  | none => exact .error rfl
  | some column =>
      cases ls[1]?.bind fun l => comparison? l.token with
      | none => exact .error rfl
      | some op =>
          apply (sameKind_literalOf text text' op _).bind
          intro _ _ _
          exact .ok ⟨rfl, rfl⟩

theorem parse_lowerName (text : String) :
    SameKind LoweredTo (parse text)
      (parse (lowerName text)) := by
  unfold parse
  dsimp only
  rw [toList_lowerName, trim_lowerBasic,
    Lexer.lexemes_lowerBasic]
  exact sameKind_ofLexemes _ _ _

/- The value of the literal of an optional condition, if it can be read. -/
def literals : Option String → List Value
| none => []
| some text =>
  match parse text with
  | .ok c => [c.literal]
  | .error _ => []

/- Optional conditions that differ in letter case alone, and not in their literals. -/
structure Alike (condition condition' : Option String) : Prop where
  lowered :
    condition.map lowerName = condition'.map lowerName
  literals : literals condition = literals condition'

/- Such conditions compare the same column in the same way with the same value. -/
theorem Alike.sameKind_parse
    {text text' : String}
    (hAlike : Alike (some text) (some text')) :
    SameKind
      (fun c d =>
        sameName c.column d.column = true ∧ c.op = d.op ∧
          c.literal = d.literal)
      (parse text) (parse text') := by
  rcases hAlike with ⟨hLowered, hLiterals⟩
  rw [Option.map_some, Option.map_some,
    Option.some.injEq] at hLowered
  have hLeft := parse_lowerName text
  have hRight := parse_lowerName text'
  rw [← hLowered] at hRight
  have hBoth := hLeft.join hRight
  dsimp only [Condition.literals] at hLiterals
  generalize parse text = c, parse text' = d at *
  cases hBoth with
  | error hKind => exact .error hKind
  | ok hValues =>
      rcases hValues with
        ⟨_, ⟨hColumn, hOp⟩, ⟨hColumn', hOp'⟩⟩
      rw [List.cons.injEq] at hLiterals
      refine .ok ⟨?_, hOp.symm.trans hOp', hLiterals.1⟩
      rw [sameName_iff_lowerName]
      exact hColumn.symm.trans hColumn'

end Condition

end Rowstore

------------------------------------------------------------
-- Commands
------------------------------------------------------------

namespace Rowstore

/- The value of a literal as it is stored. -/
def Text.literal (raw : String) : Value :=
  Value.ofLiteral raw.toList

/- What an assignment means in any letter case. -/
def Assignment.sense (a : Assignment) : String × Value :=
  (Text.lowerName a.column, Text.literal a.value)

namespace Command

/- The values of the literals of a command. -/
def literals : Command → List Value
| .insert _ _ values => values.map Text.literal
| .update _ assignments condition =>
  (assignments.map fun a => Text.literal a.value) ++
    Condition.literals condition
| .select _ _ condition => Condition.literals condition
| .delete _ condition => Condition.literals condition
| _ => []

/- Commands that differ in letter case alone, and not in their literals. -/
structure Alike (c c' : Command) : Prop where
  lowered : c.lowered = c'.lowered
  literals : c.literals = c'.literals

end Command

end Rowstore

------------------------------------------------------------
-- Lookups By Name
------------------------------------------------------------

namespace Rowstore

open Execution Text

variable {a b : String}

namespace Table

theorem column?_congr
    (t : Table)
    (hSame : sameName a b = true) :
    t.column? a = t.column? b := by
  unfold column? Column.isNamed
  rw [hasName_congr Column.name hSame]

theorem sameKind_columnNamed
    (t : Table)
    (hSame : sameName a b = true) :
    SameKind (· = ·) (t.columnNamed a) (t.columnNamed b) := by
  unfold columnNamed
  rw [t.column?_congr hSame]
  cases t.column? b with
  | none => exact .error rfl
  | some c => exact .ok rfl

end Table

namespace Database

theorem table?_congr
    (d : Database)
    (hSame : sameName a b = true) :
    d.table? a = d.table? b := by
  unfold table? Table.isNamed
  rw [hasName_congr Table.name hSame]

theorem updateTable_congr
    (d : Database)
    (hSame : sameName a b = true)
    (f : Table → Table) :
    d.updateTable a f = d.updateTable b f := by
  unfold updateTable Table.isNamed
  rw [hasName_congr Table.name hSame]

end Database

end Rowstore

------------------------------------------------------------
-- Rows Of A Table
------------------------------------------------------------

namespace Rowstore

open Execution Text

variable {condition condition' : Option String}

namespace Table

theorem sameKind_meaning
    (t : Table)
    (hAlike : Condition.Alike condition condition') :
    SameKind (· = ·) (t.meaning condition)
      (t.meaning condition') := by
  cases condition with
  | none =>
      cases condition' with
      | none => exact .ok rfl
      | some text' => cases hAlike.lowered
  | some text =>
      cases condition' with
      | none => cases hAlike.lowered
      | some text' =>
          have hParse := hAlike.sameKind_parse
          unfold meaning
          dsimp only
          generalize Condition.parse text = c,
            Condition.parse text' = d at hParse
          cases hParse with
          | error hKind => exact .error hKind
          | ok hValues =>
              rcases hValues with ⟨hColumn, hOp, hLiteral⟩
              dsimp only
              rw [t.column?_congr hColumn, hOp, hLiteral]
              split
              · exact .error rfl
              · exact .ok rfl

theorem sameKind_selected
    (t : Table)
    (hAlike : Condition.Alike condition condition') :
    SameKind (· = ·) (t.selected condition)
      (t.selected condition') := by
  rw [selected_eq, selected_eq]
  apply (t.sameKind_meaning hAlike).map
  rintro p _ rfl
  rfl

theorem sameKind_selectedIds
    (t : Table)
    (hAlike : Condition.Alike condition condition') :
    SameKind (· = ·) (t.selectedIds condition)
      (t.selectedIds condition') := by
  rw [selectedIds_eq, selectedIds_eq]
  apply (t.sameKind_selected hAlike).map
  rintro rows _ rfl
  rfl

end Table

namespace Edit

/- Entries for columns that are the same, with literals of the same values. -/
theorem sameKind_cellsOf
    (t : Table)
    {entries entries' : List (String × String)}
    (hEntries :
      entries.map (Prod.map lowerName literal) =
        entries'.map (Prod.map lowerName literal)) :
    SameKind (· = ·) (cellsOf t literalValue entries)
      (cellsOf t literalValue entries') := by
  unfold cellsOf
  apply (SameKind.mapM _ hEntries).bind
  · rintro cells _ rfl
    exact .ok rfl
  · rintro ⟨a, raw⟩ ⟨b, raw'⟩ hEntry
    rw [Prod.map_apply, Prod.map_apply, Prod.mk.injEq,
      ← sameName_iff_lowerName] at hEntry
    apply (t.sameKind_columnNamed hEntry.1).bind
    rintro c _ rfl
    exact .ok (congrArg (Prod.mk c.id) hEntry.2)

theorem sameKind_changesOf
    (t : Table)
    {assignments assignments' : List Assignment}
    (hAssignments :
      assignments.map Assignment.sense =
        assignments'.map Assignment.sense) :
    SameKind (· = ·) (changesOf t assignments)
      (changesOf t assignments') := by
  unfold changesOf
  apply SameKind.mapM _ hAssignments
  intro a b hAssignment
  unfold Assignment.sense at hAssignment
  rw [Prod.mk.injEq, ← sameName_iff_lowerName] at hAssignment
  apply (t.sameKind_columnNamed hAssignment.1).bind
  rintro c _ rfl
  exact .ok (congrArg (Prod.mk c.id) hAssignment.2)

theorem resembles_insertLiterals
    {entries entries' : List (String × String)}
    (hEntries :
      entries.map (Prod.map lowerName literal) =
        entries'.map (Prod.map lowerName literal)) :
    Resembles (· = ·) (insertLiterals entries)
      (insertLiterals entries') := by
  apply (Resembles.refl (fun _ => rfl) get).bind
  rintro t _ rfl
  apply
    (Resembles.of_lift (sameKind_cellsOf t hEntries)).bind
  rintro cells _ rfl
  exact .refl (fun _ => rfl) _

theorem resembles_updateLiterals
    {assignments assignments' : List Assignment}
    (hAssignments :
      assignments.map Assignment.sense =
        assignments'.map Assignment.sense)
    (hAlike : Condition.Alike condition condition') :
    Resembles (· = ·) (updateLiterals assignments condition)
      (updateLiterals assignments' condition') := by
  apply (Resembles.refl (fun _ => rfl) get).bind
  rintro t _ rfl
  apply
    (Resembles.of_lift
      (sameKind_changesOf t hAssignments)).bind
  rintro changes _ rfl
  apply
    (Resembles.of_lift (t.sameKind_selectedIds hAlike)).bind
  rintro ids _ rfl
  exact .refl (fun _ => rfl) _

theorem resembles_deleteSelected
    (hAlike : Condition.Alike condition condition') :
    Resembles (· = ·) (deleteSelected condition)
      (deleteSelected condition') := by
  apply (Resembles.refl (fun _ => rfl) get).bind
  rintro t _ rfl
  apply
    (Resembles.of_lift (t.sameKind_selectedIds hAlike)).bind
  rintro ids _ rfl
  exact .refl (fun _ => rfl) _

end Edit

end Rowstore

------------------------------------------------------------
-- Work On A Workspace
------------------------------------------------------------

namespace Rowstore

open Execution Text

variable {a b : String}
variable {condition condition' : Option String}

namespace Work

theorem resembles_tableNamed (hSame : sameName a b = true) :
    Resembles (· = ·) (tableNamed a) (tableNamed b) := by
  apply (Resembles.refl (fun _ => rfl) get).bind
  rintro w _ rfl
  apply Resembles.of_lift
  apply (SameKind.refl (fun _ => rfl) w.activeDatabase).bind
  rintro d _ rfl
  rw [d.table?_congr hSame]
  cases d.table? b with
  | none => exact .error rfl
  | some t => exact .ok rfl

/- Edits that resemble each other do so on the table of one name in any letter case. -/
theorem resembles_onTable
    {α : Type}
    {edit edit' : Edit α}
    (hSame : sameName a b = true)
    (hEdits : Resembles (· = ·) edit edit') :
    Resembles (· = ·) (onTable a edit) (onTable b edit') := by
  apply (resembles_tableNamed hSame).bind
  rintro t _ rfl
  rcases hEdits.runs t with
    ⟨answer, answer', t', hLeft, hRight, hAnswers⟩
  rw [hLeft, hRight]
  have hUpdate :
      (fun d : Database => d.updateTable a fun _ => t') =
        fun d => d.updateTable b fun _ => t' := by
    funext d
    exact d.updateTable_congr hSame _
  dsimp only
  rw [hUpdate]
  apply (Resembles.refl (fun _ => rfl) _).bind
  intro _ _ _
  exact .of_lift hAnswers

theorem sameKind_projected
    (t : Table)
    {projection projection' : Projection}
    (hLowered : projection.lowered = projection'.lowered) :
    SameKind (· = ·) (projected t projection)
      (projected t projection') := by
  cases projection with
  | all =>
      cases projection' with
      | all => exact .ok rfl
      | columns names' => cases hLowered
  | columns names =>
      cases projection' with
      | all => cases hLowered
      | columns names' =>
          apply
            SameKind.mapM _ (Projection.columns.inj hLowered)
          intro a b hSame
          rw [← sameName_iff_lowerName] at hSame
          exact t.sameKind_columnNamed hSame

theorem resembles_select
    {projection projection' : Projection}
    (hLowered : projection.lowered = projection'.lowered)
    (hSame : sameName a b = true)
    (hAlike : Condition.Alike condition condition') :
    Resembles (· = ·) (select projection a condition)
      (select projection' b condition') := by
  apply (resembles_tableNamed hSame).bind
  rintro t _ rfl
  apply
    (Resembles.of_lift (sameKind_projected t hLowered)).bind
  rintro columns _ rfl
  apply
    (Resembles.of_lift (t.sameKind_selected hAlike)).bind
  rintro rows _ rfl
  exact .refl (fun _ => rfl) _

theorem resembles_insert
    {columns columns' values values' : List String}
    (hSame : sameName a b = true)
    (hColumns : columns.map lowerName = columns'.map lowerName)
    (hValues : values.map literal = values'.map literal) :
    Resembles (· = ·) (insert a columns values)
      (insert b columns' values') := by
  have hColumnCount : columns.length = columns'.length := by
    simpa using congrArg List.length hColumns
  have hValueCount : values.length = values'.length := by
    simpa using congrArg List.length hValues
  have hEntries :
      (columns.zip values).map (Prod.map lowerName literal) =
        (columns'.zip values').map
          (Prod.map lowerName literal) := by
    rw [← List.zip_map, ← List.zip_map, hColumns, hValues]
  unfold insert
  rw [hColumnCount, hValueCount]
  split
  · apply
      (Resembles.of_throw (Q := fun _ _ => False) rfl).bind
    intro _ _ hNever
    cases hNever
  · apply
      (resembles_onTable hSame
        (Edit.resembles_insertLiterals hEntries)).bind
    rintro id _ rfl
    exact .refl (fun _ => rfl) _

theorem resembles_update
    {assignments assignments' : List Assignment}
    (hSame : sameName a b = true)
    (hLowered :
      assignments.map Assignment.lowered =
        assignments'.map Assignment.lowered)
    (hValues :
      (assignments.map fun a => literal a.value) =
        assignments'.map fun a => literal a.value)
    (hAlike : Condition.Alike condition condition') :
    Resembles (· = ·) (update a assignments condition)
      (update b assignments' condition') := by
  have hColumns :
      (assignments.map fun a => lowerName a.column) =
        assignments'.map fun a => lowerName a.column := by
    have hNames :=
      congrArg (List.map Assignment.column) hLowered
    rw [List.map_map, List.map_map] at hNames
    exact hNames
  have hAssignments :
      assignments.map Assignment.sense =
        assignments'.map Assignment.sense := by
    unfold Assignment.sense
    rw [← List.zip_map', ← List.zip_map', hColumns, hValues]
  apply
    (resembles_onTable hSame
      (Edit.resembles_updateLiterals hAssignments
        hAlike)).bind
  rintro n _ rfl
  exact .refl (fun _ => rfl) _

theorem resembles_delete
    (hSame : sameName a b = true)
    (hAlike : Condition.Alike condition condition') :
    Resembles (· = ·) (delete a condition)
      (delete b condition') := by
  apply
    (resembles_onTable hSame
      (Edit.resembles_deleteSelected hAlike)).bind
  rintro n _ rfl
  exact .refl (fun _ => rfl) _

/- Commands that are alike do the same, up to the texts of failures. -/
theorem resembles_execute
    (stamp : Stamp)
    {c c' : Command}
    (hAlike : c.Alike c') :
    Resembles (· = ·) (execute stamp c)
      (execute stamp c') := by
  rcases hAlike with ⟨hLowered, hLiterals⟩
  cases c with
  | select projection table condition =>
      cases c' with
      | select projection' table' condition' =>
          rcases Command.select.inj hLowered with
            ⟨hProjection, hTable, hCondition⟩
          rw [← sameName_iff_lowerName] at hTable
          exact
            resembles_select hProjection hTable
              ⟨hCondition, hLiterals⟩
      | insert | update | delete | createTable
      | createDatabase | dropTable | dropDatabase
      | alterTable | use | permission | showDatabases
      | showTables | describe => cases hLowered
  | insert table columns values =>
      cases c' with
      | insert table' columns' values' =>
          rcases Command.insert.inj hLowered with
            ⟨hTable, hColumns, _⟩
          rw [← sameName_iff_lowerName] at hTable
          exact resembles_insert hTable hColumns hLiterals
      | select | update | delete | createTable
      | createDatabase | dropTable | dropDatabase
      | alterTable | use | permission | showDatabases
      | showTables | describe => cases hLowered
  | update table assignments condition =>
      cases c' with
      | update table' assignments' condition' =>
          rcases Command.update.inj hLowered with
            ⟨hTable, hAssignments, hCondition⟩
          rw [← sameName_iff_lowerName] at hTable
          have hLength :
              assignments.length = assignments'.length := by
            simpa using congrArg List.length hAssignments
          rcases List.append_inj hLiterals
              (by simpa using hLength) with
            ⟨hValues, hLiterals⟩
          exact
            resembles_update hTable hAssignments hValues
              ⟨hCondition, hLiterals⟩
      | select | insert | delete | createTable
      | createDatabase | dropTable | dropDatabase
      | alterTable | use | permission | showDatabases
      | showTables | describe => cases hLowered
  | delete table condition =>
      cases c' with
      | delete table' condition' =>
          rcases Command.delete.inj hLowered with
            ⟨hTable, hCondition⟩
          rw [← sameName_iff_lowerName] at hTable
          exact
            resembles_delete hTable ⟨hCondition, hLiterals⟩
      | select | insert | update | createTable
      | createDatabase | dropTable | dropDatabase
      | alterTable | use | permission | showDatabases
      | showTables | describe => cases hLowered
  -- Other commands have no lowered form of their own.
  | createTable | createDatabase | dropTable | dropDatabase
  | alterTable | use | permission | showDatabases
  | showTables | describe =>
      cases c' <;> cases hLowered
      exact .refl (fun _ => rfl) _

end Work

end Rowstore
