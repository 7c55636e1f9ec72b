import Rowstore.Proofs.Session.Selecting
import Rowstore.Proofs.Statement.Quoting

/-
  Statements that quote a text treat it as data.

  Every table and every column of a reachable session has a
  name that can be quoted and under which it is found.  So a
  text that is quoted in an insertion, an update or a
  selection is stored or compared as it is, whatever it
  holds.

  Main declarations:
    * `Table.meaning_equationText`
    * `Session.Target`
    * `Session.quoted_text_is_data`
-/

------------------------------------------------------------
-- Quoted Texts In A Table
------------------------------------------------------------

namespace Rowstore

theorem Cells.get?_ofList_single
    (k : ColumnId)
    (v : Value) :
    (Cells.ofList [(k, v)]).get? k = some v := by
  simp [Cells.ofList_eq_putAll, Cells.get?_putAll]

namespace Table

variable {t : Table} {c : Column}

/- A quoted text makes a cell of the text itself. -/
theorem cellsOf_quotedText
    (hColumn : t.column? c.name = some c)
    (payload : String) :
    Edit.cellsOf t Edit.literalValue
        ([c.name].zip [quotedText payload]) =
      .ok (.ofList [(c.id, .text payload)]) := by
  simp [Edit.cellsOf, columnNamed, hColumn,
    Edit.literalValue, bind, Except.bind, pure, Except.pure]

theorem change?_quotedText
    (hColumn : t.column? c.name = some c)
    (payload : String) :
    t.change?
        { column := c.name
          value := quotedText payload } =
      some (c.id, .text payload) := by
  simp [change?, hColumn]

/- An equation demands cells that are loosely equal to the text. -/
theorem meaning_equationText
    (hColumn : t.column? c.name = some c)
    (hName : Quotable c.name)
    (payload : String) :
    t.meaning
        (some (Condition.equationText c.name payload)) =
      .ok fun r => (r.get c.id).looseEq (.text payload) := by
  simp only [meaning, Condition.parse_equationText hName,
    hColumn]
  rfl

/- A row with the text is selected after all that were selected before. -/
theorem filter_insertRow_text
    (t : Table)
    (k : ColumnId)
    (payload : String) :
    ((t.insertRow (.ofList [(k, .text payload)])).rows.filter
        fun r => (r.get k).looseEq (.text payload)) =
      (t.rows.filter fun r =>
          (r.get k).looseEq (.text payload)) ++
        [{ id := t.nextRowId
           cells := .ofList [(k, .text payload)] }] := by
  simp [insertRow, Row.get, Cells.get?_ofList_single,
    Value.looseEq]

end Table

/- A row of one cell is not restricted by the column of that cell. -/
theorem Work.restrict_single
    (c : Column)
    (id : RowId)
    (v : Value) :
    Work.restrict [c]
        { id := id
          cells := .ofList [(c.id, v)] } =
      { id := id
        cells := .ofList [(c.id, v)] } := by
  simp [Work.restrict, Cells.get?_ofList_single]

end Rowstore

------------------------------------------------------------
-- Tables And Columns Of A Session
------------------------------------------------------------

namespace Rowstore

namespace Session

variable {s : Session (Outage Memory)}
variable {t : Table} {c : Column}

/-
  A table of a session without outage and one of its columns,
  both of which are found under their names.
-/
structure Target
    (s : Session (Outage Memory))
    (t : Table)
    (c : Column) : Prop where
  works : s.failing = []
  table : s.workspace.tableNamed t.name = .ok t
  column : t.column? c.name = some c
  identified : t.Identified
  tableName : Quotable t.name
  columnName : Quotable c.name

/- In a reachable session every table and column is found under its name. -/
theorem target_of_reachable
    (hReachable : s.Reachable)
    (hWorks : s.failing = [])
    {d : Database}
    (hActive : s.workspace.active? = some d)
    (hTable : t ∈ d.tables)
    (hColumn : c ∈ t.columns) :
    s.Target t c := by
  have hDatabase : d ∈ s.stored.databases :=
    List.mem_of_find?_eq_some
      (Workspace.active?_eq_some_iff.mp hActive).2
  have hNamed : d.Named :=
    (memory_safe_of_reachable lasts_named
      hReachable).stored.databases_named d hDatabase
  have hQuotable : t.NamesQuotable :=
    (memory_safe_of_reachable lasts_namesQuotable
      hReachable).stored d hDatabase t hTable
  exact
    { works := hWorks
      table :=
        Workspace.tableNamed_eq_ok_iff.mpr
          ⟨d, hActive,
            hNamed.tables_distinct.find?_eq hTable⟩
      column :=
        (hNamed.columns_distinct t hTable).find?_eq hColumn
      identified :=
        (memory_safe_of_reachable lasts_identified
          hReachable).stored d hDatabase t hTable
      tableName := hQuotable.name
      columnName := hQuotable.columns c hColumn }

namespace Target

variable (hTarget : s.Target t c)

include hTarget

theorem run_insertion (payload : String) :
    ∃ d,
      (Work.insert t.name [c.name]
          [quotedText payload]).run.run s.workspace =
        (.ok
          (.announced
            s!"1 row inserted (id {t.nextRowId.value})" d
            .rowsChanged),
          s.workspace.replaceTable t.name
            (t.insertRow
              (.ofList [(c.id, .text payload)]))) := by
  have hLength :
      [c.name].length = [quotedText payload].length := rfl
  exact
    Work.run_insert hTarget.table hLength
      (Table.cellsOf_quotedText hTarget.column payload)

theorem answers_insertion (payload : String) :
    s.Answers
      (.insert t.name [c.name] [quotedText payload])
      (.ok
        (.message
          s!"1 row inserted (id {t.nextRowId.value})"))
      (s.workspace.replaceTable t.name
        (t.insertRow
          (.ofList [(c.id, .text payload)]))).collection := by
  rcases hTarget.run_insertion payload with ⟨d, hRun⟩
  apply answers_of_execute_ok hTarget.works
  intro stamp
  exact ⟨_, hRun, rfl⟩

theorem answers_update (payload : String) :
    s.Answers
      (.update t.name
        [{ column := c.name
           value := quotedText payload }]
        none)
      (.ok (.message s!"{t.rows.length} row(s) updated"))
      (s.workspace.replaceTable t.name
        { t with
          rows := t.rows.map fun r =>
            r.put c.id (.text payload) }).collection := by
  have hChange :=
    Table.change?_quotedText hTarget.column payload
  have hColumns :
      ∀ a ∈ [(⟨c.name, quotedText payload⟩ : Assignment)],
        (t.column? a.column).isSome := by
    simp [hTarget.column]
  have hAll : t.meaning none = .ok fun _ => true := rfl
  apply answers_of_execute_ok hTarget.works
  intro stamp
  rcases Work.run_update hTarget.table hTarget.identified
    hAll hColumns with ⟨d, hRun⟩
  simp only [List.filter_true, if_true,
    List.filterMap_cons, hChange, List.filterMap_nil]
    at hRun
  exact ⟨_, hRun, rfl⟩

theorem answers_search (payload : String) :
    let found := t.rows.filter fun r =>
      (r.get c.id).looseEq (.text payload)
    s.Answers
      (.select (.columns [c.name]) t.name
        (some (Condition.equationText c.name payload)))
      (.ok
        (.rows [c] (found.map (Work.restrict [c]))
          s!"{found.length} row(s) returned"))
      s.stored := by
  intro found
  have hColumns :
      Work.projected t (.columns [c.name]) = .ok [c] := by
    simp [Work.projected, Table.columnNamed, hTarget.column,
      pure, Except.pure, bind, Except.bind]
  apply answers_of_execute_ok hTarget.works
    (w := s.workspace)
  intro stamp
  exact
    ⟨_,
      Work.run_select_projected hTarget.table hColumns
        (Table.meaning_equationText hTarget.column
          hTarget.columnName payload),
      rfl⟩

/- After the insertion the longer table is found in the same way. -/
theorem after_insertion
    (payload : String)
    (stamp : Stamp) :
    (s.after
        (.statement stamp
          (Statement.insertionText t.name c.name
            payload))).Target
      (t.insertRow (.ofList [(c.id, .text payload)])) c := by
  have hParse :=
    Statement.parse_insertionText hTarget.tableName
      hTarget.columnName payload
  have hCells :=
    Table.cellsOf_quotedText hTarget.column payload
  have hItself : t.isNamed t.name = true :=
    (Text.sameName_iff _ _).mpr rfl
  rcases hTarget.run_insertion payload with ⟨d, hRun⟩
  exact
    { works :=
        (sameSettings_ends (handle_ends s _)).failing.trans
          hTarget.works
      table := by
        rw [workspace_of_execute_ok hTarget.works hParse hRun]
        exact
          Workspace.tableNamed_replaceTable hTarget.table
            hItself
      column := hTarget.column
      identified :=
        hTarget.identified.insertRow
          (Edit.within_of_cellsOf hCells)
      tableName := hTarget.tableName
      columnName := hTarget.columnName }

end Target

/-
  A quoted text is data, whatever it holds.

  Into a column of a table of the selected database, an
  insertion appends one row whose only cell is the text, and
  an update stores the text in every row.  A selection of the
  rows where the column equals the text answers with the rows
  whose cells are loosely equal to it, and after the
  insertion the new row is one of them.
-/
theorem quoted_text_is_data
    (hReachable : s.Reachable)
    (hWorks : s.failing = [])
    {d : Database}
    (hActive : s.workspace.active? = some d)
    (hTable : t ∈ d.tables)
    (hColumn : c ∈ t.columns)
    (payload : String)
    (stamp later : Stamp) :
    let insertion :=
      Request.statement stamp
        (Statement.insertionText t.name c.name payload)
    let update :=
      Request.statement stamp
        (Statement.updateText t.name c.name payload)
    let search :=
      Request.statement later
        (Statement.searchText t.name c.name payload)
    let replaced := fun t' =>
      (s.workspace.replaceTable t.name t').collection
    let new : Row :=
      { id := t.nextRowId
        cells := .ofList [(c.id, .text payload)] }
    let found := t.rows.filter fun r =>
      (r.get c.id).looseEq (.text payload)
    let shown := found.map (Work.restrict [c])
    ((s.handle insertion).1 =
        .ok (.result (.message
          s!"1 row inserted (id {t.nextRowId.value})")) ∧
      (s.after insertion).stored =
        replaced
          { t with
            rows := t.rows ++ [new]
            counters := t.counters.takeRow }) ∧
      ((s.handle update).1 =
          .ok (.result (.message
            s!"{t.rows.length} row(s) updated")) ∧
        (s.after update).stored =
          replaced
            { t with
              rows := t.rows.map fun r =>
                r.put c.id (.text payload) }) ∧
      ((s.handle search).1 =
          .ok (.result (.rows [c] shown
            s!"{found.length} row(s) returned")) ∧
        (s.after search).stored = s.stored) ∧
      ((s.after insertion).handle search).1 =
        .ok (.result (.rows [c] (shown ++ [new])
          s!"{found.length + 1} row(s) returned")) := by
  intro insertion update search replaced new found shown
  have hTarget :=
    target_of_reachable hReachable hWorks hActive hTable
      hColumn
  have hInsertion :=
    Statement.parse_insertionText hTarget.tableName
      hTarget.columnName payload
  have hUpdate :=
    Statement.parse_updateText hTarget.tableName
      hTarget.columnName payload
  have hSearch :=
    Statement.parse_searchText hTarget.tableName
      hTarget.columnName payload
  have hAfter :=
    (hTarget.after_insertion payload stamp).answers_search
      payload
  simp only [Table.filter_insertRow_text, List.map_append,
    List.map_singleton, Work.restrict_single,
    List.length_append, List.length_singleton] at hAfter
  exact
    ⟨hTarget.answers_insertion payload stamp _ hInsertion,
      hTarget.answers_update payload stamp _ hUpdate,
      hTarget.answers_search payload later _ hSearch,
      (hAfter later _ hSearch).1⟩

/- A closing quote, a second statement and the start of a comment are data. -/
theorem second_statement_is_data :
    let s :=
      (inMemory .literal none []).afterAll
        [.statement epoch "CREATE DATABASE d",
          .statement epoch "CREATE TABLE `t 1` (`a,b` TEXT)",
          .insertRow "t 1" [("a,b", "x")]]
    let payload := "'); DROP TABLE `t 1`; /* --"
    let insertion :=
      Request.statement epoch
        "INSERT INTO `t 1` (`a,b`) VALUES ('''); DROP TABLE `t 1`; /* --')"
    let search :=
      Request.statement epoch
        "SELECT `a,b` FROM `t 1` WHERE `a,b` = '''); DROP TABLE `t 1`; /* --'"
    let column : Column :=
      { id := ⟨1⟩
        name := "a,b"
        base := .text
        declaredType := "TEXT"
        length := none
        precision := none
        scale := none
        isPrimaryKey := false }
    let row : Nat → String → Row := fun n text =>
      { id := ⟨n⟩
        cells := .ofList [(⟨1⟩, .text text)] }
    let t : Table :=
      { id := ⟨⟨0⟩⟩
        name := "t 1"
        columns := [column]
        rows := [row 1 "x"]
        counters := ⟨2, 2⟩ }
    (∃ d, s.workspace.active? = some d ∧ t ∈ d.tables) ∧
      (s.handle insertion).1 =
        .ok (.result (.message "1 row inserted (id 2)")) ∧
      ((s.after insertion).handle search).1 =
        .ok (.result (.rows [column] [row 2 payload]
          "1 row(s) returned")) := by
  intro s payload insertion search column row t
  have hReachable : s.Reachable :=
    reachable_afterAll (reachable_inMemory .literal none []) _
  have hWorks : s.failing = [] := by
    decide +kernel
  have hActive :
      s.workspace.active?.any (fun d => d.tables = [t]) =
        true := by
    decide +kernel
  have hInsertion :
      Statement.insertionText t.name column.name payload =
        "INSERT INTO `t 1` (`a,b`) VALUES ('''); DROP TABLE `t 1`; /* --')" := by
    decide +kernel
  have hSearch :
      Statement.searchText t.name column.name payload =
        "SELECT `a,b` FROM `t 1` WHERE `a,b` = '''); DROP TABLE `t 1`; /* --'" := by
    decide +kernel
  have hFound :
      (t.rows.filter fun r =>
        (r.get column.id).looseEq (.text payload)) = [] := by
    decide +kernel
  have hInserted :
      s!"1 row inserted (id {t.nextRowId.value})" =
        "1 row inserted (id 2)" := by
    decide +kernel
  have hReturned :
      s!"{0 + 1} row(s) returned" = "1 row(s) returned" := by
    decide +kernel
  clear_value s
  rw [Option.any_eq_true] at hActive
  rcases hActive with ⟨d, hActive, hTables⟩
  have hTable : t ∈ d.tables := by
    rw [of_decide_eq_true hTables]
    exact List.mem_singleton_self t
  have hColumn : column ∈ t.columns :=
    List.mem_singleton_self column
  have hData :=
    quoted_text_is_data hReachable hWorks hActive hTable
      hColumn payload epoch epoch
  simp only [hInsertion, hSearch, hFound, hInserted,
    List.length_nil, hReturned] at hData
  exact ⟨⟨d, hActive, hTable⟩, hData.1.1, hData.2.2.2⟩

end Session

end Rowstore
