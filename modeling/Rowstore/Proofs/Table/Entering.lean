import Rowstore.Proofs.Column.Coercing
import Rowstore.Proofs.Table.Identity

/-
  Tables whose rows are entered in a form.

  A form puts in rows, changes single cells and removes rows,
  and the columns of its table may come and go.  Beside the
  table we keep, for each cell, the text that was last entered
  in it.  Every step keeps this: a cell stands under a column
  of the table, and holds what that column makes of the text.

  A column that is removed takes its cells with it, and no
  later column gets its identifier.  So the cells of a removed
  column never show up under another one.

  Main declarations:
    * `Form.Step` and `Form.Step.after`
    * `Form.lastEntered`
    * `Form.Traced` and `Form.Traced.take`
    * `Form.conforms_of_entries`
    * `Form.run_resave` and `Form.resave_eq_self_iff`
-/

namespace Rowstore

------------------------------------------------------------
-- Steps
------------------------------------------------------------

/- A table, and the text that was last entered in each cell. -/
structure Form where
  table : Table
  entered : RowId → ColumnId → Option String

namespace Form

/- What changes a table that is filled by a form. -/
inductive Step where
| insert (entries : List (String × String))
| update (row : RowId) (column raw : String)
| delete (rows : List RowId)
| addColumn
    (name : String)
    (type : DeclaredType)
    (isKey : Bool)
| removeColumn (column : ColumnId)
| addDefinition (d : ColumnDefinition) (isKey : Bool)
| dropColumn (name : String)

/- The table after a step; a step that fails leaves it as it is. -/
def Step.after (t : Table) : Step → Table
| insert entries => ((Edit.insertEntered entries).run.run t).2
| update row column raw =>
  ((Edit.updateEntered row column raw).run.run t).2
| delete rows => ((Edit.deleteListed rows).run.run t).2
| addColumn name type isKey => t.addColumn name type isKey
| removeColumn column => t.removeColumn column
| addDefinition d isKey =>
  ((Edit.addDefinition d isKey).run.run t).2
| dropColumn name => ((Edit.dropColumn name).run.run t).2

/- The last text that entries of a row have for a column. -/
def lastFor
    (t : Table)
    (entries : List (String × String))
    (c : ColumnId) : Option String :=
  (entries.reverse.find? fun entry =>
    (t.column? entry.1).map Column.id = some c).map Prod.snd

/- The texts that were last entered, after a step. -/
def record (f : Form) :
    Step → RowId → ColumnId → Option String
| .insert entries =>
  match ((Edit.insertEntered entries).run.run f.table).1 with
  | .ok id => fun r c =>
    if r = id then lastFor f.table entries c
    else f.entered r c
  | .error _ => f.entered
| .update row column raw =>
  match
    ((Edit.updateEntered row column raw).run.run f.table).1
  with
  | .ok _ => fun r c =>
    if r = row ∧
        (f.table.column? column).map Column.id = some c then
      some raw
    else f.entered r c
  | .error _ => f.entered
| _ => f.entered

/- Take a step, and note the texts that it enters. -/
def take
    (f : Form)
    (s : Step) : Form :=
  { table := s.after f.table
    entered := f.record s }

/- A form for a table in which nothing was entered. -/
def blank (t : Table) : Form :=
  { table := t
    entered := fun _ _ => none }

/- The text that was last entered in a cell, when steps are taken one after the other. -/
def lastEntered
    (t : Table)
    (steps : List Step) : RowId → ColumnId → Option String :=
  (steps.foldl take (blank t)).entered

theorem table_foldl
    (f : Form)
    (steps : List Step) :
    (steps.foldl take f).table =
      steps.foldl Step.after f.table := by
  induction steps generalizing f with
  | nil => rfl
  | cons s steps ih => exact ih (f.take s)

------------------------------------------------------------
-- Cells And Their Texts
------------------------------------------------------------

/- Every cell holds what its column makes of the text that was last entered in it. -/
structure Traced (f : Form) : Prop where
  identified : f.table.Identified
  coerced :
    ∀ r ∈ f.table.rows, ∀ k v, r.cells.get? k = some v →
      ∃ c ∈ f.table.columns,
        c.id = k ∧
          ∃ raw,
            f.entered r.id k = some raw ∧ v = c.coerce raw

variable {t : Table} {entries : List (String × String)}

/- The cells of a new row are made of the last entries for their columns. -/
theorem exists_lastFor_of_cellsOf
    {value : Column → String → Value}
    {cells : Cells}
    (hCells : Edit.cellsOf t value entries = .ok cells)
    {k : ColumnId}
    {v : Value}
    (hCell : cells.get? k = some v) :
    ∃ c ∈ t.columns,
      c.id = k ∧
        ∃ raw,
          lastFor t entries k = some raw ∧
            v = value c raw := by
  rcases Edit.exists_of_cellsOf hCells with ⟨list, hList, rfl⟩
  have hPairs :=
    List.forall₂_reverse_iff.mpr (Edit.forall₂_of_mapM hList)
  rw [Cells.ofList_eq_putAll, Cells.get?_putAll,
    Cells.get?_empty, Option.or_none] at hCell
  unfold lastFor
  generalize entries.reverse = entries' at hPairs
  generalize list.reverse = list' at hPairs hCell
  -- The last entry for the column and the last cell under it are at the same place.
  induction hPairs with
  | nil => cases hCell
  | cons hPair _ ih =>
      rename_i entry cell _ _ _
      rcases hPair with ⟨c, hColumn, rfl⟩
      have hFound := Table.columnNamed_eq_ok_iff.mp hColumn
      rw [Cell.lookup_cons] at hCell
      split at hCell
      · rename_i hKey
        cases hCell
        refine
          ⟨c, List.mem_of_find?_eq_some hFound, hKey.symm,
            entry.2, ?_, rfl⟩
        simp [hFound, hKey]
      · rename_i hKey
        have hOther : c.id ≠ k := fun hSame => hKey hSame.symm
        rw [List.find?_cons_of_neg]
        · exact ih hCell
        · simpa [hFound] using hOther

namespace Traced

variable {f : Form}

theorem insertRow
    (hTraced : f.Traced)
    {cells : Cells}
    (hCells :
      Edit.cellsOf f.table Column.coerce entries = .ok cells) :
    Traced
      { table := f.table.insertRow cells
        entered := fun r c =>
          if r = f.table.nextRowId then
            lastFor f.table entries c
          else f.entered r c } where
  identified :=
    hTraced.identified.insertRow
      (Edit.within_of_cellsOf hCells)
  coerced := by
    intro r hMember k v hCell
    rcases List.mem_append.mp hMember with hOld | hNew
    · have hBelow := hTraced.identified.rows_below r hOld
      have hOther : r.id ≠ f.table.nextRowId := by
        intro hSame
        rw [hSame] at hBelow
        exact Nat.lt_irrefl _ hBelow
      simp only [if_neg hOther]
      exact hTraced.coerced r hOld k v hCell
    · rw [List.mem_singleton.mp hNew] at hCell ⊢
      simp only [if_true]
      exact exists_lastFor_of_cellsOf hCells hCell

theorem updateRow
    (hTraced : f.Traced)
    {column : String}
    {c : Column}
    (hColumn : f.table.column? column = some c)
    (id : RowId)
    (raw : String) :
    Traced
      { table :=
          f.table.updateRow id fun r =>
            r.put c.id (c.coerce raw)
        entered := fun r k =>
          if r = id ∧
              (f.table.column? column).map Column.id = some k
          then some raw
          else f.entered r k } where
  identified := by
    have hMember := List.mem_of_find?_eq_some hColumn
    refine hTraced.identified.updateRow id (fun _ => rfl) ?_
    intro r hWithin
    exact
      Cells.forall_put hWithin (List.mem_map_of_mem hMember)
  coerced := by
    have hMember := List.mem_of_find?_eq_some hColumn
    intro r hRow k v hCell
    change
      r ∈ updateFirst (fun r => r.id = id) _ f.table.rows
      at hRow
    rw [updateFirst_eq_map hTraced.identified.nodup_rowIds]
      at hRow
    rcases List.mem_map.mp hRow with ⟨old, hOld, rfl⟩
    rw [hColumn]
    by_cases hId : old.id = id
    · rw [if_pos hId] at hCell ⊢
      change (old.cells.put c.id (c.coerce raw)).get? k = some v
        at hCell
      rw [Cells.get?_put] at hCell
      by_cases hKey : k = c.id
      · rw [if_pos hKey] at hCell
        cases hCell
        refine ⟨c, hMember, hKey.symm, raw, ?_, rfl⟩
        exact if_pos ⟨hId, congrArg some hKey.symm⟩
      · rw [if_neg hKey] at hCell
        rcases hTraced.coerced old hOld k v hCell with
          ⟨b, hColumns, hSame, text, hText, hValue⟩
        refine ⟨b, hColumns, hSame, text, ?_, hValue⟩
        refine (if_neg ?_).trans hText
        rintro ⟨_, hFound⟩
        exact hKey (Option.some.inj hFound).symm
    · rw [if_neg hId] at hCell ⊢
      rcases hTraced.coerced old hOld k v hCell with
        ⟨b, hColumns, hSame, text, hText, hValue⟩
      refine ⟨b, hColumns, hSame, text, ?_, hValue⟩
      exact (if_neg fun hBoth => hId hBoth.1).trans hText

theorem removeRows
    (hTraced : f.Traced)
    (ids : List RowId) :
    Traced { f with table := f.table.removeRows ids } where
  identified :=
    hTraced.identified.sublist List.filter_sublist
  coerced := fun r hMember =>
    hTraced.coerced r (List.mem_of_mem_filter hMember)

theorem addColumn
    (hTraced : f.Traced)
    (name : String)
    (type : DeclaredType)
    (isKey : Bool) :
    Traced
      { f with table := f.table.addColumn name type isKey } where
  identified := hTraced.identified.addColumn name type isKey
  coerced := by
    intro r hMember k v hCell
    rcases hTraced.coerced r hMember k v hCell with
      ⟨c, hColumn, hRest⟩
    exact ⟨c, List.mem_append_left _ hColumn, hRest⟩

/- Only cells under other columns are left, and these columns stay. -/
theorem removeColumn
    (hTraced : f.Traced)
    (id : ColumnId) :
    Traced { f with table := f.table.removeColumn id } where
  identified := hTraced.identified.removeColumn id
  coerced := by
    change
      ∀ r ∈ (f.table.removeColumn id).rows, ∀ k v, _ →
        ∃ c ∈ (f.table.removeColumn id).columns, _
    unfold Table.removeColumn
    split
    · intro r hMember k v hCell
      rcases List.mem_map.mp hMember with ⟨old, hOld, rfl⟩
      change (old.cells.without id).get? k = some v at hCell
      rw [Cells.get?_without] at hCell
      split at hCell
      · cases hCell
      · rename_i hKey
        rcases hTraced.coerced old hOld k v hCell with
          ⟨c, hColumn, hSame, hRest⟩
        refine ⟨c, ?_, hSame, hRest⟩
        have hStays : ¬ decide (c.id = id) = true := by
          simpa [hSame] using hKey
        exact
          (List.mem_eraseP_of_neg
            (p := fun c : Column => decide (c.id = id))
            hStays).mpr hColumn
    · exact hTraced.coerced

/- Every step keeps the cells in line with the texts. -/
theorem take
    (hTraced : f.Traced)
    (s : Step) :
    (f.take s).Traced := by
  cases s with
  | insert entries =>
      simp only [Form.take, record, Step.after,
        Edit.insertEntered, Edit.run_insert]
      cases hCells :
          Edit.cellsOf f.table Column.coerce entries with
      | error e => exact hTraced
      | ok cells => exact hTraced.insertRow hCells
  | update row column raw =>
      simp only [Form.take, record, Step.after,
        Edit.run_updateEntered]
      cases hColumn : f.table.columnNamed column with
      | error e => exact hTraced
      | ok c =>
          cases hRow : f.table.row? row with
          | none => exact hTraced
          | some r =>
              exact
                hTraced.updateRow
                  (Table.columnNamed_eq_ok_iff.mp hColumn) row
                  raw
  | delete rows =>
      simp only [Form.take, record, Step.after,
        Edit.run_deleteListed]
      cases rows.find? fun id => (f.table.row? id).isNone with
      | some id => exact hTraced
      | none => exact hTraced.removeRows rows
  | addColumn name type isKey =>
      exact hTraced.addColumn name type isKey
  | removeColumn column => exact hTraced.removeColumn column
  | addDefinition d isKey =>
      simp only [Form.take, record, Step.after,
        Edit.run_addDefinition]
      cases f.table.column? d.name with
      | some c => exact hTraced
      | none =>
          cases DeclaredType.parse d.typeText with
          | none => exact hTraced
          | some type => exact hTraced.addColumn d.name type _
  | dropColumn name =>
      simp only [Form.take, record, Step.after,
        Edit.run_dropColumn]
      cases f.table.columnNamed name with
      | error e => exact hTraced
      | ok c => exact hTraced.removeColumn c.id

theorem foldl
    (hTraced : f.Traced)
    (steps : List Step) :
    (steps.foldl Form.take f).Traced := by
  induction steps generalizing f with
  | nil => exact hTraced
  | cons s steps ih => exact ih (hTraced.take s)

end Traced

/- A table without rows has no cells to account for. -/
theorem traced_blank
    (hIdentified : t.Identified)
    (hRows : t.rows = []) :
    (blank t).Traced where
  identified := hIdentified
  coerced := by
    intro r hMember
    change r ∈ t.rows at hMember
    rw [hRows] at hMember
    cases hMember

/-
  Steps from a table without rows leave every cell under a
  column of the table, with a value of the kind of this
  column, made of the text that was last entered in the cell.
-/
theorem conforms_of_entries
    {names : List String}
    {id : TableId}
    {name : String}
    (hBuilt : Table.Built names id name t)
    (hRows : t.rows = [])
    (steps : List Step) :
    ∀ r ∈ (steps.foldl Step.after t).rows,
      ∀ k v, r.cells.get? k = some v →
        ∃ c raw,
          (steps.foldl Step.after t).columnById? k = some c ∧
            lastEntered t steps r.id k = some raw ∧
              v = c.coerce raw ∧ c.Conforms raw v := by
  intro r hMember k v hCell
  have hTraced :=
    (traced_blank (.of_built hBuilt) hRows).foldl steps
  have hTable := table_foldl (blank t) steps
  change
    (steps.foldl Form.take (blank t)).table =
      steps.foldl Step.after t at hTable
  rw [← hTable] at hMember ⊢
  rcases hTraced.coerced r hMember k v hCell with
    ⟨c, hColumn, rfl, raw, hRaw, rfl⟩
  exact
    ⟨c, raw, hTraced.identified.columnById?_eq hColumn, hRaw,
      rfl, c.conforms_coerce raw⟩

/-
  A code is entered, its column is dropped, and another column
  gets its name.  Only the new column has a cell.
-/
theorem conforms_of_entries_code :
    ∃ t steps,
      (Edit.define [⟨"code", "VARCHAR(3)", false⟩] []).run.run
          (Table.new ⟨⟨1⟩⟩ "items") = (.ok (), t) ∧
        steps =
          [.insert [("code", " abcd ")], .dropColumn "code",
            .addDefinition ⟨"code", "BOOLEAN", false⟩ false,
            .update ⟨1⟩ "CODE" "yes"] ∧
          (steps.foldl Step.after t).rows =
            [⟨⟨1⟩, Cells.empty.put ⟨2⟩ (.boolean true)⟩] ∧
            ∀ r ∈ (steps.foldl Step.after t).rows,
              ∀ k v, r.cells.get? k = some v →
                ∃ c raw,
                  (steps.foldl Step.after t).columnById? k =
                      some c ∧
                    lastEntered t steps r.id k = some raw ∧
                      v = c.coerce raw ∧ c.Conforms raw v := by
  have hNames :
      ∀ d ∈ [ColumnDefinition.mk "code" "VARCHAR(3)" false],
        d.name ∈ ["code"] := by
    decide
  have hDefined :
      ∃ t,
        (Edit.define [⟨"code", "VARCHAR(3)", false⟩] []).run.run
            (Table.new ⟨⟨1⟩⟩ "items") = (.ok (), t) ∧
          t.rows = [] ∧
            ([.insert [("code", " abcd ")], .dropColumn "code",
              .addDefinition ⟨"code", "BOOLEAN", false⟩ false,
              .update ⟨1⟩ "CODE" "yes"].foldl
                Step.after t).rows =
              [⟨⟨1⟩, Cells.empty.put ⟨2⟩ (.boolean true)⟩] :=
    ⟨_, rfl, rfl, rfl⟩
  rcases hDefined with ⟨t, hRun, hRows, hEnd⟩
  refine ⟨t, _, hRun, rfl, hEnd, ?_⟩
  exact
    conforms_of_entries (Edit.built_of_define hNames hRun)
      hRows _

------------------------------------------------------------
-- Saving What Is Shown
------------------------------------------------------------

variable {c : Column} {r : Row} {column raw : String}

theorem updateRow_eq_self
    {f : Row → Row}
    (hRow : t.row? r.id = some r)
    (hSame : f r = r) :
    t.updateRow r.id f = t := by
  have hRows :
      updateFirst (fun s : Row => s.id = r.id) f t.rows =
        t.rows := by
    rw [← updateFirst_const f hRow, hSame]
    exact updateFirst_self hRow
  unfold Table.updateRow
  rw [hRows]

/- The table stays as it is if and only if what is shown gives the shown value. -/
theorem run_resave
    (hColumn : t.column? column = some c)
    (hRow : t.row? r.id = some r)
    (hCell : r.cells.get? c.id = some (c.coerce raw)) :
    ((Edit.updateEntered r.id column
        (r.get c.id).display).run.run t).2 = t ↔
      c.coerce (c.coerce raw).display = c.coerce raw := by
  have hShown : r.get c.id = c.coerce raw := by
    unfold Row.get
    rw [hCell]
    rfl
  rw [Edit.run_updateEntered,
    Table.columnNamed_eq_ok_iff.mpr hColumn, hRow, hShown]
  constructor
  · intro hSame
    have hFound :=
      congrArg (fun t : Table => t.row? r.id) hSame
    have hChanged :=
      find?_updateFirst (f := fun s : Row =>
        s.put c.id (c.coerce (c.coerce raw).display)) hRow
        (decide_eq_true rfl)
    have hPut :
        r.put c.id (c.coerce (c.coerce raw).display) = r :=
      Option.some.inj
        (hChanged.symm.trans (hFound.trans hRow))
    have hStored :=
      congrArg (fun s : Row => s.cells.get? c.id) hPut
    change
      (r.cells.put c.id _).get? c.id = r.cells.get? c.id
      at hStored
    rw [Cells.get?_put, if_pos rfl, hCell] at hStored
    exact Option.some.inj hStored
  · intro hSame
    apply updateRow_eq_self hRow
    rw [hSame]
    unfold Row.put
    congr 1
    apply Cells.ext_get?
    intro k
    rw [Cells.get?_put]
    split
    · rename_i hKey
      rw [hKey, hCell]
    · rfl

/-
  What a cell shows may be entered again: it gives the value
  of the cell, so the table stays as it is, unless the value
  was cut right behind a blank.  Then the blanks at its end
  are lost, and after that nothing changes any more.
-/
theorem resave_eq_self_iff
    (hBase : c.base ≠ .number)
    (raw : String) :
    (c.coerce (c.coerce raw).display = c.coerce raw ↔
      ¬ c.CutsBehindBlank raw) ∧
    (c.CutsBehindBlank raw →
      ∃ s,
        c.coerce raw = .text (.ofList s) ∧
          c.coerce (c.coerce raw).display =
            .text (.ofList (Text.trimEnd s))) ∧
    c.coerce (c.coerce (c.coerce raw).display).display =
      c.coerce (c.coerce raw).display ∧
    ∀ (t : Table) (r : Row) (column : String),
      t.column? column = some c →
        t.row? r.id = some r →
          r.cells.get? c.id = some (c.coerce raw) →
            (((Edit.updateEntered r.id column
                (r.get c.id).display).run.run t).2 = t ↔
              ¬ c.CutsBehindBlank raw) := by
  have hAgain := c.coerce_display_eq_iff hBase
  refine ⟨hAgain raw, fun hCut => ?_, ?_, ?_⟩
  · exact
      ⟨_, Column.coerce_of_text hCut.1,
        Column.coerce_display_of_text hCut.1⟩
  · exact (hAgain _).mpr (Column.not_cutsBehindBlank_display raw)
  · intro t r column hColumn hRow hCell
    exact (run_resave hColumn hRow hCell).trans (hAgain raw)

/- A code of three letters is saved as it is shown. -/
theorem resave_eq_self_iff_code :
    ∃ (c : Column) (r : Row) (t : Table),
      c.base ≠ .number ∧
        t.column? "code" = some c ∧ t.row? r.id = some r ∧
          r.cells.get? c.id = some (c.coerce " abcd ") ∧
            ((Edit.updateEntered r.id "code"
                (r.get c.id).display).run.run t).2 = t := by
  have hShown :
      ∃ (c : Column) (r : Row) (t : Table),
        c.base ≠ .number ∧ ¬ c.CutsBehindBlank " abcd " ∧
          t.column? "code" = some c ∧ t.row? r.id = some r ∧
            r.cells.get? c.id = some (c.coerce " abcd ") :=
    ⟨.ofType ⟨1⟩ "code"
        ⟨"VARCHAR(3)", .text, some 3, none, none⟩ false,
      ⟨⟨1⟩, Cells.empty.put ⟨1⟩ (.text "abc")⟩,
      { Table.new ⟨⟨1⟩⟩ "items" with
        columns :=
          [.ofType ⟨1⟩ "code"
            ⟨"VARCHAR(3)", .text, some 3, none, none⟩ false]
        rows := [⟨⟨1⟩, Cells.empty.put ⟨1⟩ (.text "abc")⟩] },
      by decide, by decide, rfl, rfl, rfl⟩
  rcases hShown with
    ⟨c, r, t, hBase, hCut, hColumn, hRow, hCell⟩
  refine ⟨c, r, t, hBase, hColumn, hRow, hCell, ?_⟩
  exact
    ((resave_eq_self_iff hBase " abcd ").2.2.2 t r "code"
      hColumn hRow hCell).mpr hCut

/- Three characters of a text may end in a blank, which is lost when they are entered again. -/
theorem resave_cut_alters :
    ∃ c : Column,
      c.base = .text ∧ c.length = some 3 ∧
        c.coerce "ab cd" = .text "ab " ∧
          c.coerce (c.coerce "ab cd").display = .text "ab" ∧
            c.coerce (c.coerce "ab cd").display ≠
              c.coerce "ab cd" := by
  refine
    ⟨.ofType ⟨1⟩ "code"
      ⟨"VARCHAR(3)", .text, some 3, none, none⟩ false, rfl,
      rfl, rfl, rfl, ?_⟩
  decide

end Form

end Rowstore
