import Rowstore.Proofs.Table.Selecting
import Rowstore.Proofs.Workspace.Effects

/-
  Inserting, reading, updating and deleting rows of a table:
  what the last three commands do with the rows that a
  condition selects, and how they fail if it has no meaning.

  Main declarations:
    * `Workspace.replaceTable`
    * `Work.run_insert`
    * `Work.run_select`
    * `Work.run_delete`
    * `Work.run_update`
-/

namespace Rowstore

/- The workspace with another table in the place of one of the selected database. -/
def Workspace.replaceTable
    (w : Workspace)
    (name : String)
    (t : Table) : Workspace :=
  w.updateActive fun d => d.updateTable name fun _ => t

/- A replaced table is found again, unless it has another name. -/
theorem Workspace.tableNamed_replaceTable
    {w : Workspace}
    {name : String}
    {t t' : Table}
    (hTable : w.tableNamed name = .ok t)
    (hName : t'.isNamed name = true) :
    (w.replaceTable name t').tableNamed name = .ok t' := by
  rw [tableNamed_eq_ok_iff] at hTable ⊢
  rcases hTable with ⟨d, hActive, hFind⟩
  refine ⟨_, active?_updateActive hActive rfl, ?_⟩
  exact find?_updateFirst hFind hName

namespace Work

open Execution

variable {α : Type} {w : Workspace} {name : String}
variable {t t' : Table} {condition : Option String}
variable {p : Row → Bool} {e : Error}

------------------------------------------------------------
-- Edits That Are Announced
------------------------------------------------------------

/- An edit of a table that succeeds replaces the table and is announced. -/
theorem run_onTable_announce
    (hTable : w.tableNamed name = .ok t)
    {edit : Edit α}
    {a : α}
    (hEdit : edit.run.run t = (.ok a, t'))
    (change : Change)
    (text : α → String) :
    ∃ d,
      (do
        let a ← onTable name edit
        announce change (text a) :
        Work Outcome).run.run w =
        (.ok (.announced (text a) d change),
          w.replaceTable name t') := by
  rcases Workspace.tableNamed_eq_ok_iff.mp hTable with
    ⟨d, hActive, _⟩
  have hStill :
      (w.replaceTable name t').activeDatabase =
        .ok (d.updateTable name fun _ => t') := by
    rw [Workspace.activeDatabase_eq_ok_iff]
    exact Workspace.active?_updateActive hActive rfl
  refine ⟨d.updateTable name fun _ => t', ?_⟩
  have hOn :
      (onTable name edit).run.run w =
        (.ok a, w.replaceTable name t') := by
    simp only [run_onTable, hTable, hEdit]
    rfl
  simp only [run_bind, hOn, run_announce, hStill]

/- An edit that fails fails the command. -/
theorem run_onTable_error
    (hTable : w.tableNamed name = .ok t)
    {edit : Edit α}
    (hEdit : edit.run.run t = (.error e, t'))
    (change : Change)
    (text : α → String) :
    ∃ w',
      (do
        let a ← onTable name edit
        announce change (text a) :
        Work Outcome).run.run w = (.error e, w') := by
  refine ⟨w.replaceTable name t', ?_⟩
  have hOn :
      (onTable name edit).run.run w =
        (.error e, w.replaceTable name t') := by
    simp only [run_onTable, hTable, hEdit]
    rfl
  simp only [run_bind, hOn]

------------------------------------------------------------
-- Insertions
------------------------------------------------------------

/- Inserting appends a row of literals, and answers with its identifier. -/
theorem run_insert
    (hTable : w.tableNamed name = .ok t)
    {columns values : List String}
    (hLength : columns.length = values.length)
    {cells : Cells}
    (hCells :
      Edit.cellsOf t Edit.literalValue (columns.zip values) =
        .ok cells) :
    ∃ d,
      (insert name columns values).run.run w =
        (.ok
          (.announced
            s!"1 row inserted (id {t.nextRowId.value})" d
            .rowsChanged),
          w.replaceTable name (t.insertRow cells)) := by
  have hEdit :
      (Edit.insertLiterals
          (columns.zip values)).run.run t =
        (.ok t.nextRowId, t.insertRow cells) := by
    unfold Edit.insertLiterals
    rw [Edit.run_insert, hCells]
  unfold insert
  rw [if_neg (not_not.mpr hLength)]
  exact run_onTable_announce hTable hEdit .rowsChanged
    fun id => s!"1 row inserted (id {id.value})"

------------------------------------------------------------
-- Conditions With A Meaning
------------------------------------------------------------

/- Reading answers with the selected rows under the shown columns. -/
theorem run_select_projected
    (hTable : w.tableNamed name = .ok t)
    {projection : Projection}
    {columns : List Column}
    (hColumns : projected t projection = .ok columns)
    (hMeaning : t.meaning condition = .ok p) :
    (select projection name condition).run.run w =
      (.ok
        (.rows columns
          ((t.rows.filter p).map (restrict columns))
          s!"{(t.rows.filter p).length} row(s) returned"),
        w) := by
  have hRows :
      t.selected condition = .ok (t.rows.filter p) := by
    rw [Table.selected_eq, hMeaning]
    rfl
  simp only [select, run_bind, run_tableNamed, hTable,
    hColumns, hRows, run_lift, run_pure]

/- Reading all columns answers with the selected rows as they are. -/
theorem run_select
    (hTable : w.tableNamed name = .ok t)
    (hIdentified : t.Identified)
    (hMeaning : t.meaning condition = .ok p) :
    (select .all name condition).run.run w =
      (.ok
        (.rows t.columns (t.rows.filter p)
          s!"{(t.rows.filter p).length} row(s) returned"),
        w) := by
  rw [run_select_projected hTable rfl hMeaning,
    Table.map_restrict_columns hIdentified]

theorem selectedIds_of_meaning
    (hMeaning : t.meaning condition = .ok p) :
    t.selectedIds condition =
      .ok ((t.rows.filter p).map Row.id) := by
  rw [Table.selectedIds_eq, Table.selected_eq, hMeaning]
  rfl

/- Deleting takes out the selected rows, and answers with their number. -/
theorem run_delete
    (hTable : w.tableNamed name = .ok t)
    (hIdentified : t.Identified)
    (hMeaning : t.meaning condition = .ok p) :
    ∃ d,
      (delete name condition).run.run w =
        (.ok
          (.announced
            s!"{(t.rows.filter p).length} row(s) deleted" d
            .rowsChanged),
          w.replaceTable name
            { t with
              rows := t.rows.filter fun r => !p r }) := by
  have hEdit :
      (Edit.deleteSelected condition).run.run t =
        (.ok (t.rows.filter p).length,
          { t with
            rows := t.rows.filter fun r => !p r }) := by
    simp only [Edit.run_deleteSelected,
      selectedIds_of_meaning hMeaning, Edit.run_remove,
      Table.removeRows_selected hIdentified,
      Table.length_sub_length_filter]
  exact run_onTable_announce hTable hEdit .rowsChanged
    fun n => s!"{n} row(s) deleted"

/- Updating changes the selected rows, and answers with their number. -/
theorem run_update
    (hTable : w.tableNamed name = .ok t)
    (hIdentified : t.Identified)
    (hMeaning : t.meaning condition = .ok p)
    {assignments : List Assignment}
    (hColumns :
      ∀ a ∈ assignments, (t.column? a.column).isSome) :
    ∃ d,
      (update name assignments condition).run.run w =
        (.ok
          (.announced
            s!"{(t.rows.filter p).length} row(s) updated" d
            .rowsChanged),
          w.replaceTable name
            { t with
              rows := t.rows.map fun r =>
                if p r then
                  Edit.assign
                    (assignments.filterMap t.change?) r
                else r }) := by
  have hEdit :
      (Edit.updateLiterals assignments
          condition).run.run t =
        (.ok (t.rows.filter p).length,
          { t with
            rows := t.rows.map fun r =>
              if p r then
                Edit.assign
                  (assignments.filterMap t.change?) r
              else r }) := by
    simp only [Edit.run_updateLiterals,
      Table.changesOf_eq hColumns,
      selectedIds_of_meaning hMeaning, List.length_map,
      Table.updateRows_selected hIdentified
        (Edit.assign_id _)]
  exact run_onTable_announce hTable hEdit .rowsChanged
    fun n => s!"{n} row(s) updated"

------------------------------------------------------------
-- Conditions Without A Meaning
------------------------------------------------------------

theorem run_select_error
    (hTable : w.tableNamed name = .ok t)
    (hMeaning : t.meaning condition = .error e) :
    (select .all name condition).run.run w =
      (.error e, w) := by
  have hRows : t.selected condition = .error e := by
    rw [Table.selected_eq, hMeaning]
    rfl
  simp only [select, run_bind, run_tableNamed, hTable,
    projected, hRows, run_lift]

theorem selectedIds_of_meaning_error
    (hMeaning : t.meaning condition = .error e) :
    t.selectedIds condition = .error e := by
  rw [Table.selectedIds_eq, Table.selected_eq, hMeaning]
  rfl

theorem run_delete_error
    (hTable : w.tableNamed name = .ok t)
    (hMeaning : t.meaning condition = .error e) :
    ∃ w',
      (delete name condition).run.run w =
        (.error e, w') := by
  have hEdit :
      (Edit.deleteSelected condition).run.run t =
        (.error e, t) := by
    simp only [Edit.run_deleteSelected,
      selectedIds_of_meaning_error hMeaning]
  exact run_onTable_error hTable hEdit .rowsChanged
    fun n => s!"{n} row(s) deleted"

theorem run_update_error
    (hTable : w.tableNamed name = .ok t)
    (hMeaning : t.meaning condition = .error e)
    {assignments : List Assignment}
    (hColumns :
      ∀ a ∈ assignments, (t.column? a.column).isSome) :
    ∃ w',
      (update name assignments condition).run.run w =
        (.error e, w') := by
  have hEdit :
      (Edit.updateLiterals assignments
          condition).run.run t = (.error e, t) := by
    simp only [Edit.run_updateLiterals,
      Table.changesOf_eq hColumns,
      selectedIds_of_meaning_error hMeaning]
  exact run_onTable_error hTable hEdit .rowsChanged
    fun n => s!"{n} row(s) updated"

end Work

end Rowstore
