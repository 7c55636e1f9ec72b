import Mathlib.Data.List.Basic
import Mathlib.Data.List.Nodup
import Rowstore.Proofs.Sequence
import Rowstore.Proofs.Table.Revision

/-
  The identifiers inside of a table: those of its columns and
  those of its rows ascend and stay below the counters from
  which the next ones are taken, and cells stand under
  columns that are there.

  Every revision keeps this.  A new identifier is the counter
  itself, and the counter moves past it; and a column is only
  removed together with the cells under it.

  Main declarations:
    * `Table.Identified`
    * `Table.Identified.nodup_columnIds` and
      `Table.Identified.nodup_rowIds`
    * `Table.Identified.of_revised` and
      `Table.Identified.of_built`
-/

namespace Rowstore

namespace Table

/- Identifiers ascend below their counters, and cells have their columns. -/
structure Identified (t : Table) : Prop where
  columns_ascend :
    (t.columns.map fun c => c.id.value).Pairwise (· < ·)
  columns_below :
    ∀ c ∈ t.columns, c.id.value < t.counters.nextColumn
  rows_ascend :
    (t.rows.map fun r => r.id.value).Pairwise (· < ·)
  rows_below :
    ∀ r ∈ t.rows, r.id.value < t.counters.nextRow
  cells_within :
    ∀ r ∈ t.rows, r.cells.Within t.columnIds

theorem identified_new
    (id : TableId)
    (name : String) :
    (Table.new id name).Identified where
  columns_ascend := List.Pairwise.nil
  columns_below := fun _ hMem => by cases hMem
  rows_ascend := List.Pairwise.nil
  rows_below := fun _ hMem => by cases hMem
  cells_within := fun _ hMem => by cases hMem

/- Ascending numbers stay ascending when a greater one is appended. -/
theorem ascending_append
    {ns : List Nat}
    (hAscending : ns.Pairwise (· < ·))
    {n : Nat}
    (hBelow : ∀ m ∈ ns, m < n) :
    (ns ++ [n]).Pairwise (· < ·) := by
  rw [List.pairwise_append]
  refine ⟨hAscending, List.pairwise_singleton _ _, ?_⟩
  intro m hMem k hLast
  rw [List.mem_singleton.mp hLast]
  exact hBelow m hMem

namespace Identified

variable {t : Table}

------------------------------------------------------------
-- Distinct Identifiers
------------------------------------------------------------

theorem nodup_columnIds (hIdentified : t.Identified) :
    t.columnIds.Nodup := by
  have hValues : (t.columnIds.map ColumnId.value).Nodup := by
    unfold columnIds
    rw [List.map_map]
    exact hIdentified.columns_ascend.imp Nat.ne_of_lt
  exact hValues.of_map

theorem nodup_rowIds (hIdentified : t.Identified) :
    (t.rows.map Row.id).Nodup := by
  have hValues :
      ((t.rows.map Row.id).map RowId.value).Nodup := by
    rw [List.map_map]
    exact hIdentified.rows_ascend.imp Nat.ne_of_lt
  exact hValues.of_map

/- Of identified columns no two have the same identifier. -/
theorem eq_of_id
    (hIdentified : t.Identified)
    {c : Column}
    (hMem : c ∈ t.columns)
    {b : Column}
    (hOther : b ∈ t.columns)
    (hId : b.id = c.id) :
    b = c :=
  List.inj_on_of_nodup_map hIdentified.nodup_columnIds
    hOther hMem hId

/- A column is the first one with its identifier. -/
theorem columnById?_eq
    (hIdentified : t.Identified)
    {c : Column}
    (hMem : c ∈ t.columns) :
    t.columnById? c.id = some c := by
  cases hFind : t.columnById? c.id with
  | none =>
      have hNone := List.find?_eq_none.mp hFind c hMem
      simp at hNone
  | some b =>
      have hId : b.id = c.id := by
        simpa using List.find?_some hFind
      rw [hIdentified.eq_of_id hMem
        (List.mem_of_find?_eq_some hFind) hId]

------------------------------------------------------------
-- Rows
------------------------------------------------------------

theorem insertRow
    (hIdentified : t.Identified)
    {cells : Cells}
    (hCells : cells.Within t.columnIds) :
    (t.insertRow cells).Identified where
  columns_ascend := hIdentified.columns_ascend
  columns_below := hIdentified.columns_below
  rows_ascend := by
    have hBelow :
        ∀ n ∈ t.rows.map fun r => r.id.value,
          n < t.counters.nextRow := by
      rw [List.forall_mem_map]
      exact hIdentified.rows_below
    have hAppended :=
      ascending_append hIdentified.rows_ascend hBelow
    simpa [Table.insertRow, nextRowId] using hAppended
  rows_below := by
    intro r hMem
    rcases List.mem_append.mp hMem with hOld | hNew
    · exact Nat.lt_succ_of_lt (hIdentified.rows_below r hOld)
    · rw [List.mem_singleton.mp hNew]
      exact Nat.lt_succ_self _
  cells_within := by
    intro r hMem
    rcases List.mem_append.mp hMem with hOld | hNew
    · exact hIdentified.cells_within r hOld
    · rw [List.mem_singleton.mp hNew]
      exact hCells

/- Rows may be taken out. -/
theorem sublist
    (hIdentified : t.Identified)
    {rows : List Row}
    (hRows : rows.Sublist t.rows) :
    { t with rows := rows }.Identified where
  columns_ascend := hIdentified.columns_ascend
  columns_below := hIdentified.columns_below
  rows_ascend :=
    hIdentified.rows_ascend.sublist (hRows.map _)
  rows_below := fun r hMem =>
    hIdentified.rows_below r (hRows.subset hMem)
  cells_within := fun r hMem =>
    hIdentified.cells_within r (hRows.subset hMem)

/- A row may change if it keeps its identifier and has cells under columns only. -/
theorem updateRow
    (hIdentified : t.Identified)
    (id : RowId)
    {f : Row → Row}
    (hId : ∀ r, (f r).id = r.id)
    (hCells :
      ∀ r : Row, r.cells.Within t.columnIds →
        (f r).cells.Within t.columnIds) :
    (t.updateRow id f).Identified where
  columns_ascend := hIdentified.columns_ascend
  columns_below := hIdentified.columns_below
  rows_ascend := by
    have hSame :
        (t.updateRow id f).rows.map (fun r => r.id.value) =
          t.rows.map fun r => r.id.value :=
      map_updateFirst (fun r => by rw [hId]) t.rows
    rw [hSame]
    exact hIdentified.rows_ascend
  rows_below := by
    intro r hMem
    rcases mem_of_mem_updateFirst hMem with
      hOld | ⟨old, hFind, rfl⟩
    · exact hIdentified.rows_below r hOld
    · rw [hId]
      exact hIdentified.rows_below old
        (List.mem_of_find?_eq_some hFind)
  cells_within := by
    intro r hMem
    rcases mem_of_mem_updateFirst hMem with
      hOld | ⟨old, hFind, rfl⟩
    · exact hIdentified.cells_within r hOld
    · exact hCells old
        (hIdentified.cells_within old
          (List.mem_of_find?_eq_some hFind))

------------------------------------------------------------
-- Columns
------------------------------------------------------------

theorem addColumn
    (hIdentified : t.Identified)
    (name : String)
    (type : DeclaredType)
    (isKey : Bool) :
    (t.addColumn name type isKey).Identified where
  columns_ascend := by
    have hBelow :
        ∀ n ∈ t.columns.map fun c => c.id.value,
          n < t.counters.nextColumn := by
      rw [List.forall_mem_map]
      exact hIdentified.columns_below
    have hAppended :=
      ascending_append hIdentified.columns_ascend hBelow
    simpa [Table.addColumn, Column.ofType, nextColumnId]
      using hAppended
  columns_below := by
    intro c hMem
    rcases List.mem_append.mp hMem with hOld | hNew
    · exact Nat.lt_succ_of_lt
        (hIdentified.columns_below c hOld)
    · rw [List.mem_singleton.mp hNew]
      exact Nat.lt_succ_self _
  rows_ascend := hIdentified.rows_ascend
  rows_below := hIdentified.rows_below
  cells_within := by
    intro r hMem
    apply (hIdentified.cells_within r hMem).mono
    intro id hColumn
    unfold columnIds Table.addColumn
    rw [List.map_append]
    exact List.mem_append_left _ hColumn

theorem columnIds_removeColumn
    {id : ColumnId}
    (hFound : (t.columnById? id).isSome) :
    (t.removeColumn id).columnIds = t.columnIds.erase id := by
  have hTest :
      (fun c : Column => decide (c.id = id)) =
        (id == ·) ∘ Column.id := by
    funext c
    simp [eq_comm, beq_eq_decide]
  calc
    (t.removeColumn id).columnIds =
        (t.columns.eraseP fun c => c.id = id).map
          Column.id := by
      unfold Table.removeColumn columnIds
      rw [if_pos hFound]
    _ = t.columnIds.erase id := by
      rw [hTest, List.erase_eq_eraseP]
      unfold columnIds
      rw [List.eraseP_map]

theorem removeColumn
    (hIdentified : t.Identified)
    (id : ColumnId) :
    (t.removeColumn id).Identified := by
  by_cases hFound : (t.columnById? id).isSome
  · have hIds := columnIds_removeColumn hFound
    unfold Table.removeColumn at hIds ⊢
    rw [if_pos hFound] at hIds ⊢
    have hSublist :
        (t.columns.eraseP fun c => c.id = id).Sublist
          t.columns := List.eraseP_sublist
    have hSame :
        (t.rows.map fun r => r.without id).map
            (fun r => r.id.value) =
          t.rows.map fun r => r.id.value := by
      rw [List.map_map]
      rfl
    exact
      { columns_ascend :=
          hIdentified.columns_ascend.sublist
            (hSublist.map _)
        columns_below := fun c hMem =>
          hIdentified.columns_below c (hSublist.subset hMem)
        rows_ascend := by
          rw [hSame]
          exact hIdentified.rows_ascend
        rows_below := by
          rw [List.forall_mem_map]
          exact hIdentified.rows_below
        cells_within := by
          rw [hIds, List.forall_mem_map]
          intro r hMem
          exact
            (hIdentified.cells_within r hMem).without id }
  · unfold Table.removeColumn
    rw [if_neg hFound]
    exact hIdentified

------------------------------------------------------------
-- Revisions
------------------------------------------------------------

theorem updateRows
    (hIdentified : t.Identified)
    (ids : List RowId)
    {changes : List Cell}
    (hChanges : ∀ cell ∈ changes, cell.1 ∈ t.columnIds) :
    (Edit.updateRows t ids
      (Edit.assign changes)).Identified := by
  unfold Edit.updateRows
  induction ids generalizing t with
  | nil => exact hIdentified
  | cons id ids ih =>
      refine ih ?_ hChanges
      refine hIdentified.updateRow id (Edit.assign_id changes) ?_
      intro r hWithin
      rw [Edit.assign_cells]
      exact hWithin.putAll hChanges

theorem of_revised
    {names : List String}
    {t' : Table}
    (hRevised : t.Revised names t')
    (hIdentified : t.Identified) :
    t'.Identified := by
  cases hRevised with
  | rowInserted hCells => exact hIdentified.insertRow hCells
  | rowsChanged ids hChanges =>
      exact hIdentified.updateRows ids hChanges
  | rowsRemoved ids =>
      exact hIdentified.sublist List.filter_sublist
  | columnAdded hName hNew hType isKey =>
      exact hIdentified.addColumn _ _ isKey
  | columnRemoved id => exact hIdentified.removeColumn id

theorem of_built
    {names : List String}
    {id : TableId}
    {name : String}
    (hBuilt : Table.Built names id name t) :
    t.Identified := by
  induction hBuilt with
  | refl => exact identified_new id name
  | tail _ hRevised ih => exact of_revised hRevised ih

end Identified

end Table

end Rowstore
