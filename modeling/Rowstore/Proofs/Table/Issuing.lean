import Mathlib.Data.List.Nodup
import Rowstore.Proofs.Table.Document
import Rowstore.Proofs.Table.Identity

/-
  The identifiers that tables give to columns and rows, and
  those that their counters have yet to give.

  A revision of a table gives an identifier only if the
  counters had yet to give it, and the counters only move
  forward.

  Main declarations:
    * `Issue` and `Outline`
    * `Outline.MayIssue` and `Outline.Advances`
    * `Table.advances_of_revised`
    * `Table.Identified.isSound`
-/

------------------------------------------------------------
-- Outlines
------------------------------------------------------------

namespace Rowstore

/- An identifier that a table gives to a column or to a row. -/
inductive Issue where
| column
    (table : TableId)
    (id : ColumnId)
| row
    (table : TableId)
    (id : RowId)
deriving DecidableEq

/- The table that gives the identifier. -/
def Issue.table : Issue → TableId
| column table _ => table
| row table _ => table

/- The identifiers of a table, of its columns and of its rows, and the counters. -/
structure Outline where
  id : TableId
  columns : List ColumnId
  rows : List RowId
  counters : Counters
deriving DecidableEq

/- What is left of a table without names and cells. -/
def Table.outline (t : Table) : Outline :=
  { id := t.id
    columns := t.columnIds
    rows := t.rows.map Row.id
    counters := t.counters }

namespace Outline

/- The identifiers that the columns and the rows have. -/
def issues (o : Outline) : List Issue :=
  o.columns.map (.column o.id) ++ o.rows.map (.row o.id)

/- The identifiers that the next column and the next row get. -/
def nextIssues (o : Outline) : List Issue :=
  [.column o.id ⟨o.counters.nextColumn⟩,
    .row o.id ⟨o.counters.nextRow⟩]

/- The table has yet to give the identifier. -/
def MayIssue (o : Outline) : Issue → Prop
| .column table id =>
  table = o.id ∧ o.counters.nextColumn ≤ id.value
| .row table id =>
  table = o.id ∧ o.counters.nextRow ≤ id.value

instance
    (o : Outline)
    (i : Issue) :
    Decidable (o.MayIssue i) := by
  cases i with
  | column table id => exact inferInstanceAs (Decidable (_ ∧ _))
  | row table id => exact inferInstanceAs (Decidable (_ ∧ _))

/- The counters are past all identifiers, which are distinct. -/
structure IsSound (o : Outline) : Prop where
  distinct : o.issues.Nodup
  past : ∀ i ∈ o.issues, ¬o.MayIssue i

/-
  One outline is what another one has become.  What was not
  there before had yet to be given, and nothing is to be
  given that was not to be given before.
-/
structure Advances (o o' : Outline) : Prop where
  id : o'.id = o.id
  issues : ∀ i ∈ o'.issues, i ∈ o.issues ∨ o.MayIssue i
  mayIssue : ∀ i, o'.MayIssue i → o.MayIssue i

variable {o o' : Outline}

theorem mem_issues_column
    {table : TableId}
    {id : ColumnId} :
    .column table id ∈ o.issues ↔
      table = o.id ∧ id ∈ o.columns := by
  simp [issues, eq_comm, and_comm]

theorem mem_issues_row
    {table : TableId}
    {id : RowId} :
    .row table id ∈ o.issues ↔
      table = o.id ∧ id ∈ o.rows := by
  simp [issues, eq_comm, and_comm]

theorem table_of_mem_issues
    {i : Issue}
    (hMem : i ∈ o.issues) :
    i.table = o.id := by
  cases i with
  | column table id => exact (mem_issues_column.mp hMem).1
  | row table id => exact (mem_issues_row.mp hMem).1

theorem table_of_mayIssue
    {i : Issue}
    (hMay : o.MayIssue i) :
    i.table = o.id := by
  cases i with
  | column table id => exact hMay.1
  | row table id => exact hMay.1

theorem mayIssue_of_mem_nextIssues
    {i : Issue}
    (hNext : i ∈ o.nextIssues) :
    o.MayIssue i := by
  rcases List.mem_cons.mp hNext with rfl | hNext
  · exact ⟨rfl, Nat.le_refl _⟩
  · rw [List.mem_singleton.mp hNext]
    exact ⟨rfl, Nat.le_refl _⟩

namespace Advances

theorem refl (o : Outline) : o.Advances o where
  id := rfl
  issues := fun _ hMem => .inl hMem
  mayIssue := fun _ hMay => hMay

theorem of_parts
    (hId : o'.id = o.id)
    (hColumns :
      ∀ id ∈ o'.columns,
        id ∈ o.columns ∨ o.counters.nextColumn ≤ id.value)
    (hRows :
      ∀ id ∈ o'.rows,
        id ∈ o.rows ∨ o.counters.nextRow ≤ id.value)
    (hCounters :
      o.counters.nextColumn ≤ o'.counters.nextColumn ∧
        o.counters.nextRow ≤ o'.counters.nextRow) :
    o.Advances o' where
  id := hId
  issues := by
    rintro (⟨table, id⟩ | ⟨table, id⟩) hMem
    · rcases mem_issues_column.mp hMem with ⟨hTable, hColumn⟩
      rw [hId] at hTable
      exact (hColumns id hColumn).imp
        (fun hOld => mem_issues_column.mpr ⟨hTable, hOld⟩)
        fun hNew => ⟨hTable, hNew⟩
    · rcases mem_issues_row.mp hMem with ⟨hTable, hRow⟩
      rw [hId] at hTable
      exact (hRows id hRow).imp
        (fun hOld => mem_issues_row.mpr ⟨hTable, hOld⟩)
        fun hNew => ⟨hTable, hNew⟩
  mayIssue := by
    rintro (⟨table, id⟩ | ⟨table, id⟩) ⟨hTable, hMay⟩
    · exact ⟨hTable.trans hId, hCounters.1.trans hMay⟩
    · exact ⟨hTable.trans hId, hCounters.2.trans hMay⟩

/- The counters of a table only move forward. -/
theorem counters_le (hAdvances : o.Advances o') :
    o.counters.nextColumn ≤ o'.counters.nextColumn ∧
      o.counters.nextRow ≤ o'.counters.nextRow := by
  constructor
  · exact
      (hAdvances.mayIssue
        (.column o'.id ⟨o'.counters.nextColumn⟩)
        ⟨rfl, Nat.le_refl _⟩).2
  · exact
      (hAdvances.mayIssue
        (.row o'.id ⟨o'.counters.nextRow⟩)
        ⟨rfl, Nat.le_refl _⟩).2

end Advances

end Outline

end Rowstore

------------------------------------------------------------
-- Tables
------------------------------------------------------------

namespace Rowstore

namespace Table

variable {t : Table}

theorem outline_renamed (name : String) :
    { t with name := name }.outline = t.outline := rfl

theorem Identified.isSound
    (hIdentified : t.Identified) :
    t.outline.IsSound where
  distinct := by
    unfold Outline.issues
    rw [List.nodup_append]
    refine
      ⟨hIdentified.nodup_columnIds.map ?_,
        hIdentified.nodup_rowIds.map ?_, ?_⟩
    · rintro _ _ ⟨⟩
      rfl
    · rintro _ _ ⟨⟩
      rfl
    · rintro i hColumn _ hRow rfl
      rcases List.mem_map.mp hColumn with ⟨_, _, rfl⟩
      rcases List.mem_map.mp hRow with ⟨_, _, hOther⟩
      cases hOther
  past := by
    rintro (⟨table, id⟩ | ⟨table, id⟩) hMem hMay
    · rcases List.mem_map.mp
        (Outline.mem_issues_column.mp hMem).2 with
        ⟨c, hColumn, rfl⟩
      exact
        Nat.not_lt.mpr hMay.2
          (hIdentified.columns_below c hColumn)
    · rcases List.mem_map.mp
        (Outline.mem_issues_row.mp hMem).2 with
        ⟨r, hRow, rfl⟩
      exact
        Nat.not_lt.mpr hMay.2 (hIdentified.rows_below r hRow)

------------------------------------------------------------
-- Revisions
------------------------------------------------------------

theorem outline_updateRows
    (ids : List RowId)
    (changes : List Cell) :
    (Edit.updateRows t ids (Edit.assign changes)).outline =
      t.outline := by
  unfold Edit.updateRows
  induction ids generalizing t with
  | nil => rfl
  | cons id ids ih =>
      rw [List.foldl_cons, ih]
      unfold outline updateRow
      rw [map_updateFirst (Edit.assign_id changes)]
      rfl

theorem advances_insertRow (cells : Cells) :
    t.outline.Advances (t.insertRow cells).outline := by
  refine .of_parts rfl (fun _ hMem => .inl hMem) ?_
    ⟨Nat.le_refl _, Nat.le_succ _⟩
  intro id hMem
  unfold outline insertRow at hMem
  rw [List.map_append] at hMem
  rcases List.mem_append.mp hMem with hOld | hNew
  · exact .inl hOld
  · rw [List.mem_singleton.mp hNew]
    exact .inr (Nat.le_refl _)

theorem advances_removeRows (ids : List RowId) :
    t.outline.Advances (t.removeRows ids).outline := by
  refine .of_parts rfl (fun _ hMem => .inl hMem) ?_
    ⟨Nat.le_refl _, Nat.le_refl _⟩
  intro id hMem
  exact .inl ((List.filter_sublist.map _).subset hMem)

theorem advances_addColumn
    (name : String)
    (type : DeclaredType)
    (isKey : Bool) :
    t.outline.Advances
      (t.addColumn name type isKey).outline := by
  refine .of_parts rfl ?_ (fun _ hMem => .inl hMem)
    ⟨Nat.le_succ _, Nat.le_refl _⟩
  intro id hMem
  unfold outline addColumn columnIds at hMem
  rw [List.map_append] at hMem
  rcases List.mem_append.mp hMem with hOld | hNew
  · exact .inl hOld
  · rw [List.mem_singleton.mp hNew]
    exact .inr (Nat.le_refl _)

theorem advances_removeColumn (id : ColumnId) :
    t.outline.Advances (t.removeColumn id).outline := by
  unfold removeColumn
  split
  · refine .of_parts rfl ?_ ?_
      ⟨Nat.le_refl _, Nat.le_refl _⟩
    · intro id hMem
      exact .inl ((List.eraseP_sublist.map _).subset hMem)
    · intro id hMem
      unfold outline at hMem
      rw [List.map_map] at hMem
      exact .inl hMem
  · exact .refl _

theorem advances_of_revised
    {names : List String}
    {t' : Table}
    (hRevised : t.Revised names t') :
    t.outline.Advances t'.outline := by
  cases hRevised with
  | rowInserted => exact advances_insertRow _
  | rowsChanged ids =>
      rw [outline_updateRows]
      exact .refl _
  | rowsRemoved ids => exact advances_removeRows ids
  | columnAdded => exact advances_addColumn _ _ _
  | columnRemoved id => exact advances_removeColumn id

/- Writing and reading a table changes its names and cells at most. -/
theorem Reread.outline
    {t' : Table}
    (hReread : t.Reread t') :
    t'.outline = t.outline := by
  have hRows : t'.rows.map Row.id = t.rows.map Row.id :=
    hReread.map_rows fun id => id
  unfold Table.outline columnIds
  rw [hReread.id, hReread.columns, hReread.counters, hRows]

end Table

end Rowstore
