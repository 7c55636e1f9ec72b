import Mathlib.Data.List.Basic
import Rowstore.Proofs.Sequence
import Rowstore.Proofs.Table.Identity
import Rowstore.Workspace.Execute

/-
  What conditions select from a table, and what statements
  make of the selected rows.

  A condition comes down to a test of rows.  Reading keeps the
  rows that pass it; updates and deletions go through the
  identifiers of these rows, which is the same since no two
  rows have the same identifier.

  Main declarations:
    * `Table.meaning`
    * `Table.selectedIds_eq`
    * `Table.Assigns`
    * `Table.restrict_columns`
    * `Table.removeRows_selected`
    * `Table.updateRows_selected`
-/

------------------------------------------------------------
-- The Meaning Of A Condition
------------------------------------------------------------

namespace Rowstore

namespace Table

/-
  What an optional condition demands of a row: the cell under
  its column compares with its literal, where a missing cell
  counts as null.  Without a condition nothing is demanded.
-/
def meaning
    (t : Table) : Option String → Except Error (Row → Bool)
| none => .ok fun _ => true
| some text =>
  match Condition.parse text with
  | .error e => .error e
  | .ok c =>
    match t.column? c.column with
    | none => .error (.columnNotFound c.column)
    | some column =>
      .ok fun r =>
        c.op.holds ((r.cells.get? column.id).getD .null)
          c.literal

variable {t : Table} {condition : Option String}

/- The selected rows are those that the condition demands. -/
theorem selected_eq
    (t : Table)
    (condition : Option String) :
    t.selected condition =
      (t.meaning condition).map fun p =>
        t.rows.filter p := by
  cases condition with
  | none =>
      simp [selected, meaning, Except.map]
  | some text =>
      cases hParse : Condition.parse text with
      | error e =>
          simp [selected, rowsWhere, meaning, hParse, bind,
            Except.bind, Except.map]
      | ok c =>
          cases hColumn : t.column? c.column with
          | none =>
              simp [selected, rowsWhere, meaning, hParse,
                Condition.bind, columnNamed, hColumn, bind,
                Except.bind, Except.map]
          | some column =>
              simp only [selected, rowsWhere, meaning, hParse,
                Condition.bind, columnNamed, hColumn, bind,
                Except.bind, pure, Except.pure, Except.map]
              rfl

/- Both ways to select come to the same rows. -/
theorem selectedIds_eq
    (t : Table)
    (condition : Option String) :
    t.selectedIds condition =
      (t.selected condition).map fun rows =>
        rows.map Row.id := by
  cases condition with
  | none => rfl
  | some text =>
      cases hParse : Condition.parse text with
      | error e =>
          simp [selected, selectedIds, rowsWhere, hParse,
            bind, Except.bind, Except.map]
      | ok c =>
          cases hBind : c.bind t with
          | error e =>
              simp [selected, selectedIds, rowsWhere, hParse,
                hBind, bind, Except.bind, Except.map]
          | ok test =>
              simp [selected, selectedIds, rowsWhere, hParse,
                hBind, bind, Except.bind, pure, Except.pure,
                Except.map]

end Table

end Rowstore

------------------------------------------------------------
-- Rows That Are Read
------------------------------------------------------------

namespace Rowstore

namespace Table

variable {t : Table} {p : Row → Bool}

/- A row is not restricted by the columns of its table. -/
theorem restrict_columns
    {r : Row}
    (hCells : r.cells.Within t.columnIds) :
    Work.restrict t.columns r = r := by
  have hSame :
      Cells.ofList
          (t.columns.filterMap fun c =>
            (r.cells.get? c.id).map fun v => (c.id, v)) =
        r.cells := by
    apply Cells.ofList_eq
    rintro ⟨k, v⟩
    rw [List.mem_filterMap, ← Cells.get?_eq_some_iff]
    constructor
    · rintro ⟨c, _, hCell⟩
      rcases Option.map_eq_some_iff.mp hCell with
        ⟨w, hGet, hPair⟩
      cases hPair
      exact hGet
    · intro hGet
      rw [Cells.get?_eq_some_iff] at hGet
      rcases List.mem_map.mp (hCells _ hGet) with
        ⟨c, hMem, hId⟩
      rw [← Cells.get?_eq_some_iff] at hGet
      refine ⟨c, hMem, ?_⟩
      simp only at hId
      rw [hId, hGet]
      rfl
  unfold Work.restrict
  rw [hSame]

theorem map_restrict_columns
    (hIdentified : t.Identified) :
    (t.rows.filter p).map (Work.restrict t.columns) =
      t.rows.filter p := by
  calc
    (t.rows.filter p).map (Work.restrict t.columns) =
        (t.rows.filter p).map fun r => r := by
      apply List.map_congr_left
      intro r hMem
      exact restrict_columns
        (hIdentified.cells_within r
          (List.mem_of_mem_filter hMem))
    _ = t.rows.filter p := List.map_id' _

------------------------------------------------------------
-- Rows That Are Changed
------------------------------------------------------------

/- A row has the identifier of a selected row only if it is selected. -/
theorem mem_selectedIds_iff
    (hIdentified : t.Identified)
    {r : Row}
    (hMem : r ∈ t.rows) :
    r.id ∈ (t.rows.filter p).map Row.id ↔ p r = true := by
  rw [List.mem_map]
  constructor
  · rintro ⟨other, hOther, hId⟩
    rw [List.mem_filter] at hOther
    have hSame : other = r :=
      List.inj_on_of_nodup_map hIdentified.nodup_rowIds
        hOther.1 hMem hId
    rw [← hSame]
    exact hOther.2
  · intro hHolds
    exact ⟨r, List.mem_filter.mpr ⟨hMem, hHolds⟩, rfl⟩

theorem removeRows_selected
    (hIdentified : t.Identified) :
    t.removeRows ((t.rows.filter p).map Row.id) =
      { t with rows := t.rows.filter fun r => !p r } := by
  have hRows :
      (t.rows.filter fun r =>
          !((t.rows.filter p).map Row.id).contains r.id) =
        t.rows.filter fun r => !p r := by
    apply List.filter_congr
    intro r hMem
    rw [Bool.eq_iff_iff]
    simp only [Bool.not_eq_true', ← Bool.not_eq_true,
      List.contains_iff_mem, mem_selectedIds_iff hIdentified
        hMem]
  unfold removeRows
  rw [hRows]

/- The rows that are gone are those that were selected. -/
theorem length_sub_length_filter
    (t : Table)
    (p : Row → Bool) :
    t.rows.length - (t.rows.filter fun r => !p r).length =
      (t.rows.filter p).length := by
  have hSplit := t.rows.length_eq_length_filter_add p
  omega

/- Rows with distinct identifiers change one by one as they would at once. -/
theorem rows_updateRows
    {f : Row → Row}
    (hId : ∀ r, (f r).id = r.id)
    {ids : List RowId}
    (hIds : ids.Nodup)
    (hRows : (t.rows.map Row.id).Nodup) :
    (Edit.updateRows t ids f).rows =
      t.rows.map fun r => if r.id ∈ ids then f r else r := by
  induction ids generalizing t with
  | nil => simp [Edit.updateRows]
  | cons id ids ih =>
      rw [List.nodup_cons] at hIds
      rcases hIds with ⟨hNew, hIds⟩
      have hFirst :
          (t.updateRow id f).rows =
            t.rows.map fun r =>
              if r.id = id then f r else r :=
        updateFirst_eq_map hRows id f
      have hSame :
          (t.updateRow id f).rows.map Row.id =
            t.rows.map Row.id :=
        map_updateFirst hId t.rows
      have hRest := ih (t := t.updateRow id f) hIds
        (by rw [hSame]; exact hRows)
      calc
        (Edit.updateRows t (id :: ids) f).rows =
            (Edit.updateRows (t.updateRow id f) ids f).rows :=
          rfl
        _ = (t.updateRow id f).rows.map fun r =>
              if r.id ∈ ids then f r else r := hRest
        _ = t.rows.map fun r =>
              if r.id ∈ id :: ids then f r else r := by
          rw [hFirst, List.map_map]
          apply List.map_congr_left
          intro r _
          by_cases hKey : r.id = id
          · subst hKey
            simp [hId, hNew]
          · simp [hKey]

theorem updateRows_selected
    (hIdentified : t.Identified)
    {f : Row → Row}
    (hId : ∀ r, (f r).id = r.id) :
    Edit.updateRows t ((t.rows.filter p).map Row.id) f =
      { t with
        rows := t.rows.map fun r =>
          if p r then f r else r } := by
  have hDistinct := hIdentified.nodup_rowIds
  have hIds : ((t.rows.filter p).map Row.id).Nodup :=
    hDistinct.sublist (List.filter_sublist.map _)
  rw [Edit.updateRows_eq, rows_updateRows hId hIds hDistinct]
  have hRows :
      (t.rows.map fun r =>
          if r.id ∈ (t.rows.filter p).map Row.id then f r
          else r) =
        t.rows.map fun r => if p r then f r else r := by
    apply List.map_congr_left
    intro r hMem
    simp only [mem_selectedIds_iff hIdentified hMem]
  rw [hRows]

end Table

end Rowstore

------------------------------------------------------------
-- Assignments
------------------------------------------------------------

namespace Rowstore

namespace Table

/- The value of the last assignment to a column, if there is one. -/
def assigned?
    (t : Table)
    (assignments : List Assignment)
    (k : ColumnId) : Option Value :=
  (assignments.reverse.find? fun a =>
      (t.column? a.column).map Column.id = some k).map
    fun a => Value.ofLiteral a.value.toList

/- The row is the same but for the values that are assigned. -/
structure Assigns
    (t : Table)
    (assignments : List Assignment)
    (r r' : Row) : Prop where
  id : r'.id = r.id
  cells :
    ∀ k,
      r'.cells.get? k =
        (t.assigned? assignments k).or (r.cells.get? k)

variable {t : Table} {assignments : List Assignment}

/- Assignments determine the row. -/
theorem Assigns.unique
    {r r' r'' : Row}
    (hFirst : t.Assigns assignments r r')
    (hSecond : t.Assigns assignments r r'') :
    r' = r'' := by
  have hCells : r'.cells = r''.cells := by
    apply Cells.ext_get?
    intro k
    rw [hFirst.cells, hSecond.cells]
  have hId : r'.id = r''.id :=
    hFirst.id.trans hSecond.id.symm
  rcases r' with ⟨_, _⟩
  rcases r'' with ⟨_, _⟩
  rw [Row.mk.injEq]
  exact ⟨hId, hCells⟩

/- The change that an assignment makes, if its column is there. -/
def change?
    (t : Table)
    (a : Assignment) : Option Cell :=
  (t.column? a.column).map fun c =>
    (c.id, Value.ofLiteral a.value.toList)

theorem changesOf_eq
    (hColumns :
      ∀ a ∈ assignments, (t.column? a.column).isSome) :
    Edit.changesOf t assignments =
      .ok (assignments.filterMap t.change?) := by
  unfold Edit.changesOf
  induction assignments with
  | nil => rfl
  | cons a assignments ih =>
      rw [List.forall_mem_cons] at hColumns
      rcases hColumns with ⟨hFirst, hRest⟩
      rcases Option.isSome_iff_exists.mp hFirst with
        ⟨c, hColumn⟩
      rw [List.mapM_cons, ih hRest]
      simp [columnNamed, hColumn, change?,
        Edit.literalValue, bind, Except.bind, pure,
        Except.pure]

theorem lookup_changes
    (t : Table)
    (assignments : List Assignment)
    (k : ColumnId) :
    (assignments.filterMap t.change?).lookup k =
      (assignments.find? fun a =>
          (t.column? a.column).map Column.id = some k).map
        fun a => Value.ofLiteral a.value.toList := by
  induction assignments with
  | nil => rfl
  | cons a assignments ih =>
      cases hColumn : t.column? a.column with
      | none => simp [change?, hColumn, ih]
      | some c =>
          by_cases hKey : k = c.id
          · subst hKey
            simp [change?, hColumn]
          · have hOther : ¬c.id = k := fun h => hKey h.symm
            simp [change?, hColumn, Cell.lookup_cons, hKey,
              hOther, ih]

/- Assigning values one after the other leaves the last one of each column. -/
theorem assigns_assign
    (t : Table)
    (assignments : List Assignment)
    (r : Row) :
    t.Assigns assignments r
      (Edit.assign (assignments.filterMap t.change?) r) where
  id := Edit.assign_id _ r
  cells := by
    intro k
    rw [Edit.assign_cells, Cells.get?_putAll,
      ← List.filterMap_reverse, lookup_changes]
    rfl

end Table

end Rowstore
