import Rowstore.Proofs.Identity
import Rowstore.Proofs.Json.Records
import Rowstore.Proofs.Table.Identity
import Rowstore.Proofs.Table.Naming
import Rowstore.Table.Document

/-
  The documents of columns, rows and tables: they can be
  written, and what is read from them has the same columns,
  the same counters and rows with the same identifiers, and
  cells under no other columns.

  Main declarations:
    * `Table.proper_toJson`
    * `Column.eq_of_ofJson?`
    * `Cells.within_of_ofJson?`
    * `Table.Reread` and `Table.reread_of_ofJson?`
    * `Table.Reread.identified` and
      `Table.Reread.columnsDistinct`
-/

------------------------------------------------------------
-- Documents That Can Be Written
------------------------------------------------------------

namespace Rowstore

open Json

theorem Value.proper_toJson (v : Value) : v.toJson.Proper := by
  cases v with
  | null => trivial
  | boolean b => trivial
  | number x => exact proper_ofFloat x
  | text s => exact proper_ofText s

theorem sizeMember_proper
    {name : String}
    {size : Option Nat} :
    ∀ m ∈ sizeMember name size, m.2.Proper := by
  cases size with
  | none =>
      intro m hMem
      cases hMem
  | some n =>
      intro m hMem
      rw [List.mem_singleton.mp hMem]
      exact proper_ofNat n

theorem Column.proper_toJson (c : Column) :
    c.toJson.Proper := by
  apply proper_ofMembers
  simp only [List.forall_mem_append, List.forall_mem_cons,
    List.not_mem_nil, false_implies, implies_true,
    and_true]
  exact
    ⟨⟨⟨⟨⟨proper_ofNat c.id.value, proper_ofText c.name,
      proper_ofText c.base.name, proper_ofText c.declaredType⟩,
      sizeMember_proper⟩, sizeMember_proper⟩,
      sizeMember_proper⟩, trivial⟩

theorem Cells.proper_toJson (cells : Cells) :
    cells.toJson.Proper := by
  apply (properMembers_iff _).mpr
  rw [List.forall_mem_map]
  intro cell _
  exact
    ⟨isBody_digitsText cell.1.value, cell.2.proper_toJson⟩

theorem Row.proper_toJson (r : Row) : r.toJson.Proper := by
  apply proper_ofMembers
  simp only [List.forall_mem_cons, List.not_mem_nil,
    false_implies, implies_true, and_true]
  exact ⟨proper_ofNat r.id.value, r.cells.proper_toJson⟩

theorem Counters.proper_toJson (c : Counters) :
    c.toJson.Proper := by
  apply proper_ofMembers
  simp only [List.forall_mem_cons, List.not_mem_nil,
    false_implies, implies_true, and_true]
  exact ⟨proper_ofNat c.nextColumn, proper_ofNat c.nextRow⟩

theorem Table.proper_toJson (t : Table) : t.toJson.Proper := by
  apply proper_ofMembers
  simp only [List.forall_mem_cons, List.not_mem_nil,
    false_implies, implies_true, and_true]
  refine
    ⟨proper_ofText _, proper_ofText t.name,
      proper_array ?_, proper_array ?_,
      t.counters.proper_toJson⟩
  · rw [List.forall_mem_map]
    exact fun c _ => c.proper_toJson
  · rw [List.forall_mem_map]
    exact fun r _ => r.proper_toJson

end Rowstore

------------------------------------------------------------
-- Columns
------------------------------------------------------------

namespace Rowstore

open Json

theorem ColumnId.eq_of_ofJson?
    {c c' : ColumnId}
    (hRead : ColumnId.ofJson? c.toJson = some c') :
    c' = c := by
  rcases Option.map_eq_some_iff.mp hRead with
    ⟨n, hAmount, rfl⟩
  rw [eq_of_natUpTo?_ofNat hAmount]

theorem BaseType.word?_name (b : BaseType) :
    word? BaseType.words (.ofText b.name) = some b := by
  simp only [word?, ofText, unescape_escape]
  cases b with
  | number => decide
  | text => decide
  | boolean => decide
  | date => decide
  | datetime => decide

/- A size that is read from its member is the one that was written. -/
theorem eq_of_size?
    {size size' : Option Nat}
    (hRead : size? (size.map ofNat) = some size') :
    size' = size := by
  cases size with
  | none =>
      cases hRead
      rfl
  | some n =>
      rcases Option.map_eq_some_iff.mp hRead with
        ⟨m, hAmount, rfl⟩
      rw [eq_of_natUpTo?_ofNat hAmount]

theorem lookup_sizeMember
    (k name : String)
    (size : Option Nat) :
    (sizeMember k size).lookup name =
      if name = k then size.map ofNat else none := by
  cases size with
  | none => simp [sizeMember]
  | some n =>
      by_cases hKey : name = k
      · simp [sizeMember, hKey]
      · have hOther : (name == k) = false := by
          simpa using hKey
        simp [sizeMember, List.lookup_cons, hOther, hKey]

theorem keys_sizeMember_sublist
    (k : String)
    (size : Option Nat) :
    ((sizeMember k size).map Prod.fst).Sublist [k] := by
  cases size with
  | none => exact List.nil_sublist [k]
  | some n => exact List.Sublist.refl [k]

/- The fields of a written column. -/
theorem Column.fields?_toJson (c : Column) :
    fields? Column.fieldNames c.toJson =
      some
        [some c.id.toJson, some (.ofText c.name),
          some (.ofText c.base.name),
          some (.ofText c.declaredType), c.length.map ofNat,
          c.precision.map ofNat, c.scale.map ofNat,
          some (.boolean c.isPrimaryKey)] := by
  unfold Column.toJson
  rw [fields?_ofMembers]
  · simp only [Column.fieldNames, List.map_cons,
      List.map_nil, List.lookup_append, lookup_sizeMember,
      List.lookup_cons, List.lookup_nil]
    simp
  · have hSublist :=
      (((List.Sublist.refl
        ["id", "name", "base_type", "original_type"]).append
        (keys_sizeMember_sublist "length" c.length)).append
        (keys_sizeMember_sublist "precision"
          c.precision)).append
        (keys_sizeMember_sublist "scale" c.scale)
    have hAll :
        ["id", "name", "base_type", "original_type", "length",
          "precision", "scale", "is_primary_key"].Nodup := by
      decide
    simp only [List.map_append]
    exact hAll.sublist
      (hSublist.append (List.Sublist.refl ["is_primary_key"]))

theorem Column.eq_of_ofJson?
    {c c' : Column}
    (hRead : Column.ofJson? c.toJson = some c') :
    c' = c := by
  unfold Column.ofJson? at hRead
  simp only [Column.fields?_toJson, place_zero, place_succ,
    required?_some, withDefault?_some, text?_ofText,
    boolean?, BaseType.word?_name, Option.bind_eq_bind,
    Option.bind_some, Option.bind_eq_some_iff] at hRead
  rcases hRead with
    ⟨id, hId, length, hLength, precision, hPrecision, scale,
      hScale, hDone⟩
  cases hDone
  rw [ColumnId.eq_of_ofJson? hId, eq_of_size? hLength,
    eq_of_size? hPrecision, eq_of_size? hScale]

theorem Column.eq_of_list?
    {columns columns' : List Column}
    (hRead :
      list? Column.ofJson?
          (.array (columns.map Column.toJson)) =
        some columns') :
    columns' = columns := by
  have hSame : List.Forall₂ (· = ·) columns columns' :=
    (forall₂_of_list? hRead).imp
      fun _ _ hColumn => (Column.eq_of_ofJson? hColumn).symm
  rw [List.forall₂_eq_eq_eq] at hSame
  exact hSame.symm

end Rowstore

------------------------------------------------------------
-- Rows
------------------------------------------------------------

namespace Rowstore

open Json

theorem Cells.eq_of_key?
    {c c' : ColumnId}
    (hKey :
      Cells.key? (Decimal.digitsText c.value) = some c') :
    c' = c := by
  simp only [Cells.key?, Decimal.digitsValue_digitsText]
    at hKey
  split at hKey
  · cases hKey
  · cases hKey
    rfl

/- Cells are read under the columns under which they were written. -/
theorem Cells.within_of_ofJson?
    {cells cells' : Cells}
    (hRead : Cells.ofJson? cells.toJson = some cells')
    {columns : List ColumnId}
    (hWithin : cells.Within columns) :
    cells'.Within columns := by
  rcases Option.map_eq_some_iff.mp hRead with
    ⟨entries, hEntries, rfl⟩
  have hAll :=
    List.forall₂_map_left_iff.mp (forall₂_of_mapM hEntries)
  apply Cells.within_ofList
  intro entry hMem
  rcases exists_mem_of_forall₂ hAll hMem with
    ⟨cell, hCell, hEntry⟩
  rcases Option.bind_eq_some_iff.mp hEntry with
    ⟨column, hColumn, hEntry⟩
  rcases Option.bind_eq_some_iff.mp hEntry with
    ⟨value, _, hDone⟩
  cases hDone
  rw [Cells.eq_of_key? hColumn]
  exact hWithin cell hCell

theorem RowId.eq_of_ofJson?
    {r r' : RowId}
    (hRead : RowId.ofJson? r.toJson = some r') :
    r' = r := by
  rcases Option.map_eq_some_iff.mp hRead with
    ⟨n, hAmount, rfl⟩
  rw [eq_of_natUpTo?_ofNat hAmount]

/- The fields of a written row. -/
theorem Row.fields?_toJson (r : Row) :
    fields? Row.fieldNames r.toJson =
      some [some r.id.toJson, some r.cells.toJson] := by
  unfold Row.toJson
  rw [fields?_ofMembers]
  · simp [Row.fieldNames, List.lookup_cons]
  · simp

/- A row is read with its identifier and with cells that are read. -/
theorem Row.id_cells_of_ofJson?
    {r r' : Row}
    (hRead : Row.ofJson? r.toJson = some r') :
    r'.id = r.id ∧
      Cells.ofJson? r.cells.toJson = some r'.cells := by
  unfold Row.ofJson? at hRead
  simp only [Row.fields?_toJson, place_zero, place_succ,
    required?_some, withDefault?_some, Option.bind_eq_bind,
    Option.bind_some, Option.bind_eq_some_iff] at hRead
  rcases hRead with ⟨id, hId, cells, hCells, hDone⟩
  cases hDone
  exact ⟨RowId.eq_of_ofJson? hId, hCells⟩

end Rowstore

------------------------------------------------------------
-- Tables
------------------------------------------------------------

namespace Rowstore

open Json

/- The fields of written counters. -/
theorem Counters.fields?_toJson (c : Counters) :
    fields? Counters.fieldNames c.toJson =
      some
        [some (ofNat c.nextColumn), some (ofNat c.nextRow)] := by
  unfold Counters.toJson
  rw [fields?_ofMembers]
  · simp [Counters.fieldNames, List.lookup_cons]
  · simp

theorem Counters.eq_of_ofJson?
    {c c' : Counters}
    (hRead : Counters.ofJson? c.toJson = some c') :
    c' = c := by
  unfold Counters.ofJson? at hRead
  simp only [Counters.fields?_toJson, place_zero, place_succ,
    required?_some, Option.bind_eq_bind, Option.bind_some,
    Option.bind_eq_some_iff] at hRead
  rcases hRead with
    ⟨nextColumn, hColumn, nextRow, hRow, hDone⟩
  cases hDone
  rw [eq_of_natUpTo?_ofNat hColumn, eq_of_natUpTo?_ofNat hRow]

/-
  A table is the same as another one but for the values in
  its cells, which have been written and read.
-/
structure Table.Reread (t t' : Table) : Prop where
  id : t'.id = t.id
  name : t'.name = t.name
  columns : t'.columns = t.columns
  counters : t'.counters = t.counters
  rows :
    List.Forall₂
      (fun r r' =>
        r'.id = r.id ∧
          Cells.ofJson? r.cells.toJson = some r'.cells)
      t.rows t'.rows

theorem TableId.eq_of_ofJson?
    {t t' : TableId}
    (hRead : TableId.ofJson? t.toJson = some t') :
    t' = t := by
  rcases Option.map_eq_some_iff.mp hRead with
    ⟨uuid, hUuid, rfl⟩
  have hSame : some uuid = some t.uuid :=
    hUuid.symm.trans t.uuid.ofJson?_toJson
  cases hSame
  rfl

/- The fields of a written table. -/
theorem Table.fields?_toJson (t : Table) :
    fields? Table.fieldNames t.toJson =
      some
        [some t.id.toJson, some (.ofText t.name),
          some (.array (t.columns.map Column.toJson)),
          some (.array (t.rows.map Row.toJson)),
          some t.counters.toJson] := by
  unfold Table.toJson
  rw [fields?_ofMembers]
  · simp [Table.fieldNames, List.lookup_cons]
  · simp

theorem Table.reread_of_ofJson?
    {t t' : Table}
    (hRead : Table.ofJson? t.toJson = some t') :
    t.Reread t' := by
  unfold Table.ofJson? at hRead
  simp only [Table.fields?_toJson, place_zero, place_succ,
    required?_some, withDefault?_some, text?_ofText,
    Option.bind_eq_bind, Option.bind_some,
    Option.bind_eq_some_iff] at hRead
  rcases hRead with
    ⟨id, hId, columns, hColumns, rows, hRows, counters,
      hCounters, hDone⟩
  cases hDone
  exact
    { id := TableId.eq_of_ofJson? hId
      name := rfl
      columns := Column.eq_of_list? hColumns
      counters := Counters.eq_of_ofJson? hCounters
      rows :=
        (forall₂_of_list? hRows).imp
          fun _ _ hRow => Row.id_cells_of_ofJson? hRow }

------------------------------------------------------------
-- What Reading Keeps
------------------------------------------------------------

namespace Table.Reread

variable {t t' : Table}

theorem map_rows
    (hReread : t.Reread t')
    {α : Type}
    (f : RowId → α) :
    t'.rows.map (fun r => f r.id) =
      t.rows.map fun r => f r.id :=
  (map_eq_of_forall₂
    (fun _ _ hRow => congrArg f hRow.1.symm)
    hReread.rows).symm

theorem identified
    (hReread : t.Reread t')
    (hIdentified : t.Identified) :
    t'.Identified where
  columns_ascend := by
    rw [hReread.columns]
    exact hIdentified.columns_ascend
  columns_below := by
    rw [hReread.columns, hReread.counters]
    exact hIdentified.columns_below
  rows_ascend := by
    rw [hReread.map_rows RowId.value]
    exact hIdentified.rows_ascend
  rows_below := by
    intro r' hMem
    rcases exists_mem_of_forall₂ hReread.rows hMem with
      ⟨r, hOld, hSame, _⟩
    rw [hSame, hReread.counters]
    exact hIdentified.rows_below r hOld
  cells_within := by
    intro r' hMem
    rcases exists_mem_of_forall₂ hReread.rows hMem with
      ⟨r, hOld, _, hCells⟩
    unfold columnIds
    rw [hReread.columns]
    exact Cells.within_of_ofJson? hCells
      (hIdentified.cells_within r hOld)

theorem columnsDistinct
    (hReread : t.Reread t')
    (hDistinct : t.ColumnsDistinct) :
    t'.ColumnsDistinct := by
  unfold ColumnsDistinct
  rw [hReread.columns]
  exact hDistinct

end Table.Reread

end Rowstore
