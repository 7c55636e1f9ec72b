import Mathlib.Data.List.Basic
import Rowstore.Table.Row

/-
  What is looked up in cells after values are stored one
  after the other: the last value for a column, or else the
  value that was there before.

  Main declarations:
    * `Cells.Within`
    * `Cells.ext_get?`
    * `Cells.get?_putAll`
    * `Cells.ofList_eq`
-/

namespace Rowstore

------------------------------------------------------------
-- Lookup
------------------------------------------------------------

theorem Cell.lookup_cons
    (c : ColumnId)
    (v : Value)
    (k : ColumnId)
    (cells : List Cell) :
    ((c, v) :: cells).lookup k =
      if k = c then some v else cells.lookup k := by
  by_cases hKey : k = c
  · subst hKey
    simp
  · rw [List.lookup_cons, beq_false_of_ne hKey,
      if_neg hKey]

theorem Cell.lookup_insert
    (c : ColumnId)
    (v : Value)
    (k : ColumnId)
    (cells : List Cell) :
    (Cell.insert c v cells).lookup k =
      if k = c then some v else cells.lookup k := by
  induction cells with
  | nil => exact Cell.lookup_cons c v k []
  | cons cell cells ih =>
      rcases cell with ⟨d, w⟩
      simp only [Cell.insert]
      split
      · rw [Cell.lookup_cons]
      · split
        · rename_i hEq
          subst hEq
          rw [Cell.lookup_cons, Cell.lookup_cons]
          split <;> rfl
        · rename_i hNe
          rw [Cell.lookup_cons, Cell.lookup_cons, ih]
          by_cases hKey : k = c
          · subst hKey
            rw [if_neg hNe, if_pos rfl, if_pos rfl]
          · rw [if_neg hKey, if_neg hKey]

namespace Cells

theorem get?_put
    (cells : Cells)
    (c : ColumnId)
    (v : Value)
    (k : ColumnId) :
    (cells.put c v).get? k =
      if k = c then some v else cells.get? k :=
  Cell.lookup_insert c v k cells.toList

theorem get?_empty (k : ColumnId) :
    empty.get? k = none := rfl

theorem get?_eq_some_iff
    (cells : Cells)
    (k : ColumnId)
    (v : Value) :
    cells.get? k = some v ↔ (k, v) ∈ cells.toList := by
  rcases cells with ⟨cells, hOrdered⟩
  unfold get?
  induction cells with
  | nil => simp
  | cons cell cells ih =>
      rcases cell with ⟨d, w⟩
      rw [List.pairwise_cons] at hOrdered
      by_cases hKey : k = d
      · subst hKey
        rw [Cell.lookup_cons, if_pos rfl]
        have hLater : (k, v) ∉ cells := fun hMem =>
          absurd (hOrdered.1 _ hMem) (Nat.lt_irrefl _)
        simp [hLater, eq_comm]
      · rw [Cell.lookup_cons, if_neg hKey, ih hOrdered.2]
        simp [hKey]

theorem get?_without
    (cells : Cells)
    (c k : ColumnId) :
    (cells.without c).get? k =
      if k = c then none else cells.get? k := by
  apply Option.ext
  intro v
  rw [get?_eq_some_iff]
  unfold without
  rw [List.mem_filter, ← get?_eq_some_iff]
  by_cases hKey : k = c
  · simp [hKey]
  · simp [hKey]

/- Ordered cells are determined by what is looked up in them. -/
theorem ext_get?
    {cells others : Cells}
    (hSame : ∀ k, cells.get? k = others.get? k) :
    cells = others := by
  have hMem : ∀ cell, cell ∈ cells.toList ↔
      cell ∈ others.toList := by
    rintro ⟨k, v⟩
    rw [← get?_eq_some_iff, ← get?_eq_some_iff, hSame]
  have hDistinct : ∀ c : Cells, c.toList.Nodup := by
    intro c
    refine c.ordered.imp ?_
    rintro a b hBefore rfl
    exact Nat.lt_irrefl _ hBefore
  have hPerm : cells.toList.Perm others.toList :=
    (List.perm_ext_iff_of_nodup (hDistinct cells)
      (hDistinct others)).mpr hMem
  have hList : cells.toList = others.toList := by
    refine hPerm.eq_of_pairwise ?_ cells.ordered
      others.ordered
    intro a b _ _ hBefore hAfter
    exact absurd (Nat.lt_trans hBefore hAfter)
      (Nat.lt_irrefl _)
  rcases cells with ⟨cells, _⟩
  rcases others with ⟨others, _⟩
  subst hList
  rfl

------------------------------------------------------------
-- Storing Several Values
------------------------------------------------------------

/- Store values one after the other. -/
def putAll
    (entries : List Cell)
    (cells : Cells) : Cells :=
  entries.foldl (fun cells (c, v) => cells.put c v) cells

theorem ofList_eq_putAll (entries : List Cell) :
    ofList entries = putAll entries empty := rfl

/- The last value for a column counts. -/
theorem get?_putAll
    (entries : List Cell)
    (cells : Cells)
    (k : ColumnId) :
    (putAll entries cells).get? k =
      (entries.reverse.lookup k).or (cells.get? k) := by
  induction entries generalizing cells with
  | nil => rfl
  | cons entry entries ih =>
      rcases entry with ⟨c, v⟩
      have hStep :
          putAll ((c, v) :: entries) cells =
            putAll entries (cells.put c v) := rfl
      rw [hStep, ih, get?_put, List.reverse_cons,
        List.lookup_append]
      by_cases hKey : k = c
      · subst hKey
        cases entries.reverse.lookup k with
        | none => simp
        | some w => simp
      · rw [if_neg hKey, Cell.lookup_cons, if_neg hKey]
        simp

/-
  Entries that agree with some cells, and that leave no cell
  out, make up these cells.
-/
theorem ofList_eq
    {entries : List Cell}
    {cells : Cells}
    (hMem : ∀ cell, cell ∈ entries ↔ cell ∈ cells.toList) :
    ofList entries = cells := by
  apply ext_get?
  intro k
  rw [ofList_eq_putAll, get?_putAll, get?_empty,
    Option.or_none]
  cases hLookup : entries.reverse.lookup k with
  | none =>
      cases hGet : cells.get? k with
      | none => rfl
      | some v =>
          rw [get?_eq_some_iff, ← hMem] at hGet
          rw [List.lookup_eq_none_iff] at hLookup
          have hAbsent :=
            hLookup _ (List.mem_reverse.mpr hGet)
          simp at hAbsent
  | some v =>
      rw [eq_comm, get?_eq_some_iff, ← hMem,
        ← List.mem_reverse]
      rcases List.lookup_eq_some_iff.mp hLookup with
        ⟨before, after, hSplit, _⟩
      rw [hSplit]
      simp

------------------------------------------------------------
-- What Holds Of All Cells
------------------------------------------------------------

theorem forall_put
    {P : Cell → Prop}
    {cells : Cells}
    (hAll : ∀ cell ∈ cells.toList, P cell)
    {c : ColumnId}
    {v : Value}
    (hNew : P (c, v)) :
    ∀ cell ∈ (cells.put c v).toList, P cell := by
  intro cell hMem
  rcases Cell.mem_of_mem_insert hMem with rfl | hMem
  · exact hNew
  · exact hAll cell hMem

theorem forall_putAll
    {P : Cell → Prop}
    {cells : Cells}
    (hAll : ∀ cell ∈ cells.toList, P cell)
    {entries : List Cell}
    (hEntries : ∀ cell ∈ entries, P cell) :
    ∀ cell ∈ (putAll entries cells).toList, P cell := by
  induction entries generalizing cells with
  | nil => exact hAll
  | cons entry entries ih =>
      rw [List.forall_mem_cons] at hEntries
      exact ih (forall_put hAll hEntries.1) hEntries.2

theorem forall_ofList
    {P : Cell → Prop}
    {entries : List Cell}
    (hEntries : ∀ cell ∈ entries, P cell) :
    ∀ cell ∈ (ofList entries).toList, P cell :=
  forall_putAll (List.forall_mem_nil _) hEntries

------------------------------------------------------------
-- Columns Of Cells
------------------------------------------------------------

/- Cells stand under given columns only. -/
def Within
    (cells : Cells)
    (columns : List ColumnId) : Prop :=
  ∀ cell ∈ cells.toList, cell.1 ∈ columns

variable {columns : List ColumnId}

theorem Within.putAll
    {cells : Cells}
    (hWithin : cells.Within columns)
    {entries : List Cell}
    (hEntries : ∀ cell ∈ entries, cell.1 ∈ columns) :
    (putAll entries cells).Within columns :=
  forall_putAll hWithin hEntries

theorem within_ofList
    {entries : List Cell}
    (hEntries : ∀ cell ∈ entries, cell.1 ∈ columns) :
    (ofList entries).Within columns :=
  forall_ofList hEntries

theorem Within.mono
    {cells : Cells}
    (hWithin : cells.Within columns)
    {more : List ColumnId}
    (hMore : columns ⊆ more) :
    cells.Within more := by
  intro cell hMem
  exact hMore (hWithin cell hMem)

/- Without the cell of a column, the column is not needed any more. -/
theorem Within.without
    {cells : Cells}
    (hWithin : cells.Within columns)
    (c : ColumnId) :
    (cells.without c).Within (columns.erase c) := by
  intro cell hMem
  rcases List.mem_filter.mp hMem with ⟨hMem, hOther⟩
  have hNe : cell.1 ≠ c := by simpa using hOther
  exact (List.mem_erase_of_ne hNe).mpr (hWithin cell hMem)

end Cells

end Rowstore
