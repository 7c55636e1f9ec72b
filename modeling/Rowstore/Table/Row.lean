import Rowstore.Column.Basic
import Rowstore.Value.Basic

/-
  This file defines rows: an identifier, and cells that are
  kept in the order of their columns' identifiers, one cell
  at most for a column.

  Key definitions include:
    * `Cells`
    * `Cells.get?`
    * `Cells.put`
    * `Cells.without`
    * `RowId`
    * `Row`
    * `Row.get`
-/

namespace Rowstore

------------------------------------------------------------
-- Cells
------------------------------------------------------------

/- A cell: a column and the value under it. -/
abbrev Cell :=
  ColumnId × Value

/- One cell stands before another. -/
def Cell.Before (a b : Cell) : Prop :=
  a.1.value < b.1.value

/- Put a value among ordered cells, in place of an earlier value for its column. -/
def Cell.insert
    (c : ColumnId)
    (v : Value) : List Cell → List Cell
| [] => [(c, v)]
| (d, w) :: cells =>
  if c.value < d.value then (c, v) :: (d, w) :: cells
  else if c = d then (c, v) :: cells
  else (d, w) :: Cell.insert c v cells

/- Inserting puts in nothing but the new cell. -/
theorem Cell.mem_of_mem_insert
    {c : ColumnId}
    {v : Value}
    {a : Cell} :
    ∀ {cells : List Cell},
      a ∈ Cell.insert c v cells → a = (c, v) ∨ a ∈ cells
| [], h => by
  simpa [Cell.insert] using h
| (d, w) :: cells, h => by
  simp only [Cell.insert] at h
  split at h
  · simpa using h
  · split at h
    · rcases List.mem_cons.mp h with h | h
      · exact Or.inl h
      · exact Or.inr (List.mem_cons_of_mem _ h)
    · rcases List.mem_cons.mp h with h | h
      · exact Or.inr (h ▸ List.mem_cons_self)
      · rcases Cell.mem_of_mem_insert h with h | h
        · exact Or.inl h
        · exact Or.inr (List.mem_cons_of_mem _ h)

/- Inserting keeps cells in order. -/
theorem Cell.pairwise_insert
    (c : ColumnId)
    (v : Value) :
    ∀ {cells : List Cell},
      cells.Pairwise Cell.Before →
        (Cell.insert c v cells).Pairwise Cell.Before
| [], _ => by
  simp [Cell.insert]
| (d, w) :: cells, h => by
  rw [List.pairwise_cons] at h
  simp only [Cell.insert]
  split
  · rename_i hLt
    refine List.pairwise_cons.mpr ⟨?_, List.pairwise_cons.mpr h⟩
    intro a ha
    rcases List.mem_cons.mp ha with rfl | ha
    · exact hLt
    · exact Nat.lt_trans hLt (h.1 a ha)
  · split
    · rename_i hEq
      refine List.pairwise_cons.mpr ⟨?_, h.2⟩
      intro a ha
      have hBefore := h.1 a ha
      unfold Cell.Before at hBefore ⊢
      simpa [hEq] using hBefore
    · rename_i hLt hEq
      refine
        List.pairwise_cons.mpr ⟨?_, Cell.pairwise_insert c v h.2⟩
      intro a ha
      rcases Cell.mem_of_mem_insert ha with rfl | ha
      · have hNe : c.value ≠ d.value := fun hv =>
          hEq (by cases c; cases d; simp_all)
        unfold Cell.Before
        simp only
        omega
      · exact h.1 a ha

/- The cells of a row in the order of their columns' identifiers. -/
structure Cells where
  toList : List Cell
  ordered : toList.Pairwise Cell.Before
deriving DecidableEq

namespace Cells

/- No cells. -/
def empty : Cells :=
  ⟨[], List.Pairwise.nil⟩

/- The value stored for a column, if there is one. -/
def get?
    (cells : Cells)
    (c : ColumnId) : Option Value :=
  cells.toList.lookup c

/- Store a value for a column. -/
def put
    (cells : Cells)
    (c : ColumnId)
    (v : Value) : Cells :=
  ⟨Cell.insert c v cells.toList, Cell.pairwise_insert c v cells.ordered⟩

/- Drop the cell of a column. -/
def without
    (cells : Cells)
    (c : ColumnId) : Cells :=
  ⟨cells.toList.filter fun cell => cell.1 != c,
    cells.ordered.filter _⟩

/- Store values one after the other, so that the last one for a column stays. -/
def ofList (entries : List Cell) : Cells :=
  entries.foldl (fun cells (c, v) => cells.put c v) empty

end Cells

------------------------------------------------------------
-- Rows
------------------------------------------------------------

/- The identifier of a row within its table. -/
structure RowId where
  value : Nat
deriving DecidableEq, Repr

/- A row of a table. -/
structure Row where
  id : RowId
  cells : Cells
deriving DecidableEq

namespace Row

/- The value under a column; a missing cell reads as null. -/
def get
    (r : Row)
    (c : ColumnId) : Value :=
  (r.cells.get? c).getD .null

/- Store a value under a column. -/
def put
    (r : Row)
    (c : ColumnId)
    (v : Value) : Row :=
  { r with cells := r.cells.put c v }

/- Drop the cell under a column. -/
def without
    (r : Row)
    (c : ColumnId) : Row :=
  { r with cells := r.cells.without c }

end Row

end Rowstore
