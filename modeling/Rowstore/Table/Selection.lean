import Rowstore.Condition
import Rowstore.Table.Basic

/-
  This file defines which rows of a table a condition
  selects.

  Key definitions include:
    * `Table.columnNamed`
    * `Test`
    * `Condition.bind`
    * `Table.selected`
    * `Table.selectedIds`
-/

namespace Rowstore

/- The first column with a name, or the failure to find one. -/
def Table.columnNamed
    (t : Table)
    (name : String) : Except Error Column :=
  match t.column? name with
  | some c => .ok c
  | none => .error (.columnNotFound name)

/- A condition whose column is known. -/
structure Test where
  column : ColumnId
  op : Comparison
  literal : Value
deriving DecidableEq

namespace Test

/- A row passes a test. -/
def holds
    (t : Test)
    (r : Row) : Bool :=
  t.op.holds (r.get t.column) t.literal

end Test

/- Find the column of a condition in a table. -/
def Condition.bind
    (c : Condition)
    (t : Table) : Except Error Test := do
  let column ← t.columnNamed c.column
  pure
    { column := column.id
      op := c.op
      literal := c.literal }

/- The rows that the text of a condition selects, in table order. -/
def Table.rowsWhere
    (t : Table)
    (condition : String) : Except Error (List Row) := do
  let c ← Condition.parse condition
  let test ← c.bind t
  pure (t.rows.filter test.holds)

/- The rows that an optional condition selects; without one, all rows. -/
def Table.selected
    (t : Table) : Option String → Except Error (List Row)
| none => .ok t.rows
| some condition => t.rowsWhere condition

/- The identifiers of the rows that an optional condition selects, in table order. -/
def Table.selectedIds
    (t : Table) : Option String → Except Error (List RowId)
| none => .ok (t.rows.map Row.id)
| some condition => do
  let c ← Condition.parse condition
  let test ← c.bind t
  pure ((t.rows.filter test.holds).map Row.id)

end Rowstore
