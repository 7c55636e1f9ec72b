import Rowstore.Identity
import Rowstore.Sequence
import Rowstore.Table.Row

/-
  This file defines tables: columns, rows, and the counters
  from which identifiers for both are taken.

  Key definitions include:
    * `Counters`
    * `Table`
    * `Table.addColumn`
    * `Table.removeColumn`
    * `Table.insertRow`
    * `Table.removeRows`
-/

namespace Rowstore

------------------------------------------------------------
-- Counters
------------------------------------------------------------

/- The next identifiers for a column and for a row. -/
structure Counters where
  nextColumn : Nat
  nextRow : Nat
deriving DecidableEq, Repr

namespace Counters

/- The counters of a new table. -/
def start : Counters :=
  { nextColumn := 1
    nextRow := 1 }

/- The counters after a column identifier is taken. -/
def takeColumn (c : Counters) : Counters :=
  { c with nextColumn := c.nextColumn + 1 }

/- The counters after a row identifier is taken. -/
def takeRow (c : Counters) : Counters :=
  { c with nextRow := c.nextRow + 1 }

end Counters

------------------------------------------------------------
-- Tables
------------------------------------------------------------

/- A table with its columns and rows in order of creation. -/
structure Table where
  id : TableId
  name : String
  columns : List Column
  rows : List Row
  counters : Counters
deriving DecidableEq

namespace Table

/- A table without columns and rows. -/
def new
    (id : TableId)
    (name : String) : Table :=
  { id := id
    name := name
    columns := []
    rows := []
    counters := .start }

/- The table has a name, up to letter case. -/
def isNamed
    (t : Table)
    (name : String) : Bool :=
  Text.sameName t.name name

------------------------------------------------------------
-- Columns Of A Table
------------------------------------------------------------

/- The first column with a name, up to letter case. -/
def column?
    (t : Table)
    (name : String) : Option Column :=
  t.columns.find? fun c => c.isNamed name

/- The first column with an identifier. -/
def columnById?
    (t : Table)
    (id : ColumnId) : Option Column :=
  t.columns.find? fun c => c.id = id

/- The identifier that the next column gets. -/
def nextColumnId (t : Table) : ColumnId :=
  ⟨t.counters.nextColumn⟩

/- Append a column with a fresh identifier. -/
def addColumn
    (t : Table)
    (name : String)
    (type : DeclaredType)
    (isPrimaryKey : Bool) : Table :=
  { t with
    columns :=
      t.columns ++ [.ofType t.nextColumnId name type isPrimaryKey]
    counters := t.counters.takeColumn }

/-
  Remove the first column with an identifier and all cells
  under that identifier; a table without one stays as it is.
-/
def removeColumn
    (t : Table)
    (id : ColumnId) : Table :=
  if (t.columnById? id).isSome then
    { t with
      columns := t.columns.eraseP fun c => c.id = id
      rows := t.rows.map fun r => r.without id }
  else t

------------------------------------------------------------
-- Rows Of A Table
------------------------------------------------------------

/- The first row with an identifier. -/
def row?
    (t : Table)
    (id : RowId) : Option Row :=
  t.rows.find? fun r => r.id = id

/- The identifier that the next row gets. -/
def nextRowId (t : Table) : RowId :=
  ⟨t.counters.nextRow⟩

/- Append a row with a fresh identifier. -/
def insertRow
    (t : Table)
    (cells : Cells) : Table :=
  { t with
    rows :=
      t.rows ++
        [{ id := t.nextRowId
           cells := cells }]
    counters := t.counters.takeRow }

/- Change the first row with an identifier. -/
def updateRow
    (t : Table)
    (id : RowId)
    (f : Row → Row) : Table :=
  { t with rows := updateFirst (fun r => r.id = id) f t.rows }

/- Remove all rows whose identifiers are listed. -/
def removeRows
    (t : Table)
    (ids : List RowId) : Table :=
  { t with rows := t.rows.filter fun r => !ids.contains r.id }

end Table

end Rowstore
