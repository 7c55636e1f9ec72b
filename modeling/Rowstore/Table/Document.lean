import Rowstore.Json.Record
import Rowstore.Table.Basic
import Rowstore.Value.Document

/-
  This file defines the documents of columns, rows and
  tables.

  Key definitions include:
    * `Column.toJson`
    * `Column.ofJson?`
    * `Row.toJson`
    * `Row.ofJson?`
    * `Table.toJson`
    * `Table.ofJson?`
-/

namespace Rowstore

------------------------------------------------------------
-- Columns
------------------------------------------------------------

/- The words for base types. -/
def BaseType.words : List (String × BaseType) :=
  [BaseType.number, .text, .boolean, .date, .datetime].map
    fun b => (b.name, b)

/- The member of a size that is declared; one that is not leaves no member. -/
def sizeMember
    (name : String) : Option Nat → List (String × Json)
| some n => [(name, .ofNat n)]
| none => []

/- Read a declared size, which may be left out or null. -/
def size? (field : Option Json) : Option (Option Nat) :=
  Json.withDefault?
    (Json.nullable? (Json.natUpTo? DeclaredType.maxArgument))
    none field

namespace ColumnId

/- The document of a column identifier. -/
def toJson (c : ColumnId) : Json :=
  .ofNat c.value

/- Read a column identifier. -/
def ofJson? (j : Json) : Option ColumnId :=
  (Json.natUpTo? Json.maxId j).map ColumnId.mk

end ColumnId

namespace Column

/- The fields of a column. -/
def fieldNames : List String :=
  ["id", "name", "base_type", "original_type", "length",
   "precision", "scale", "is_primary_key"]

/- The document of a column. -/
def toJson (c : Column) : Json :=
  .ofMembers
    ([("id", c.id.toJson),
      ("name", .ofText c.name),
      ("base_type", .ofText c.base.name),
      ("original_type", .ofText c.declaredType)] ++
      sizeMember "length" c.length ++
      sizeMember "precision" c.precision ++
      sizeMember "scale" c.scale ++
      [("is_primary_key", .boolean c.isPrimaryKey)])

/- Read a column. -/
def ofJson? (j : Json) : Option Column := do
  let fields ← Json.fields? fieldNames j
  let id ← Json.required? ColumnId.ofJson? (Json.place fields 0)
  let name ← Json.required? Json.text? (Json.place fields 1)
  let base ←
    Json.required? (Json.word? BaseType.words) (Json.place fields 2)
  let declaredType ←
    Json.required? Json.text? (Json.place fields 3)
  let length ← size? (Json.place fields 4)
  let precision ← size? (Json.place fields 5)
  let scale ← size? (Json.place fields 6)
  let isPrimaryKey ←
    Json.withDefault? Json.boolean? false (Json.place fields 7)
  pure
    { id := id
      name := name
      base := base
      declaredType := declaredType
      length := length
      precision := precision
      scale := scale
      isPrimaryKey := isPrimaryKey }

end Column

------------------------------------------------------------
-- Rows
------------------------------------------------------------

namespace Cells

/- The document of cells: an object whose keys are column identifiers. -/
def toJson (cells : Cells) : Json :=
  .object (cells.toList.map fun (c, v) =>
    (Decimal.digitsText c.value, v.toJson))

/-
  The column identifier that a key stands for: digits without
  leading zeros, up to the largest identifier.
-/
def key? (k : List Char) : Option ColumnId :=
  let n := Decimal.digitsValue k
  if k.isEmpty || !k.all Decimal.isDigit
      || (k.head? == some '0' && k.length != 1) || Json.maxId < n then
    none
  else some ⟨n⟩

/- Read one cell. -/
def cell? (member : List Char × Json) : Option Cell := do
  pure (← key? member.1, ← Value.ofJson? member.2)

/- Read cells; of two with one key the later one stays. -/
def ofJson? : Json → Option Cells
| .object members => (members.mapM cell?).map ofList
| _ => none

end Cells

namespace RowId

/- The document of a row identifier. -/
def toJson (r : RowId) : Json :=
  .ofNat r.value

/- Read a row identifier. -/
def ofJson? (j : Json) : Option RowId :=
  (Json.natUpTo? Json.maxId j).map RowId.mk

end RowId

namespace Row

/- The fields of a row. -/
def fieldNames : List String :=
  ["id", "cells"]

/- The document of a row. -/
def toJson (r : Row) : Json :=
  .ofMembers [("id", r.id.toJson), ("cells", r.cells.toJson)]

/- Read a row. -/
def ofJson? (j : Json) : Option Row := do
  let fields ← Json.fields? fieldNames j
  let id ← Json.required? RowId.ofJson? (Json.place fields 0)
  let cells ←
    Json.withDefault? Cells.ofJson? Cells.empty (Json.place fields 1)
  pure
    { id := id
      cells := cells }

end Row

------------------------------------------------------------
-- Tables
------------------------------------------------------------

namespace Counters

/- The fields of counters. -/
def fieldNames : List String :=
  ["next_column_id", "next_row_id"]

/- The document of counters. -/
def toJson (c : Counters) : Json :=
  .ofMembers
    [("next_column_id", .ofNat c.nextColumn),
     ("next_row_id", .ofNat c.nextRow)]

/- Read counters. -/
def ofJson? (j : Json) : Option Counters := do
  let fields ← Json.fields? fieldNames j
  let nextColumn ←
    Json.required? (Json.natUpTo? Json.maxId) (Json.place fields 0)
  let nextRow ←
    Json.required? (Json.natUpTo? Json.maxId) (Json.place fields 1)
  pure
    { nextColumn := nextColumn
      nextRow := nextRow }

end Counters

namespace TableId

/- The document of a table identifier. -/
def toJson (t : TableId) : Json :=
  t.uuid.toJson

/- Read a table identifier. -/
def ofJson? (j : Json) : Option TableId :=
  (Uuid.ofJson? j).map TableId.mk

end TableId

namespace Table

/- The fields of a table. -/
def fieldNames : List String :=
  ["id", "name", "columns", "rows", "ids"]

/- The document of a table. -/
def toJson (t : Table) : Json :=
  .ofMembers
    [("id", t.id.toJson),
     ("name", .ofText t.name),
     ("columns", .array (t.columns.map Column.toJson)),
     ("rows", .array (t.rows.map Row.toJson)),
     ("ids", t.counters.toJson)]

/- Read a table.  Without counters it starts anew. -/
def ofJson? (j : Json) : Option Table := do
  let fields ← Json.fields? fieldNames j
  let id ← Json.required? TableId.ofJson? (Json.place fields 0)
  let name ← Json.required? Json.text? (Json.place fields 1)
  let columns ←
    Json.required? (Json.list? Column.ofJson?) (Json.place fields 2)
  let rows ←
    Json.required? (Json.list? Row.ofJson?) (Json.place fields 3)
  let counters ←
    Json.withDefault? Counters.ofJson? .start (Json.place fields 4)
  pure
    { id := id
      name := name
      columns := columns
      rows := rows
      counters := counters }

end Table

end Rowstore
