import Rowstore.Column.Coercion
import Rowstore.Statement.Basic
import Rowstore.Table.Selection

/-
  This file defines the changes of one table that may fail:
  rows put in, changed and taken out by statements, which
  store literals as they are classified, and by row editing,
  which coerces entered text to the type of its column.

  Key definitions include:
    * `Edit`
    * `Edit.insertLiterals`
    * `Edit.updateLiterals`
    * `Edit.deleteSelected`
    * `Edit.insertEntered`
    * `Edit.updateEntered`
    * `Edit.deleteListed`
    * `Edit.addDefinition`
    * `Edit.dropColumn`
-/

namespace Rowstore

/- A change of a table that may fail; what it did before failing stays done. -/
abbrev Edit :=
  ExceptT Error (StateM Table)

namespace Edit

------------------------------------------------------------
-- Rows By Statement
------------------------------------------------------------

/- The cells of named columns, each value made by its column. -/
def cellsOf
    (t : Table)
    (value : Column → String → Value)
    (entries : List (String × String)) : Except Error Cells := do
  let cells ← entries.mapM fun (name, raw) => do
    let c ← t.columnNamed name
    pure (c.id, value c raw)
  pure (Cells.ofList cells)

/- The value of a literal, whatever the column. -/
def literalValue
    (_ : Column)
    (raw : String) : Value :=
  Value.ofLiteral raw.toList

/- Append a row, and answer its identifier. -/
def insert
    (value : Column → String → Value)
    (entries : List (String × String)) : Edit RowId := do
  let t ← get
  let cells ← cellsOf t value entries
  set (t.insertRow cells)
  pure t.nextRowId

/- Append a row of literals. -/
def insertLiterals
    (entries : List (String × String)) : Edit RowId :=
  insert literalValue entries

/- Store values under columns of a row, one after the other. -/
def assign
    (changes : List (ColumnId × Value))
    (r : Row) : Row :=
  changes.foldl (fun r (c, v) => r.put c v) r

/- The columns and values of assignments. -/
def changesOf
    (t : Table)
    (assignments : List Assignment) :
    Except Error (List (ColumnId × Value)) :=
  assignments.mapM fun a => do
    let c ← t.columnNamed a.column
    pure (c.id, literalValue c a.value)

/- Change the rows with identifiers, each the first one with it. -/
def updateRows
    (t : Table)
    (ids : List RowId)
    (f : Row → Row) : Table :=
  ids.foldl (fun t id => t.updateRow id f) t

/- Assign literals in the selected rows, and answer their number. -/
def updateLiterals
    (assignments : List Assignment)
    (condition : Option String) : Edit Nat := do
  let t ← get
  let changes ← changesOf t assignments
  let ids ← t.selectedIds condition
  set (updateRows t ids (assign changes))
  pure ids.length

/- Remove rows with identifiers, and answer how many there were. -/
def remove (ids : List RowId) : Edit Nat := do
  let t ← get
  let t' := t.removeRows ids
  set t'
  pure (t.rows.length - t'.rows.length)

/- Remove the selected rows, and answer their number. -/
def deleteSelected (condition : Option String) : Edit Nat := do
  let t ← get
  let ids ← t.selectedIds condition
  remove ids

------------------------------------------------------------
-- Rows By Entered Text
------------------------------------------------------------

/- Append a row of entered texts. -/
def insertEntered
    (entries : List (String × String)) : Edit RowId :=
  insert Column.coerce entries

/- Store an entered text under a column of a row, and answer the stored value. -/
def updateEntered
    (id : RowId)
    (column raw : String) : Edit Value := do
  let t ← get
  let c ← t.columnNamed column
  let v := c.coerce raw
  match t.row? id with
  | none => throw (.rowNotFound id.value)
  | some _ =>
    set (t.updateRow id fun r => r.put c.id v)
    pure v

/- Remove rows, all of which must be there, and answer their number. -/
def deleteListed (ids : List RowId) : Edit Nat := do
  let t ← get
  match ids.find? fun id => (t.row? id).isNone with
  | some id => throw (.rowNotFound id.value)
  | none => remove ids

------------------------------------------------------------
-- Columns
------------------------------------------------------------

/- Append a column unless its name is taken or its type is none. -/
def addDefinition
    (d : ColumnDefinition)
    (isKey : Bool) : Edit Unit := do
  let t ← get
  if (t.column? d.name).isSome then
    throw (.duplicateColumnName d.name)
  match DeclaredType.parse d.typeText with
  | none => throw (.invalidType d.typeText)
  | some type => set (t.addColumn d.name type (d.primaryKey || isKey))

/- Remove a column and its cells. -/
def dropColumn (name : String) : Edit Unit := do
  let t ← get
  let c ← t.columnNamed name
  set (t.removeColumn c.id)

/-
  Fill a new table: each definition in turn, marked as a key
  if the list of keys names it, and every key must be a
  column.
-/
def define
    (definitions : List ColumnDefinition)
    (keys : List String) : Edit Unit := do
  definitions.forM fun d =>
    addDefinition d (keys.any fun k => Text.sameName k d.name)
  let t ← get
  match keys.find? fun k => (t.column? k).isNone with
  | some k => throw (.columnNotFound k)
  | none => pure ()

end Edit

end Rowstore
