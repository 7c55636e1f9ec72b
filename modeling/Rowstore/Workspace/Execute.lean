import Rowstore.Workspace.Basic

/-
  This file defines the execution of commands on a workspace.

  Key definitions include:
    * `Stamp`
    * `Work.execute`
-/

namespace Rowstore

/- What a command may take from outside: a fresh identifier, and the time. -/
structure Stamp where
  uuid : Uuid
  time : Moment
deriving DecidableEq, Repr

namespace Work

------------------------------------------------------------
-- Reading
------------------------------------------------------------

/- The columns that a projection selects. -/
def projected
    (t : Table) : Projection → Except Error (List Column)
| .all => .ok t.columns
| .columns names => names.mapM t.columnNamed

/- Keep only the cells of given columns. -/
def restrict
    (columns : List Column)
    (r : Row) : Row :=
  { r with
    cells :=
      Cells.ofList (columns.filterMap fun c =>
        (r.cells.get? c.id).map fun v => (c.id, v)) }

/- Select rows of a table. -/
def select
    (projection : Projection)
    (table : String)
    (condition : Option String) : Work Outcome := do
  let t ← tableNamed table
  let columns ← projected t projection
  let rows ← t.selected condition
  pure (.rows columns (rows.map (restrict columns))
    s!"{rows.length} row(s) returned")

/- A column of a listing. -/
def listingColumn
    (i : Nat)
    (name : String)
    (base : BaseType) : Column :=
  { id := ⟨i⟩
    name := name
    base := base
    declaredType := base.name
    length := none
    precision := none
    scale := none
    isPrimaryKey := false }

/- The columns of a listing, numbered from one. -/
def listingColumns
    (columns : List (String × BaseType)) : List Column :=
  columns.mapIdx fun i (name, base) => listingColumn (i + 1) name base

/- The rows of a listing, numbered from one. -/
def listingRows (rows : List (List Value)) : List Row :=
  rows.mapIdx fun i values =>
    { id := ⟨i + 1⟩
      cells := Cells.ofList (values.mapIdx fun j v => (⟨j + 1⟩, v)) }

/- A listing of facts. -/
def listing
    (columns : List (String × BaseType))
    (rows : List (List Value))
    (text : String) : Outcome :=
  .rows (listingColumns columns) (listingRows rows) text

/- The value of a count. -/
def countValue (n : Nat) : Value :=
  .number (Float.ofNat n)

/- List the databases. -/
def showDatabases : Work Outcome := do
  let ds := (← get).collection.databases
  pure (listing
    [("database", .text), ("tables", .number)]
    (ds.map fun d => [.text d.name, countValue d.tables.length])
    s!"{ds.length} database(s)")

/- List the tables of the selected database. -/
def showTables : Work Outcome := do
  let d ← activeDatabase
  pure (listing
    [("table", .text), ("columns", .number), ("rows", .number)]
    (d.tables.map fun t =>
      [.text t.name, countValue t.columns.length,
       countValue t.rows.length])
    s!"{d.tables.length} table(s) in '{d.name}'")

/- List the columns of a table. -/
def describe (table : String) : Work Outcome := do
  let t ← tableNamed table
  pure (listing
    [("column", .text), ("type", .text), ("base_type", .text),
     ("primary_key", .boolean)]
    (t.columns.map fun c =>
      [.text c.name, .text c.declaredType, .text c.base.name,
       .boolean c.isPrimaryKey])
    s!"{t.columns.length} column(s) in '{t.name}'")

------------------------------------------------------------
-- Rows
------------------------------------------------------------

/- Insert a row of literals. -/
def insert
    (table : String)
    (columns values : List String) : Work Outcome := do
  if columns.length ≠ values.length then
    throw (.invalidSyntax
      s!"INSERT names {columns.length} column(s) but supplies {values.length} value(s)")
  let id ← onTable table (Edit.insertLiterals (columns.zip values))
  announce .rowsChanged s!"1 row inserted (id {id.value})"

/- Assign literals in the selected rows. -/
def update
    (table : String)
    (assignments : List Assignment)
    (condition : Option String) : Work Outcome := do
  let n ← onTable table (Edit.updateLiterals assignments condition)
  announce .rowsChanged s!"{n} row(s) updated"

/- Delete the selected rows. -/
def delete
    (table : String)
    (condition : Option String) : Work Outcome := do
  let n ← onTable table (Edit.deleteSelected condition)
  announce .rowsChanged s!"{n} row(s) deleted"

------------------------------------------------------------
-- Tables
------------------------------------------------------------

/- Create a table in the selected database. -/
def createTable
    (id : TableId)
    (name : String)
    (definitions : List ColumnDefinition)
    (keys : List String) : Work Outcome := do
  let d ← activeDatabase
  if d.hasTable name then
    throw (.tableAlreadyExists name)
  let (answer, t) :=
    (Edit.define definitions keys).run.run (Table.new id name)
  answer
  onActive fun d => d.addTable t
  announce .tablesChanged s!"Table '{name}' created"

/- Drop a table of the selected database. -/
def dropTable (name : String) : Work Outcome := do
  let t ← tableNamed name
  onActive fun d => d.removeTable name
  announce .tablesChanged s!"Table '{t.name}' dropped"

/- Give a table a name that no other table has. -/
def rename (table name : String) : Work Outcome := do
  let d ← activeDatabase
  if d.tables.any fun t => t.isNamed name && !t.isNamed table then
    throw (.tableAlreadyExists name)
  let t ← tableNamed table
  onActive fun d => d.updateTable table fun t => { t with name := name }
  announce .tablesChanged s!"Table '{t.name}' renamed to '{name}'"

/- Alter a table of the selected database. -/
def alterTable
    (table : String) : AlterAction → Work Outcome
| .addColumn definition => do
  onTable table (Edit.addDefinition definition false)
  let t ← tableNamed table
  announce .tablesChanged
    s!"Column '{definition.name}' added to '{t.name}'"
| .dropColumn column => do
  onTable table (Edit.dropColumn column)
  let t ← tableNamed table
  announce .tablesChanged s!"Column '{column}' dropped from '{t.name}'"
| .renameTo name => rename table name

------------------------------------------------------------
-- Databases
------------------------------------------------------------

/- Create a database and select it. -/
def createDatabase
    (id : DatabaseId)
    (name : String)
    (ifNotExists : Bool) : Work Outcome := do
  match (← get).collection.findByName? name with
  | some d =>
    if ifNotExists then
      pure (.message s!"Database '{d.name}' already exists")
    else throw (.databaseAlreadyExists name)
  | none =>
    let d := Database.new id name
    modify fun w =>
      { collection := w.collection.add d
        selection := some id }
    pure (.announced s!"Database '{name}' created" d .databaseCreated)

/- Drop a database, which is then no longer selected. -/
def dropDatabase (name : String) : Work Outcome := do
  let found ← (← get).databaseNamed name
  match (← get).collection.get? found.id with
  | none => throw (.databaseNotFound name)
  | some d =>
    modify fun w =>
      { collection := w.collection.remove found.id
        selection :=
          if w.selection = some found.id then none else w.selection }
    pure (.announced s!"Database '{d.name}' dropped" d .databaseDropped)

/- Select a database. -/
def useDatabase (name : String) : Work Outcome := do
  let d ← (← get).databaseNamed name
  modify fun w => { w with selection := some d.id }
  pure (.message s!"Using database '{d.name}'")

------------------------------------------------------------
-- Permissions
------------------------------------------------------------

/- The word before the user of a permission. -/
def userWord : PermissionAction → String
| .grant => "TO"
| .revoke => "FROM"

/- The entry of a permission statement. -/
def eventOf
    (time : Moment)
    (action : PermissionAction)
    (p : PermissionClause) : PermissionEvent :=
  { action := action
    privilege := p.privilege
    scope := p.scope
    name := p.name
    user := p.user
    time := time }

/- Record a permission in the log of the selected database. -/
def recordPermission
    (time : Moment)
    (action : PermissionAction)
    (p : PermissionClause) : Work Outcome := do
  onActive fun d => d.record (eventOf time action p)
  announce .permissionsChanged
    s!"{action.word} {p.privilege} ON {p.scope.word} {p.name} {userWord action} {p.user} recorded"

------------------------------------------------------------
-- Commands
------------------------------------------------------------

/- Execute a command. -/
def execute
    (stamp : Stamp) : Command → Work Outcome
| .select projection table condition =>
  select projection table condition
| .insert table columns values => insert table columns values
| .update table assignments condition =>
  update table assignments condition
| .delete table condition => delete table condition
| .createTable name definitions keys =>
  createTable ⟨stamp.uuid⟩ name definitions keys
| .createDatabase name ifNotExists =>
  createDatabase ⟨stamp.uuid⟩ name ifNotExists
| .dropTable name => dropTable name
| .dropDatabase name => dropDatabase name
| .alterTable table action => alterTable table action
| .use name => useDatabase name
| .permission action p => recordPermission stamp.time action p
| .showDatabases => showDatabases
| .showTables => showTables
| .describe table => describe table

end Work

end Rowstore
