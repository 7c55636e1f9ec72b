import Rowstore.Session.Transaction
import Rowstore.Statement.Parser
import Rowstore.Workspace.Execute

/-
  This file defines the execution of statements and of row
  edits in a session.  A change runs on a copy of the
  collection, which is stored after full success only.

  Key definitions include:
    * `Session.change`
    * `Session.read`
    * `Session.control`
    * `Session.execute`
    * `Session.insertRow`
    * `Session.updateCell`
    * `Session.deleteRows`
-/

namespace Rowstore.Session

variable {β : Type} [Backend β]

------------------------------------------------------------
-- Changes
------------------------------------------------------------

/- Store a changed copy, select as it does, take the snapshot of scoped mode, and announce. -/
def settle
    (previous : Option Collection)
    (w : Workspace)
    (n : Notice) : Action β Unit := do
  onBackend (Backend.save w.collection)
  setSelection w.selection
  match previous with
  | some p => afterChange p
  | none => pure ()
  notify n

/-
  Run work on a copy of a collection that was loaded.  Its
  answer comes with the notice of the change, if there was one.
-/
def changeLoaded
    {α : Type}
    (work : Work (α × Option Notice))
    (current : Collection) : Action β α := do
  beforeChange current
  let s ← get
  let previous := if s.needsPrevious then some current else none
  let (answer, w) :=
    work.run.run
      { collection := current
        selection := s.selection }
  let (a, notice) ← answer
  match notice with
  | some n => settle previous w n
  | none => setSelection w.selection
  pure a

/- Run work on a copy of the stored collection. -/
def change
    {α : Type}
    (work : Work (α × Option Notice)) : Action β α := do
  changeLoaded work (← onBackend Backend.load)

/- The result of a command, with the notice of its change, if there was one. -/
def commandWork
    (stamp : Stamp)
    (c : Command) : Work (QueryResult × Option Notice) := do
  let o ← Work.execute stamp c
  pure (o.result, o.notice)

/- Execute a command that changes something. -/
def mutate
    (stamp : Stamp)
    (c : Command) : Action β QueryResult :=
  change (commandWork stamp c)

/- Execute a command that changes no more than the selection. -/
def read
    (stamp : Stamp)
    (c : Command) : Action β QueryResult := do
  let current ← onBackend Backend.load
  let s ← get
  let (answer, w) :=
    (Work.execute stamp c).run.run
      { collection := current
        selection := s.selection }
  setSelection w.selection
  let o ← answer
  pure o.result

------------------------------------------------------------
-- Transaction Control
------------------------------------------------------------

/- Go back to a snapshot; a selected database that is gone is no longer selected. -/
def restore (snapshot : Collection) : Action β Unit := do
  onBackend (Backend.save snapshot)
  match (← get).selection.bind snapshot.get? with
  | some d =>
    notify
      { database := d
        change := .restored }
  | none => setSelection none

/- Execute a transaction statement. -/
def control : Control → Action β QueryResult
| .begin => do
  let current ← onBackend Backend.load
  pure (.message (← begin current))
| .commit => do
  pure (.message (← commit))
| .rollback => do
  match ← takeBack with
  | some snapshot =>
    restore snapshot
    pure (.message "Rolled back to previous snapshot")
  | none => pure (.message "Nothing to rollback")

------------------------------------------------------------
-- Statements
------------------------------------------------------------

/- Execute a statement. -/
def run
    (stamp : Stamp) : Statement → Action β QueryResult
| .control c => control c
| .command c => if c.isMutating then mutate stamp c else read stamp c

/- Execute the text of a statement. -/
def execute
    (stamp : Stamp)
    (text : String) : Action β QueryResult := do
  run stamp (← Statement.parse text)

------------------------------------------------------------
-- Row Editing
------------------------------------------------------------

/- The answer of an edit of a table, with the notice of changed rows. -/
def rowWork
    {α : Type}
    (table : String)
    (edit : Edit α) : Work (α × Option Notice) := do
  let a ← Work.onTable table edit
  let d ← Work.activeDatabase
  pure
    (a, some
      { database := d
        change := .rowsChanged })

/- Edit a table of the selected database, and announce changed rows. -/
def editRows
    {α : Type}
    (table : String)
    (edit : Edit α) : Action β α :=
  change (rowWork table edit)

/- Insert a row of entered texts, and answer its identifier. -/
def insertRow
    (table : String)
    (entries : List (String × String)) : Action β RowId :=
  editRows table (Edit.insertEntered entries)

/- Store an entered text in a cell, and answer the stored value. -/
def updateCell
    (table : String)
    (id : RowId)
    (column raw : String) : Action β Value :=
  editRows table (Edit.updateEntered id column raw)

/- Delete rows, and answer their number. -/
def deleteRows
    (table : String)
    (ids : List RowId) : Action β Nat :=
  editRows table (Edit.deleteListed ids)

end Rowstore.Session
