import Rowstore.Outcome
import Rowstore.Table.Edit

/-
  This file defines workspaces, the copies on which statements
  run, and the lookups and changes that statements are made
  of.

  Key definitions include:
    * `Workspace`
    * `Workspace.activeDatabase`
    * `Workspace.tableNamed`
    * `Work`
    * `Work.onTable`
    * `Work.announce`
-/

namespace Rowstore

------------------------------------------------------------
-- Workspaces
------------------------------------------------------------

/- A copy of the collection, and the selected database. -/
structure Workspace where
  collection : Collection
  selection : Option DatabaseId
deriving DecidableEq

namespace Workspace

/- The selected database, if it is there. -/
def active? (w : Workspace) : Option Database :=
  w.selection.bind w.collection.get?

/- The selected database, or the failure to have one. -/
def activeDatabase (w : Workspace) : Except Error Database :=
  match w.active? with
  | some d => .ok d
  | none => .error .noActiveDatabase

/- A table of the selected database, or the failure to find it. -/
def tableNamed
    (w : Workspace)
    (name : String) : Except Error Table := do
  let d ← w.activeDatabase
  match d.table? name with
  | some t => .ok t
  | none => .error (.tableNotFound name)

/- A database by name, or the failure to find it. -/
def databaseNamed
    (w : Workspace)
    (name : String) : Except Error Database :=
  match w.collection.findByName? name with
  | some d => .ok d
  | none => .error (.databaseNotFound name)

/- Change the selected database. -/
def updateActive
    (w : Workspace)
    (f : Database → Database) : Workspace :=
  match w.selection with
  | some id => { w with collection := w.collection.update id f }
  | none => w

end Workspace

------------------------------------------------------------
-- Work
------------------------------------------------------------

/- Work on a workspace that may fail; what it did before failing stays done. -/
abbrev Work :=
  ExceptT Error (StateM Workspace)

namespace Work

/- The selected database. -/
def activeDatabase : Work Database := do
  (← get).activeDatabase

/- A table of the selected database. -/
def tableNamed (name : String) : Work Table := do
  (← get).tableNamed name

/- Change the selected database, which must be there. -/
def onActive (f : Database → Database) : Work Unit := do
  let _ ← activeDatabase
  modify fun w => w.updateActive f

/- Edit a table of the selected database. -/
def onTable
    {α : Type}
    (name : String)
    (edit : Edit α) : Work α := do
  let t ← tableNamed name
  let (answer, t') := edit.run.run t
  modify fun w => w.updateActive fun d => d.updateTable name fun _ => t'
  answer

/- Announce a change of the selected database. -/
def announce
    (change : Change)
    (text : String) : Work Outcome := do
  let d ← activeDatabase
  pure (.announced text d change)

end Work

end Rowstore
