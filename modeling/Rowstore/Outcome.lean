import Rowstore.Database.Basic

/-
  This file defines what a statement answers and which change
  it announces.

  Key definitions include:
    * `QueryResult`
    * `QueryResult.values`
    * `Change`
    * `Notice`
    * `Outcome`
-/

namespace Rowstore

------------------------------------------------------------
-- Results
------------------------------------------------------------

/- A statement answers with a message, or with columns, rows and a message. -/
inductive QueryResult where
| message (text : String)
| rows (columns : List Column) (rows : List Row) (text : String)
deriving DecidableEq

namespace QueryResult

/- The status line of a result. -/
def text : QueryResult → String
| message text => text
| rows _ _ text => text

/- The columns of a result. -/
def columns : QueryResult → List Column
| message _ => []
| rows columns _ _ => columns

/- The rows of a result. -/
def resultRows : QueryResult → List Row
| message _ => []
| rows _ rs _ => rs

/- The values of a result, row by row in the order of its columns. -/
def values (r : QueryResult) : List (List Value) :=
  r.resultRows.map fun row => r.columns.map fun c => row.get c.id

end QueryResult

------------------------------------------------------------
-- Notices
------------------------------------------------------------

/- What a change touched. -/
inductive Change where
| databaseCreated
| databaseDropped
| tablesChanged
| rowsChanged
| permissionsChanged
| restored
deriving DecidableEq, Repr

namespace Change

/- The words for a change. -/
def words : Change → List String
| databaseCreated => ["database", "created"]
| databaseDropped => ["database", "dropped"]
| tablesChanged => ["tables", "changed"]
| rowsChanged => ["rows", "changed"]
| permissionsChanged => ["permissions", "changed"]
| restored => ["restored"]

/- The displayed form of a change. -/
def display (c : Change) : String :=
  " ".intercalate c.words

/- The name of a change. -/
def name (c : Change) : String :=
  "_".intercalate c.words

end Change

/- The announcement of a change, with the database that was changed. -/
structure Notice where
  database : Database
  change : Change
deriving DecidableEq

/- A result, and the announcement that goes with it. -/
structure Outcome where
  result : QueryResult
  notice : Option Notice
deriving DecidableEq

namespace Outcome

/- The outcome of a statement that only answers with a message. -/
def message (text : String) : Outcome :=
  { result := .message text
    notice := none }

/- The outcome of a statement that answers with rows. -/
def rows
    (columns : List Column)
    (rows : List Row)
    (text : String) : Outcome :=
  { result := .rows columns rows text
    notice := none }

/- The outcome of a statement that announces a change. -/
def announced
    (text : String)
    (database : Database)
    (change : Change) : Outcome :=
  { result := .message text
    notice :=
      some
        { database := database
          change := change } }

end Outcome

end Rowstore
