import Rowstore.Session.Execute

/-
  This file defines requests, which are all that a client can
  ask of a session, and the tasks that they come down to.

  Key definitions include:
    * `Session.Request`
    * `Session.Answer`
    * `Session.Task`
    * `Session.Request.task`
    * `Session.Request.control?`
    * `Session.serve`
    * `Session.perform`
    * `Session.handle`
    * `Session.afterAll`
-/

namespace Rowstore.Session

------------------------------------------------------------
-- Requests And Tasks
------------------------------------------------------------

/-
  What a client asks: to execute a text, to edit rows of a
  table, or to select a database by name.
-/
inductive Request where
| statement
    (stamp : Stamp)
    (text : String)
| insertRow
    (table : String)
    (entries : List (String × String))
| updateCell
    (table : String)
    (id : RowId)
    (column raw : String)
| deleteRows
    (table : String)
    (ids : List RowId)
| choose (name : String)
deriving DecidableEq

/- What a client is answered. -/
inductive Answer where
| result (r : QueryResult)
| row (id : RowId)
| stored (v : Value)
| removed (n : Nat)
| chosen
deriving DecidableEq

/- What a session has to do for a request. -/
inductive Task where
| reject (e : Error)
| control (c : Control)
| read
    (stamp : Stamp)
    (c : Command)
| change (work : Work (Answer × Option Notice))
| choose (name : String)

/- Give the answer of some work another form. -/
def answering
    {α : Type}
    (form : α → Answer)
    (work : Work (α × Option Notice)) :
    Work (Answer × Option Notice) := do
  let (a, notice) ← work
  pure (form a, notice)

namespace Task

/- The task of a statement. -/
def ofStatement (stamp : Stamp) : Statement → Task
| .control c => .control c
| .command c =>
  if c.isMutating then
    .change (answering .result (commandWork stamp c))
  else .read stamp c

end Task

namespace Request

/- The task that a request comes down to. -/
def task : Request → Task
| statement stamp text =>
  match Statement.parse text with
  | .ok s => .ofStatement stamp s
  | .error e => .reject e
| insertRow table entries =>
  .change (answering .row
    (rowWork table (Edit.insertEntered entries)))
| updateCell table id column raw =>
  .change (answering .stored
    (rowWork table (Edit.updateEntered id column raw)))
| deleteRows table ids =>
  .change (answering .removed
    (rowWork table (Edit.deleteListed ids)))
| choose name => .choose name

/- The transaction control that a request asks for, if it does. -/
def control? (r : Request) : Option Control :=
  match r.task with
  | .control c => some c
  | _ => none

end Request

------------------------------------------------------------
-- Serving Requests
------------------------------------------------------------

variable {β : Type} [Backend β]

/- Do what a client asks. -/
def serve : Request → Action β Answer
| .statement stamp text => do
  pure (.result (← execute stamp text))
| .insertRow table entries => do
  pure (.row (← insertRow table entries))
| .updateCell table id column raw => do
  pure (.stored (← updateCell table id column raw))
| .deleteRows table ids => do
  pure (.removed (← deleteRows table ids))
| .choose name => do
  choose name
  pure .chosen

/- Do a task. -/
def perform : Task → Action β Answer
| .reject e => throw e
| .control c => do
  pure (.result (← control c))
| .read stamp c => do
  pure (.result (← read stamp c))
| .change work => change work
| .choose name => do
  choose name
  pure .chosen

/- The answer to a request, and the session after it. -/
def handle
    (s : Session β)
    (r : Request) : Except Error Answer × Session β :=
  (serve r).run.run s

/- The session after a request. -/
def after
    (s : Session β)
    (r : Request) : Session β :=
  (s.handle r).2

/- The session after requests, one after the other. -/
def afterAll
    (s : Session β)
    (rs : List Request) : Session β :=
  rs.foldl after s

end Rowstore.Session
