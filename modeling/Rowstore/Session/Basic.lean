import Rowstore.Outcome
import Rowstore.Storage.Backend

/-
  This file defines sessions over a backend: the transaction
  mode and depth, the selected database, and the notices that
  were sent.

  Key definitions include:
    * `Mode`
    * `Session`
    * `Session.new`
    * `Action`
    * `Session.onBackend`
    * `Session.activeName`
    * `Session.choose`
-/

namespace Rowstore

/-
  When snapshots are taken.  In literal mode each change
  takes one first, and a commit discards them all.  In scoped
  mode a change takes one after success and outside of
  transactions only, and a commit ends the innermost
  transaction.
-/
inductive Mode where
| literal
| scoped
deriving DecidableEq, Repr

/- The state of a session; notices stand in the order in which they were sent. -/
structure Session (β : Type) where
  backend : β
  mode : Mode
  depth : Nat
  selection : Option DatabaseId
  notices : List Notice
deriving DecidableEq

/- What a session does; it may fail, and what it did before failing stays done. -/
abbrev Action (β : Type) :=
  ExceptT Error (StateM (Session β))

namespace Session

variable {β : Type}

/- A session with nothing selected and no transaction. -/
def new
    (backend : β)
    (mode : Mode) : Session β :=
  { backend := backend
    mode := mode
    depth := 0
    selection := none
    notices := [] }

/- Make a call of the backend. -/
def onBackend
    {α : Type}
    (call : Call β α) : Action β α := do
  let s ← get
  let (answer, b) := call.run.run s.backend
  set { s with backend := b }
  answer

/- Change the number of open transactions. -/
def setDepth (n : Nat) : Action β Unit :=
  modify fun s => { s with depth := n }

/- Change the selected database. -/
def setSelection (id : Option DatabaseId) : Action β Unit :=
  modify fun s => { s with selection := id }

/- Send a notice. -/
def notify (n : Notice) : Action β Unit :=
  modify fun s => { s with notices := s.notices ++ [n] }

variable [Backend β]

/- The name of the selected database, if it is still there. -/
def activeName : Action β (Option String) := do
  match (← get).selection with
  | none => pure none
  | some id =>
    let set ← onBackend Backend.load
    pure ((set.get? id).map Database.name)

/- Select a database by name. -/
def choose (name : String) : Action β Unit := do
  let set ← onBackend Backend.load
  match set.findByName? name with
  | none => throw (.databaseNotFound name)
  | some d => setSelection (some d.id)

end Session

end Rowstore
