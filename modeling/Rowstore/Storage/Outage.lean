import Rowstore.Storage.Backend

/-
  This file defines backends of which some calls are out of
  order.  Such a call fails before it does anything.

  Key definitions include:
    * `CallName`
    * `Outage`
-/

namespace Rowstore

/- The calls of a backend that can be out of order. -/
inductive CallName where
| load
| save
| push
| pop
| clear
deriving DecidableEq, Repr

/- A backend, and its calls that are out of order. -/
structure Outage (β : Type) where
  backend : β
  failing : List CallName
deriving DecidableEq

namespace Outage

variable {β : Type}

/- The failure of a call that is out of order. -/
def failure : Error :=
  .storage "disk full"

/- Make a call, if it is not out of order. -/
def call
    {α : Type}
    (name : CallName)
    (c : Call β α) : Call (Outage β) α := do
  let o ← get
  if o.failing.contains name then
    throw failure
  let (answer, b) := c.run.run o.backend
  set { o with backend := b }
  answer

instance [Backend β] : Backend (Outage β) where
  load := call .load Backend.load
  save := fun s => call .save (Backend.save s)
  push := fun s => call .push (Backend.push s)
  pop := call .pop Backend.pop
  clear := call .clear Backend.clear
  depth := fun o => Backend.depth o.backend

end Outage

end Rowstore
