import Rowstore.Storage.Backend

/-
  This file defines the backend that lives in memory.

  Key definitions include:
    * `Memory`
    * `Memory.new`
-/

namespace Rowstore

/- A collection, a stack with its newest snapshot first, and the limit of the stack. -/
structure Memory where
  stored : Collection
  stack : List Collection
  limit : Option Nat
deriving DecidableEq

namespace Memory

/- A backend with a collection and no snapshots. -/
def new
    (stored : Collection)
    (limit : Option Nat) : Memory :=
  { stored := stored
    stack := []
    limit := limit }

/- Read the collection. -/
def load : Call Memory Collection := do
  pure (← get).stored

/- Store a collection. -/
def save (s : Collection) : Call Memory Unit :=
  modify fun m => { m with stored := s }

/- Put a snapshot on the stack. -/
def push (s : Collection) : Call Memory Unit :=
  modify fun m => { m with stack := pushWithin m.limit s m.stack }

/- Take the newest snapshot off the stack. -/
def pop : Call Memory (Option Collection) := do
  let m ← get
  set { m with stack := m.stack.tail }
  pure m.stack.head?

/- Discard all snapshots. -/
def clear : Call Memory Unit :=
  modify fun m => { m with stack := [] }

instance : Backend Memory where
  load := load
  save := save
  push := push
  pop := pop
  clear := clear
  depth := fun m => m.stack.length

end Memory

end Rowstore
