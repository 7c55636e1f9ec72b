import Rowstore.Database.Basic
import Rowstore.Error

/-
  This file defines what sessions ask of a backend: a stored
  collection, and a stack of snapshots of it.

  Key definitions include:
    * `Call`
    * `Backend`
    * `pushWithin`
-/

namespace Rowstore

/- A call of a backend, which may fail and may change the backend. -/
abbrev Call (β : Type) :=
  ExceptT Error (StateM β)

/- A stored collection and a stack of snapshots. -/
class Backend (β : Type) where
  load : Call β Collection
  save : Collection → Call β Unit
  push : Collection → Call β Unit
  pop : Call β (Option Collection)
  clear : Call β Unit
  depth : β → Nat

/-
  Put a snapshot on a stack whose newest snapshot comes
  first; a limit drops the oldest ones.
-/
def pushWithin
    (limit : Option Nat)
    (s : Collection)
    (stack : List Collection) : List Collection :=
  match limit with
  | some n => (s :: stack).take n
  | none => s :: stack

end Rowstore
