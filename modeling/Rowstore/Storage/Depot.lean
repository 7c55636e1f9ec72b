import Rowstore.Storage.Folder
import Rowstore.Storage.Memory

/-
  This file defines the backends that a configuration can
  choose: one in memory, or one in a directory.

  Key definitions include:
    * `Depot`
    * `Depot.directory?`
    * `Depot.mapDirectory`
-/

namespace Rowstore

/- A backend in memory or in a directory. -/
inductive Depot where
| memory (m : Memory)
| folder (f : Folder)

namespace Depot

/- The directory of a backend that has one. -/
def directory? : Depot → Option Directory
| memory _ => none
| folder f => some f.directory

/- Change the directory of a backend that has one. -/
def mapDirectory
    (change : Directory → Directory) : Depot → Depot
| memory m => memory m
| folder f => folder { f with directory := change f.directory }

/- Make the same call of whichever backend there is. -/
def call
    {α : Type}
    (onMemory : Call Memory α)
    (onFolder : Call Folder α) : Call Depot α := do
  match ← get with
  | memory m =>
    let (answer, m') := onMemory.run.run m
    set (memory m')
    answer
  | folder f =>
    let (answer, f') := onFolder.run.run f
    set (folder f')
    answer

/- The number of snapshots. -/
def depth : Depot → Nat
| memory m => Backend.depth m
| folder f => Backend.depth f

instance : Backend Depot where
  load := call Memory.load Folder.load
  save := fun s => call (Memory.save s) (Folder.save s)
  push := fun s => call (Memory.push s) (Folder.push s)
  pop := call Memory.pop Folder.pop
  clear := call Memory.clear Folder.clear
  depth := depth

end Depot

end Rowstore
