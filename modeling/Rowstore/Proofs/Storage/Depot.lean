import Rowstore.Proofs.Storage.Folder
import Rowstore.Storage.Depot

/-
  The backends that a configuration can choose hold only
  collections with a property, if those in memory and those
  in a directory do.

  Main declarations:
    * `Depot.Holds`
    * `Depot.guards`
    * `Depot.keeps`
-/

namespace Rowstore

open Execution

namespace Depot

variable {P : Collection → Prop}

/- Whatever backend there is has only collections with a property. -/
def Safe (P : Collection → Prop) : Depot → Prop
| memory m => Memory.Safe P m
| folder f => Folder.Safe P f

theorem Safe.imp
    {P' : Collection → Prop}
    (hWeaker : ∀ c, P c → P' c)
    {b : Depot}
    (hSafe : Safe P b) :
    Safe P' b := by
  cases b with
  | memory m => exact Memory.Safe.imp hWeaker hSafe
  | folder f => exact Folder.Safe.imp hWeaker hSafe

------------------------------------------------------------
-- Calls
------------------------------------------------------------

theorem run_call_memory
    {α : Type}
    (onMemory : Call Memory α)
    (onFolder : Call Folder α)
    (m : Memory) :
    (call onMemory onFolder).run.run (memory m) =
      ((onMemory.run.run m).1,
        memory (onMemory.run.run m).2) := by
  rcases hRun : onMemory.run.run m with ⟨answer, m'⟩
  simp only [call, run_bind, run_get, hRun, run_set,
    run_lift]

theorem run_call_folder
    {α : Type}
    (onMemory : Call Memory α)
    (onFolder : Call Folder α)
    (f : Folder) :
    (call onMemory onFolder).run.run (folder f) =
      ((onFolder.run.run f).1,
        folder (onFolder.run.run f).2) := by
  rcases hRun : onFolder.run.run f with ⟨answer, f'⟩
  simp only [call, run_bind, run_get, hRun, run_set,
    run_lift]

theorem ensures_call
    {α : Type}
    {onMemory : Call Memory α}
    {onFolder : Call Folder α}
    {Q : α → Prop}
    (hMemory : Ensures (Memory.Safe P) onMemory Q)
    (hFolder : Ensures (Folder.Safe P) onFolder Q) :
    Ensures (Safe P) (call onMemory onFolder) Q := by
  intro b hSafe
  cases b with
  | memory m =>
      rw [run_call_memory]
      exact hMemory m hSafe
  | folder f =>
      rw [run_call_folder]
      exact hFolder f hSafe

theorem guards (hRereads : Collection.Rereads P) :
    Backend.Guards Depot P (Safe P) where
  load :=
    ensures_call (Memory.guards P).load
      (Folder.guards hRereads).load
  save := fun c hGiven =>
    ensures_call ((Memory.guards P).save c hGiven)
      ((Folder.guards hRereads).save c hGiven)
  push := fun c hGiven =>
    ensures_call ((Memory.guards P).push c hGiven)
      ((Folder.guards hRereads).push c hGiven)
  pop :=
    ensures_call (Memory.guards P).pop
      (Folder.guards hRereads).pop
  clear :=
    ensures_call (Memory.guards P).clear
      (Folder.guards hRereads).clear

------------------------------------------------------------
-- Between Calls
------------------------------------------------------------

/- A backend begins and is taken up again as what it is. -/
instance : Backend.History Depot where
  Begins
  | memory m => Backend.History.Begins m
  | folder f => Backend.History.Begins f
  Resumes
  | memory m, memory m' => Backend.History.Resumes m m'
  | folder f, folder f' => Backend.History.Resumes f f'
  | _, _ => False

theorem keeps (hEmpty : P .empty) :
    Backend.Keeps Depot (Safe P) where
  begins := by
    intro b hBegins
    cases b with
    | memory m => exact (Memory.keeps hEmpty).begins hBegins
    | folder f => exact (Folder.keeps hEmpty).begins hBegins
  resumes := by
    intro b b' hSafe hResumes
    cases b with
    | memory m =>
        cases b' with
        | memory m' =>
            exact (Memory.keeps hEmpty).resumes hSafe hResumes
        | folder f' => cases hResumes
    | folder f =>
        cases b' with
        | memory m' => cases hResumes
        | folder f' =>
            exact (Folder.keeps hEmpty).resumes hSafe hResumes

------------------------------------------------------------
-- What A Backend Holds
------------------------------------------------------------

/- The collection, if it can be loaded. -/
def loaded? (b : Depot) : Option Collection :=
  ((Backend.load : Call Depot Collection).run.run b).1.toOption

/- The snapshots, the newest one first. -/
def stack : Depot → List Collection
| memory m => m.stack
| folder f => f.stack

/- The collection that is loaded, or a snapshot. -/
def Holds
    (b : Depot)
    (c : Collection) : Prop :=
  b.loaded? = some c ∨ c ∈ b.stack

theorem Safe.holds
    (hRereads : Collection.Rereads P)
    {b : Depot}
    (hSafe : Safe P b)
    {c : Collection}
    (hHolds : b.Holds c) :
    P c := by
  rcases hHolds with hLoaded | hMem
  · rcases hRun :
      (Backend.load : Call Depot Collection).run.run b with
      ⟨e | c', b'⟩
    · simp only [loaded?, hRun, Except.toOption] at hLoaded
      cases hLoaded
    · simp only [loaded?, hRun, Except.toOption] at hLoaded
      cases hLoaded
      exact ((guards hRereads).load b hSafe).2 c (by rw [hRun])
  · cases b with
    | memory m => exact Memory.Safe.stack hSafe c hMem
    | folder f => exact Folder.Safe.stack hSafe c hMem

end Depot

end Rowstore
