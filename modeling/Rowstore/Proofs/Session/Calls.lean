import Mathlib.Control.Monad.Basic
import Rowstore.Proofs.Execution
import Rowstore.Proofs.Storage.Guarding
import Rowstore.Session.Request

/-
  Sessions over a backend in memory, any calls of which may
  be out of order, and what each call of it does.

  Main declarations:
    * `Session.inMemory`
    * `Session.stored`, `Session.stack` and `Session.failing`
    * `Session.workspace`
    * `Session.withStored` and `Session.withStack`
    * `Session.run_call`
-/

------------------------------------------------------------
-- The State Of A Session In Memory
------------------------------------------------------------

namespace Rowstore

namespace Session

open Execution

/- The nil identifier, at the beginning of 1970. -/
def epoch : Stamp :=
  { uuid := ⟨0⟩
    time :=
      { date := ⟨1970, 1, 1⟩
        hour := 0
        minute := 0
        second := 0
        nano := 0 } }

/- A new session over an empty memory. -/
def inMemory
    (mode : Mode)
    (limit : Option Nat)
    (failing : List CallName) : Session (Outage Memory) :=
  Session.new
    { backend := Memory.new .empty limit
      failing := failing }
    mode

/- The stored collection. -/
abbrev stored (s : Session (Outage Memory)) : Collection :=
  s.backend.backend.stored

/- The snapshots, the newest one first. -/
abbrev stack
    (s : Session (Outage Memory)) : List Collection :=
  s.backend.backend.stack

/- The limit of the stack. -/
abbrev limit (s : Session (Outage Memory)) : Option Nat :=
  s.backend.backend.limit

/- The calls that are out of order. -/
abbrev failing
    (s : Session (Outage Memory)) : List CallName :=
  s.backend.failing

/- The copy on which a statement runs. -/
def workspace (s : Session (Outage Memory)) : Workspace :=
  { collection := s.stored
    selection := s.selection }

/- The session with another memory. -/
def withMemory
    (s : Session (Outage Memory))
    (m : Memory) : Session (Outage Memory) :=
  { s with backend := { s.backend with backend := m } }

/- The session with another stored collection. -/
def withStored
    (s : Session (Outage Memory))
    (c : Collection) : Session (Outage Memory) :=
  s.withMemory { s.backend.backend with stored := c }

/- The session with other snapshots. -/
def withStack
    (s : Session (Outage Memory))
    (stack : List Collection) : Session (Outage Memory) :=
  s.withMemory { s.backend.backend with stack := stack }

/- The session when other calls are out of order. -/
def withFailing
    (s : Session (Outage Memory))
    (names : List CallName) : Session (Outage Memory) :=
  { s with backend := { s.backend with failing := names } }

/- The stored collection is on the stack as well. -/
def withSnapshot
    (s : Session (Outage Memory)) : Session (Outage Memory) :=
  s.withStack (pushWithin s.limit s.stored s.stack)

attribute [simp] withMemory withStored withStack withFailing
  withSnapshot

------------------------------------------------------------
-- Calls
------------------------------------------------------------

/- A call changes nothing of a session but its backend. -/
theorem run_onBackend
    {β α : Type}
    {call : Call β α}
    {s : Session β}
    {answer : Except Error α}
    {b : β}
    (hCall : call.run.run s.backend = (answer, b)) :
    (onBackend call).run.run s =
      (answer, { s with backend := b }) := by
  simp only [onBackend, run_bind, run_get, hCall, run_set,
    run_lift]

/-
  A call that is out of order fails and does nothing; any
  other call does what it does in memory.
-/
theorem run_call
    {α : Type}
    (name : CallName)
    (c : Call Memory α)
    (s : Session (Outage Memory)) :
    (onBackend (Outage.call name c)).run.run s =
      if name ∈ s.failing then (.error Outage.failure, s)
      else
        ((c.run.run s.backend.backend).1,
          s.withMemory (c.run.run s.backend.backend).2) := by
  by_cases hFail : name ∈ s.failing
  · rw [if_pos hFail]
    apply run_onBackend
    rw [Outage.run_call, if_pos hFail]
  · rw [if_neg hFail]
    apply run_onBackend
    rw [Outage.run_call, if_neg hFail]

theorem run_load (s : Session (Outage Memory)) :
    (onBackend Backend.load).run.run s =
      if .load ∈ s.failing then (.error Outage.failure, s)
      else (.ok s.stored, s) :=
  run_call .load Memory.load s

theorem run_save
    (s : Session (Outage Memory))
    (c : Collection) :
    (onBackend (Backend.save c)).run.run s =
      if .save ∈ s.failing then (.error Outage.failure, s)
      else (.ok (), s.withStored c) :=
  run_call .save (Memory.save c) s

theorem run_push
    (s : Session (Outage Memory))
    (c : Collection) :
    (onBackend (Backend.push c)).run.run s =
      if .push ∈ s.failing then (.error Outage.failure, s)
      else
        (.ok (), s.withStack (pushWithin s.limit c s.stack)) :=
  run_call .push (Memory.push c) s

theorem run_pop (s : Session (Outage Memory)) :
    (onBackend Backend.pop).run.run s =
      if .pop ∈ s.failing then (.error Outage.failure, s)
      else (.ok s.stack.head?, s.withStack s.stack.tail) :=
  run_call .pop Memory.pop s

theorem run_clear (s : Session (Outage Memory)) :
    (onBackend Backend.clear).run.run s =
      if .clear ∈ s.failing then (.error Outage.failure, s)
      else (.ok (), s.withStack []) :=
  run_call .clear Memory.clear s

end Session

end Rowstore
