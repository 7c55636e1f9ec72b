import Rowstore.Proofs.Storage.Guarding

/-
  What happens to a backend apart from the calls of sessions:
  it begins without collections, and between two requests or
  two sessions it may be left and taken up again.

  Main declarations:
    * `Backend.History`
    * `Backend.Keeps`
    * `Memory.keeps`
    * `Outage.keeps`
-/

namespace Rowstore

/- How a backend begins, and what it can become without being called. -/
class Backend.History (β : Type) where
  Begins : β → Prop
  Resumes : β → β → Prop

/- A property that backends begin with and do not lose between calls. -/
structure Backend.Keeps
    (β : Type)
    [Backend.History β]
    (Safe : β → Prop) : Prop where
  begins : ∀ {b : β}, Backend.History.Begins b → Safe b
  resumes :
    ∀ {b b' : β},
      Safe b → Backend.History.Resumes b b' → Safe b'

------------------------------------------------------------
-- In Memory
------------------------------------------------------------

namespace Memory

/- A memory begins empty and stays as it is. -/
instance : Backend.History Memory where
  Begins := fun m => ∃ limit, m = Memory.new .empty limit
  Resumes := fun m m' => m' = m

theorem keeps
    {P : Collection → Prop}
    (hEmpty : P .empty) :
    Backend.Keeps Memory (Safe P) where
  begins := by
    rintro m ⟨limit, rfl⟩
    exact ⟨hEmpty, fun _ hMem => by cases hMem⟩
  resumes := by
    rintro m m' hSafe rfl
    exact hSafe

end Memory

------------------------------------------------------------
-- With Calls Out Of Order
------------------------------------------------------------

namespace Outage

variable {β : Type} [Backend.History β]

/- Any calls may go out of order, and may come back. -/
instance : Backend.History (Outage β) where
  Begins := fun o => Backend.History.Begins o.backend
  Resumes := fun o o' =>
    o'.backend = o.backend ∨
      Backend.History.Resumes o.backend o'.backend

theorem keeps
    {Safe : β → Prop}
    (hKeeps : Backend.Keeps β Safe) :
    Backend.Keeps (Outage β) (fun o => Safe o.backend) where
  begins := fun hBegins => hKeeps.begins hBegins
  resumes := by
    intro o o' hSafe hResumes
    rcases hResumes with hSame | hResumes
    · rw [hSame]
      exact hSafe
    · exact hKeeps.resumes hSafe hResumes

end Outage

end Rowstore
