import Rowstore.Proofs.Session.Calls
import Rowstore.Proofs.Session.Guarding
import Rowstore.Proofs.Storage.History

/-
  Sessions that can be reached: over a backend that begins
  empty, by any requests, and by sessions that are opened over
  the backend that others have left.

  Whatever revisions keep holds of every collection that such
  a session stores or has as a snapshot.

  Main declarations:
    * `Session.Reachable`
    * `Session.safe_of_reachable`
    * `Session.memory_safe_of_reachable`
-/

namespace Rowstore

namespace Session

------------------------------------------------------------
-- Reachable Sessions
------------------------------------------------------------

section

variable {β : Type} [Backend β] [Backend.History β]

/-
  A session over a new backend, in either mode; a session
  after a request; a session whose backend was left and taken
  up again; and a new session, in either mode, over the
  backend of another one.
-/
inductive Reachable : Session β → Prop where
| opened
    {b : β}
    (hBegins : Backend.History.Begins b)
    (mode : Mode) :
    Reachable (Session.new b mode)
| served
    {s : Session β}
    (hReachable : s.Reachable)
    (r : Request) :
    Reachable (s.after r)
| resumed
    {s : Session β}
    (hReachable : s.Reachable)
    {b : β}
    (hResumes : Backend.History.Resumes s.backend b) :
    Reachable { s with backend := b }
| reopened
    {s : Session β}
    (hReachable : s.Reachable)
    {b : β}
    (hResumes : Backend.History.Resumes s.backend b)
    (mode : Mode) :
    Reachable (Session.new b mode)

theorem reachable_afterAll
    {s : Session β}
    (hReachable : s.Reachable)
    (rs : List Request) :
    (s.afterAll rs).Reachable := by
  induction rs generalizing s with
  | nil => exact hReachable
  | cons r rs ih => exact ih (hReachable.served r)

/- What revisions, calls and the time between calls all keep holds throughout. -/
theorem safe_of_reachable
    {P : Collection → Prop}
    {Safe : β → Prop}
    (hGuards : Backend.Guards β P Safe)
    (hKeeps : Backend.Keeps β Safe)
    (hLasts : Collection.Lasts P)
    {s : Session β}
    (hReachable : s.Reachable) :
    Safe s.backend := by
  induction hReachable with
  | opened hBegins mode => exact hKeeps.begins hBegins
  | served _ r ih =>
      exact safe_after hGuards (r.keeps_of_lasts hLasts) ih
  | resumed _ hResumes ih => exact hKeeps.resumes ih hResumes
  | reopened _ hResumes mode ih =>
      exact hKeeps.resumes ih hResumes

end

------------------------------------------------------------
-- In Memory
------------------------------------------------------------

theorem reachable_inMemory
    (mode : Mode)
    (limit : Option Nat)
    (failing : List CallName) :
    (inMemory mode limit failing).Reachable := by
  apply Reachable.opened
  exact ⟨limit, rfl⟩

/- What revisions keep holds of the stored collection and of all snapshots. -/
theorem memory_safe_of_reachable
    {P : Collection → Prop}
    (hLasts : Collection.Lasts P)
    {s : Session (Outage Memory)}
    (hReachable : s.Reachable) :
    Memory.Safe P s.backend.backend :=
  safe_of_reachable (Outage.guards (Memory.guards P))
    (Outage.keeps (Memory.keeps hLasts.empty)) hLasts
    hReachable

theorem lasts_identified :
    Collection.Lasts Collection.Identified where
  empty := Collection.identified_empty
  revised := fun _ => Collection.identified_of_revised

theorem lasts_named :
    Collection.Lasts Collection.Named where
  empty := Collection.named_empty
  revised := fun _ => Collection.named_of_revised

theorem lasts_namesQuotable :
    Collection.Lasts Collection.NamesQuotable where
  empty := Collection.namesQuotable_empty
  revised := Collection.namesQuotable_of_revised

end Session

end Rowstore
