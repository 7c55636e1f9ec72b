import Rowstore.Proofs.Database.Fitting
import Rowstore.Proofs.Session.Guarding
import Rowstore.Proofs.Session.Matching
import Rowstore.Proofs.Storage.Writing

/-
  A session over a directory and a session over a memory
  cannot be told apart as long as no write fails, whichever
  layout and limit the directory has: they have the same
  answers, and the same collections, snapshots, selection and
  notices, and so have the sessions that are opened after
  them.

  What this takes is that stored collections are read as they
  were written, which is so if their numbers survive and
  their counters fit their words.

  Main declarations:
    * `Folder.agrees_with_memory`
    * `Session.safe_before`
    * `Session.interchangeable`
-/

------------------------------------------------------------
-- Calls Without Faults
------------------------------------------------------------

namespace Rowstore

open Execution
open Backend (Operation)

namespace Folder

/- Nothing keeps a file from being replaced. -/
def Works (f : Folder) : Prop :=
  f.directory.fault? = fun _ => none

theorem Works.faultOf
    {f : Folder}
    (hWorks : f.Works)
    (sync : Bool)
    (name : String) :
    f.directory.faultOf sync name = none := by
  unfold Directory.faultOf
  rw [hWorks]
  rfl

/- The directory mirrors the memory, and can be written. -/
def Follows
    (f : Folder)
    (m : Memory) : Prop :=
  f.Mirrors m ∧ f.Works

/- Without faults every call succeeds, and does what it does in memory. -/
theorem matches_operation
    {o : Operation}
    (hPushed : ∀ c, o = .push c → c.Survives) :
    Matches Follows Follows
      (o.call : Call Folder (Option Collection))
      (o.call : Call Memory (Option Collection)) (· = ·) := by
  rintro f m ⟨hMirrors, hWorks⟩
  rcases hMirrors.operation hPushed with
    ⟨fault, hFault, _⟩ |
    ⟨_, a, f', m', hRun, hMemory, _, hFaults, hAfter⟩
  · rw [hWorks.faultOf] at hFault
    cases hFault
  · rw [hRun, hMemory]
    exact ⟨⟨hAfter, hFaults.trans hWorks⟩, .ok rfl⟩

/- The calls of a directory and of a memory have the same answers and effects. -/
theorem agrees_with_memory :
    Backend.Agree Follows (fun _ m => m.stored.Survives)
      (fun _ _ => True) Collection.Survives where
  load := by
    rintro f m ⟨hFollows, hSurvives⟩
    have hRun := hFollows.1.loads hSurvives
    unfold Loads at hRun
    rw [hRun]
    exact ⟨hFollows, .ok ⟨rfl, hSurvives⟩⟩
  save := fun s =>
    Matches.of_bind_pure
      (matches_operation (o := .save s)
        fun _ hPush => by cases hPush)
  push := fun s hSurvives =>
    Matches.of_bind_pure
      (matches_operation (o := .push s)
        fun _ hPush => by cases hPush; exact hSurvives)
  pop :=
    (matches_operation (o := .pop)
      fun _ hPush => by cases hPush).mono fun _ _ h => h.1
  discard :=
    (matches_operation (o := .pop)
      fun _ hPush => by cases hPush).imp
      fun _ _ _ => trivial
  clear :=
    Matches.of_bind_pure
      (matches_operation (o := .clear)
        fun _ hPush => by cases hPush)

/- A directory that is opened again still follows the memory. -/
theorem Follows.reopened
    {f : Folder}
    {m : Memory}
    (hFollows : f.Follows m) :
    SameAnswer Follows (Backend.Reopening.reopen f)
      (Backend.Reopening.reopen m) := by
  have hOpened :
      Backend.Reopening.reopen f = Except.ok f :=
    hFollows.1.reopened f.options
  rw [hOpened]
  exact .ok hFollows

/- A directory without files. -/
def fresh (options : StorageOptions) : Folder :=
  { directory := .empty
    options := options
    stack := [] }

theorem follows_fresh (options : StorageOptions) :
    (fresh options).Follows
      (Memory.new .empty options.snapshotLimit) where
  left :=
    { stack := rfl
      limit := rfl
      snapshots := rfl
      survive := List.forall_mem_nil _
      loads := fun _ => rfl }
  right := rfl

end Folder

end Rowstore

------------------------------------------------------------
-- Sessions
------------------------------------------------------------

namespace Rowstore

open Execution

namespace Session

/- The times that come with a step. -/
def Step.times : Step → List Moment
| ask r => r.times
| reopen _ => []

/- The times that come with steps exist. -/
def TimesExist (steps : List Step) : Prop :=
  ∀ x ∈ steps, ∀ m ∈ x.times, m.IsValid

instance (steps : List Step) : Decidable (TimesExist steps) :=
  inferInstanceAs
    (Decidable (∀ x ∈ steps, ∀ m ∈ x.times, m.IsValid))

/- What requests and calls keep of collections holds of all collections throughout. -/
theorem safe_before
    {P : Collection → Prop}
    {steps : List Step}
    (hKeeps : ∀ r, .ask r ∈ steps → r.Keeps P)
    {s : Session Memory}
    (hSafe : Memory.Safe P s.backend)
    (n : Nat) :
    Memory.Safe P (s.before steps n).backend := by
  induction n with
  | zero => exact hSafe
  | succ n ih =>
      cases hStep : steps[n]? with
      | none =>
          rw [before_succ_of_none s hStep]
          exact ih
      | some x =>
          rw [before_succ s hStep]
          cases x with
          | ask r =>
              exact safe_after (Memory.guards P)
                (hKeeps r (List.mem_of_getElem? hStep)) ih
          | reopen mode => exact ih

theorem wellFormed_before
    {steps : List Step}
    (hTimes : TimesExist steps)
    (mode : Mode)
    (limit : Option Nat)
    (n : Nat) :
    ((Session.new (Memory.new .empty limit) mode).before
      steps n).backend.stored.WellFormed := by
  have hKeeps :
      ∀ r, .ask r ∈ steps →
        r.Keeps Collection.WellFormed := by
    intro r hMem s s' hRevised
    exact Collection.wellFormed_of_revised
      (hTimes (.ask r) hMem) hRevised
  have hEmpty :
      Memory.Safe Collection.WellFormed
        (Memory.new .empty limit) :=
    ⟨Collection.wellFormed_empty, List.forall_mem_nil _⟩
  exact (safe_before hKeeps hEmpty n).stored

/-
  Before and after every step, a session over a directory
  that began without files has the collection, the snapshots,
  the selection, the depth and the notices of a session over
  a memory, and the step has the same answer in both, if all
  numbers that come to be stored survive and no counter
  outgrows its word.
-/
theorem interchangeable
    (mode : Mode)
    (options : StorageOptions)
    {steps : List Step}
    (hTimes : TimesExist steps)
    (hNumbers :
      ∀ n ≤ steps.length,
        ((Session.new
          (Memory.new .empty options.snapshotLimit)
          mode).before steps n).backend.stored.NumbersSurvive)
    (hCounters :
      ∀ n ≤ steps.length,
        ((Session.new
          (Memory.new .empty options.snapshotLimit)
          mode).before steps n).backend.stored.CountersFit)
    {n : Nat}
    (hStep : n ≤ steps.length) :
    let s :=
      (Session.new (Folder.fresh options) mode).before steps n
    let t :=
      (Session.new
        (Memory.new .empty options.snapshotLimit)
        mode).before steps n
    s.backend.Loads t.backend.stored ∧
      s.backend.stack = t.backend.stack ∧
      s.mode = t.mode ∧ s.depth = t.depth ∧
      s.selection = t.selection ∧ s.notices = t.notices ∧
      ∀ x, steps[n]? = some x →
        (s.step x).1 = (t.step x).1 := by
  intro s t
  have hSurvive :
      ∀ k ≤ steps.length,
        ((Session.new
          (Memory.new .empty options.snapshotLimit)
          mode).before steps k).backend.stored.Survives := by
    intro k hPlace
    have hFits :=
      (wellFormed_before hTimes mode options.snapshotLimit
        k).fits (hCounters k hPlace)
    exact Collection.survives_of_fits hFits
      (hNumbers k hPlace)
  have hAlike : Alike Folder.Follows s t := by
    apply alike_before Folder.agrees_with_memory
      fun _ _ hFollows => hFollows.reopened
    · exact
        { backend := Folder.follows_fresh options
          mode := rfl
          depth := rfl
          selection := rfl
          notices := rfl }
    · intro k hLt x _ _
      exact
        ⟨hSurvive k (hLt.le.trans hStep), fun _ => trivial⟩
  have hStored : t.backend.stored.Survives :=
    hSurvive n hStep
  refine
    ⟨hAlike.backend.1.loads hStored,
      hAlike.backend.1.stack, hAlike.mode, hAlike.depth,
      hAlike.selection, hAlike.notices, ?_⟩
  intro x _
  exact
    (alike_step Folder.agrees_with_memory
      (fun _ _ hFollows => hFollows.reopened) hAlike
      ⟨hStored, fun _ => trivial⟩).1

/- A session that is opened again takes back what another one has inserted. -/
theorem insertion_is_taken_back :
    let options := StorageOptions.production "data"
    let steps : List Step :=
      [.ask (.statement epoch "CREATE DATABASE d"),
        .ask (.statement epoch "CREATE TABLE t (a DECIMAL(5, 1))"),
        .ask (.insertRow "t" [("a", "0.5")]),
        .reopen .scoped, .ask (.choose "d"),
        .ask (.statement epoch "ROLLBACK")]
    let rollback := Step.ask (.statement epoch "ROLLBACK")
    let s :=
      (Session.new (Folder.fresh options) .literal).before
        steps 5
    let start :=
      Session.new
        (Memory.new .empty options.snapshotLimit) .literal
    TimesExist steps ∧
      (∀ n ≤ steps.length,
        (start.before steps
          n).backend.stored.NumbersSurvive) ∧
      (∀ n ≤ steps.length,
        (start.before steps n).backend.stored.CountersFit) ∧
      s.backend.Loads (start.before steps 5).backend.stored ∧
      (s.step rollback).1 =
        .ok (some (.result (.message
          "Rolled back to previous snapshot"))) := by
  intro options steps rollback s start
  have hTimes : TimesExist steps := by decide +kernel
  have hNumbers :
      ∀ n ≤ steps.length,
        (start.before steps
          n).backend.stored.NumbersSurvive := by
    decide +kernel
  have hCounters :
      ∀ n ≤ steps.length,
        (start.before steps n).backend.stored.CountersFit := by
    decide +kernel
  have hAnswer :
      ((start.before steps 5).step rollback).1 =
        .ok (some (.result (.message
          "Rolled back to previous snapshot"))) := by
    decide +kernel
  have hBoth :=
    interchangeable .literal options hTimes hNumbers hCounters
      (show 5 ≤ steps.length by decide)
  have hLast : steps[5]? = some rollback := rfl
  have hStart :
      Session.new (Memory.new .empty options.snapshotLimit)
        .literal = start := rfl
  have hSession :
      (Session.new (Folder.fresh options) .literal).before
        steps 5 = s := rfl
  rw [hStart, hSession] at hBoth
  clear_value s start
  rcases hBoth with ⟨hLoads, _, _, _, _, _, hSame⟩
  exact
    ⟨hTimes, hNumbers, hCounters, hLoads,
      (hSame rollback hLast).trans hAnswer⟩

end Session

end Rowstore
