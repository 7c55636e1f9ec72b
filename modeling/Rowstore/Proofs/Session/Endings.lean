import Rowstore.Proofs.Session.Calls

/-
  All the ways in which a task of a session can end, over a
  backend in memory any calls of which may be out of order.

  Each relation lists for one kind of task the answers and
  the sessions afterwards, with the calls that worked and the
  one that did not.  What holds of all requests is read off
  these lists.

  Main declarations:
    * `Session.ChangeEnds` and `Session.change_ends`
    * `Session.ControlEnds` and `Session.control_ends`
-/

namespace Rowstore

namespace Session

open Execution

------------------------------------------------------------
-- Changes
------------------------------------------------------------

/-
  The collection can be read, and literal mode can put it on
  the stack: the work of a change is reached.
-/
structure Starts (s : Session (Outage Memory)) : Prop where
  reads : .load ∉ s.failing
  records : s.mode = .literal → .push ∉ s.failing

/- The session on which the work of a change is reached. -/
def started
    (s : Session (Outage Memory)) : Session (Outage Memory) :=
  if s.mode = .literal then s.withSnapshot else s

/- The session with the snapshot of a whole change. -/
def recorded
    (s : Session (Outage Memory)) : Session (Outage Memory) :=
  if s.mode = .literal ∨ s.depth = 0 then s.withSnapshot
  else s

/- The session after a copy is stored and its selection taken over. -/
def settled
    (s : Session (Outage Memory))
    (w : Workspace) : Session (Outage Memory) :=
  { s.withStored w.collection with selection := w.selection }

/- The session after a notice. -/
def announced
    (s : Session (Outage Memory))
    (n : Notice) : Session (Outage Memory) :=
  { s with notices := s.notices ++ [n] }

/-
  How a change ends.  Only `halfDone` fails after something
  was stored.
-/
inductive ChangeEnds
    {α : Type}
    (s : Session (Outage Memory))
    (work : Work (α × Option Notice)) :
    Except Error α → Session (Outage Memory) → Prop where
| unread
    (hLoad : .load ∈ s.failing) :
    ChangeEnds s work (.error Outage.failure) s
| unrecorded
    (hMode : s.mode = .literal)
    (hPush : .push ∈ s.failing) :
    ChangeEnds s work (.error Outage.failure) s
| refused
    {e : Error}
    {w : Workspace}
    (hStarts : s.Starts)
    (hWork : work.run.run s.workspace = (.error e, w)) :
    ChangeEnds s work (.error e) s.started
| silent
    {a : α}
    {w : Workspace}
    (hStarts : s.Starts)
    (hWork :
      work.run.run s.workspace = (.ok (a, none), w)) :
    ChangeEnds s work (.ok a)
      { s.started with selection := w.selection }
| unsaved
    {a : α}
    {n : Notice}
    {w : Workspace}
    (hStarts : s.Starts)
    (hWork :
      work.run.run s.workspace = (.ok (a, some n), w))
    (hSave : .save ∈ s.failing) :
    ChangeEnds s work (.error Outage.failure) s.started
| halfDone
    {a : α}
    {n : Notice}
    {w : Workspace}
    (hStarts : s.Starts)
    (hWork :
      work.run.run s.workspace = (.ok (a, some n), w))
    (hSave : .save ∉ s.failing)
    (hNeeds : s.needsPrevious = true)
    (hPush : .push ∈ s.failing) :
    ChangeEnds s work (.error Outage.failure) (s.settled w)
| done
    {a : α}
    {n : Notice}
    {w : Workspace}
    (hStarts : s.Starts)
    (hWork :
      work.run.run s.workspace = (.ok (a, some n), w))
    (hSave : .save ∉ s.failing)
    (hPush : s.needsPrevious = true → .push ∉ s.failing) :
    ChangeEnds s work (.ok a)
      ((s.recorded.settled w).announced n)

theorem needsPrevious_iff (s : Session (Outage Memory)) :
    s.needsPrevious = true ↔
      s.mode = .scoped ∧ s.depth = 0 := by
  simp [needsPrevious]

/- Literal mode takes its snapshot before the work. -/
theorem run_beforeChange (s : Session (Outage Memory)) :
    (beforeChange s.stored).run.run s =
      if s.mode = .literal ∧ .push ∈ s.failing then
        (.error Outage.failure, s)
      else (.ok (), s.started) := by
  by_cases hMode : s.mode = .literal
  · simp only [beforeChange, run_bind, run_get, hMode,
      beq_self_eq_true, if_true, run_push, true_and,
      started, withSnapshot]
  · have hOther : (s.mode == .literal) = false := by
      simpa using hMode
    simp only [beforeChange, run_bind, run_get, hOther,
      Bool.false_eq_true, if_false, run_pure, hMode,
      false_and, started]

/- Scoped mode takes its snapshot after the copy is stored. -/
theorem run_afterChange
    {s : Session (Outage Memory)}
    (hNeeds : s.needsPrevious = true)
    (c : Collection) :
    (afterChange c).run.run s =
      if .push ∈ s.failing then (.error Outage.failure, s)
      else
        (.ok (),
          s.withStack (pushWithin s.limit c s.stack)) := by
  simp only [afterChange, run_bind, run_get, hNeeds,
    if_true, run_push]

/- A copy that cannot be stored is dropped. -/
theorem run_settle_of_unsaved
    {s : Session (Outage Memory)}
    (hSave : .save ∈ s.failing)
    (previous : Option Collection)
    (w : Workspace)
    (n : Notice) :
    (settle previous w n).run.run s =
      (.error Outage.failure, s) := by
  simp only [settle, run_bind, run_save, if_pos hSave]

/- A copy is stored before its snapshot is taken. -/
theorem run_settle_of_saved
    {s : Session (Outage Memory)}
    (hSave : .save ∉ s.failing)
    (previous : Option Collection)
    (w : Workspace)
    (n : Notice) :
    (settle previous w n).run.run s =
      (do
        match previous with
        | some c => afterChange c
        | none => pure ()
        notify n :
          Action (Outage Memory) Unit).run.run
        (s.settled w) := by
  cases previous with
  | none =>
      simp only [settle, run_bind, run_save, if_neg hSave,
        setSelection, run_modify, settled]
  | some c =>
      simp only [settle, run_bind, run_save, if_neg hSave,
        setSelection, run_modify, settled]

theorem started_selection (s : Session (Outage Memory)) :
    s.started.selection = s.selection := by
  by_cases hMode : s.mode = .literal
  · simp [started, hMode]
  · simp [started, hMode]

theorem started_needsPrevious (s : Session (Outage Memory)) :
    s.started.needsPrevious = s.needsPrevious := by
  by_cases hMode : s.mode = .literal
  · simp [started, hMode, needsPrevious]
  · simp [started, hMode]

theorem started_failing (s : Session (Outage Memory)) :
    s.started.failing = s.failing := by
  by_cases hMode : s.mode = .literal
  · simp [started, hMode]
  · simp [started, hMode]

/- A change that can start runs its work on the stored collection. -/
theorem run_change_of_starts
    {α : Type}
    {s : Session (Outage Memory)}
    (hStarts : s.Starts)
    (work : Work (α × Option Notice)) :
    (change work).run.run s =
      match work.run.run s.workspace with
      | (.error e, _) => (.error e, s.started)
      | (.ok (a, none), w) =>
        (.ok a, { s.started with selection := w.selection })
      | (.ok (a, some n), w) =>
        (do
          settle
            (if s.needsPrevious then some s.stored else none)
            w n
          pure a : Action (Outage Memory) α).run.run
          s.started := by
  have hRecords :
      ¬(s.mode = .literal ∧ .push ∈ s.failing) :=
    fun h => hStarts.records h.1 h.2
  have hCopy :
      ({ collection := s.stored
         selection := s.started.selection } : Workspace) =
        s.workspace := by
    unfold workspace
    rw [started_selection]
  simp only [change, changeLoaded, run_bind, run_load,
    if_neg hStarts.reads, run_beforeChange, if_neg hRecords,
    run_get, started_needsPrevious, hCopy]
  cases hWork : work.run.run s.workspace with
  | mk answer w =>
      cases answer with
      | error e => simp only [run_bind, run_lift]
      | ok answer =>
          cases answer with
          | mk a notice =>
              cases notice with
              | none =>
                  simp only [run_bind, run_lift,
                    setSelection, run_modify, run_pure]
              | some n =>
                  simp only [run_bind, run_lift]

/- A change that needs no snapshot afterwards has its snapshot, if any, already. -/
theorem recorded_eq_started
    {s : Session (Outage Memory)}
    (hNeeds : ¬s.needsPrevious = true) :
    s.recorded = s.started := by
  rw [needsPrevious_iff] at hNeeds
  cases hMode : s.mode with
  | literal => simp [recorded, started, hMode]
  | «scoped» =>
      have hDepth : s.depth ≠ 0 :=
        fun h => hNeeds ⟨hMode, h⟩
      simp [recorded, started, hMode, hDepth]

/-
  A change whose work announces something, over a store that
  works: in scoped mode its snapshot can still fail.
-/
theorem change_ends_of_saved
    {α : Type}
    {s : Session (Outage Memory)}
    {work : Work (α × Option Notice)}
    {a : α}
    {n : Notice}
    {w : Workspace}
    (hStarts : s.Starts)
    (hWork :
      work.run.run s.workspace = (.ok (a, some n), w))
    (hSave : .save ∉ s.failing) :
    ChangeEnds s work
      ((change work).run.run s).1
      ((change work).run.run s).2 := by
  have hSaved : .save ∉ s.started.failing := by
    rw [started_failing]
    exact hSave
  rw [run_change_of_starts hStarts, hWork]
  by_cases hNeeds : s.needsPrevious = true
  · have hScoped := (needsPrevious_iff s).mp hNeeds
    have hStarted : s.started = s := by
      simp [started, hScoped.1]
    have hAfter := run_afterChange
      (show (s.settled w).needsPrevious = true from hNeeds)
      s.stored
    by_cases hPush : .push ∈ s.failing
    · rw [if_pos (show .push ∈ (s.settled w).failing
        from hPush)] at hAfter
      simp only [hNeeds, if_true, hStarted, run_bind,
        run_settle_of_saved hSave, hAfter]
      exact .halfDone hStarts hWork hSave hNeeds hPush
    · rw [if_neg (show .push ∉ (s.settled w).failing
        from hPush)] at hAfter
      simp only [hNeeds, if_true, hStarted, run_bind,
        run_settle_of_saved hSave, hAfter, notify,
        run_modify, run_pure]
      have hDone := ChangeEnds.done hStarts hWork hSave
        (fun _ => hPush)
      simpa [recorded, hScoped.2, settled, announced]
        using hDone
  · have hDone := ChangeEnds.done hStarts hWork hSave
      (fun h => absurd h hNeeds)
    rw [recorded_eq_started hNeeds] at hDone
    simpa only [hNeeds, if_false, run_bind,
      run_settle_of_saved hSaved, run_pure, notify,
      run_modify, Bool.false_eq_true, settled, announced]
      using hDone

theorem change_ends
    {α : Type}
    (s : Session (Outage Memory))
    (work : Work (α × Option Notice)) :
    ChangeEnds s work
      ((change work).run.run s).1
      ((change work).run.run s).2 := by
  by_cases hLoad : .load ∈ s.failing
  · have hRun :
        (change work).run.run s =
          (.error Outage.failure, s) := by
      simp only [change, run_bind, run_load, if_pos hLoad]
    rw [hRun]
    exact .unread hLoad
  by_cases hRecords :
      s.mode = .literal ∧ .push ∈ s.failing
  · have hRun :
        (change work).run.run s =
          (.error Outage.failure, s) := by
      simp only [change, changeLoaded, run_bind, run_load,
        if_neg hLoad, run_beforeChange, if_pos hRecords]
    rw [hRun]
    exact .unrecorded hRecords.1 hRecords.2
  have hStarts : s.Starts :=
    ⟨hLoad, fun hMode hPush => hRecords ⟨hMode, hPush⟩⟩
  have hRun := run_change_of_starts hStarts work
  cases hWork : work.run.run s.workspace with
  | mk answer w =>
      rw [hWork] at hRun
      cases answer with
      | error e =>
          rw [hRun]
          exact .refused hStarts hWork
      | ok answer =>
          cases answer with
          | mk a notice =>
              cases notice with
              | none =>
                  rw [hRun]
                  exact .silent hStarts hWork
              | some n =>
                  by_cases hSave : .save ∈ s.failing
                  · have hUnsaved : .save ∈ s.started.failing := by
                      rw [started_failing]
                      exact hSave
                    rw [hRun]
                    simp only [run_bind,
                      run_settle_of_unsaved hUnsaved]
                    exact .unsaved hStarts hWork hSave
                  · exact change_ends_of_saved hStarts
                      hWork hSave

------------------------------------------------------------
-- Transaction Control
------------------------------------------------------------

/- The session after it went back to a snapshot. -/
def returned
    (s : Session (Outage Memory))
    (c : Collection) : Session (Outage Memory) :=
  match s.selection.bind c.get? with
  | some d =>
    (s.withStored c).announced
      { database := d
        change := .restored }
  | none => { s.withStored c with selection := none }

theorem stored_returned
    (s : Session (Outage Memory))
    (c : Collection) :
    (s.returned c).stored = c := by
  cases hActive : s.selection.bind c.get? with
  | none => simp [returned, hActive]
  | some d => simp [returned, hActive, announced]

theorem stack_returned
    (s : Session (Outage Memory))
    (c : Collection) :
    (s.returned c).stack = s.stack := by
  cases hActive : s.selection.bind c.get? with
  | none => simp [returned, hActive]
  | some d => simp [returned, hActive, announced]

theorem depth_returned
    (s : Session (Outage Memory))
    (c : Collection) :
    (s.returned c).depth = s.depth := by
  cases hActive : s.selection.bind c.get? with
  | none => simp [returned, hActive]
  | some d => simp [returned, hActive, announced]

/-
  How a transaction statement ends.  Only `lost` fails after
  something was changed: the snapshot is off the stack, and
  the collection has not gone back to it.
-/
inductive ControlEnds
    (s : Session (Outage Memory)) :
    Control → Except Error QueryResult →
      Session (Outage Memory) → Prop where
| unbegun
    (hFail : .load ∈ s.failing ∨ .push ∈ s.failing) :
    ControlEnds s .begin (.error Outage.failure) s
| begun
    (hLoad : .load ∉ s.failing)
    (hPush : .push ∉ s.failing) :
    ControlEnds s .begin
      (.ok (.message (begunText (s.depth + 1))))
      { s.withSnapshot with depth := s.depth + 1 }
| uncleared
    (hMode : s.mode = .literal)
    (hClear : .clear ∈ s.failing) :
    ControlEnds s .commit (.error Outage.failure) s
| cleared
    (hMode : s.mode = .literal)
    (hClear : .clear ∉ s.failing) :
    ControlEnds s .commit (.ok (.message committedText))
      { s.withStack [] with depth := 0 }
| idle
    (hMode : s.mode = .scoped)
    (hDepth : s.depth = 0) :
    ControlEnds s .commit
      (.ok (.message "No transaction in progress")) s
| unclosed
    (hMode : s.mode = .scoped)
    (hDepth : s.depth ≠ 0)
    (hPop : .pop ∈ s.failing) :
    ControlEnds s .commit (.error Outage.failure) s
| closed
    (hMode : s.mode = .scoped)
    (hDepth : s.depth ≠ 0)
    (hPop : .pop ∉ s.failing) :
    ControlEnds s .commit (.ok (.message committedText))
      { s.withStack s.stack.tail with depth := s.depth - 1 }
| stuck
    (hPop : .pop ∈ s.failing) :
    ControlEnds s .rollback (.error Outage.failure) s
| nothing
    (hPop : .pop ∉ s.failing)
    (hStack : s.stack = []) :
    ControlEnds s .rollback
      (.ok (.message "Nothing to rollback"))
      { s with depth := 0 }
| lost
    {c : Collection}
    {rest : List Collection}
    (hPop : .pop ∉ s.failing)
    (hStack : s.stack = c :: rest)
    (hSave : .save ∈ s.failing) :
    ControlEnds s .rollback (.error Outage.failure)
      { s.withStack rest with depth := s.depth - 1 }
| restored
    {c : Collection}
    {rest : List Collection}
    (hPop : .pop ∉ s.failing)
    (hStack : s.stack = c :: rest)
    (hSave : .save ∉ s.failing) :
    ControlEnds s .rollback
      (.ok (.message "Rolled back to previous snapshot"))
      (returned
        { s.withStack rest with depth := s.depth - 1 } c)

theorem begin_ends (s : Session (Outage Memory)) :
    ControlEnds s .begin
      ((control .begin).run.run s).1
      ((control .begin).run.run s).2 := by
  by_cases hLoad : .load ∈ s.failing
  · simp only [control, run_bind, run_load, if_pos hLoad]
    exact .unbegun (.inl hLoad)
  by_cases hPush : .push ∈ s.failing
  · simp only [control, run_bind, run_load, if_neg hLoad,
      begin, run_push, if_pos hPush]
    exact .unbegun (.inr hPush)
  · simp only [control, run_bind, run_load, if_neg hLoad,
      begin, run_push, if_neg hPush, run_get, setDepth,
      run_modify, run_pure]
    exact .begun hLoad hPush

theorem commit_ends (s : Session (Outage Memory)) :
    ControlEnds s .commit
      ((control .commit).run.run s).1
      ((control .commit).run.run s).2 := by
  cases hMode : s.mode with
  | literal =>
      by_cases hClear : .clear ∈ s.failing
      · simp only [control, commit, run_bind, run_get,
          hMode, run_clear, if_pos hClear]
        exact .uncleared hMode hClear
      · simp only [control, commit, run_bind, run_get,
          hMode, run_clear, if_neg hClear, setDepth,
          run_modify, run_pure]
        exact .cleared hMode hClear
  | «scoped» =>
      by_cases hDepth : s.depth = 0
      · simp only [control, commit, run_bind, run_get,
          hMode, if_pos hDepth, run_pure]
        exact .idle hMode hDepth
      by_cases hPop : .pop ∈ s.failing
      · simp only [control, commit, run_bind, run_get,
          hMode, if_neg hDepth, run_pop, if_pos hPop]
        exact .unclosed hMode hDepth hPop
      · simp only [control, commit, run_bind, run_get,
          hMode, if_neg hDepth, run_pop, if_neg hPop,
          setDepth, run_modify, run_pure]
        exact .closed hMode hDepth hPop

/- Going back to a snapshot fails only if it cannot be stored. -/
theorem run_restore
    (s : Session (Outage Memory))
    (c : Collection) :
    (restore c).run.run s =
      if .save ∈ s.failing then (.error Outage.failure, s)
      else (.ok (), s.returned c) := by
  by_cases hSave : .save ∈ s.failing
  · simp only [restore, run_bind, run_save, if_pos hSave]
  · rw [if_neg hSave]
    cases hActive : s.selection.bind c.get? with
    | none =>
        have hActive' :
            (s.withStored c).selection.bind c.get? =
              none := hActive
        simp only [restore, run_bind, run_save,
          if_neg hSave, run_get, hActive', setSelection,
          run_modify, returned, hActive]
    | some d =>
        have hActive' :
            (s.withStored c).selection.bind c.get? =
              some d := hActive
        simp only [restore, run_bind, run_save,
          if_neg hSave, run_get, hActive', notify,
          run_modify, returned, hActive, announced]

theorem rollback_ends (s : Session (Outage Memory)) :
    ControlEnds s .rollback
      ((control .rollback).run.run s).1
      ((control .rollback).run.run s).2 := by
  by_cases hPop : .pop ∈ s.failing
  · simp only [control, takeBack, run_bind, run_pop,
      if_pos hPop]
    exact .stuck hPop
  have hTake :
      (onBackend Backend.pop).run.run s =
        (.ok s.stack.head?, s.withStack s.stack.tail) := by
    rw [run_pop, if_neg hPop]
  cases hStack : s.stack with
  | nil =>
      have hSame : s.withStack s.stack.tail = s := by
        calc
          s.withStack s.stack.tail = s.withStack s.stack := by
            rw [hStack, List.tail_nil]
          _ = s := rfl
      rw [hSame, hStack, List.head?_nil] at hTake
      simp only [control, takeBack, run_bind, hTake,
        setDepth, run_modify, run_pure]
      exact .nothing hPop hStack
  | cons c rest =>
      rw [hStack, List.head?_cons, List.tail_cons] at hTake
      by_cases hSave : .save ∈ s.failing
      · simp only [control, takeBack, run_bind, hTake,
          run_get, setDepth, run_modify, run_pure,
          run_restore, withStack, withMemory,
          if_pos hSave]
        exact .lost hPop hStack hSave
      · simp only [control, takeBack, run_bind, hTake,
          run_get, setDepth, run_modify, run_pure,
          run_restore, withStack, withMemory,
          if_neg hSave]
        exact .restored hPop hStack hSave

theorem control_ends
    (s : Session (Outage Memory))
    (c : Control) :
    ControlEnds s c
      ((control c).run.run s).1
      ((control c).run.run s).2 := by
  cases c with
  | begin => exact begin_ends s
  | commit => exact commit_ends s
  | rollback => exact rollback_ends s

end Session

end Rowstore
