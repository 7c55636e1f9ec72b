import Mathlib.Data.List.Basic
import Rowstore.Proofs.Session.Handling

/-
  Rollbacks of literal mode undo one request each.

  Every request that can change the collection puts exactly
  one copy of it on the stack, before anything else happens
  and whether it succeeds or not.  The snapshots are
  therefore the collections before these requests, and as
  many rollbacks lead back through them.

  Main declarations:
    * `Session.Request.isUndoable`
    * `Session.stack_after_of_isUndoable`
    * `Session.rollbacks_undo`
-/

------------------------------------------------------------
-- Requests That Can Be Undone
------------------------------------------------------------

namespace Rowstore

namespace Session

/- A begin, a mutating command or an edit of rows. -/
def Task.isUndoable : Task → Bool
| .control .begin => true
| .change _ => true
| _ => false

variable {s s' : Session (Outage Memory)}

/- A change puts the collection on the stack, however it ends. -/
theorem stack_of_change
    (hSteady : Steady .literal s)
    {work : Work (Answer × Option Notice)}
    {answer : Except Error Answer}
    (hEnds : ChangeEnds s work answer s') :
    s'.stack = s.stored :: s.stack := by
  have hStarted : s.started.stack = s.stored :: s.stack := by
    simp [started, hSteady.mode, pushWithin,
      hSteady.unbounded]
  have hRecorded :
      s.recorded.stack = s.stored :: s.stack := by
    simp [recorded, hSteady.mode, pushWithin,
      hSteady.unbounded]
  cases hEnds with
  | unread hLoad => exact absurd hLoad (hSteady.works .load)
  | unrecorded hMode hPush =>
      exact absurd hPush (hSteady.works .push)
  | refused => exact hStarted
  | silent => exact hStarted
  | unsaved => exact hStarted
  | halfDone hStarts hWork hSave hNeeds hPush =>
      exact absurd hPush (hSteady.works .push)
  | done => exact hRecorded

theorem isUndoable_iff (task : Task) :
    task.isUndoable = true ↔
      task = .control .begin ∨
        ∃ work, task = .change work := by
  constructor
  · intro hUndoable
    cases task with
    | control c =>
        cases c with
        | begin => exact .inl rfl
        | commit => cases hUndoable
        | rollback => cases hUndoable
    | change work => exact .inr ⟨work, rfl⟩
    | reject e => cases hUndoable
    | read stamp c => cases hUndoable
    | choose name => cases hUndoable
  · intro hTask
    rcases hTask with rfl | ⟨work, rfl⟩
    · rfl
    · rfl

/- A request that takes a snapshot takes one, of the collection before it. -/
theorem stack_after_of_isUndoable
    (hSteady : Steady .literal s)
    {r : Request}
    (hUndoable : r.task.isUndoable = true) :
    (s.after r).stack = s.stored :: s.stack := by
  rw [isUndoable_iff] at hUndoable
  rcases hUndoable with hBegin | ⟨work, hChange⟩
  · rw [← control?_eq_some_iff] at hBegin
    rw [after_begin hSteady hBegin]
    rfl
  · exact stack_of_change hSteady
      (change_ends_of_task s hChange)

/- Any other request that is no commit and no rollback only reads. -/
theorem resting_of_not_isUndoable
    (s : Session (Outage Memory))
    {r : Request}
    (hForward : ¬r.IsFinish)
    (hUndoable : r.task.isUndoable = false) :
    (s.after r).stored = s.stored ∧
      (s.after r).stack = s.stack := by
  have hEnds := handle_ends s r
  unfold after
  simp only [Request.IsFinish, control?_eq_some_iff]
    at hForward
  generalize r.task = task at hEnds hUndoable hForward
  generalize (s.handle r).1 = answer at hEnds
  generalize (s.handle r).2 = s' at hEnds ⊢
  cases hEnds with
  | reject e => exact ⟨rfl, rfl⟩
  | @control c _ _ hControl =>
      cases c with
      | begin => cases hUndoable
      | commit => exact absurd (.inl rfl) hForward
      | rollback => exact absurd (.inr rfl) hForward
  | read hRead =>
      rcases eq_selected_of_read hRead with ⟨id, rfl⟩
      exact ⟨rfl, rfl⟩
  | change hChange => cases hUndoable
  | choose hChoose =>
      rcases eq_selected_of_choose hChoose with ⟨id, rfl⟩
      exact ⟨rfl, rfl⟩

------------------------------------------------------------
-- Undoing Requests
------------------------------------------------------------

/- A rollback moves the newest snapshot from the stack to the store. -/
theorem undo_after_rollback
    {m : Mode}
    (hSteady : Steady m s)
    {c : Collection}
    {rest : List Collection}
    (hStack : s.stack = c :: rest)
    {r : Request}
    (hAsked : r.control? = some .rollback) :
    (s.after r).stored = c ∧ (s.after r).stack = rest := by
  rw [after_rollback hSteady hStack hAsked]
  exact ⟨stored_returned _ c, stack_returned _ c⟩

/-
  A request that took a snapshot, requests that left the
  snapshots as they were, and a rollback: it undoes the first
  request.
-/
theorem undo_of_isUndoable
    (hSteady : Steady .literal s)
    {r last : Request}
    {rs : List Request}
    (hUndoable : r.task.isUndoable = true)
    (hRest :
      ((s.after r).afterAll rs).stack = (s.after r).stack)
    (hLast : last.control? = some .rollback) :
    (s.afterAll (r :: rs ++ [last])).stored = s.stored ∧
      (s.afterAll (r :: rs ++ [last])).stack = s.stack := by
  have hStack :
      (s.afterAll (r :: rs)).stack = s.stored :: s.stack :=
    hRest.trans (stack_after_of_isUndoable hSteady hUndoable)
  rw [afterAll_append]
  exact undo_after_rollback (hSteady.afterAll (r :: rs))
    hStack hLast

/-
  After requests of literal mode, as many rollbacks as the
  requests took snapshots lead back to the collection and the
  snapshots before them.
-/
theorem rollbacks_undo
    (s : Session (Outage Memory))
    (hSteady : Steady .literal s)
    (rs undos : List Request)
    (hForward : ∀ r ∈ rs, ¬r.IsFinish)
    (hUndos : ∀ r ∈ undos, r.control? = some .rollback)
    (hCount :
      undos.length =
        rs.countP fun r => r.task.isUndoable) :
    (s.afterAll (rs ++ undos)).stored = s.stored ∧
      (s.afterAll (rs ++ undos)).stack = s.stack := by
  induction rs generalizing s undos with
  | nil =>
      have hNone : undos = [] :=
        List.eq_nil_of_length_eq_zero hCount
      subst hNone
      exact ⟨rfl, rfl⟩
  | cons r rs ih =>
      rw [List.forall_mem_cons] at hForward
      rcases hForward with ⟨hFirst, hRest⟩
      have hNext := hSteady.after r
      cases hUndoable : r.task.isUndoable with
      | false =>
          have hCountRest :
              undos.length =
                rs.countP fun r => r.task.isUndoable := by
            simpa [List.countP_cons, hUndoable] using hCount
          have hSame :=
            resting_of_not_isUndoable s hFirst hUndoable
          have hBack :=
            ih (s.after r) hNext undos hRest hUndos
              hCountRest
          exact
            ⟨hBack.1.trans hSame.1, hBack.2.trans hSame.2⟩
      | true =>
          -- The last rollback undoes `r`, the others the rest.
          rcases List.eq_nil_or_concat' undos with
            rfl | ⟨others, last, rfl⟩
          · simp [hUndoable] at hCount
          have hCountRest :
              others.length =
                rs.countP fun r => r.task.isUndoable := by
            simpa [List.countP_cons, hUndoable] using hCount
          rw [List.forall_mem_append,
            List.forall_mem_singleton] at hUndos
          rcases hUndos with ⟨hOthers, hLast⟩
          have hBack :=
            ih (s.after r) hNext others hRest hOthers
              hCountRest
          have hSplit :
              r :: rs ++ (others ++ [last]) =
                r :: (rs ++ others) ++ [last] := by
            simp
          rw [hSplit]
          exact undo_of_isUndoable hSteady hUndoable hBack.2
            hLast

/-
  A table is created, a row put into it, a table that is not
  there dropped, and a transaction opened: four rollbacks
  lead back to the database without tables.
-/
theorem four_rollbacks_undo :
    let s :=
      (inMemory .literal none []).after
        (.statement epoch "CREATE DATABASE d")
    let rs : List Request :=
      [.statement epoch "CREATE TABLE t (a BOOLEAN)",
        .insertRow "t" [("a", "yes")],
        .statement epoch "SHOW TABLES",
        .statement epoch "DROP TABLE u",
        .statement epoch "BEGIN"]
    let undos :=
      List.replicate 4 (Request.statement epoch "ROLLBACK")
    (s.afterAll rs).stored ≠ s.stored ∧
      (s.afterAll (rs ++ undos)).stored = s.stored ∧
      (s.afterAll (rs ++ undos)).stack = s.stack := by
  intro s rs undos
  have hNew : Steady .literal (inMemory .literal none []) :=
    ⟨rfl, rfl, rfl⟩
  have hSteady : Steady .literal s := hNew.after _
  have hForward : ∀ r ∈ rs, ¬r.IsFinish := by
    decide +kernel
  have hUndos :
      ∀ r ∈ undos, r.control? = some .rollback := by
    decide +kernel
  have hCount :
      undos.length =
        rs.countP fun r => r.task.isUndoable := by
    decide +kernel
  refine ⟨?_, rollbacks_undo s hSteady rs undos hForward
    hUndos hCount⟩
  decide +kernel

end Session

end Rowstore
