import Rowstore.Proofs.Session.Handling

/-
  Nested transactions of scoped mode.

  Inside of a transaction no statement takes a snapshot, so
  the newest snapshot is always the one of the innermost
  begin.  This is what balanced requests keep, and it makes
  the end of a transaction find the collection of its begin.

  Main declarations:
    * `Session.Balanced`
    * `Session.sameNesting_of_balanced`
    * `Session.transaction_nests`
-/

------------------------------------------------------------
-- Balanced Requests
------------------------------------------------------------

namespace Rowstore

namespace Session

/-
  Requests in which each begin has its own commit or rollback,
  and there are no others.
-/
inductive Balanced : List Request → Prop where
| nil : Balanced []
| plain
    {r : Request}
    {rest : List Request}
    (hPlain : r.control? = none)
    (hRest : Balanced rest) :
    Balanced (r :: rest)
| block
    {start finish : Request}
    {body rest : List Request}
    (hStart : start.control? = some .begin)
    (hFinish : finish.IsFinish)
    (hBody : Balanced body)
    (hRest : Balanced rest) :
    Balanced (start :: body ++ finish :: rest)

/- The snapshots and the number of open transactions are the same. -/
structure SameNesting
    (s s' : Session (Outage Memory)) : Prop where
  stack : s'.stack = s.stack
  depth : s'.depth = s.depth

theorem sameNesting_refl (s : Session (Outage Memory)) :
    SameNesting s s :=
  ⟨rfl, rfl⟩

theorem sameNesting_trans
    {s s' s'' : Session (Outage Memory)}
    (hFirst : SameNesting s s')
    (hSecond : SameNesting s' s'') :
    SameNesting s s'' :=
  ⟨hSecond.stack.trans hFirst.stack,
    hSecond.depth.trans hFirst.depth⟩

------------------------------------------------------------
-- Inside Of A Transaction
------------------------------------------------------------

variable {m : Mode} {s : Session (Outage Memory)}

/- A change takes no snapshot inside of a transaction. -/
theorem sameNesting_of_change
    {s' : Session (Outage Memory)}
    (hMode : s.mode = .scoped)
    (hDepth : s.depth ≠ 0)
    {work : Work (Answer × Option Notice)}
    {answer : Except Error Answer}
    (hEnds : ChangeEnds s work answer s') :
    SameNesting s s' := by
  have hStarted : s.started = s := by
    simp [started, hMode]
  have hRecorded : s.recorded = s := by
    simp [recorded, hMode, hDepth]
  cases hEnds with
  | unread => exact sameNesting_refl s
  | unrecorded => exact sameNesting_refl s
  | refused =>
      rw [hStarted]
      exact sameNesting_refl s
  | silent =>
      rw [hStarted]
      exact ⟨rfl, rfl⟩
  | unsaved =>
      rw [hStarted]
      exact sameNesting_refl s
  | halfDone => exact ⟨rfl, rfl⟩
  | done =>
      rw [hRecorded]
      exact ⟨rfl, rfl⟩

theorem sameNesting_of_plain
    (hMode : s.mode = .scoped)
    (hDepth : s.depth ≠ 0)
    {r : Request}
    (hPlain : r.control? = none) :
    SameNesting s (s.after r) := by
  have hEnds := handle_ends s r
  unfold after
  generalize hTask : r.task = task at hEnds
  generalize (s.handle r).1 = answer at hEnds
  generalize (s.handle r).2 = s' at hEnds ⊢
  cases hEnds with
  | reject e => exact sameNesting_refl s
  | control hControl =>
      rw [← control?_eq_some_iff, hPlain] at hTask
      cases hTask
  | read hRead =>
      rcases eq_selected_of_read hRead with ⟨id, rfl⟩
      exact ⟨rfl, rfl⟩
  | change hChange =>
      exact sameNesting_of_change hMode hDepth hChange
  | choose hChoose =>
      rcases eq_selected_of_choose hChoose with ⟨id, rfl⟩
      exact ⟨rfl, rfl⟩

/- The end of a transaction takes the snapshot of its begin off the stack. -/
theorem finish_pops
    (hSteady : Steady .scoped s)
    (hDepth : s.depth ≠ 0)
    {c : Collection}
    {rest : List Collection}
    (hStack : s.stack = c :: rest)
    {r : Request}
    (hFinish : r.IsFinish) :
    (s.after r).stack = rest ∧
      (s.after r).depth = s.depth - 1 := by
  rcases hFinish with hCommit | hRollback
  · rw [after_commit_scoped hSteady hDepth hCommit, hStack]
    exact ⟨rfl, rfl⟩
  · rw [after_rollback hSteady hStack hRollback]
    exact ⟨stack_returned _ c, depth_returned _ c⟩

/- The begin of a transaction puts the collection on the stack. -/
theorem begin_pushes
    (hSteady : Steady m s)
    {r : Request}
    (hStart : r.control? = some .begin) :
    (s.after r).stack = s.stored :: s.stack ∧
      (s.after r).depth = s.depth + 1 := by
  rw [after_begin hSteady hStart]
  exact ⟨rfl, rfl⟩

/-
  A begin, and requests that leave the nesting as it is: the
  collection before the begin is on top of the stack.
-/
theorem nesting_before_finish
    (hSteady : Steady .scoped s)
    {start : Request}
    {body : List Request}
    (hStart : start.control? = some .begin)
    (hBody :
      SameNesting (s.after start)
        ((s.after start).afterAll body)) :
    (s.afterAll (start :: body)).stack =
        s.stored :: s.stack ∧
      (s.afterAll (start :: body)).depth = s.depth + 1 := by
  rcases begin_pushes hSteady hStart with ⟨hStack, hDepth⟩
  exact
    ⟨hBody.stack.trans hStack, hBody.depth.trans hDepth⟩

/- A transaction around such requests leaves the nesting as it is. -/
theorem sameNesting_of_transaction
    (hSteady : Steady .scoped s)
    {start finish : Request}
    {body : List Request}
    (hStart : start.control? = some .begin)
    (hFinish : finish.IsFinish)
    (hBody :
      SameNesting (s.after start)
        ((s.after start).afterAll body)) :
    SameNesting s
      (s.afterAll (start :: body ++ [finish])) := by
  rcases nesting_before_finish hSteady hStart hBody with
    ⟨hStack, hDepth⟩
  have hInside : (s.afterAll (start :: body)).depth ≠ 0 := by
    omega
  rw [afterAll_append]
  rcases finish_pops (hSteady.afterAll (start :: body))
      hInside hStack hFinish with
    ⟨hPopped, hClosed⟩
  refine ⟨hPopped, hClosed.trans ?_⟩
  omega

/-
  Balanced requests inside of a transaction leave the snapshots
  and the number of open transactions as they were.
-/
theorem sameNesting_of_balanced
    {rs : List Request}
    (hBalanced : Balanced rs)
    (hSteady : Steady .scoped s)
    (hDepth : s.depth ≠ 0) :
    SameNesting s (s.afterAll rs) := by
  induction hBalanced generalizing s with
  | nil => exact sameNesting_refl s
  | @plain r rest hPlain hRest ih =>
      have hStep :=
        sameNesting_of_plain hSteady.mode hDepth hPlain
      have hInside : (s.after r).depth ≠ 0 := by
        rw [hStep.depth]
        exact hDepth
      exact sameNesting_trans hStep
        (ih (hSteady.after r) hInside)
  | @block start finish body rest hStart hFinish hBody hRest
      ihBody ihRest =>
      have hOpened : (s.after start).depth ≠ 0 := by
        rw [(begin_pushes hSteady hStart).2]
        omega
      have hBlock :=
        sameNesting_of_transaction hSteady hStart hFinish
          (ihBody (hSteady.after start) hOpened)
      have hInside :
          (s.afterAll (start :: body ++ [finish])).depth ≠
            0 := by
        rw [hBlock.depth]
        exact hDepth
      have hSplit :
          start :: body ++ finish :: rest =
            (start :: body ++ [finish]) ++ rest := by
        simp
      rw [hSplit, afterAll_append]
      exact sameNesting_trans hBlock
        (ihRest (hSteady.afterAll _) hInside)

/-
  A transaction of scoped mode around balanced requests: its
  rollback goes back to the collection before its begin, its
  commit leaves the collection as it is, and either leaves
  the snapshots and the number of open transactions as they
  were before its begin.
-/
theorem transaction_nests
    (s : Session (Outage Memory))
    (hSteady : Steady .scoped s)
    (start finish : Request)
    (body : List Request)
    (hStart : start.control? = some .begin)
    (hBody : Balanced body)
    (hFinish : finish.IsFinish) :
    (finish.control? = some .rollback →
      (s.afterAll (start :: body ++ [finish])).stored =
        s.stored) ∧
    (finish.control? = some .commit →
      (s.afterAll (start :: body ++ [finish])).stored =
        (s.afterAll (start :: body)).stored) ∧
    SameNesting s
      (s.afterAll (start :: body ++ [finish])) := by
  have hOpened : (s.after start).depth ≠ 0 := by
    rw [(begin_pushes hSteady hStart).2]
    omega
  have hInner :=
    sameNesting_of_balanced hBody (hSteady.after start)
      hOpened
  rcases nesting_before_finish hSteady hStart hInner with
    ⟨hStack, hDepth⟩
  have hInside : (s.afterAll (start :: body)).depth ≠ 0 := by
    omega
  have hWorked := hSteady.afterAll (start :: body)
  refine ⟨?_, ?_, ?_⟩
  · intro hRollback
    rw [afterAll_append]
    change
      ((s.afterAll (start :: body)).after finish).stored = _
    rw [after_rollback hWorked hStack hRollback,
      stored_returned]
  · intro hCommit
    rw [afterAll_append]
    change
      ((s.afterAll (start :: body)).after finish).stored = _
    rw [after_commit_scoped hWorked hInside hCommit]
    rfl
  · exact sameNesting_of_transaction hSteady hStart hFinish
      hInner

/-
  A database is created in a transaction, and an inner one
  with a row that cannot be inserted is committed: the
  rollback of the outer one leaves no database.
-/
theorem created_then_rolled_back :
    let s := inMemory .scoped none []
    let start := Request.statement epoch "BEGIN"
    let finish := Request.statement epoch "ROLLBACK"
    let body :=
      [Request.statement epoch "CREATE DATABASE d", start,
        .insertRow "t" [("a", "1")],
        .statement epoch "COMMIT"]
    Balanced body ∧
      (s.afterAll (start :: body)).stored ≠ s.stored ∧
      (s.afterAll (start :: body ++ [finish])).stored =
        s.stored ∧
      SameNesting s
        (s.afterAll (start :: body ++ [finish])) := by
  intro s start finish body
  have hSteady : Steady .scoped s := ⟨rfl, rfl, rfl⟩
  have hBegin : start.control? = some .begin := by
    decide +kernel
  have hRollback : finish.control? = some .rollback := by
    decide +kernel
  have hCommit :
      (Request.statement epoch "COMMIT").IsFinish := by
    decide +kernel
  have hCreate :
      (Request.statement epoch
        "CREATE DATABASE d").control? = none := by
    decide +kernel
  have hInner :
      Balanced
        (start :: [.insertRow "t" [("a", "1")]] ++
          .statement epoch "COMMIT" :: []) :=
    .block hBegin hCommit (.plain rfl .nil) .nil
  have hBody : Balanced body := .plain hCreate hInner
  have hNests :=
    transaction_nests s hSteady start finish body hBegin
      hBody (.inr hRollback)
  refine ⟨hBody, ?_, hNests.1 hRollback,
    hNests.2.2⟩
  decide +kernel

end Session

end Rowstore
