import Rowstore.Proofs.Session.Handling

/-
  What requests that fail leave behind, whichever calls of
  the backend are out of order.

  A failed request leaves the collection, the selection and
  the notices as they were, save for one case: the snapshot
  that scoped mode takes after a change fails when the change
  is stored already.  A failed transaction statement can be
  repeated, save for one case: a snapshot is taken off the
  stack and cannot be stored.

  Main declarations:
    * `Session.Untouched`
    * `Session.ChangesWithoutSnapshot`
    * `Session.untouched_of_error_iff`
    * `Session.LosesSnapshot`
    * `Session.repeatable_of_error_iff`
-/

namespace Rowstore

namespace Session

------------------------------------------------------------
-- Failed Requests
------------------------------------------------------------

/- The collection, the selection and the notices are those of before. -/
structure Untouched
    (s s' : Session (Outage Memory)) : Prop where
  stored : s'.stored = s.stored
  selection : s'.selection = s.selection
  notices : s'.notices = s.notices

/-
  Outside of transactions in scoped mode, the change of a
  request is stored, and the snapshot of it fails.
-/
structure ChangesWithoutSnapshot
    (s : Session (Outage Memory))
    (r : Request) : Prop where
  mode : s.mode = .scoped
  outside : s.depth = 0
  reads : .load ∉ s.failing
  saves : .save ∉ s.failing
  pushes : .push ∈ s.failing
  changes :
    ∃ work a n w,
      r.task = .change work ∧
        work.run.run s.workspace = (.ok (a, some n), w) ∧
        w ≠ s.workspace

theorem untouched_refl (s : Session (Outage Memory)) :
    Untouched s s :=
  ⟨rfl, rfl, rfl⟩

theorem untouched_started (s : Session (Outage Memory)) :
    Untouched s s.started := by
  by_cases hMode : s.mode = .literal
  · unfold started
    rw [if_pos hMode]
    exact ⟨rfl, rfl, rfl⟩
  · unfold started
    rw [if_neg hMode]
    exact untouched_refl s

/- A change that stores what was there touches nothing. -/
theorem untouched_settled_iff
    (s : Session (Outage Memory))
    (w : Workspace) :
    Untouched s (s.settled w) ↔ w = s.workspace := by
  constructor
  · intro hUntouched
    have hStored : w.collection = s.stored :=
      hUntouched.stored
    have hSelection : w.selection = s.selection :=
      hUntouched.selection
    cases w with
    | mk collection selection =>
        unfold workspace
        rw [← hStored, ← hSelection]
  · intro hSame
    subst hSame
    exact ⟨rfl, rfl, rfl⟩

/- A failed change touches nothing, or is stored without its snapshot. -/
theorem untouched_or_settled_of_change_error
    {s s' : Session (Outage Memory)}
    {work : Work (Answer × Option Notice)}
    {e : Error}
    (hEnds : ChangeEnds s work (.error e) s') :
    Untouched s s' ∨
      s.Starts ∧ s.needsPrevious = true ∧
        .save ∉ s.failing ∧ .push ∈ s.failing ∧
        ∃ a n w,
          work.run.run s.workspace = (.ok (a, some n), w) ∧
            s' = s.settled w := by
  cases hEnds with
  | unread hLoad => exact .inl (untouched_refl s)
  | unrecorded hMode hPush => exact .inl (untouched_refl s)
  | refused hStarts hWork =>
      exact .inl (untouched_started s)
  | unsaved hStarts hWork hSave =>
      exact .inl (untouched_started s)
  | halfDone hStarts hWork hSave hNeeds hPush =>
      exact .inr
        ⟨hStarts, hNeeds, hSave, hPush, _, _, _, hWork,
          rfl⟩

/- A failed transaction statement touches nothing but the stack and the depth. -/
theorem untouched_of_control_error
    {s s' : Session (Outage Memory)}
    {c : Control}
    {e : Error}
    (hEnds : ControlEnds s c (.error e) s') :
    Untouched s s' := by
  cases hEnds with
  | lost => exact ⟨rfl, rfl, rfl⟩
  | unbegun => exact untouched_refl s
  | uncleared => exact untouched_refl s
  | unclosed => exact untouched_refl s
  | stuck => exact untouched_refl s

/- An answer keeps its failure in any form. -/
theorem eq_error_of_map_eq_error
    {α γ : Type}
    {answer : Except Error α}
    {form : α → γ}
    {e : Error}
    (hAnswer : answer.map form = .error e) :
    answer = .error e := by
  cases answer with
  | error e' =>
      cases hAnswer
      rfl
  | ok a => cases hAnswer

theorem untouched_of_error
    {s s' : Session (Outage Memory)}
    {r : Request}
    {answer : Except Error Answer}
    {e : Error}
    (hEnds : Ends s r.task answer s')
    (hError : answer = .error e)
    (hSnapshot : ¬ChangesWithoutSnapshot s r) :
    Untouched s s' := by
  generalize hTask : r.task = task at hEnds
  cases hEnds with
  | reject e => exact untouched_refl s
  | control hControl =>
      have hFailed := eq_error_of_map_eq_error hError
      subst hFailed
      exact untouched_of_control_error hControl
  | read hRead =>
      have hFailed := eq_error_of_map_eq_error hError
      subst hFailed
      cases hRead with
      | unread hLoad => exact untouched_refl s
      | refused hLoad hWork => exact untouched_refl s
  | change hChange =>
      subst hError
      rcases untouched_or_settled_of_change_error hChange with
        hUntouched |
        ⟨hStarts, hNeeds, hSave, hPush, a, n, w, hWork, rfl⟩
      · exact hUntouched
      · rw [untouched_settled_iff]
        by_cases hSame : w = s.workspace
        · exact hSame
        · have hScoped := (needsPrevious_iff s).mp hNeeds
          have hChanges : ChangesWithoutSnapshot s r :=
            { mode := hScoped.1
              outside := hScoped.2
              reads := hStarts.reads
              saves := hSave
              pushes := hPush
              changes := ⟨_, a, n, w, hTask, hWork, hSame⟩ }
          exact absurd hChanges hSnapshot
  | choose hChoose =>
      have hFailed := eq_error_of_map_eq_error hError
      subst hFailed
      cases hChoose with
      | unread hLoad => exact untouched_refl s
      | missing hLoad hFind => exact untouched_refl s

/- A change without its snapshot fails, and is stored. -/
theorem settled_of_changesWithoutSnapshot
    {s s' : Session (Outage Memory)}
    {r : Request}
    {answer : Except Error Answer}
    (hSnapshot : ChangesWithoutSnapshot s r)
    (hEnds : Ends s r.task answer s') :
    answer = .error Outage.failure ∧
      ∃ w, w ≠ s.workspace ∧ s' = s.settled w := by
  rcases hSnapshot.changes with
    ⟨work, a, n, w, hTask, hWork, hOther⟩
  have hNeeds : s.needsPrevious = true :=
    (needsPrevious_iff s).mpr
      ⟨hSnapshot.mode, hSnapshot.outside⟩
  rw [hTask] at hEnds
  cases hEnds with
  | change hChange =>
      cases hChange with
      | unread hLoad => exact absurd hLoad hSnapshot.reads
      | unrecorded hMode hPush =>
          rw [hSnapshot.mode] at hMode
          cases hMode
      | refused hStarts hWork' =>
          rw [hWork] at hWork'
          cases hWork'
      | silent hStarts hWork' =>
          rw [hWork] at hWork'
          cases hWork'
      | unsaved hStarts hWork' hSave =>
          exact absurd hSave hSnapshot.saves
      | halfDone hStarts hWork' hSave hNeeds' hPush =>
          rw [hWork] at hWork'
          cases hWork'
          exact ⟨rfl, w, hOther, rfl⟩
      | done hStarts hWork' hSave hPush =>
          exact absurd hSnapshot.pushes (hPush hNeeds)

/-
  A failed request touches nothing, exactly unless its change
  is stored and the snapshot of the change fails.
-/
theorem untouched_of_error_iff
    (s : Session (Outage Memory))
    (r : Request) :
    (∀ e, (s.handle r).1 = .error e →
      Untouched s (s.handle r).2) ↔
      ¬ChangesWithoutSnapshot s r := by
  have hEnds := handle_ends s r
  constructor
  · intro hUntouched hSnapshot
    rcases settled_of_changesWithoutSnapshot hSnapshot hEnds
      with ⟨hError, w, hOther, hState⟩
    have hSettled := hUntouched Outage.failure hError
    rw [hState, untouched_settled_iff] at hSettled
    exact hOther hSettled
  · intro hSnapshot e hError
    exact untouched_of_error hEnds hError hSnapshot

/-
  A database is created in a new session, and the snapshot
  of this change fails: the statement fails, and the database
  is there and selected.
-/
theorem created_without_snapshot :
    let s := inMemory .scoped none [.push]
    let r := Request.statement epoch "CREATE DATABASE d"
    (s.handle r).1 = .error Outage.failure ∧
      s.stored.databases = [] ∧
      (s.handle r).2.stored.databases ≠ [] ∧
      s.selection = none ∧
      (s.handle r).2.selection ≠ none := by
  decide +kernel

------------------------------------------------------------
-- Failed Transaction Statements
------------------------------------------------------------

/-
  A rollback takes a snapshot off the stack, and cannot store
  it.
-/
structure LosesSnapshot
    (s : Session (Outage Memory))
    (c : Control) : Prop where
  control : c = .rollback
  pops : .pop ∉ s.failing
  saves : .save ∈ s.failing
  stack : s.stack ≠ []

/-
  Nothing was done: the collection, the stack, the depth and
  the selection are those of before, and with any outage the
  request does what it would have done before.
-/
structure Repeatable
    (s s' : Session (Outage Memory))
    (r : Request) : Prop where
  stored : s'.stored = s.stored
  stack : s'.stack = s.stack
  depth : s'.depth = s.depth
  selection : s'.selection = s.selection
  again :
    ∀ names,
      (s'.withFailing names).handle r =
        (s.withFailing names).handle r

theorem repeatable_refl
    (s : Session (Outage Memory))
    (r : Request) :
    Repeatable s s r :=
  ⟨rfl, rfl, rfl, rfl, fun _ => rfl⟩

/- A transaction statement that fails did nothing, or lost a snapshot. -/
theorem eq_of_control_error
    {s s' : Session (Outage Memory)}
    {c : Control}
    {e : Error}
    (hEnds : ControlEnds s c (.error e) s')
    (hLoses : ¬LosesSnapshot s c) :
    s' = s := by
  cases hEnds with
  | lost hPop hStack hSave =>
      have hFull : s.stack ≠ [] := by
        rw [hStack]
        exact List.cons_ne_nil _ _
      exact absurd ⟨rfl, hPop, hSave, hFull⟩ hLoses
  | unbegun => rfl
  | uncleared => rfl
  | unclosed => rfl
  | stuck => rfl

/- A rollback that loses a snapshot fails, with one snapshot less. -/
theorem stack_of_losesSnapshot
    {s s' : Session (Outage Memory)}
    {c : Control}
    {answer : Except Error QueryResult}
    (hLoses : LosesSnapshot s c)
    (hEnds : ControlEnds s c answer s') :
    answer = .error Outage.failure ∧
      s'.stack = s.stack.tail := by
  have hControl := hLoses.control
  subst hControl
  cases hEnds with
  | stuck hPop => exact absurd hPop hLoses.pops
  | nothing hPop hStack => exact absurd hStack hLoses.stack
  | lost hPop hStack hSave =>
      refine ⟨rfl, ?_⟩
      rw [hStack]
      rfl
  | restored hPop hStack hSave =>
      exact absurd hLoses.saves hSave

/-
  A failed transaction statement can be repeated, exactly
  unless it lost a snapshot.
-/
theorem repeatable_of_error_iff
    (s : Session (Outage Memory))
    (r : Request)
    (c : Control)
    (hAsked : r.control? = some c) :
    (∀ e, (s.handle r).1 = .error e →
      Repeatable s (s.handle r).2 r) ↔
      ¬LosesSnapshot s c := by
  rcases control_ends_of_control? s hAsked with
    ⟨answer, hAnswer, hControl⟩
  rw [hAnswer]
  constructor
  · intro hRepeat hLoses
    rcases stack_of_losesSnapshot hLoses hControl with
      ⟨hError, hStack⟩
    subst hError
    have hSame := (hRepeat Outage.failure rfl).stack
    have hLength :
        s.stack.tail.length = s.stack.length := by
      rw [← hStack]
      exact congrArg List.length hSame
    have hPositive : 0 < s.stack.length :=
      List.length_pos_iff.mpr hLoses.stack
    rw [List.length_tail] at hLength
    omega
  · intro hLoses e hError
    have hFailed := eq_error_of_map_eq_error hError
    subst hFailed
    have hSame : (s.handle r).2 = s :=
      eq_of_control_error hControl hLoses
    rw [hSame]
    exact repeatable_refl s r

/-
  A commit that cannot clear the stack can be repeated: it
  did nothing.
-/
theorem failed_commit_is_repeatable :
    let s :=
      ((inMemory .literal none []).after
        (.statement epoch "BEGIN")).withFailing [.clear]
    let r := Request.statement epoch "COMMIT"
    (s.handle r).1 = .error Outage.failure ∧
      Repeatable s (s.handle r).2 r := by
  intro s r
  have hAsked : r.control? = some .commit := by
    decide +kernel
  have hError : (s.handle r).1 = .error Outage.failure := by
    decide +kernel
  have hKeeps : ¬LosesSnapshot s .commit := by
    intro hLoses
    cases hLoses.control
  exact
    ⟨hError,
      (repeatable_of_error_iff s r .commit hAsked).mpr hKeeps
        Outage.failure hError⟩

/-
  A rollback fails after a database was created and the store
  went out of order.  It is repeated when the store works:
  there is nothing left to go back to.
-/
theorem rollback_loses_snapshot :
    let s :=
      ((inMemory .literal none []).after
        (.statement epoch "CREATE DATABASE d")).withFailing
        [.save]
    let r := Request.statement epoch "ROLLBACK"
    (s.handle r).1 = .error Outage.failure ∧
      s.stack ≠ [] ∧
      (s.handle r).2.stack = [] ∧
      ((s.withFailing []).handle r).1 =
        .ok (.result
          (.message "Rolled back to previous snapshot")) ∧
      (((s.handle r).2.withFailing []).handle r).1 =
        .ok (.result (.message "Nothing to rollback")) := by
  decide +kernel

end Session

end Rowstore
