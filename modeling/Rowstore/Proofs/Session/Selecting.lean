import Rowstore.Proofs.Session.Atomicity
import Rowstore.Proofs.Session.Reaching
import Rowstore.Proofs.Session.Saving
import Rowstore.Proofs.Workspace.Selecting

/-
  Statements that read, update and delete rows agree on the
  rows that a condition selects.

  Main declarations:
    * `Session.Answers`
    * `Session.selection_agrees`
-/

------------------------------------------------------------
-- Commands Without Outage
------------------------------------------------------------

namespace Rowstore

namespace Session

open Execution

variable {s : Session (Outage Memory)} {c : Command}

/-
  What is answered to every text of a command, and what is
  stored after it.
-/
def Answers
    (s : Session (Outage Memory))
    (c : Command)
    (answer : Except Error QueryResult)
    (stored : Collection) : Prop :=
  ∀ stamp text,
    Statement.parse text = .ok (.command c) →
      (s.handle (.statement stamp text)).1 =
          answer.map .result ∧
        (s.after (.statement stamp text)).stored = stored

theorem run_commandWork
    (stamp : Stamp)
    (c : Command)
    (w : Workspace) :
    (answering .result (commandWork stamp c)).run.run w =
      match (Work.execute stamp c).run.run w with
      | (.ok o, w') =>
        (.ok (.result o.result, o.notice), w')
      | (.error e, w') => (.error e, w') := by
  rcases hExecute :
      (Work.execute stamp c).run.run w with ⟨e | o, w'⟩
  · simp only [run_answering, commandWork, run_bind,
      hExecute]
  · simp only [run_answering, commandWork, run_bind,
      hExecute, run_pure]

/- Without outage a change answers as its work does. -/
theorem answer_of_change
    (hWorks : s.failing = [])
    {α : Type}
    {work : Work (α × Option Notice)}
    {answer : Except Error α}
    {s' : Session (Outage Memory)}
    (hEnds : ChangeEnds s work answer s') :
    answer = (work.run.run s.workspace).1.map Prod.fst := by
  have hNone : ∀ name, name ∉ s.failing := by
    rw [hWorks]
    exact fun _ => List.not_mem_nil
  cases hEnds with
  | unread hLoad => exact absurd hLoad (hNone .load)
  | unrecorded hMode hPush =>
      exact absurd hPush (hNone .push)
  | refused hStarts hWork =>
      rw [hWork]
      rfl
  | silent hStarts hWork =>
      rw [hWork]
      rfl
  | unsaved hStarts hWork hSave =>
      exact absurd hSave (hNone .save)
  | halfDone hStarts hWork hSave hNeeds hPush =>
      exact absurd hPush (hNone .push)
  | done hStarts hWork hSave hPush =>
      rw [hWork]
      rfl

/- Without outage a command that is not mutating answers as its work does. -/
theorem answer_of_read
    (hWorks : s.failing = [])
    {stamp : Stamp}
    {answer : Except Error QueryResult}
    {s' : Session (Outage Memory)}
    (hEnds : ReadEnds s stamp c answer s') :
    answer =
      ((Work.execute stamp c).run.run s.workspace).1.map
        Outcome.result := by
  cases hEnds with
  | unread hLoad =>
      rw [hWorks] at hLoad
      cases hLoad
  | refused hLoad hWork =>
      rw [hWork]
      rfl
  | shown hLoad hWork hSame =>
      rw [hWork]
      rfl

/- Without outage a command is answered as its work answers. -/
theorem answer_of_command
    (hWorks : s.failing = [])
    {text : String}
    (hParse : Statement.parse text = .ok (.command c))
    (stamp : Stamp) :
    (s.handle (.statement stamp text)).1 =
      ((Work.execute stamp c).run.run s.workspace).1.map
        fun o => .result o.result := by
  cases hMutating : c.isMutating with
  | true =>
      have hEnds :=
        change_ends_of_task s
          (task_of_mutating stamp hParse hMutating)
      rw [answer_of_change hWorks hEnds, run_commandWork]
      rcases (Work.execute stamp c).run.run s.workspace with
        ⟨e | o, w⟩
      · rfl
      · rfl
  | false =>
      rcases read_ends_of_not_mutating s stamp hParse
        hMutating with ⟨answer, hAnswer, hEnds⟩
      rw [hAnswer, answer_of_read hWorks hEnds]
      rcases (Work.execute stamp c).run.run s.workspace with
        ⟨e | o, w⟩
      · rfl
      · rfl

/- Work that succeeds leaves its workspace to the session. -/
theorem workspace_of_execute_ok
    (hWorks : s.failing = [])
    {stamp : Stamp}
    {text : String}
    (hParse : Statement.parse text = .ok (.command c))
    {o : Outcome}
    {w : Workspace}
    (hRun :
      (Work.execute stamp c).run.run s.workspace =
        (.ok o, w)) :
    (s.after (.statement stamp text)).workspace = w := by
  have hAnswer := answer_of_command hWorks hParse stamp
  rw [hRun] at hAnswer
  rcases workspace_after_command hParse hAnswer with
    ⟨_, w', hOther, _, hAfter⟩
  rw [hRun] at hOther
  cases hOther
  exact hAfter

/- Work that succeeds gives the answer, and what is stored. -/
theorem answers_of_execute_ok
    (hWorks : s.failing = [])
    {result : QueryResult}
    {w : Workspace}
    (hExecute :
      ∀ stamp,
        ∃ o,
          (Work.execute stamp c).run.run s.workspace =
            (.ok o, w) ∧
            o.result = result) :
    s.Answers c (.ok result) w.collection := by
  intro stamp text hParse
  rcases hExecute stamp with ⟨o, hRun, rfl⟩
  have hAnswer := answer_of_command hWorks hParse stamp
  rw [hRun] at hAnswer
  have hAfter := workspace_of_execute_ok hWorks hParse hRun
  exact ⟨hAnswer, congrArg Workspace.collection hAfter⟩

/- Work that fails gives the failure, and nothing is stored. -/
theorem answers_of_execute_error
    (hWorks : s.failing = [])
    {e : Error}
    (hExecute :
      ∀ stamp,
        ∃ w,
          (Work.execute stamp c).run.run s.workspace =
            (.error e, w)) :
    s.Answers c (.error e) s.stored := by
  intro stamp text hParse
  rcases hExecute stamp with ⟨w, hRun⟩
  have hAnswer := answer_of_command hWorks hParse stamp
  rw [hRun] at hAnswer
  refine ⟨hAnswer, ?_⟩
  have hWhole :
      ¬ChangesWithoutSnapshot s
        (.statement stamp text) := by
    intro hSnapshot
    have hPush := hSnapshot.pushes
    rw [hWorks] at hPush
    cases hPush
  exact
    (untouched_of_error
      (handle_ends s (.statement stamp text)) hAnswer
      hWhole).stored

end Session

end Rowstore

------------------------------------------------------------
-- Selected Rows
------------------------------------------------------------

namespace Rowstore

namespace Session

variable {s : Session (Outage Memory)}

/- A table of the selected database of a reachable session is identified. -/
theorem identified_of_tableNamed
    (hReachable : s.Reachable)
    {name : String}
    {t : Table}
    (hTable : s.workspace.tableNamed name = .ok t) :
    t.Identified := by
  have hStored : s.stored.Identified :=
    (memory_safe_of_reachable lasts_identified
      hReachable).stored
  rcases Workspace.tableNamed_eq_ok_iff.mp hTable with
    ⟨d, hActive, hFind⟩
  rcases Workspace.active?_eq_some_iff.mp hActive with
    ⟨_, hDatabase⟩
  exact hStored d (List.mem_of_find?_eq_some hDatabase) t
    (List.mem_of_find?_eq_some hFind)

/-
  Reading, deleting and updating agree on the rows that an
  optional condition selects.

  Let the condition have a meaning `p` in a table.  Then
  `SELECT *` answers with the rows that pass `p`, as they
  are; `DELETE` leaves the rows that do not pass it; and
  `UPDATE` gives each row that passes it the values that are
  assigned last, and leaves the others.  All three report the
  number of rows that pass `p`, and nothing else of what is
  stored changes.  If the condition has no meaning in the
  table, all three fail in the same way and change nothing.
-/
theorem selection_agrees
    (hReachable : s.Reachable)
    (hWorks : s.failing = [])
    {name : String}
    {t : Table}
    (hTable : s.workspace.tableNamed name = .ok t)
    (condition : Option String)
    (assignments : List Assignment)
    (hColumns :
      ∀ a ∈ assignments, (t.column? a.column).isSome) :
    let select := Command.select .all name condition
    let delete := Command.delete name condition
    let update := Command.update name assignments condition
    let replaced := fun rows =>
      (s.workspace.replaceTable name
        { t with rows := rows }).collection
    (∀ p,
      t.meaning condition = .ok p →
        let selected := t.rows.filter p
        s.Answers select
            (.ok
              (.rows t.columns selected
                s!"{selected.length} row(s) returned"))
            s.stored ∧
          s.Answers delete
            (.ok
              (.message
                s!"{selected.length} row(s) deleted"))
            (replaced (t.rows.filter fun r => !p r)) ∧
          ∃ f : Row → Row,
            (∀ r, t.Assigns assignments r (f r)) ∧
              s.Answers update
                (.ok
                  (.message
                    s!"{selected.length} row(s) updated"))
                (replaced
                  (t.rows.map fun r =>
                    if p r then f r else r))) ∧
      (∀ e,
        t.meaning condition = .error e →
          s.Answers select (.error e) s.stored ∧
            s.Answers delete (.error e) s.stored ∧
            s.Answers update (.error e) s.stored) := by
  intro select delete update replaced
  have hIdentified := identified_of_tableNamed hReachable hTable
  constructor
  · intro p hMeaning selected
    refine ⟨?_, ?_, _, Table.assigns_assign t assignments, ?_⟩
    · apply answers_of_execute_ok hWorks (w := s.workspace)
      intro stamp
      exact
        ⟨_, Work.run_select hTable hIdentified hMeaning, rfl⟩
    · apply answers_of_execute_ok hWorks
      intro stamp
      rcases Work.run_delete hTable hIdentified hMeaning with
        ⟨d, hRun⟩
      exact ⟨_, hRun, rfl⟩
    · apply answers_of_execute_ok hWorks
      intro stamp
      rcases Work.run_update hTable hIdentified hMeaning
        hColumns with ⟨d, hRun⟩
      exact ⟨_, hRun, rfl⟩
  · intro e hMeaning
    refine ⟨?_, ?_, ?_⟩
    · apply answers_of_execute_error hWorks
      intro stamp
      exact ⟨_, Work.run_select_error hTable hMeaning⟩
    · apply answers_of_execute_error hWorks
      intro stamp
      exact Work.run_delete_error hTable hMeaning
    · apply answers_of_execute_error hWorks
      intro stamp
      exact Work.run_update_error hTable hMeaning hColumns

/- One of two rows is read, deleted and updated; the last assignment counts. -/
theorem one_row_is_selected :
    let s :=
      (inMemory .literal none []).afterAll
        [.statement epoch "CREATE DATABASE d",
          .statement epoch "CREATE TABLE t (a TEXT)",
          .insertRow "t" [("a", "x")],
          .insertRow "t" [("a", "y")]]
    let column : Column :=
      { id := ⟨1⟩
        name := "a"
        base := .text
        declaredType := "TEXT"
        length := none
        precision := none
        scale := none
        isPrimaryKey := false }
    let row : Nat → String → Row := fun n text =>
      { id := ⟨n⟩
        cells := .ofList [(⟨1⟩, .text text)] }
    let t : Table :=
      { id := ⟨⟨0⟩⟩
        name := "t"
        columns := [column]
        rows := [row 1 "x", row 2 "y"]
        counters := ⟨2, 3⟩ }
    let replaced := fun rows =>
      (s.workspace.replaceTable "t"
        { t with rows := rows }).collection
    let condition := some "a = 'x'"
    s.Answers (.select .all "t" condition)
        (.ok (.rows [column] [row 1 "x"] "1 row(s) returned"))
        s.stored ∧
      s.Answers (.delete "t" condition)
        (.ok (.message "1 row(s) deleted"))
        (replaced [row 2 "y"]) ∧
      s.Answers
        (.update "t" [⟨"a", "'v'"⟩, ⟨"A", "'w'"⟩] condition)
        (.ok (.message "1 row(s) updated"))
        (replaced [row 1 "w", row 2 "y"]) := by
  intro s column row t replaced condition
  have hReachable : s.Reachable :=
    reachable_afterAll (reachable_inMemory .literal none []) _
  have hWorks : s.failing = [] := by
    decide +kernel
  have hTable : s.workspace.tableNamed "t" = .ok t := by
    decide +kernel
  have hParse :
      Condition.parse "a = 'x'" =
        .ok
          { column := "a"
            op := .eq
            literal := .text "x" } := by
    decide +kernel
  have hColumn : t.column? "a" = some column := by
    decide +kernel
  let p : Row → Bool := fun r =>
    Comparison.eq.holds ((r.cells.get? ⟨1⟩).getD .null)
      (.text "x")
  have hMeaning : t.meaning condition = .ok p := by
    simp only [Table.meaning, condition, hParse, hColumn]
    rfl
  have hSelected : t.rows.filter p = [row 1 "x"] := by
    decide +kernel
  have hOthers :
      (t.rows.filter fun r => !p r) = [row 2 "y"] := by
    decide +kernel
  have hUpper : t.column? "A" = some column := by
    decide +kernel
  have hColumns :
      ∀ a ∈ [(⟨"a", "'v'"⟩ : Assignment), ⟨"A", "'w'"⟩],
        (t.column? a.column).isSome := by
    simp [hColumn, hUpper]
  rcases (selection_agrees hReachable hWorks hTable condition
      _ hColumns).1 p hMeaning with
    ⟨hSelect, hDelete, f, hAssigns, hUpdate⟩
  have hAssigned :
      t.Assigns [⟨"a", "'v'"⟩, ⟨"A", "'w'"⟩] (row 1 "x")
        (row 1 "w") := by
    refine ⟨rfl, ?_⟩
    intro k
    by_cases hKey : k = ⟨1⟩
    · subst hKey
      decide +kernel
    · have hOther : ⟨1⟩ ≠ k := fun h => hKey h.symm
      simp [Table.assigned?, hColumn, hUpper, column,
        hOther, row, Cells.ofList_eq_putAll,
        Cells.get?_putAll, Cell.lookup_cons, hKey]
  have hUpdated : f (row 1 "x") = row 1 "w" :=
    (hAssigns (row 1 "x")).unique hAssigned
  have hRows :
      (t.rows.map fun r => if p r then f r else r) =
        [row 1 "w", row 2 "y"] := by
    rw [← hUpdated]
    rfl
  have hCount : (t.rows.filter p).length = 1 := by
    rw [hSelected]
    rfl
  have hReturned :
      s!"{1} row(s) returned" = "1 row(s) returned" := by
    decide +kernel
  have hDeleted :
      s!"{1} row(s) deleted" = "1 row(s) deleted" := by
    decide +kernel
  have hChanged :
      s!"{1} row(s) updated" = "1 row(s) updated" := by
    decide +kernel
  rw [hCount, hSelected, hReturned] at hSelect
  rw [hCount, hDeleted] at hDelete
  rw [hCount, hChanged] at hUpdate
  rw [hOthers] at hDelete
  rw [hRows] at hUpdate
  exact ⟨hSelect, hDelete, hUpdate⟩

end Session

end Rowstore
