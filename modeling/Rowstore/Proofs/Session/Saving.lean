import Rowstore.Proofs.Session.Handling
import Rowstore.Proofs.Workspace.Effects

/-
  What is stored after a command that succeeds is what its
  work made of the copy that it ran on.

  Whether a session saves depends on two signals: whether the
  command counts as mutating, and whether its work comes with
  a notice.  Neither of them ever misses a change: a command
  that does not count as mutating leaves the collection as it
  is, and so does successful work without a notice.

  Main declarations:
    * `Session.workspace_of_change`
    * `Session.workspace_of_read`
    * `Session.saves_command`
-/

------------------------------------------------------------
-- The Workspace After A Request
------------------------------------------------------------

namespace Rowstore

namespace Session

variable {s s' : Session (Outage Memory)}

theorem workspace_started (s : Session (Outage Memory)) :
    s.started.workspace = s.workspace := by
  by_cases hMode : s.mode = .literal
  · simp [started, hMode, workspace]
  · simp [started, hMode]

/- A change that succeeds leaves the workspace of its work. -/
theorem workspace_of_change
    {α : Type}
    {names : List String}
    {times : List Moment}
    {ids : List TableId}
    {work : Work (α × Option Notice)}
    (hEffect : HasEffect names times ids work)
    {a : α}
    (hEnds : ChangeEnds s work (.ok a) s') :
    ∃ notice w,
      work.run.run s.workspace = (.ok (a, notice), w) ∧
        s'.workspace = w := by
  cases hEnds with
  | @silent _ w hStarts hWork =>
      -- Without a notice nothing is saved, and nothing has to be.
      refine ⟨none, w, hWork, ?_⟩
      cases hEffect hWork
      have hStored : s.started.stored = s.stored :=
        congrArg Workspace.collection (workspace_started s)
      exact congrArg (Workspace.mk · s.selection) hStored
  | @done _ n w hStarts hWork hSave hPush =>
      exact ⟨some n, w, hWork, rfl⟩

/- A command that is not mutating leaves the workspace of its work, too. -/
theorem workspace_of_read
    {stamp : Stamp}
    {c : Command}
    {result : QueryResult}
    (hEnds : ReadEnds s stamp c (.ok result) s') :
    ∃ o w,
      (Work.execute stamp c).run.run s.workspace =
        (.ok o, w) ∧
        result = o.result ∧ s'.workspace = w := by
  cases hEnds with
  | @shown o w hLoad hWork hSame =>
      refine ⟨o, w, hWork, rfl, ?_⟩
      rw [workspace, ← hSame]

/- A command that is not mutating selects something else only if it is asked to. -/
theorem eq_of_read
    {stamp : Stamp}
    {c : Command}
    (hReads : c.isMutating = false)
    (hOther : ∀ name, c ≠ .use name)
    {answer : Except Error QueryResult}
    (hEnds : ReadEnds s stamp c answer s') :
    s' = s := by
  cases hEnds with
  | unread => rfl
  | refused => rfl
  | @shown o w hLoad hWork hSame =>
      rcases Work.reads_execute_of_not_mutating stamp hReads
        with hExecute | ⟨name, hUse⟩
      · rw [hExecute.eq_of_run hWork]
        rfl
      · exact absurd hUse (hOther name)

end Session

end Rowstore

------------------------------------------------------------
-- Commands
------------------------------------------------------------

namespace Rowstore

namespace Session

open Execution

variable {text : String} {c : Command}

theorem task_of_mutating
    (stamp : Stamp)
    (hParse : Statement.parse text = .ok (.command c))
    (hMutating : c.isMutating = true) :
    (Request.statement stamp text).task =
      .change
        (answering .result (commandWork stamp c)) := by
  simp only [Request.task, hParse, Task.ofStatement,
    if_pos hMutating]

theorem task_of_not_mutating
    (stamp : Stamp)
    (hParse : Statement.parse text = .ok (.command c))
    (hReads : c.isMutating = false) :
    (Request.statement stamp text).task =
      .read stamp c := by
  simp only [Request.task, hParse, Task.ofStatement, hReads,
    Bool.false_eq_true, if_false]

/- The text of a command that is not mutating ends as a read of it does. -/
theorem read_ends_of_not_mutating
    (s : Session (Outage Memory))
    (stamp : Stamp)
    (hParse : Statement.parse text = .ok (.command c))
    (hReads : c.isMutating = false) :
    ∃ answer,
      (s.handle (.statement stamp text)).1 =
        answer.map .result ∧
        ReadEnds s stamp c answer
          (s.after (.statement stamp text)) := by
  have hEnds := handle_ends s (.statement stamp text)
  rw [task_of_not_mutating stamp hParse hReads] at hEnds
  unfold after
  generalize (s.handle (.statement stamp text)).1 = answer
    at hEnds ⊢
  generalize (s.handle (.statement stamp text)).2 = s'
    at hEnds ⊢
  cases hEnds with
  | read hRead => exact ⟨_, rfl, hRead⟩

/- An answer in another form comes from work that succeeds. -/
theorem commandWork_ok
    {stamp : Stamp}
    {w w' : Workspace}
    {answer : Answer}
    {notice : Option Notice}
    (hRun :
      (answering .result
        (commandWork stamp c)).run.run w =
        (.ok (answer, notice), w')) :
    ∃ o,
      (Work.execute stamp c).run.run w = (.ok o, w') ∧
        answer = .result o.result := by
  rcases run_bind_ok hRun with ⟨⟨b, n⟩, w₁, hWork, hForm⟩
  cases hForm
  rcases run_bind_ok hWork with ⟨o, w₂, hExecute, hDone⟩
  cases hDone
  exact ⟨o, hExecute, rfl⟩

/- A command that succeeds leaves the workspace of its work. -/
theorem workspace_after_command
    {s : Session (Outage Memory)}
    {stamp : Stamp}
    (hParse : Statement.parse text = .ok (.command c))
    {answer : Answer}
    (hOk :
      (s.handle (.statement stamp text)).1 = .ok answer) :
    ∃ o w,
      (Work.execute stamp c).run.run s.workspace =
        (.ok o, w) ∧
        answer = .result o.result ∧
        (s.after (.statement stamp text)).workspace =
          w := by
  cases hMutating : c.isMutating with
  | true =>
      have hTask := task_of_mutating stamp hParse hMutating
      have hEnds := change_ends_of_task s hTask
      rw [hOk] at hEnds
      rcases workspace_of_change (hasEffect_of_task hTask)
        hEnds with ⟨notice, w, hWork, hAfter⟩
      rcases commandWork_ok hWork with
        ⟨o, hExecute, hAnswer⟩
      exact ⟨o, w, hExecute, hAnswer, hAfter⟩
  | false =>
      rcases read_ends_of_not_mutating s stamp hParse
        hMutating with ⟨result, hAnswer, hEnds⟩
      rw [hOk] at hAnswer
      cases result with
      | error e => cases hAnswer
      | ok result =>
          cases hAnswer
          rcases workspace_of_read hEnds with
            ⟨o, w, hExecute, rfl, hAfter⟩
          exact ⟨o, w, hExecute, rfl, hAfter⟩

/-
  No update is lost, and no read writes.

  If a command succeeds, what is stored and selected is what
  its work made of what was stored and selected before.  A
  command that is not mutating changes at most the selection,
  which only `USE` does.  And the copy that is not saved,
  since a mutating command has no notice, is unchanged.
-/
theorem saves_command
    (s : Session (Outage Memory))
    (stamp : Stamp)
    (text : String)
    (c : Command)
    (hParse : Statement.parse text = .ok (.command c)) :
    let r := Request.statement stamp text
    let work := (Work.execute stamp c).run.run s.workspace
    (∀ answer,
      (s.handle r).1 = .ok answer →
        ∃ o w,
          work = (.ok o, w) ∧
            answer = .result o.result ∧
            (s.after r).stored = w.collection ∧
            (s.after r).selection = w.selection) ∧
      (c.isMutating = false →
        ∃ id,
          s.after r = { s with selection := id } ∧
            ((∀ name, c ≠ .use name) →
              id = s.selection)) ∧
      (c.isMutating = true →
        ∀ o w,
          work = (.ok o, w) →
            o.notice = none → w = s.workspace) := by
  intro r work
  refine ⟨?_, ?_, ?_⟩
  · intro answer hOk
    rcases workspace_after_command hParse hOk with
      ⟨o, w, hExecute, hAnswer, hAfter⟩
    exact
      ⟨o, w, hExecute, hAnswer,
        congrArg Workspace.collection hAfter,
        congrArg Workspace.selection hAfter⟩
  · intro hReads
    rcases read_ends_of_not_mutating s stamp hParse hReads
      with ⟨answer, _, hEnds⟩
    by_cases hOther : ∀ name, c ≠ .use name
    · have hSame := eq_of_read hReads hOther hEnds
      exact ⟨s.selection, hSame, fun _ => rfl⟩
    · rcases eq_selected_of_read hEnds with ⟨id, hAfter⟩
      exact ⟨id, hAfter, fun h => absurd h hOther⟩
  · intro hMutating o w hRun hNotice
    have hEffect := Work.effect_of_execute hMutating hRun
    rw [hNotice] at hEffect
    cases hEffect
    rfl

/- A row is inserted: what the work made of the copy is stored, and is new. -/
theorem saves_insert :
    let s :=
      (inMemory .scoped none []).afterAll
        [.statement epoch "CREATE DATABASE d",
          .statement epoch "CREATE TABLE t (a TEXT)"]
    let text := "INSERT INTO t (a) VALUES ('x')"
    let c := Command.insert "t" ["a"] ["'x'"]
    let r := Request.statement epoch text
    Statement.parse text = .ok (.command c) ∧
      ∃ o w,
        (Work.execute epoch c).run.run s.workspace =
          (.ok o, w) ∧
          (s.after r).stored = w.collection ∧
          (s.after r).stored ≠ s.stored := by
  intro s text c r
  have hParse : Statement.parse text = .ok (.command c) := by
    decide +kernel
  have hOk :
      (s.handle r).1 =
        .ok (.result (.message "1 row inserted (id 1)")) := by
    decide +kernel
  have hNew : (s.after r).stored ≠ s.stored := by
    decide +kernel
  rcases (saves_command s epoch text c hParse).1 _ hOk with
    ⟨o, w, hWork, _, hStored, _⟩
  exact ⟨hParse, o, w, hWork, hStored, hNew⟩

end Session

end Rowstore
