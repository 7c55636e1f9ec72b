import Rowstore.Proofs.Session.Endings
import Rowstore.Proofs.Workspace.Reading

/-
  All the ways in which a request can end, over a backend in
  memory any calls of which may be out of order.

  Main declarations:
    * `Session.Ends` and `Session.handle_ends`
    * `Session.SameSettings` and
      `Session.sameSettings_ends`
-/

namespace Rowstore

namespace Session

open Execution

------------------------------------------------------------
-- Requests And Their Tasks
------------------------------------------------------------

/- Only the form of the answer differs. -/
theorem run_answering
    {α : Type}
    (form : α → Answer)
    (work : Work (α × Option Notice))
    (w : Workspace) :
    (answering form work).run.run w =
      match work.run.run w with
      | (.ok (a, notice), w') => (.ok (form a, notice), w')
      | (.error e, w') => (.error e, w') := by
  cases hWork : work.run.run w with
  | mk answer w' =>
      cases answer with
      | ok answer =>
          simp only [answering, run_bind, hWork, run_pure]
      | error e => simp only [answering, run_bind, hWork]

variable {β : Type} [Backend β]

/- The answer of a change can take its form inside or outside of the change. -/
theorem run_change_answering
    {α : Type}
    (form : α → Answer)
    (work : Work (α × Option Notice))
    (s : Session β) :
    (do
      let a ← change work
      pure (form a) : Action β Answer).run.run s =
      (change (answering form work)).run.run s := by
  simp only [change, changeLoaded, run_bind]
  rcases (onBackend Backend.load).run.run s with
    ⟨_ | current, s₁⟩
  · rfl
  simp only
  rcases (beforeChange current).run.run s₁ with
    ⟨_ | _, s₂⟩
  · rfl
  simp only [run_get, run_answering]
  rcases work.run.run
      { collection := current
        selection := s₂.selection } with
    ⟨_ | ⟨a, notice⟩, w⟩
  · simp only [run_bind, run_lift]
  cases notice with
  | none =>
      simp only [run_bind, run_lift, run_pure]
      rcases (setSelection w.selection).run.run s₂ with
        ⟨_ | _, s₃⟩
      · rfl
      · rfl
  | some n =>
      simp only [run_bind, run_lift, run_pure]
      rcases (settle
          (if s₂.needsPrevious = true then some current
            else none) w n).run.run s₂ with
        ⟨_ | _, s₃⟩
      · rfl
      · rfl

/- A statement does what its task says. -/
theorem run_run
    (stamp : Stamp)
    (statement : Statement)
    (s : Session β) :
    (do
      let result ← run stamp statement
      pure (.result result) : Action β Answer).run.run s =
      (perform (.ofStatement stamp statement)).run.run s := by
  cases statement with
  | control c => rfl
  | command c =>
      simp only [run, Task.ofStatement]
      by_cases hMutating : c.isMutating = true
      · simp only [if_pos hMutating]
        exact run_change_answering .result
          (commandWork stamp c) s
      · simp only [if_neg hMutating]
        rfl

/- A request does what its task says. -/
theorem run_serve
    (r : Request)
    (s : Session β) :
    (serve r).run.run s = (perform r.task).run.run s := by
  cases r with
  | statement stamp text =>
      unfold Request.task
      cases hParse : Statement.parse text with
      | error e =>
          simp only [serve, execute, hParse, run_bind,
            run_lift, perform, run_throw]
      | ok statement =>
          have hRun := run_run stamp statement s
          simp only [run_bind] at hRun
          simp only [serve, execute, hParse, run_bind,
            run_lift, hRun]
  | insertRow table entries =>
      exact run_change_answering .row
        (rowWork table (Edit.insertEntered entries)) s
  | updateCell table id column raw =>
      exact run_change_answering .stored
        (rowWork table (Edit.updateEntered id column raw)) s
  | deleteRows table ids =>
      exact run_change_answering .removed
        (rowWork table (Edit.deleteListed ids)) s
  | choose name => rfl

theorem control?_eq_some_iff
    (r : Request)
    (c : Control) :
    r.control? = some c ↔ r.task = .control c := by
  cases hTask : r.task with
  | control c' => simp [Request.control?, hTask]
  | reject e => simp [Request.control?, hTask]
  | read stamp c' => simp [Request.control?, hTask]
  | change work => simp [Request.control?, hTask]
  | choose name => simp [Request.control?, hTask]

/- A statement is only read if its command is not mutating. -/
theorem isMutating_eq_false_of_ofStatement
    {stamp stamp' : Stamp}
    {statement : Statement}
    {c : Command}
    (hTask :
      Task.ofStatement stamp' statement = .read stamp c) :
    c.isMutating = false := by
  unfold Task.ofStatement at hTask
  cases statement with
  | control c' => cases hTask
  | command c' =>
      cases hMutating : c'.isMutating with
      | true => simp [hMutating] at hTask
      | false =>
          simp only [hMutating, Bool.false_eq_true, if_false,
            Task.read.injEq] at hTask
          rw [← hTask.2]
          exact hMutating

/- A task only reads if its command is not mutating. -/
theorem isMutating_eq_false_of_task
    {r : Request}
    {stamp : Stamp}
    {c : Command}
    (hTask : r.task = .read stamp c) :
    c.isMutating = false := by
  unfold Request.task at hTask
  cases r with
  | statement stamp' text =>
      cases hParse : Statement.parse text with
      | error e => simp [hParse] at hTask
      | ok statement =>
          simp only [hParse] at hTask
          exact isMutating_eq_false_of_ofStatement hTask
  | insertRow table entries => cases hTask
  | updateCell table id column raw => cases hTask
  | deleteRows table ids => cases hTask
  | choose name => cases hTask

end Session

end Rowstore

------------------------------------------------------------
-- Endings Of Requests
------------------------------------------------------------

namespace Rowstore

namespace Session

open Execution

/- How a command that is not mutating ends. -/
inductive ReadEnds
    (s : Session (Outage Memory))
    (stamp : Stamp)
    (c : Command) :
    Except Error QueryResult →
      Session (Outage Memory) → Prop where
| unread
    (hLoad : .load ∈ s.failing) :
    ReadEnds s stamp c (.error Outage.failure) s
| refused
    {e : Error}
    (hLoad : .load ∉ s.failing)
    (hWork :
      (Work.execute stamp c).run.run s.workspace =
        (.error e, s.workspace)) :
    ReadEnds s stamp c (.error e) s
| shown
    {o : Outcome}
    {w : Workspace}
    (hLoad : .load ∉ s.failing)
    (hWork :
      (Work.execute stamp c).run.run s.workspace =
        (.ok o, w))
    (hSame : w.collection = s.stored) :
    ReadEnds s stamp c (.ok o.result)
      { s with selection := w.selection }

/- How the selection of a database by name ends. -/
inductive ChooseEnds
    (s : Session (Outage Memory))
    (name : String) :
    Except Error Unit → Session (Outage Memory) → Prop where
| unread
    (hLoad : .load ∈ s.failing) :
    ChooseEnds s name (.error Outage.failure) s
| missing
    (hLoad : .load ∉ s.failing)
    (hFind : s.stored.findByName? name = none) :
    ChooseEnds s name (.error (.databaseNotFound name)) s
| chosen
    {d : Database}
    (hLoad : .load ∉ s.failing)
    (hFind : s.stored.findByName? name = some d) :
    ChooseEnds s name (.ok ())
      { s with selection := some d.id }

/- How a task ends. -/
inductive Ends
    (s : Session (Outage Memory)) :
    Task → Except Error Answer →
      Session (Outage Memory) → Prop where
| reject
    (e : Error) :
    Ends s (.reject e) (.error e) s
| control
    {c : Control}
    {answer : Except Error QueryResult}
    {s' : Session (Outage Memory)}
    (hControl : ControlEnds s c answer s') :
    Ends s (.control c) (answer.map .result) s'
| read
    {stamp : Stamp}
    {c : Command}
    {answer : Except Error QueryResult}
    {s' : Session (Outage Memory)}
    (hRead : ReadEnds s stamp c answer s') :
    Ends s (.read stamp c) (answer.map .result) s'
| change
    {work : Work (Answer × Option Notice)}
    {answer : Except Error Answer}
    {s' : Session (Outage Memory)}
    (hChange : ChangeEnds s work answer s') :
    Ends s (.change work) answer s'
| choose
    {name : String}
    {answer : Except Error Unit}
    {s' : Session (Outage Memory)}
    (hChoose : ChooseEnds s name answer s') :
    Ends s (.choose name)
      (answer.map fun _ => .chosen) s'

theorem read_ends
    (s : Session (Outage Memory))
    (stamp : Stamp)
    {c : Command}
    (hReads : c.isMutating = false) :
    ReadEnds s stamp c
      ((read stamp c).run.run s).1
      ((read stamp c).run.run s).2 := by
  by_cases hLoad : .load ∈ s.failing
  · simp only [read, run_bind, run_load, if_pos hLoad]
    exact .unread hLoad
  have hSame :=
    Work.collection_execute_of_not_mutating stamp hReads
      s.workspace
  rcases hWork :
      (Work.execute stamp c).run.run s.workspace with
    ⟨e | o, w⟩
  · have hKept :=
      Work.execute_error_of_not_mutating stamp hReads hWork
    subst hKept
    have hRun :
        (read stamp c).run.run s = (.error e, s) := by
      rw [workspace] at hWork
      simp only [read, run_bind, run_load, if_neg hLoad,
        run_get, hWork, setSelection, run_modify, run_lift]
    rw [hRun]
    exact .refused hLoad hWork
  · rw [hWork] at hSame
    have hRun :
        (read stamp c).run.run s =
          (.ok o.result,
            { s with selection := w.selection }) := by
      rw [workspace] at hWork
      simp only [read, run_bind, run_load, if_neg hLoad,
        run_get, hWork, setSelection, run_modify, run_lift,
        run_pure]
    rw [hRun]
    exact .shown hLoad hWork hSame

theorem choose_ends
    (s : Session (Outage Memory))
    (name : String) :
    ChooseEnds s name
      ((choose name).run.run s).1
      ((choose name).run.run s).2 := by
  by_cases hLoad : .load ∈ s.failing
  · simp only [choose, run_bind, run_load, if_pos hLoad]
    exact .unread hLoad
  cases hFind : s.stored.findByName? name with
  | none =>
      simp only [choose, run_bind, run_load, if_neg hLoad,
        hFind, run_throw]
      exact .missing hLoad hFind
  | some d =>
      simp only [choose, run_bind, run_load, if_neg hLoad,
        hFind, setSelection, run_modify]
      exact .chosen hLoad hFind

/- A command that is not mutating changes at most the selection. -/
theorem eq_selected_of_read
    {s s' : Session (Outage Memory)}
    {stamp : Stamp}
    {c : Command}
    {answer : Except Error QueryResult}
    (hRead : ReadEnds s stamp c answer s') :
    ∃ id, s' = { s with selection := id } := by
  cases hRead with
  | unread => exact ⟨s.selection, rfl⟩
  | refused => exact ⟨s.selection, rfl⟩
  | shown => exact ⟨_, rfl⟩

/- So does the selection of a database by name. -/
theorem eq_selected_of_choose
    {s s' : Session (Outage Memory)}
    {name : String}
    {answer : Except Error Unit}
    (hChoose : ChooseEnds s name answer s') :
    ∃ id, s' = { s with selection := id } := by
  cases hChoose with
  | unread => exact ⟨s.selection, rfl⟩
  | missing => exact ⟨s.selection, rfl⟩
  | chosen => exact ⟨_, rfl⟩

/- What is done with an answer does not change the session. -/
theorem run_map_answer
    {β α γ : Type}
    (x : Action β α)
    (form : α → γ)
    (s : Session β) :
    (do
      let a ← x
      pure (form a) : Action β γ).run.run s =
      ((x.run.run s).1.map form, (x.run.run s).2) := by
  rw [run_bind]
  rcases x.run.run s with ⟨_ | _, s'⟩
  · rfl
  · rfl

theorem handle_ends
    (s : Session (Outage Memory))
    (r : Request) :
    Ends s r.task (s.handle r).1 (s.handle r).2 := by
  unfold handle
  rw [run_serve]
  cases hTask : r.task with
  | reject e => exact .reject e
  | control c =>
      simp only [perform, run_map_answer]
      exact .control (control_ends s c)
  | read stamp c =>
      simp only [perform, run_map_answer]
      exact .read
        (read_ends s stamp (isMutating_eq_false_of_task hTask))
  | change work => exact .change (change_ends s work)
  | choose name =>
      simp only [perform, run_map_answer]
      exact .choose (choose_ends s name)

/- A request for transaction control ends as its control does. -/
theorem control_ends_of_control?
    (s : Session (Outage Memory))
    {r : Request}
    {c : Control}
    (hAsked : r.control? = some c) :
    ∃ answer,
      (s.handle r).1 = answer.map .result ∧
        ControlEnds s c answer (s.after r) := by
  have hEnds := handle_ends s r
  rw [control?_eq_some_iff] at hAsked
  rw [hAsked] at hEnds
  unfold after
  generalize (s.handle r).1 = answer at hEnds ⊢
  generalize (s.handle r).2 = s' at hEnds ⊢
  cases hEnds with
  | control hControl => exact ⟨_, rfl, hControl⟩

/- A request for a change ends as its change does. -/
theorem change_ends_of_task
    (s : Session (Outage Memory))
    {r : Request}
    {work : Work (Answer × Option Notice)}
    (hTask : r.task = .change work) :
    ChangeEnds s work (s.handle r).1 (s.after r) := by
  have hEnds := handle_ends s r
  rw [hTask] at hEnds
  unfold after
  generalize (s.handle r).1 = answer at hEnds ⊢
  generalize (s.handle r).2 = s' at hEnds ⊢
  cases hEnds with
  | change hChange => exact hChange

------------------------------------------------------------
-- Settings
------------------------------------------------------------

/- The mode, the limit and the outage are the same. -/
structure SameSettings
    (s s' : Session (Outage Memory)) : Prop where
  mode : s'.mode = s.mode
  limit : s'.limit = s.limit
  failing : s'.failing = s.failing

theorem sameSettings_refl (s : Session (Outage Memory)) :
    SameSettings s s :=
  ⟨rfl, rfl, rfl⟩

theorem sameSettings_started (s : Session (Outage Memory)) :
    SameSettings s s.started := by
  by_cases hMode : s.mode = .literal
  · unfold started
    rw [if_pos hMode]
    exact ⟨rfl, rfl, rfl⟩
  · unfold started
    rw [if_neg hMode]
    exact sameSettings_refl s

theorem sameSettings_recorded (s : Session (Outage Memory)) :
    SameSettings s s.recorded := by
  by_cases hTakes : s.mode = .literal ∨ s.depth = 0
  · unfold recorded
    rw [if_pos hTakes]
    exact ⟨rfl, rfl, rfl⟩
  · unfold recorded
    rw [if_neg hTakes]
    exact sameSettings_refl s

theorem sameSettings_change
    {α : Type}
    {s s' : Session (Outage Memory)}
    {work : Work (α × Option Notice)}
    {answer : Except Error α}
    (hEnds : ChangeEnds s work answer s') :
    SameSettings s s' := by
  have hStarted := sameSettings_started s
  have hRecorded := sameSettings_recorded s
  cases hEnds with
  | unread => exact sameSettings_refl s
  | unrecorded => exact sameSettings_refl s
  | refused => exact hStarted
  | silent =>
      exact
        ⟨hStarted.mode, hStarted.limit, hStarted.failing⟩
  | unsaved => exact hStarted
  | halfDone => exact ⟨rfl, rfl, rfl⟩
  | done =>
      exact
        ⟨hRecorded.mode, hRecorded.limit, hRecorded.failing⟩

theorem sameSettings_returned
    (s : Session (Outage Memory))
    (c : Collection) :
    SameSettings s (s.returned c) := by
  cases hActive : s.selection.bind c.get? with
  | none =>
      simp only [returned, hActive]
      exact ⟨rfl, rfl, rfl⟩
  | some d =>
      simp only [returned, hActive]
      exact ⟨rfl, rfl, rfl⟩

theorem sameSettings_control
    {s s' : Session (Outage Memory)}
    {c : Control}
    {answer : Except Error QueryResult}
    (hEnds : ControlEnds s c answer s') :
    SameSettings s s' := by
  cases hEnds with
  | restored hPop hStack hSave =>
      rename_i snapshot rest
      have hReturned := sameSettings_returned
        { s.withStack rest with depth := s.depth - 1 }
        snapshot
      exact
        ⟨hReturned.mode, hReturned.limit,
          hReturned.failing⟩
  | unbegun => exact sameSettings_refl s
  | uncleared => exact sameSettings_refl s
  | idle => exact sameSettings_refl s
  | unclosed => exact sameSettings_refl s
  | stuck => exact sameSettings_refl s
  | begun => exact ⟨rfl, rfl, rfl⟩
  | cleared => exact ⟨rfl, rfl, rfl⟩
  | closed => exact ⟨rfl, rfl, rfl⟩
  | nothing => exact ⟨rfl, rfl, rfl⟩
  | lost => exact ⟨rfl, rfl, rfl⟩

/- No task changes the settings of its session. -/
theorem sameSettings_ends
    {s s' : Session (Outage Memory)}
    {task : Task}
    {answer : Except Error Answer}
    (hEnds : Ends s task answer s') :
    SameSettings s s' := by
  cases hEnds with
  | reject e => exact sameSettings_refl s
  | control hControl => exact sameSettings_control hControl
  | read hRead =>
      rcases eq_selected_of_read hRead with ⟨id, rfl⟩
      exact ⟨rfl, rfl, rfl⟩
  | change hChange => exact sameSettings_change hChange
  | choose hChoose =>
      rcases eq_selected_of_choose hChoose with ⟨id, rfl⟩
      exact ⟨rfl, rfl, rfl⟩

/-
  The mode is given, the stack has no limit, and no call is
  out of order.
-/
structure Steady
    (mode : Mode)
    (s : Session (Outage Memory)) : Prop where
  mode : s.mode = mode
  unbounded : s.limit = none
  working : s.failing = []

namespace Steady

variable {m : Mode} {s : Session (Outage Memory)}

theorem works
    (hSteady : Steady m s)
    (name : CallName) :
    name ∉ s.failing := by
  rw [hSteady.working]
  exact List.not_mem_nil

theorem after
    (hSteady : Steady m s)
    (r : Request) :
    Steady m (s.after r) := by
  have hSame := sameSettings_ends (handle_ends s r)
  exact
    { mode := hSame.mode.trans hSteady.mode
      unbounded := hSame.limit.trans hSteady.unbounded
      working := hSame.failing.trans hSteady.working }

theorem afterAll
    (hSteady : Steady m s)
    (rs : List Request) :
    Steady m (s.afterAll rs) := by
  induction rs generalizing s with
  | nil => exact hSteady
  | cons r rs ih => exact ih (hSteady.after r)

end Steady

theorem afterAll_append
    (s : Session (Outage Memory))
    (rs rs' : List Request) :
    s.afterAll (rs ++ rs') = (s.afterAll rs).afterAll rs' :=
  List.foldl_append

end Session

end Rowstore

------------------------------------------------------------
-- Transaction Statements Without Outage
------------------------------------------------------------

namespace Rowstore

namespace Session

/- A commit or a rollback. -/
def Request.IsFinish (r : Request) : Prop :=
  r.control? = some .commit ∨ r.control? = some .rollback

instance (r : Request) : Decidable r.IsFinish :=
  inferInstanceAs
    (Decidable
      (r.control? = some .commit ∨
        r.control? = some .rollback))

variable {m : Mode} {s : Session (Outage Memory)}

theorem after_begin
    (hSteady : Steady m s)
    {r : Request}
    (hAsked : r.control? = some .begin) :
    s.after r =
      { s.withStack (s.stored :: s.stack) with
        depth := s.depth + 1 } := by
  rcases control_ends_of_control? s hAsked with
    ⟨answer, _, hControl⟩
  generalize s.after r = s' at hControl ⊢
  cases hControl with
  | unbegun hFail =>
      rcases hFail with hLoad | hPush
      · exact absurd hLoad (hSteady.works .load)
      · exact absurd hPush (hSteady.works .push)
  | begun hLoad hPush =>
      simp [pushWithin, hSteady.unbounded]

/- A commit inside of a transaction of scoped mode. -/
theorem after_commit_scoped
    (hSteady : Steady .scoped s)
    (hDepth : s.depth ≠ 0)
    {r : Request}
    (hAsked : r.control? = some .commit) :
    s.after r =
      { s.withStack s.stack.tail with
        depth := s.depth - 1 } := by
  rcases control_ends_of_control? s hAsked with
    ⟨answer, _, hControl⟩
  generalize s.after r = s' at hControl ⊢
  have hLiteral : s.mode ≠ .literal := by
    rw [hSteady.mode]
    decide
  cases hControl with
  | uncleared hMode hClear => exact absurd hMode hLiteral
  | cleared hMode hClear => exact absurd hMode hLiteral
  | idle hMode hOutside => exact absurd hOutside hDepth
  | unclosed hMode hInside hPop =>
      exact absurd hPop (hSteady.works .pop)
  | closed hMode hInside hPop => rfl

theorem after_rollback
    (hSteady : Steady m s)
    {c : Collection}
    {rest : List Collection}
    (hStack : s.stack = c :: rest)
    {r : Request}
    (hAsked : r.control? = some .rollback) :
    s.after r =
      returned
        { s.withStack rest with depth := s.depth - 1 } c := by
  rcases control_ends_of_control? s hAsked with
    ⟨answer, _, hControl⟩
  generalize s.after r = s' at hControl ⊢
  cases hControl with
  | stuck hPop => exact absurd hPop (hSteady.works .pop)
  | nothing hPop hEmpty =>
      rw [hEmpty] at hStack
      cases hStack
  | lost hPop hTop hSave =>
      exact absurd hSave (hSteady.works .save)
  | restored hPop hTop hSave =>
      rw [hTop] at hStack
      cases hStack
      rfl

end Session

end Rowstore
