import Mathlib.Data.List.Basic
import Rowstore.Proofs.Database.Revision
import Rowstore.Proofs.Execution
import Rowstore.Proofs.Statement.Naming
import Rowstore.Session.Request

/-
  What work that succeeds does to its workspace: work with a
  notice revises the collection, and work without a notice
  leaves the workspace as it is.  A revision brings in no
  other names than those under which something is created,
  and no other time and no other identifier of a table than
  those of its statement.

  This is shown once for each command and for row edits, and
  then holds of whatever a request asks to be changed.

  Main declarations:
    * `Workspace.revised_updateActive`
    * `Work.Effect`
    * `Work.effect_of_execute`
    * `Session.hasEffect_of_task`
-/

------------------------------------------------------------
-- The Selected Database
------------------------------------------------------------

namespace Rowstore

namespace Workspace

variable {w : Workspace} {d : Database}

theorem activeDatabase_eq_ok_iff :
    w.activeDatabase = .ok d ↔ w.active? = some d := by
  unfold activeDatabase
  cases w.active? with
  | none => simp
  | some e => simp

/- A selected database that is there is the first one with the selected identifier. -/
theorem active?_eq_some_iff :
    w.active? = some d ↔
      w.selection = some d.id ∧
        w.collection.get? d.id = some d := by
  unfold active?
  constructor
  · intro hActive
    rcases Option.bind_eq_some_iff.mp hActive with
      ⟨id, hSelection, hFind⟩
    have hId : d.id = id := by
      have hTest :=
        List.find?_some
          (p := fun d : Database => d.id = id) hFind
      simpa using hTest
    rw [hId]
    exact ⟨hSelection, hFind⟩
  · rintro ⟨hSelection, hFind⟩
    rw [hSelection]
    exact hFind

/- A change of the selected database is a change of the collection at that place. -/
theorem updateActive_eq
    (hActive : w.active? = some d)
    (f : Database → Database) :
    w.updateActive f =
      { w with
        collection :=
          w.collection.update d.id fun _ => f d } := by
  rcases active?_eq_some_iff.mp hActive with
    ⟨hSelection, hFind⟩
  unfold updateActive Collection.update
  rw [hSelection]
  simp only
  rw [updateFirst_const f hFind]

/- The changed database is selected if it keeps its identifier. -/
theorem active?_updateActive
    (hActive : w.active? = some d)
    {f : Database → Database}
    (hId : (f d).id = d.id) :
    (w.updateActive f).active? = some (f d) := by
  rcases active?_eq_some_iff.mp hActive with
    ⟨hSelection, hFind⟩
  rw [updateActive_eq hActive, active?_eq_some_iff, hId]
  refine ⟨hSelection, ?_⟩
  exact find?_updateFirst hFind (by simpa using hId)

theorem revised_updateActive
    {names : List String}
    (hActive : w.active? = some d)
    {f : Database → Database}
    (hRevised : d.Revised names times ids (f d)) :
    w.collection.Revised names times ids
      (w.updateActive f).collection := by
  rw [updateActive_eq hActive]
  exact .databaseRevised (active?_eq_some_iff.mp hActive).2
    hRevised

theorem tableNamed_eq_ok_iff
    {name : String}
    {t : Table} :
    w.tableNamed name = .ok t ↔
      ∃ d, w.active? = some d ∧ d.table? name = some t := by
  unfold tableNamed
  cases hActive : w.activeDatabase with
  | error e =>
      have hNone : w.active? = none := by
        unfold activeDatabase at hActive
        cases hFind : w.active? with
        | none => rfl
        | some d =>
            rw [hFind] at hActive
            cases hActive
      simp [hNone, bind, Except.bind]
  | ok d =>
      rw [activeDatabase_eq_ok_iff] at hActive
      cases hTable : d.table? name with
      | none => simp [hActive, hTable, bind, Except.bind]
      | some u => simp [hActive, hTable, bind, Except.bind]

end Workspace

end Rowstore

------------------------------------------------------------
-- Lookups, Changes And Notices
------------------------------------------------------------

namespace Rowstore

namespace Work

open Execution

variable {α : Type} {w w' : Workspace}

theorem run_activeDatabase (w : Workspace) :
    activeDatabase.run.run w = (w.activeDatabase, w) := rfl

theorem run_tableNamed
    (name : String)
    (w : Workspace) :
    (tableNamed name).run.run w = (w.tableNamed name, w) := rfl

/- An edit of a table leaves behind what it did before failing. -/
theorem run_onTable
    (name : String)
    (edit : Edit α)
    (w : Workspace) :
    (onTable name edit).run.run w =
      match w.tableNamed name with
      | .error e => (.error e, w)
      | .ok t =>
        ((edit.run.run t).1,
          w.updateActive fun d =>
            d.updateTable name fun _ => (edit.run.run t).2) := by
  cases hTable : w.tableNamed name with
  | error e =>
      simp only [onTable, run_bind, run_tableNamed, hTable]
  | ok t =>
      rcases hEdit : edit.run.run t with ⟨answer, t'⟩
      simp only [onTable, run_bind, run_tableNamed, hTable,
        hEdit, run_modify, run_lift]

theorem run_announce
    (change : Change)
    (text : String)
    (w : Workspace) :
    (announce change text).run.run w =
      match w.activeDatabase with
      | .error e => (.error e, w)
      | .ok d => (.ok (.announced text d change), w) := by
  cases hActive : w.activeDatabase with
  | error e =>
      simp only [announce, run_bind, run_activeDatabase,
        hActive]
  | ok d =>
      simp only [announce, run_bind, run_activeDatabase,
        hActive, run_pure]

theorem onActive_ok
    {f : Database → Database}
    {u : Unit}
    (hRun : (onActive f).run.run w = (.ok u, w')) :
    ∃ d, w.active? = some d ∧ w' = w.updateActive f := by
  rcases run_bind_ok hRun with ⟨d, w₁, hActive, hChange⟩
  rw [run_activeDatabase, Prod.mk.injEq,
    Workspace.activeDatabase_eq_ok_iff] at hActive
  rcases hActive with ⟨hActive, rfl⟩
  cases hChange
  exact ⟨d, hActive, rfl⟩

theorem onTable_ok
    {name : String}
    {edit : Edit α}
    {a : α}
    (hRun : (onTable name edit).run.run w = (.ok a, w')) :
    ∃ d t t',
      w.active? = some d ∧ d.table? name = some t ∧
        edit.run.run t = (.ok a, t') ∧
        w' = w.updateActive fun d =>
          d.updateTable name fun _ => t' := by
  rw [run_onTable] at hRun
  cases hTable : w.tableNamed name with
  | error e =>
      rw [hTable] at hRun
      cases hRun
  | ok t =>
      rw [hTable, Prod.mk.injEq] at hRun
      rcases hRun with ⟨hAnswer, rfl⟩
      rcases Workspace.tableNamed_eq_ok_iff.mp hTable with
        ⟨d, hActive, hFind⟩
      rcases hEdit : edit.run.run t with ⟨answer, t'⟩
      rw [hEdit] at hAnswer
      cases hAnswer
      exact ⟨d, t, t', hActive, hFind, hEdit, rfl⟩

/- An announcement has a notice and changes nothing. -/
theorem announce_ok
    {change : Change}
    {text : String}
    {o : Outcome}
    (hRun : (announce change text).run.run w = (.ok o, w')) :
    (∃ n, o.notice = some n) ∧ w' = w := by
  rcases run_bind_ok hRun with ⟨d, w₁, hActive, hDone⟩
  rw [run_activeDatabase, Prod.mk.injEq] at hActive
  rcases hActive with ⟨_, rfl⟩
  cases hDone
  exact ⟨⟨_, rfl⟩, rfl⟩

theorem tableNamed_ok
    {name : String}
    {t : Table}
    (hRun : (tableNamed name).run.run w = (.ok t, w')) :
    (∃ d, w.active? = some d ∧ d.table? name = some t) ∧
      w' = w := by
  rw [run_tableNamed, Prod.mk.injEq,
    Workspace.tableNamed_eq_ok_iff] at hRun
  exact ⟨hRun.1, hRun.2.symm⟩

end Work

end Rowstore

------------------------------------------------------------
-- Commands
------------------------------------------------------------

namespace Rowstore

namespace Work

open Execution

variable {α : Type} {w w' : Workspace}
variable {names : List String} {times : List Moment}
variable {ids : List TableId}

/-
  What successful work that brings in given names does to its
  workspace, by the notice that it has.
-/
inductive Effect
    (names : List String)
    (times : List Moment)
    (ids : List TableId)
    (w : Workspace) : Option Notice → Workspace → Prop where
| nothing : Effect names times ids w none w
| revised
    {n : Notice}
    {w' : Workspace}
    (hRevised : w.collection.Revised names times ids w'.collection) :
    Effect names times ids w (some n) w'

/- A revision and an announcement make up an effect. -/
theorem effect_of_announce
    {w₁ : Workspace}
    (hRevised : w.collection.Revised names times ids w₁.collection)
    {change : Change}
    {text : String}
    {o : Outcome}
    (hRun : (announce change text).run.run w₁ = (.ok o, w')) :
    Effect names times ids w o.notice w' := by
  rcases announce_ok hRun with ⟨⟨n, hNotice⟩, rfl⟩
  rw [hNotice]
  exact .revised hRevised

theorem revised_of_onActive
    {f : Database → Database}
    {u : Unit}
    (hRun : (onActive f).run.run w = (.ok u, w'))
    (hRevised :
      ∀ d, w.active? = some d → d.Revised names times ids (f d)) :
    w.collection.Revised names times ids w'.collection := by
  rcases onActive_ok hRun with ⟨d, hActive, rfl⟩
  exact Workspace.revised_updateActive hActive
    (hRevised d hActive)

theorem revised_of_onTable
    {name : String}
    {edit : Edit α}
    (hRevises : edit.Revises names)
    {a : α}
    (hRun : (onTable name edit).run.run w = (.ok a, w')) :
    w.collection.Revised names times ids w'.collection := by
  rcases onTable_ok hRun with
    ⟨d, t, t', hActive, hTable, hEdit, rfl⟩
  exact Workspace.revised_updateActive hActive
    (.tableRevised hTable (hRevises hEdit))

/- An edit of rows by a statement is announced. -/
theorem effect_of_onTable
    {name : String}
    {edit : Edit α}
    (hRevises : edit.Revises names)
    {change : Change}
    {text : α → String}
    {o : Outcome}
    (hRun :
      (do
        let a ← onTable name edit
        announce change (text a) :
        Work Outcome).run.run w = (.ok o, w')) :
    Effect names times ids w o.notice w' := by
  rcases run_bind_ok hRun with ⟨a, w₁, hEdit, hAnnounce⟩
  exact effect_of_announce
    (revised_of_onTable hRevises hEdit) hAnnounce

theorem effect_of_insert
    {table : String}
    {columns values : List String}
    {o : Outcome}
    (hRun :
      (insert table columns values).run.run w =
        (.ok o, w')) :
    Effect [] times ids w o.notice w' := by
  unfold insert at hRun
  by_cases hCount : columns.length ≠ values.length
  · rw [if_pos hCount] at hRun
    cases hRun
  · rw [if_neg hCount] at hRun
    exact effect_of_onTable (Edit.revises_insertLiterals _) hRun

theorem effect_of_createTable
    {id : TableId}
    {name : String}
    {definitions : List ColumnDefinition}
    {keys : List String}
    {o : Outcome}
    (hRun :
      (createTable id name definitions keys).run.run w =
        (.ok o, w')) :
    Effect
      (name :: definitions.map ColumnDefinition.name) times
      [id] w o.notice w' := by
  unfold createTable at hRun
  rcases run_bind_ok hRun with ⟨d, w₁, hActive, hRun⟩
  rw [run_activeDatabase, Prod.mk.injEq,
    Workspace.activeDatabase_eq_ok_iff] at hActive
  rcases hActive with ⟨hActive, rfl⟩
  by_cases hTaken : d.hasTable name = true
  · rw [if_pos hTaken] at hRun
    cases hRun
  rw [if_neg hTaken] at hRun
  rcases hDefine :
      (Edit.define definitions keys).run.run
        (Table.new id name) with ⟨e | u, t⟩
  · rw [hDefine] at hRun
    cases hRun
  rw [hDefine] at hRun
  rcases run_bind_ok hRun with ⟨_, w₂, hDone, hRun⟩
  cases hDone
  rcases run_bind_ok hRun with ⟨_, w₃, hAdd, hAnnounce⟩
  have hNames :
      ∀ definition ∈ definitions,
        definition.name ∈
          name :: definitions.map ColumnDefinition.name := by
    intro definition hMember
    exact
      List.mem_cons_of_mem _ (List.mem_map_of_mem hMember)
  have hBuilt := Edit.built_of_define hNames hDefine
  have hName : t.name = name := hBuilt.name
  refine effect_of_announce
    (revised_of_onActive hAdd ?_) hAnnounce
  intro e hOther
  rw [hActive] at hOther
  cases hOther
  subst hName
  refine
    .tableAdded List.mem_cons_self List.mem_cons_self ?_ hBuilt
  simpa [Database.hasTable] using hTaken

theorem effect_of_dropTable
    {name : String}
    {o : Outcome}
    (hRun :
      (dropTable name).run.run w = (.ok o, w')) :
    Effect [] times ids w o.notice w' := by
  rcases run_bind_ok hRun with ⟨t, w₁, hTable, hRest⟩
  rcases tableNamed_ok hTable with ⟨_, rfl⟩
  rcases run_bind_ok hRest with ⟨_, w₂, hDrop, hAnnounce⟩
  exact effect_of_announce
    (revised_of_onActive hDrop fun d _ => .tableRemoved name)
    hAnnounce

/- A table may only get a name that it has itself, or that no table has. -/
theorem effect_of_rename
    {table name : String}
    {o : Outcome}
    (hRun :
      (rename table name).run.run w = (.ok o, w')) :
    Effect [name] times ids w o.notice w' := by
  unfold rename at hRun
  rcases run_bind_ok hRun with ⟨d, w₁, hActive, hRun⟩
  rw [run_activeDatabase, Prod.mk.injEq,
    Workspace.activeDatabase_eq_ok_iff] at hActive
  rcases hActive with ⟨hActive, rfl⟩
  split at hRun
  · cases hRun
  rename_i hFree
  rcases run_bind_ok hRun with ⟨t, w₂, hTable, hRest⟩
  rcases tableNamed_ok hTable with ⟨⟨e, hOther, hFind⟩, rfl⟩
  rw [hActive] at hOther
  cases hOther
  rcases run_bind_ok hRest with ⟨_, w₃, hRename, hAnnounce⟩
  refine effect_of_announce
    (revised_of_onActive hRename ?_) hAnnounce
  intro e hOther
  rw [hActive] at hOther
  cases hOther
  refine .tableRenamed List.mem_cons_self hFind ?_
  simpa using hFree

theorem effect_of_alterTable
    {table : String}
    {action : AlterAction}
    {o : Outcome}
    (hRun :
      (alterTable table action).run.run w = (.ok o, w')) :
    Effect (Command.alterTable table action).newNames times
      ids w o.notice w' := by
  cases action with
  | addColumn definition =>
      rcases run_bind_ok hRun with ⟨_, w₁, hEdit, hRest⟩
      rcases run_bind_ok hRest with
        ⟨t, w₂, hTable, hAnnounce⟩
      rcases tableNamed_ok hTable with ⟨_, rfl⟩
      exact effect_of_announce
        (revised_of_onTable
          (Edit.revises_addDefinition List.mem_cons_self
            false)
          hEdit)
        hAnnounce
  | dropColumn column =>
      rcases run_bind_ok hRun with ⟨_, w₁, hEdit, hRest⟩
      rcases run_bind_ok hRest with
        ⟨t, w₂, hTable, hAnnounce⟩
      rcases tableNamed_ok hTable with ⟨_, rfl⟩
      exact effect_of_announce
        (revised_of_onTable (Edit.revises_dropColumn column)
          hEdit)
        hAnnounce
  | renameTo name => exact effect_of_rename hRun

/- Only a database that is there already is left without a notice. -/
theorem effect_of_createDatabase
    {id : DatabaseId}
    {name : String}
    {ifNotExists : Bool}
    {o : Outcome}
    (hRun :
      (createDatabase id name ifNotExists).run.run w =
        (.ok o, w')) :
    Effect [name] times ids w o.notice w' := by
  rcases run_bind_ok hRun with ⟨w₁, w₂, hGet, hRun⟩
  cases hGet
  cases hFind : w.collection.findByName? name with
  | some d =>
      simp only [hFind] at hRun
      cases ifNotExists with
      | true =>
          cases hRun
          exact .nothing
      | false => cases hRun
  | none =>
      simp only [hFind] at hRun
      cases hRun
      exact
        .revised (.databaseAdded List.mem_cons_self hFind id)

theorem effect_of_dropDatabase
    {name : String}
    {o : Outcome}
    (hRun :
      (dropDatabase name).run.run w = (.ok o, w')) :
    Effect [] times ids w o.notice w' := by
  rcases run_bind_ok hRun with ⟨w₁, w₂, hGet, hRun⟩
  cases hGet
  rcases run_bind_ok hRun with ⟨found, w₃, hNamed, hRest⟩
  rw [run_lift, Prod.mk.injEq] at hNamed
  rcases hNamed with ⟨_, rfl⟩
  rcases run_bind_ok hRest with ⟨w₄, w₅, hGet, hLast⟩
  cases hGet
  cases hFind : w.collection.get? found.id with
  | none =>
      simp only [hFind] at hLast
      cases hLast
  | some d =>
      simp only [hFind] at hLast
      cases hLast
      exact .revised (.databaseRemoved found.id)

theorem effect_of_recordPermission
    {time : Moment}
    {action : PermissionAction}
    {p : PermissionClause}
    {o : Outcome}
    (hRun :
      (recordPermission time action p).run.run w =
        (.ok o, w')) :
    Effect [] [time] ids w o.notice w' := by
  rcases run_bind_ok hRun with ⟨_, w₁, hRecord, hAnnounce⟩
  exact effect_of_announce
    (revised_of_onActive hRecord
      fun d _ => .permissionRecorded List.mem_cons_self)
    hAnnounce

/- The identifiers under which a command creates tables. -/
def newTables
    (stamp : Stamp) : Command → List TableId
| .createTable _ _ _ => [⟨stamp.uuid⟩]
| _ => []

/- A command that succeeds has an effect, by its notice. -/
theorem effect_of_execute
    {stamp : Stamp}
    {c : Command}
    (hMutating : c.isMutating = true)
    {o : Outcome}
    (hRun :
      (execute stamp c).run.run w = (.ok o, w')) :
    Effect c.newNames [stamp.time] (newTables stamp c) w
      o.notice w' := by
  cases c with
  | insert table columns values =>
      exact effect_of_insert hRun
  | update table assignments condition =>
      exact effect_of_onTable
        (Edit.revises_updateLiterals assignments condition)
        hRun
  | delete table condition =>
      exact effect_of_onTable
        (Edit.revises_deleteSelected condition) hRun
  | createTable name definitions keys =>
      exact effect_of_createTable hRun
  | createDatabase name ifNotExists =>
      exact effect_of_createDatabase hRun
  | dropTable name => exact effect_of_dropTable hRun
  | dropDatabase name => exact effect_of_dropDatabase hRun
  | alterTable table action =>
      exact effect_of_alterTable hRun
  | permission action p =>
      exact effect_of_recordPermission hRun
  | select => cases hMutating
  | use => cases hMutating
  | showDatabases => cases hMutating
  | showTables => cases hMutating
  | describe => cases hMutating

end Work

end Rowstore

------------------------------------------------------------
-- Requests
------------------------------------------------------------

namespace Rowstore

namespace Session

open Execution

variable {α : Type} {w w' : Workspace}

/- Successful work has an effect that brings in nothing but what is given, by its notice. -/
def HasEffect
    (names : List String)
    (times : List Moment)
    (ids : List TableId)
    (work : Work (α × Option Notice)) : Prop :=
  ∀ {w w' : Workspace} {a : α} {notice : Option Notice},
    work.run.run w = (.ok (a, notice), w') →
      Work.Effect names times ids w notice w'

theorem hasEffect_answering
    {names : List String}
    {times : List Moment}
    {ids : List TableId}
    {work : Work (α × Option Notice)}
    (hEffect : HasEffect names times ids work)
    (form : α → Answer) :
    HasEffect names times ids (answering form work) := by
  intro w w' a notice hRun
  rcases run_bind_ok hRun with ⟨⟨b, n⟩, w₁, hWork, hForm⟩
  cases hForm
  exact hEffect hWork

theorem hasEffect_commandWork
    (stamp : Stamp)
    {c : Command}
    (hMutating : c.isMutating = true) :
    HasEffect c.newNames [stamp.time] (Work.newTables stamp c)
      (commandWork stamp c) := by
  intro w w' result notice hRun
  rcases run_bind_ok hRun with ⟨o, w₁, hExecute, hDone⟩
  cases hDone
  exact Work.effect_of_execute hMutating hExecute

theorem hasEffect_rowWork
    (table : String)
    {names : List String}
    {times : List Moment}
    {ids : List TableId}
    {edit : Edit α}
    (hRevises : edit.Revises names) :
    HasEffect names times ids (rowWork table edit) := by
  intro w w' a notice hRun
  rcases run_bind_ok hRun with ⟨b, w₁, hEdit, hRest⟩
  rcases run_bind_ok hRest with ⟨d, w₂, hActive, hDone⟩
  rw [Work.run_activeDatabase, Prod.mk.injEq] at hActive
  rcases hActive with ⟨_, rfl⟩
  cases hDone
  exact .revised (Work.revised_of_onTable hRevises hEdit)

/- The names under which a request creates something. -/
def Request.newNames : Request → List String
| .statement _ text =>
  match Statement.parse text with
  | .ok (.command c) => c.newNames
  | _ => []
| _ => []

/- The time that a request may record. -/
def Request.times : Request → List Moment
| .statement stamp _ => [stamp.time]
| _ => []

/- The identifiers under which a request creates tables. -/
def Request.newTables : Request → List TableId
| .statement stamp text =>
  match Statement.parse text with
  | .ok (.command c) => Work.newTables stamp c
  | _ => []
| _ => []

theorem Request.quotable_newNames (r : Request) :
    ∀ name ∈ r.newNames, Quotable name := by
  cases r with
  | statement stamp text =>
      simp only [Request.newNames]
      cases hParse : Statement.parse text with
      | error e => simp
      | ok statement =>
          cases statement with
          | control c => simp
          | command c => exact Command.quotable_of_parse hParse
  | insertRow | updateCell | deleteRows | choose =>
      simp [Request.newNames]

/- Whatever a request asks to be changed has an effect. -/
theorem hasEffect_of_task
    {r : Request}
    {work : Work (Answer × Option Notice)}
    (hTask : r.task = .change work) :
    HasEffect r.newNames r.times r.newTables work := by
  cases r with
  | statement stamp text =>
      unfold Request.newNames Request.newTables
      unfold Request.task at hTask
      cases hParse : Statement.parse text with
      | error e =>
          simp only [hParse] at hTask
          cases hTask
      | ok statement =>
          simp only [hParse] at hTask
          cases statement with
          | control c => cases hTask
          | command c =>
              simp only [Task.ofStatement] at hTask
              simp only [hParse]
              by_cases hMutating : c.isMutating = true
              · rw [if_pos hMutating] at hTask
                cases hTask
                exact hasEffect_answering
                  (hasEffect_commandWork stamp hMutating)
                  .result
              · rw [if_neg hMutating] at hTask
                cases hTask
  | insertRow table entries =>
      cases hTask
      exact hasEffect_answering
        (hasEffect_rowWork table
          (Edit.revises_insertEntered entries))
        .row
  | updateCell table id column raw =>
      cases hTask
      exact hasEffect_answering
        (hasEffect_rowWork table
          (Edit.revises_updateEntered id column raw))
        .stored
  | deleteRows table ids =>
      cases hTask
      exact hasEffect_answering
        (hasEffect_rowWork table
          (Edit.revises_deleteListed ids))
        .removed
  | choose name => cases hTask

end Session

end Rowstore
