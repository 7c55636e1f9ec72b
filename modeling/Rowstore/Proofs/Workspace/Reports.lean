import Mathlib.Data.List.Basic
import Rowstore.Proofs.Database.Listing
import Rowstore.Proofs.Execution
import Rowstore.Proofs.Workspace.Effects
import Rowstore.Proofs.Workspace.Reading
import Rowstore.Session.Request

/-
  What the notice of successful work says about it.

  Nearly all work changes the selected database, and its
  notice has this database as the work leaves it.  Only two
  commands change which databases there are: the notice of a
  creation has the new database, which is then selected, and
  the notice of a removal has the database as it was.

  Main declarations:
    * `Work.Reported` and `Work.Reports`
    * `Work.reports_execute`
    * `Session.reports_of_task`
-/

------------------------------------------------------------
-- Reports
------------------------------------------------------------

namespace Rowstore

namespace Workspace

variable {w w' : Workspace}

/-
  The same database is selected, and there are databases with
  the same identifiers.
-/
structure SameDatabases (w w' : Workspace) : Prop where
  selection : w'.selection = w.selection
  ids : w'.collection.ids = w.collection.ids

theorem sameDatabases_refl (w : Workspace) :
    SameDatabases w w :=
  ⟨rfl, rfl⟩

theorem sameDatabases_of_eq
    (w₁ : Workspace)
    (hSame : w₁ = w) :
    SameDatabases w w₁ := by
  rw [hSame]
  exact sameDatabases_refl w

theorem SameDatabases.updateActive
    (hSame : SameDatabases w w')
    {f : Database → Database}
    (hKeeps : ∀ d, (f d).id = d.id) :
    SameDatabases w (w'.updateActive f) := by
  unfold Workspace.updateActive
  cases hSelection : w'.selection with
  | none => exact hSame
  | some id =>
      exact
        ⟨hSelection.symm.trans hSame.selection,
          (Collection.ids_update id hKeeps).trans hSame.ids⟩

end Workspace

namespace Work

open Execution

/-
  What the notice of work says, if the work may bring in
  databases with given identifiers.
-/
inductive Reported
    (fresh : List DatabaseId)
    (w : Workspace) : Option Notice → Workspace → Prop where
| nothing : Reported fresh w none w
| changed
    {n : Notice}
    {w' : Workspace}
    (hChange : n.change ≠ .databaseDropped)
    (hActive : w'.active? = some n.database)
    (hSame : w.SameDatabases w') :
    Reported fresh w (some n) w'
| created
    {id : DatabaseId}
    (hFresh : id ∈ fresh)
    (name : String) :
    Reported fresh w
      (some
        { database := Database.new id name
          change := .databaseCreated })
      { collection :=
          w.collection.add (Database.new id name)
        selection := some id }
| dropped
    {d : Database}
    (hStored : w.collection.get? d.id = some d) :
    Reported fresh w
      (some
        { database := d
          change := .databaseDropped })
      { collection := w.collection.remove d.id
        selection :=
          if w.selection = some d.id then none
          else w.selection }

namespace Reported

variable {fresh : List DatabaseId}
variable {w w' : Workspace} {notice : Option Notice}

/- Identifiers stay distinct if those brought in are new. -/
theorem nodup_ids
    (hReported : Reported fresh w notice w')
    (hFresh : ∀ id ∈ fresh, id ∉ w.collection.ids)
    (hDistinct : w.collection.ids.Nodup) :
    w'.collection.ids.Nodup := by
  cases hReported with
  | nothing => exact hDistinct
  | changed hChange hActive hSame =>
      rw [hSame.ids]
      exact hDistinct
  | created hNew name =>
      rw [Collection.ids_add, List.nodup_append]
      refine ⟨hDistinct, List.nodup_singleton _, ?_⟩
      intro id hOld id' hAdded hSame
      rw [List.mem_singleton] at hAdded
      subst hAdded
      subst hSame
      exact hFresh _ hNew hOld
  | dropped hStored =>
      rw [Collection.ids_remove]
      exact hDistinct.erase _

/- Unless it was dropped, the database of the notice is there as the notice has it. -/
theorem get?_of_not_dropped
    {n : Notice}
    (hReported : Reported fresh w (some n) w')
    (hFresh : ∀ id ∈ fresh, id ∉ w.collection.ids)
    (hChange : n.change ≠ .databaseDropped) :
    w'.collection.get? n.database.id = some n.database := by
  cases hReported with
  | changed _ hActive hSame =>
      exact (Workspace.active?_eq_some_iff.mp hActive).2
  | created hNew name =>
      exact Collection.get?_add (hFresh _ hNew)
  | dropped hStored => exact absurd rfl hChange

/- A dropped database was there as the notice has it, and no other one has its identifier. -/
theorem get?_of_dropped
    {n : Notice}
    (hReported : Reported fresh w (some n) w')
    (hDistinct : w.collection.ids.Nodup)
    (hChange : n.change = .databaseDropped) :
    w.collection.get? n.database.id = some n.database ∧
      w'.collection.get? n.database.id = none := by
  cases hReported with
  | changed hOther hActive hSame =>
      exact absurd hChange hOther
  | created hNew name => cases hChange
  | dropped hStored =>
      refine ⟨hStored, ?_⟩
      rw [Collection.get?_eq_none_iff, Collection.ids_remove]
      exact hDistinct.not_mem_erase

end Reported

/- Wherever it succeeds, the work's notice says what it did. -/
def Reports
    {α : Type}
    (fresh : List DatabaseId)
    (notice : α → Option Notice)
    (work : Work α) : Prop :=
  ∀ w,
    Leads (· = w) work
      (fun a w' => Reported fresh w (notice a) w')
      (fun _ => True)

variable {α : Type} {fresh : List DatabaseId} {w : Workspace}

/- Work that keeps the databases may go anywhere among workspaces that have them. -/
theorem reports_of_leads
    {notice : α → Option Notice}
    {work : Work α}
    (hLeads :
      ∀ w : Workspace,
        Leads w.SameDatabases work
          (fun a w' => Reported fresh w (notice a) w')
          (fun _ => True)) :
    Reports fresh notice work :=
  fun w => (hLeads w).mono Workspace.sameDatabases_of_eq

------------------------------------------------------------
-- Changes Of The Selected Database
------------------------------------------------------------

theorem leads_activeDatabase :
    Leads w.SameDatabases activeDatabase
      (fun d w' =>
        w'.active? = some d ∧ w.SameDatabases w')
      (fun _ => True) where
  ok := by
    intro w₁ w' d hSame hRun
    rw [run_activeDatabase, Prod.mk.injEq,
      Workspace.activeDatabase_eq_ok_iff] at hRun
    rcases hRun with ⟨hActive, rfl⟩
    exact ⟨hActive, hSame⟩
  error := fun _ _ => trivial

theorem leads_tableNamed (name : String) :
    Leads w.SameDatabases (tableNamed name)
      (fun _ => w.SameDatabases) (fun _ => True) :=
  Leads.of_reads (reads_tableNamed name) fun _ _ => trivial

theorem leads_onActive
    {f : Database → Database}
    (hKeeps : ∀ d, (f d).id = d.id) :
    Leads w.SameDatabases (onActive f)
      (fun _ => w.SameDatabases) (fun _ => True) := by
  apply Leads.bind leads_activeDatabase
  intro d
  apply Leads.of_modify
  rintro w' ⟨_, hSame⟩
  exact hSame.updateActive hKeeps

theorem leads_onTable
    (name : String)
    (edit : Edit α) :
    Leads w.SameDatabases (onTable name edit)
      (fun _ => w.SameDatabases) (fun _ => True) := by
  apply Leads.bind (leads_tableNamed name)
  intro t
  apply Leads.bind (Q := fun _ => w.SameDatabases)
  · apply Leads.of_modify
    intro w' hSame
    exact hSame.updateActive fun _ => rfl
  · intro _
    exact
      Leads.of_lift (fun _ _ _ hSame => hSame)
        fun _ _ => trivial

/- The selected database is announced as it is. -/
theorem leads_announce
    {change : Change}
    (hChange : change ≠ .databaseDropped)
    (text : String) :
    Leads w.SameDatabases (announce change text)
      (fun o w' => Reported fresh w o.notice w')
      (fun _ => True) := by
  apply Leads.bind leads_activeDatabase
  intro d
  apply Leads.of_pure
  rintro w' ⟨hActive, hSame⟩
  exact .changed hChange hActive hSame

/- An edit of rows by a statement. -/
theorem reports_onTable
    (name : String)
    (edit : Edit α)
    {change : Change}
    (hChange : change ≠ .databaseDropped)
    (text : α → String) :
    Reports fresh Outcome.notice
      (do
        let a ← onTable name edit
        announce change (text a)) := by
  apply reports_of_leads
  intro w
  apply Leads.bind (leads_onTable name edit)
  intro a
  exact leads_announce hChange (text a)

theorem reports_insert
    (table : String)
    (columns values : List String) :
    Reports fresh Outcome.notice
      (insert table columns values) := by
  unfold insert
  split
  · intro w
    exact Leads.of_throw _ fun _ _ => trivial
  · exact reports_onTable table _ (by decide) _

theorem reports_createTable
    (id : TableId)
    (name : String)
    (definitions : List ColumnDefinition)
    (keys : List String) :
    Reports fresh Outcome.notice
      (createTable id name definitions keys) := by
  apply reports_of_leads
  intro w
  apply Leads.bind
    (Leads.of_reads reads_activeDatabase fun _ _ => trivial)
  intro d
  by_cases hTaken : d.hasTable name = true
  · rw [if_pos hTaken]
    exact Leads.of_throw _ fun _ _ => trivial
  · rw [if_neg hTaken]
    apply Leads.bind (Q := fun _ => w.SameDatabases)
    · exact
        Leads.of_lift (fun _ _ _ hSame => hSame)
          fun _ _ => trivial
    · intro _
      refine Leads.bind (leads_onActive ?_) ?_
      · exact fun _ => rfl
      · exact fun _ => leads_announce (by decide) _

theorem reports_dropTable (name : String) :
    Reports fresh Outcome.notice (dropTable name) := by
  apply reports_of_leads
  intro w
  apply Leads.bind (leads_tableNamed name)
  intro t
  refine Leads.bind (leads_onActive ?_) ?_
  · exact fun _ => rfl
  · exact fun _ => leads_announce (by decide) _

theorem reports_rename (table name : String) :
    Reports fresh Outcome.notice (rename table name) := by
  apply reports_of_leads
  intro w
  apply Leads.bind
    (Leads.of_reads reads_activeDatabase fun _ _ => trivial)
  intro d
  split
  · exact Leads.of_throw _ fun _ _ => trivial
  · apply Leads.bind (leads_tableNamed table)
    intro t
    refine Leads.bind (leads_onActive ?_) ?_
    · exact fun _ => rfl
    · exact fun _ => leads_announce (by decide) _

/- After an edit of its columns the table is looked up again, for its name. -/
theorem reports_edited
    (table : String)
    (edit : Edit α)
    (text : Table → String) :
    Reports fresh Outcome.notice
      (do
        let _ ← onTable table edit
        let t ← tableNamed table
        announce .tablesChanged (text t)) := by
  apply reports_of_leads
  intro w
  apply Leads.bind (leads_onTable table edit)
  intro _
  apply Leads.bind (leads_tableNamed table)
  intro t
  exact leads_announce (by decide) _

theorem reports_alterTable
    (table : String)
    (action : AlterAction) :
    Reports fresh Outcome.notice
      (alterTable table action) := by
  cases action with
  | addColumn definition => exact reports_edited table _ _
  | dropColumn column => exact reports_edited table _ _
  | renameTo name => exact reports_rename table name

theorem reports_recordPermission
    (time : Moment)
    (action : PermissionAction)
    (p : PermissionClause) :
    Reports fresh Outcome.notice
      (recordPermission time action p) := by
  apply reports_of_leads
  intro w
  refine Leads.bind (leads_onActive ?_) ?_
  · exact fun _ => rfl
  · exact fun _ => leads_announce (by decide) _

------------------------------------------------------------
-- Changes Of The Collection
------------------------------------------------------------

theorem reports_createDatabase
    {id : DatabaseId}
    (hFresh : id ∈ fresh)
    (name : String)
    (ifNotExists : Bool) :
    Reports fresh Outcome.notice
      (createDatabase id name ifNotExists) := by
  intro w
  apply Leads.bind Leads.of_get
  intro w₁
  cases w₁.collection.findByName? name with
  | none =>
      apply Leads.bind
        (Q := fun _ w' =>
          Reported fresh w
            (some
              { database := Database.new id name
                change := .databaseCreated }) w')
      · apply Leads.of_modify
        rintro _ ⟨_, rfl⟩
        exact .created hFresh name
      · intro _
        exact Leads.of_pure fun _ hReported => hReported
  | some d =>
      cases ifNotExists with
      | true =>
          apply Leads.of_pure
          rintro _ ⟨_, rfl⟩
          exact .nothing
      | false => exact Leads.of_throw _ fun _ _ => trivial

theorem reports_dropDatabase (name : String) :
    Reports fresh Outcome.notice (dropDatabase name) := by
  intro w
  apply Leads.bind Leads.of_get
  intro w₁
  apply Leads.bind (Q := fun _ => (· = w))
  · exact
      Leads.of_lift (fun _ _ _ hState => hState.2)
        fun _ _ => trivial
  intro found
  apply Leads.bind Leads.of_get
  intro w₂
  cases hFind : w₂.collection.get? found.id with
  | none => exact Leads.of_throw _ fun _ _ => trivial
  | some d =>
      have hId := Collection.id_of_get? hFind
      apply Leads.bind
        (Q := fun _ w' =>
          Reported fresh w
            (some
              { database := d
                change := .databaseDropped }) w')
      · apply Leads.of_modify
        rintro _ ⟨rfl, rfl⟩
        rw [← hId] at hFind ⊢
        exact .dropped hFind
      · intro _
        exact Leads.of_pure fun _ hReported => hReported

------------------------------------------------------------
-- Commands
------------------------------------------------------------

/- The identifiers under which a command creates a database. -/
def newIds
    (stamp : Stamp) : Command → List DatabaseId
| .createDatabase _ _ => [⟨stamp.uuid⟩]
| _ => []

/- The notice of a command says what the command did. -/
theorem reports_execute
    (stamp : Stamp)
    {c : Command}
    (hMutating : c.isMutating = true) :
    Reports (newIds stamp c) Outcome.notice
      (execute stamp c) := by
  cases c with
  | insert table columns values =>
      exact reports_insert table columns values
  | update table assignments condition =>
      exact reports_onTable table _ (by decide) _
  | delete table condition =>
      exact reports_onTable table _ (by decide) _
  | createTable name definitions keys =>
      exact reports_createTable _ name definitions keys
  | createDatabase name ifNotExists =>
      exact
        reports_createDatabase List.mem_cons_self name
          ifNotExists
  | dropTable name => exact reports_dropTable name
  | dropDatabase name => exact reports_dropDatabase name
  | alterTable table action =>
      exact reports_alterTable table action
  | permission action p =>
      exact reports_recordPermission stamp.time action p
  | select => cases hMutating
  | use => cases hMutating
  | showDatabases => cases hMutating
  | showTables => cases hMutating
  | describe => cases hMutating

end Work

end Rowstore

------------------------------------------------------------
-- Requests
------------------------------------------------------------

namespace Rowstore

namespace Session

open Execution

variable {α : Type} {fresh : List DatabaseId}

theorem reports_answering
    {work : Work (α × Option Notice)}
    (hReports : Work.Reports fresh Prod.snd work)
    (form : α → Answer) :
    Work.Reports fresh Prod.snd (answering form work) := by
  intro w
  apply Leads.bind (hReports w)
  rintro ⟨a, notice⟩
  exact Leads.of_pure fun _ hReported => hReported

theorem reports_commandWork
    (stamp : Stamp)
    {c : Command}
    (hMutating : c.isMutating = true) :
    Work.Reports (Work.newIds stamp c) Prod.snd
      (commandWork stamp c) := by
  intro w
  apply Leads.bind (Work.reports_execute stamp hMutating w)
  intro o
  exact Leads.of_pure fun _ hReported => hReported

theorem reports_rowWork
    (table : String)
    (edit : Edit α) :
    Work.Reports fresh Prod.snd (rowWork table edit) := by
  apply Work.reports_of_leads
  intro w
  apply Leads.bind (Work.leads_onTable table edit)
  intro a
  apply Leads.bind Work.leads_activeDatabase
  intro d
  apply Leads.of_pure
  rintro w' ⟨hActive, hSame⟩
  exact .changed (by simp) hActive hSame

/- The identifiers under which a request creates a database. -/
def Request.newIds : Request → List DatabaseId
| .statement stamp text =>
  match Statement.parse text with
  | .ok (.command c) => Work.newIds stamp c
  | _ => []
| _ => []

/- Whatever a request asks to be changed, its notice says what was done. -/
theorem reports_of_task
    {r : Request}
    {work : Work (Answer × Option Notice)}
    (hTask : r.task = .change work) :
    Work.Reports r.newIds Prod.snd work := by
  cases r with
  | statement stamp text =>
      unfold Request.newIds
      unfold Request.task at hTask
      cases hParse : Statement.parse text with
      | error e =>
          simp only [hParse] at hTask
          cases hTask
      | ok statement =>
          simp only [hParse] at hTask
          cases statement with
          | control c => cases hTask
          | command c =>
              simp only [Task.ofStatement] at hTask
              simp only [hParse]
              split at hTask
              · rename_i hMutating
                cases hTask
                exact reports_answering
                  (reports_commandWork stamp hMutating)
                  .result
              · cases hTask
  | insertRow table entries =>
      cases hTask
      exact reports_answering (reports_rowWork table _) .row
  | updateCell table id column raw =>
      cases hTask
      exact
        reports_answering (reports_rowWork table _) .stored
  | deleteRows table ids =>
      cases hTask
      exact
        reports_answering (reports_rowWork table _) .removed
  | choose name => cases hTask

end Session

end Rowstore
