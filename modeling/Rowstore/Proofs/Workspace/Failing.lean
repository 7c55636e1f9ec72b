import Rowstore.Proofs.Session.Calls
import Rowstore.Proofs.Workspace.Reading
import Rowstore.Proofs.Workspace.Selecting

/-
  What fails changes nothing.

  Work keeps what it did before failing, so this is a matter of
  order: whatever can fail comes before the first change, and
  what comes after it, such as looking up the changed table for
  a notice, does not fail.  Only an edit of a table is written
  back when it fails as well; it is then the table as it was.

  Main declarations:
    * `Execution.AllOrNothing`
    * `Execution.AllOrNothing.bind_reads`
    * `Execution.AllOrNothing.bind`
    * `Work.allOrNothing_onTable`
    * `Work.execute_and_edits_allOrNothing`
-/

------------------------------------------------------------
-- Computations That Do All Or Nothing
------------------------------------------------------------

namespace Rowstore

namespace Execution

variable {σ α γ : Type}

/- Where the computation fails it leaves the state as it was. -/
def AllOrNothing (x : ExceptT Error (StateM σ) α) : Prop :=
  ∀ (s s' : σ) (e : Error),
    x.run.run s = (.error e, s') → s' = s

/- The computation does not fail from the state. -/
def Succeeds
    (x : ExceptT Error (StateM σ) α)
    (s : σ) : Prop :=
  ∃ a s', x.run.run s = (.ok a, s')

theorem Succeeds.bind
    {x : ExceptT Error (StateM σ) α}
    {f : α → ExceptT Error (StateM σ) γ}
    {s s' : σ}
    {a : α}
    (hFirst : x.run.run s = (.ok a, s'))
    (hSecond : Succeeds (f a) s') :
    Succeeds (x >>= f) s := by
  rcases hSecond with ⟨b, s'', hRun⟩
  refine ⟨b, s'', ?_⟩
  rw [run_bind, hFirst]
  exact hRun

namespace AllOrNothing

theorem of_reads
    {x : ExceptT Error (StateM σ) α}
    (hReads : Reads x) :
    AllOrNothing x :=
  fun _ _ _ hRun => hReads.eq_of_run hRun

theorem of_succeeds
    {x : ExceptT Error (StateM σ) α}
    (hSucceeds : ∀ s, Succeeds x s) :
    AllOrNothing x := by
  intro s s' e hRun
  rcases hSucceeds s with ⟨a, s'', hOk⟩
  rw [hOk] at hRun
  cases hRun

theorem of_throw (e : Error) :
    AllOrNothing
      (throw e : ExceptT Error (StateM σ) α) :=
  of_reads fun _ => rfl

/- What only reads may come first. -/
theorem bind_reads
    {x : ExceptT Error (StateM σ) α}
    {f : α → ExceptT Error (StateM σ) γ}
    (hFirst : Reads x)
    (hSecond : ∀ a, AllOrNothing (f a)) :
    AllOrNothing (x >>= f) := by
  intro s s'' e hRun
  rw [run_bind] at hRun
  rcases hLeft : x.run.run s with ⟨e' | a, s'⟩
  · rw [hLeft] at hRun
    cases hRun
    exact hFirst.eq_of_run hLeft
  · rw [hLeft] at hRun
    calc
      s'' = s' := hSecond a s' s'' e hRun
      _ = s := hFirst.eq_of_run hLeft

/- What does not fail may come last. -/
theorem bind
    {x : ExceptT Error (StateM σ) α}
    {f : α → ExceptT Error (StateM σ) γ}
    (hFirst : AllOrNothing x)
    (hSecond :
      ∀ {s s' : σ} {a : α},
        x.run.run s = (.ok a, s') → Succeeds (f a) s') :
    AllOrNothing (x >>= f) := by
  intro s s'' e hRun
  rw [run_bind] at hRun
  rcases hLeft : x.run.run s with ⟨e' | a, s'⟩
  · rw [hLeft] at hRun
    cases hRun
    exact hFirst s s'' e hLeft
  · rcases hSecond hLeft with ⟨b, s₂, hOk⟩
    rw [hLeft] at hRun
    simp only [hOk] at hRun
    cases hRun

end AllOrNothing

end Execution

end Rowstore

------------------------------------------------------------
-- Edits
------------------------------------------------------------

namespace Rowstore

namespace Edit

open Execution

theorem allOrNothing_insert
    (value : Column → String → Value)
    (entries : List (String × String)) :
    AllOrNothing (insert value entries) := by
  apply AllOrNothing.bind_reads .of_get
  intro t
  apply AllOrNothing.bind_reads (.of_lift _)
  intro cells
  exact AllOrNothing.of_succeeds fun _ => ⟨_, _, rfl⟩

theorem allOrNothing_updateLiterals
    (assignments : List Assignment)
    (condition : Option String) :
    AllOrNothing (updateLiterals assignments condition) := by
  apply AllOrNothing.bind_reads .of_get
  intro t
  apply AllOrNothing.bind_reads (.of_lift _)
  intro changes
  apply AllOrNothing.bind_reads (.of_lift _)
  intro ids
  exact AllOrNothing.of_succeeds fun _ => ⟨_, _, rfl⟩

theorem allOrNothing_remove (ids : List RowId) :
    AllOrNothing (remove ids) :=
  AllOrNothing.of_succeeds fun t => ⟨_, _, run_remove ids t⟩

theorem allOrNothing_deleteSelected
    (condition : Option String) :
    AllOrNothing (deleteSelected condition) := by
  apply AllOrNothing.bind_reads .of_get
  intro t
  apply AllOrNothing.bind_reads (.of_lift _)
  exact allOrNothing_remove

theorem allOrNothing_updateEntered
    (id : RowId)
    (column raw : String) :
    AllOrNothing (updateEntered id column raw) := by
  apply AllOrNothing.bind_reads .of_get
  intro t
  apply AllOrNothing.bind_reads (.of_lift _)
  intro c
  cases hRow : t.row? id with
  | none =>
      exact AllOrNothing.of_throw _
  | some r =>
      exact AllOrNothing.of_succeeds fun _ => ⟨_, _, rfl⟩

/- All rows are looked up before the first one is removed. -/
theorem allOrNothing_deleteListed (ids : List RowId) :
    AllOrNothing (deleteListed ids) := by
  apply AllOrNothing.bind_reads .of_get
  intro t
  cases hMissing :
      ids.find? fun id => (t.row? id).isNone with
  | none =>
      exact allOrNothing_remove ids
  | some id =>
      exact AllOrNothing.of_throw _

theorem allOrNothing_addDefinition
    (d : ColumnDefinition)
    (isKey : Bool) :
    AllOrNothing (addDefinition d isKey) := by
  intro t t' e hRun
  rw [run_addDefinition] at hRun
  cases hColumn : t.column? d.name with
  | some c =>
      rw [hColumn] at hRun
      cases hRun
      rfl
  | none =>
      cases hType : DeclaredType.parse d.typeText with
      | none =>
          rw [hColumn, hType] at hRun
          cases hRun
          rfl
      | some type =>
          rw [hColumn, hType] at hRun
          cases hRun

theorem allOrNothing_dropColumn (name : String) :
    AllOrNothing (dropColumn name) := by
  apply AllOrNothing.bind_reads .of_get
  intro t
  apply AllOrNothing.bind_reads (.of_lift _)
  intro c
  exact AllOrNothing.of_succeeds fun _ => ⟨_, _, rfl⟩

end Edit

end Rowstore

------------------------------------------------------------
-- Work On The Selected Database
------------------------------------------------------------

namespace Rowstore

/- A table in its own place changes nothing. -/
theorem Workspace.replaceTable_self
    {w : Workspace}
    {name : String}
    {t : Table}
    (hTable : w.tableNamed name = .ok t) :
    w.replaceTable name t = w := by
  rcases tableNamed_eq_ok_iff.mp hTable with
    ⟨d, hActive, hFind⟩
  have hDatabase : (d.updateTable name fun _ => t) = d := by
    unfold Database.updateTable
    rw [updateFirst_self hFind]
  have hCollection :
      (w.collection.update d.id fun _ => d) =
        w.collection := by
    unfold Collection.update
    rw [updateFirst_self (active?_eq_some_iff.mp hActive).2]
  unfold replaceTable
  rw [updateActive_eq hActive, hDatabase, hCollection]

namespace Work

open Execution

variable {α : Type} {w w' : Workspace} {name : String}

theorem succeeds_announce
    {d : Database}
    (hActive : w.active? = some d)
    (change : Change)
    (text : String) :
    Succeeds (announce change text) w := by
  rw [← Workspace.activeDatabase_eq_ok_iff] at hActive
  refine ⟨.announced text d change, w, ?_⟩
  rw [run_announce, hActive]

theorem allOrNothing_onActive (f : Database → Database) :
    AllOrNothing (onActive f) := by
  apply AllOrNothing.bind_reads reads_activeDatabase
  intro d
  exact AllOrNothing.of_succeeds fun _ => ⟨_, _, rfl⟩

/- The selected database is there after its change as well. -/
theorem allOrNothing_onActive_announce
    {f : Database → Database}
    (hKeeps : ∀ d, (f d).id = d.id)
    (change : Change)
    (text : String) :
    AllOrNothing
      (do
        onActive f
        announce change text) := by
  apply AllOrNothing.bind (allOrNothing_onActive f)
  intro w w' u hRun
  rcases onActive_ok hRun with ⟨d, hActive, rfl⟩
  exact succeeds_announce
    (Workspace.active?_updateActive hActive (hKeeps d)) _ _

/- An edit that fails puts the table as it was in its own place. -/
theorem allOrNothing_onTable
    (name : String)
    {edit : Edit α}
    (hEdit : AllOrNothing edit) :
    AllOrNothing (onTable name edit) := by
  intro w w' e hRun
  rw [run_onTable] at hRun
  cases hTable : w.tableNamed name with
  | error e' =>
      rw [hTable] at hRun
      cases hRun
      rfl
  | ok t =>
      rw [hTable, Prod.mk.injEq] at hRun
      rcases hRun with ⟨hAnswer, rfl⟩
      rcases hRest : edit.run.run t with ⟨answer, t'⟩
      rw [hRest] at hAnswer
      cases hAnswer
      have hSame : t' = t := hEdit t t' e hRest
      rw [hSame]
      exact Workspace.replaceTable_self hTable

/- An edit that succeeds leaves a table with the same name. -/
theorem tableNamed_after_onTable
    {names : List String}
    {edit : Edit α}
    (hRevises : edit.Revises names)
    {a : α}
    (hRun : (onTable name edit).run.run w = (.ok a, w')) :
    ∃ t, w'.tableNamed name = .ok t := by
  rcases onTable_ok hRun with
    ⟨d, t, t', hActive, hFind, hEdit, rfl⟩
  have hTable : w.tableNamed name = .ok t :=
    Workspace.tableNamed_eq_ok_iff.mpr ⟨d, hActive, hFind⟩
  have hOld : t.isNamed name = true :=
    Database.isNamed_of_table? hFind
  have hNew : t'.isNamed name = true := by
    unfold Table.isNamed
    rw [(hRevises hEdit).id_name.2]
    exact hOld
  exact ⟨t', Workspace.tableNamed_replaceTable hTable hNew⟩

theorem succeeds_announce_of_tableNamed
    {t : Table}
    (hTable : w.tableNamed name = .ok t)
    (change : Change)
    (text : String) :
    Succeeds (announce change text) w := by
  rcases Workspace.tableNamed_eq_ok_iff.mp hTable with
    ⟨d, hActive, _⟩
  exact succeeds_announce hActive change text

/- An edit of rows by a statement. -/
theorem allOrNothing_onTable_announce
    (name : String)
    {names : List String}
    {edit : Edit α}
    (hEdit : AllOrNothing edit)
    (hRevises : edit.Revises names)
    (change : Change)
    (text : α → String) :
    AllOrNothing
      (do
        let a ← onTable name edit
        announce change (text a)) := by
  apply AllOrNothing.bind (allOrNothing_onTable name hEdit)
  intro w w' a hRun
  rcases tableNamed_after_onTable hRevises hRun with
    ⟨t, hTable⟩
  exact succeeds_announce_of_tableNamed hTable _ _

/- After an edit of its columns the table is found again. -/
theorem allOrNothing_edited
    (name : String)
    {names : List String}
    {edit : Edit α}
    (hEdit : AllOrNothing edit)
    (hRevises : edit.Revises names)
    (text : Table → String) :
    AllOrNothing
      (do
        let _ ← onTable name edit
        let t ← tableNamed name
        announce .tablesChanged (text t)) := by
  apply AllOrNothing.bind (allOrNothing_onTable name hEdit)
  intro w w' a hRun
  rcases tableNamed_after_onTable hRevises hRun with
    ⟨t, hTable⟩
  have hFirst :
      (tableNamed name).run.run w' = (.ok t, w') := by
    rw [run_tableNamed, hTable]
  exact
    Succeeds.bind hFirst
      (succeeds_announce_of_tableNamed hTable _ _)

end Work

end Rowstore

------------------------------------------------------------
-- Commands
------------------------------------------------------------

namespace Rowstore

namespace Work

open Execution

theorem allOrNothing_insert
    (table : String)
    (columns values : List String) :
    AllOrNothing (insert table columns values) := by
  unfold insert
  split
  · exact AllOrNothing.of_throw _
  · exact allOrNothing_onTable_announce table
      (Edit.allOrNothing_insert _ _)
      (Edit.revises_insertLiterals _) _ _

/- A table is filled before it is added. -/
theorem allOrNothing_createTable
    (id : TableId)
    (name : String)
    (definitions : List ColumnDefinition)
    (keys : List String) :
    AllOrNothing (createTable id name definitions keys) := by
  apply AllOrNothing.bind_reads reads_activeDatabase
  intro d
  by_cases hTaken : d.hasTable name = true
  · rw [if_pos hTaken]
    exact AllOrNothing.of_throw _
  · rw [if_neg hTaken]
    apply AllOrNothing.bind_reads (.of_lift _)
    intro _
    refine allOrNothing_onActive_announce ?_ _ _
    exact fun _ => rfl

theorem allOrNothing_dropTable (name : String) :
    AllOrNothing (dropTable name) := by
  apply AllOrNothing.bind_reads (reads_tableNamed name)
  intro t
  refine allOrNothing_onActive_announce ?_ _ _
  exact fun _ => rfl

theorem allOrNothing_rename (table name : String) :
    AllOrNothing (rename table name) := by
  apply AllOrNothing.bind_reads reads_activeDatabase
  intro d
  split
  · exact AllOrNothing.of_throw _
  · apply AllOrNothing.bind_reads (reads_tableNamed table)
    intro t
    refine allOrNothing_onActive_announce ?_ _ _
    exact fun _ => rfl

theorem allOrNothing_alterTable
    (table : String)
    (action : AlterAction) :
    AllOrNothing (alterTable table action) := by
  cases action with
  | addColumn definition =>
      exact allOrNothing_edited table
        (Edit.allOrNothing_addDefinition definition false)
        (Edit.revises_addDefinition
          (List.mem_singleton_self _) false) _
  | dropColumn column =>
      exact allOrNothing_edited table
        (Edit.allOrNothing_dropColumn column)
        (Edit.revises_dropColumn column) _
  | renameTo name => exact allOrNothing_rename table name

theorem allOrNothing_createDatabase
    (id : DatabaseId)
    (name : String)
    (ifNotExists : Bool) :
    AllOrNothing (createDatabase id name ifNotExists) := by
  apply AllOrNothing.bind_reads .of_get
  intro w
  cases w.collection.findByName? name with
  | none => exact AllOrNothing.of_succeeds fun _ => ⟨_, _, rfl⟩
  | some d =>
      cases ifNotExists with
      | true =>
          exact AllOrNothing.of_succeeds fun _ => ⟨_, _, rfl⟩
      | false => exact AllOrNothing.of_throw _

theorem allOrNothing_dropDatabase (name : String) :
    AllOrNothing (dropDatabase name) := by
  apply AllOrNothing.bind_reads .of_get
  intro w
  apply AllOrNothing.bind_reads (.of_lift _)
  intro found
  apply AllOrNothing.bind_reads .of_get
  intro w₁
  cases w₁.collection.get? found.id with
  | none => exact AllOrNothing.of_throw _
  | some d =>
      exact AllOrNothing.of_succeeds fun _ => ⟨_, _, rfl⟩

theorem allOrNothing_execute
    (stamp : Stamp)
    (command : Command) :
    AllOrNothing (execute stamp command) := by
  cases command with
  | insert table columns values =>
      exact allOrNothing_insert table columns values
  | update table assignments condition =>
      exact allOrNothing_onTable_announce table
        (Edit.allOrNothing_updateLiterals _ _)
        (Edit.revises_updateLiterals _ _) _ _
  | delete table condition =>
      exact allOrNothing_onTable_announce table
        (Edit.allOrNothing_deleteSelected _)
        (Edit.revises_deleteSelected _) _ _
  | createTable name definitions keys =>
      exact allOrNothing_createTable _ name definitions keys
  | createDatabase name ifNotExists =>
      exact allOrNothing_createDatabase _ name ifNotExists
  | dropTable name => exact allOrNothing_dropTable name
  | dropDatabase name => exact allOrNothing_dropDatabase name
  | alterTable table action =>
      exact allOrNothing_alterTable table action
  | permission action p =>
      refine allOrNothing_onActive_announce ?_ _ _
      exact fun _ => rfl
  | select | use | showDatabases | showTables | describe =>
      intro w w' e hRun
      exact execute_error_of_not_mutating stamp rfl hRun

/-
  Neither a command nor a row edit leaves a change behind when
  it fails: the whole workspace of the command, with all
  counters, logs and the selection, and the whole table of the
  edit are as they were.
-/
theorem execute_and_edits_allOrNothing
    (stamp : Stamp)
    (command : Command)
    (entries : List (String × String))
    (id : RowId)
    (column raw : String)
    (ids : List RowId) :
    AllOrNothing (execute stamp command) ∧
      AllOrNothing (Edit.insertEntered entries) ∧
      AllOrNothing (Edit.updateEntered id column raw) ∧
      AllOrNothing (Edit.deleteListed ids) :=
  ⟨allOrNothing_execute stamp command,
    Edit.allOrNothing_insert _ entries,
    Edit.allOrNothing_updateEntered id column raw,
    Edit.allOrNothing_deleteListed ids⟩

/- A column name that is taken and a list with a missing row change nothing. -/
theorem failures_change_nothing :
    let t : Table :=
      { Table.new ⟨⟨1⟩⟩ "t" with
        columns := [listingColumn 1 "a" .text]
        rows := [{ id := ⟨1⟩, cells := .ofList [] }] }
    let d := (Database.new ⟨⟨0⟩⟩ "d").addTable t
    let w : Workspace :=
      { collection := Collection.empty.add d
        selection := some d.id }
    let command : Command :=
      .alterTable "T" (.addColumn ⟨"A", "NUMBER", false⟩)
    let ids : List RowId := [⟨1⟩, ⟨2⟩]
    (execute Session.epoch command).run.run w =
        (.error (.duplicateColumnName "A"), w) ∧
      (Edit.deleteListed ids).run.run t =
        (.error (.rowNotFound 2), t) := by
  intro t d w command ids
  have hCommand :
      ((execute Session.epoch command).run.run w).1 =
        .error (.duplicateColumnName "A") := by
    decide +kernel
  have hRows :
      ((Edit.deleteListed ids).run.run t).1 =
        .error (.rowNotFound 2) := by
    decide +kernel
  rcases execute_and_edits_allOrNothing Session.epoch
      command [] ⟨1⟩ "a" "" ids with
    ⟨hExecute, _, _, hDelete⟩
  constructor
  · exact Prod.ext hCommand
      (hExecute w _ _ (Prod.ext hCommand rfl))
  · exact Prod.ext hRows
      (hDelete t _ _ (Prod.ext hRows rfl))

end Work

end Rowstore
