import Mathlib.Data.List.Forall2
import Rowstore.Proofs.Database.Listing
import Rowstore.Proofs.Session.Invariants
import Rowstore.Proofs.Workspace.Reading

/-
  What a command leaves as it was: all databases but one, all
  tables of this database but one, and of this table all that
  the command is not about.  What stays keeps its place, too.

  Tables are found by the first name that is the same up to
  letter case, and columns are taken out by their identifier.
  In a reachable session no other table or column has the name
  or the identifier, so that what is changed is what is named.

  Main declarations:
    * `Replaced` and `TakenOut`
    * `Workspace.SelectedChanged` and `Database.TableChanged`
    * `Command.Frame`
    * `Work.frame_execute`
    * `Session.frame_of_reachable`
-/

------------------------------------------------------------
-- Lists With One Change
------------------------------------------------------------

namespace Rowstore

variable {α : Type} {p : α → Bool} {l : List α} {a : α}

/- One item is replaced; the items before and after it are as they were. -/
def Replaced (a a' : α) (l l' : List α) : Prop :=
  ∃ before after,
    l = before ++ a :: after ∧ l' = before ++ a' :: after

/- One item is taken out; the items before and after it are as they were. -/
def TakenOut (a : α) (l l' : List α) : Prop :=
  ∃ before after,
    l = before ++ a :: after ∧ l' = before ++ after

theorem replaced_updateFirst
    (hFind : l.find? p = some a)
    (f : α → α) :
    Replaced a (f a) l (updateFirst p f l) := by
  rcases updateFirst_split f hFind with
    ⟨before, after, hList, _, hSplit⟩
  exact ⟨before, after, hList, hSplit⟩

theorem takenOut_eraseP (hFind : l.find? p = some a) :
    TakenOut a l (l.eraseP p) := by
  rw [List.find?_eq_some_iff_append] at hFind
  rcases hFind with ⟨hHolds, before, after, rfl, hBefore⟩
  refine ⟨before, after, rfl, ?_⟩
  rw [List.eraseP_append_right _ (by simpa using hBefore),
    List.eraseP_cons_of_pos hHolds]

/- Among items with distinct names there is only one with the name. -/
theorem NamesDistinct.eq_of_sameName
    {name : α → String}
    (hDistinct : NamesDistinct (l.map name))
    {b : α}
    (hMem : a ∈ l)
    (hOther : b ∈ l)
    {wanted : String}
    (hName : Text.sameName (name a) wanted = true)
    (hSame : Text.sameName (name b) wanted = true) :
    b = a := by
  have hNames : Text.sameName (name b) (name a) = true := by
    rw [Text.sameName_congr hSame, Text.sameName_comm]
    exact hName
  have hFound := hDistinct.find?_eq hOther
  rw [Text.hasName_congr name hNames,
    hDistinct.find?_eq hMem] at hFound
  exact (Option.some.inj hFound).symm

end Rowstore

------------------------------------------------------------
-- Tables
------------------------------------------------------------

namespace Rowstore

namespace Table

/- Only the rows and their counter may differ. -/
structure SameColumns (t t' : Table) : Prop where
  id : t'.id = t.id
  name : t'.name = t.name
  columns : t'.columns = t.columns
  nextColumn : t'.counters.nextColumn = t.counters.nextColumn

/- A column is appended, and all else is as it was. -/
def ColumnAppended
    (name : String)
    (t t' : Table) : Prop :=
  ∃ c : Column,
    c.name = name ∧
      t' =
        { t with
          columns := t.columns ++ [c]
          counters := t.counters.takeColumn }

/-
  The only column with a name is taken out, and from each row
  the cell under its identifier, which no other column has.
-/
def ColumnTakenOut
    (name : String)
    (t t' : Table) : Prop :=
  ∃ c : Column,
    c.isNamed name = true ∧
      (∀ b ∈ t.columns,
        b.isNamed name = true ∨ b.id = c.id → b = c) ∧
      TakenOut c t.columns t'.columns ∧
      List.Forall₂
        (fun r r' =>
          r'.id = r.id ∧
            ∀ k,
              r'.cells.get? k =
                if k = c.id then none else r.cells.get? k)
        t.rows t'.rows ∧
      t' = { t with columns := t'.columns, rows := t'.rows }

end Table

namespace Edit

variable {t t' : Table}

theorem sameColumns_insert
    {value : Column → String → Value}
    {entries : List (String × String)}
    {id : RowId}
    (hRun : (insert value entries).run.run t = (.ok id, t')) :
    t.SameColumns t' := by
  rw [run_insert] at hRun
  cases hCells : cellsOf t value entries with
  | error e =>
      rw [hCells] at hRun
      cases hRun
  | ok cells =>
      rw [hCells] at hRun
      cases hRun
      exact ⟨rfl, rfl, rfl, rfl⟩

theorem sameColumns_updateLiterals
    {assignments : List Assignment}
    {condition : Option String}
    {n : Nat}
    (hRun :
      (updateLiterals assignments condition).run.run t =
        (.ok n, t')) :
    t.SameColumns t' := by
  rw [run_updateLiterals] at hRun
  cases hChanges : changesOf t assignments with
  | error e =>
      rw [hChanges] at hRun
      cases hRun
  | ok changes =>
      cases hIds : t.selectedIds condition with
      | error e =>
          rw [hChanges, hIds] at hRun
          cases hRun
      | ok ids =>
          rw [hChanges, hIds] at hRun
          cases hRun
          rw [updateRows_eq]
          exact ⟨rfl, rfl, rfl, rfl⟩

theorem sameColumns_deleteSelected
    {condition : Option String}
    {n : Nat}
    (hRun :
      (deleteSelected condition).run.run t = (.ok n, t')) :
    t.SameColumns t' := by
  rw [run_deleteSelected] at hRun
  cases hIds : t.selectedIds condition with
  | error e =>
      rw [hIds] at hRun
      cases hRun
  | ok ids =>
      rw [hIds] at hRun
      cases hRun
      exact ⟨rfl, rfl, rfl, rfl⟩

theorem columnAppended_addDefinition
    {d : ColumnDefinition}
    {isKey : Bool}
    {u : Unit}
    (hRun :
      (addDefinition d isKey).run.run t = (.ok u, t')) :
    t.ColumnAppended d.name t' := by
  rw [run_addDefinition] at hRun
  cases hColumn : t.column? d.name with
  | some c =>
      rw [hColumn] at hRun
      cases hRun
  | none =>
      cases hType : DeclaredType.parse d.typeText with
      | none =>
          rw [hColumn, hType] at hRun
          cases hRun
      | some type =>
          rw [hColumn, hType] at hRun
          cases hRun
          exact ⟨_, rfl, rfl⟩

end Edit

namespace Table

variable {t : Table} {c : Column}

/- With distinct identifiers the column that was found is taken out. -/
theorem columnTakenOut_removeColumn
    (hIdentified : t.Identified)
    (hDistinct : t.ColumnsDistinct)
    {name : String}
    (hFind : t.column? name = some c) :
    t.ColumnTakenOut name (t.removeColumn c.id) := by
  have hMem : c ∈ t.columns :=
    List.mem_of_find?_eq_some hFind
  have hName : c.isNamed name = true :=
    List.find?_some (p := fun c : Column => c.isNamed name)
      hFind
  have hById := hIdentified.columnById?_eq hMem
  have hRemoved :
      t.removeColumn c.id =
        { t with
          columns := t.columns.eraseP fun b => b.id = c.id
          rows := t.rows.map fun r => r.without c.id } := by
    unfold removeColumn
    rw [hById, Option.isSome_some, if_pos rfl]
  rw [hRemoved]
  refine
    ⟨c, hName, ?_, takenOut_eraseP hById, ?_, rfl⟩
  · rintro b hOther (hSame | hId)
    · exact hDistinct.eq_of_sameName hMem hOther hName hSame
    · exact hIdentified.eq_of_id hMem hOther hId
  · rw [List.forall₂_map_right_iff, List.forall₂_same]
    intro r _
    exact ⟨rfl, Cells.get?_without r.cells c.id⟩

end Table

theorem Edit.columnTakenOut_dropColumn
    {t t' : Table}
    (hIdentified : t.Identified)
    (hDistinct : t.ColumnsDistinct)
    {name : String}
    {u : Unit}
    (hRun : (dropColumn name).run.run t = (.ok u, t')) :
    t.ColumnTakenOut name t' := by
  rw [run_dropColumn] at hRun
  cases hColumn : t.columnNamed name with
  | error e =>
      rw [hColumn] at hRun
      cases hRun
  | ok c =>
      rw [hColumn] at hRun
      cases hRun
      exact Table.columnTakenOut_removeColumn hIdentified
        hDistinct (Table.columnNamed_eq_ok_iff.mp hColumn)

end Rowstore

------------------------------------------------------------
-- Frames Of Commands
------------------------------------------------------------

namespace Rowstore

namespace Database

/- The only table with a name is changed, and nothing else of the database. -/
def TableChanged
    (name : String)
    (P : Table → Table → Prop)
    (d d' : Database) : Prop :=
  ∃ t t' : Table,
    t.isNamed name = true ∧
      (∀ u ∈ d.tables, u.isNamed name = true → u = t) ∧
      P t t' ∧
      Replaced t t' d.tables d'.tables ∧
      d' = { d with tables := d'.tables }

/- The only table with a name is taken out, and nothing else of the database. -/
def TableTakenOut
    (name : String)
    (d d' : Database) : Prop :=
  ∃ t : Table,
    t.isNamed name = true ∧
      (∀ u ∈ d.tables, u.isNamed name = true → u = t) ∧
      TakenOut t d.tables d'.tables ∧
      d' = { d with tables := d'.tables }

/- A table is appended, and all else is as it was. -/
def TableAppended
    (name : String)
    (d d' : Database) : Prop :=
  ∃ t : Table,
    t.name = name ∧ d' = { d with tables := d.tables ++ [t] }

end Database

/- The selected database is changed, and neither the selection nor another database. -/
def Workspace.SelectedChanged
    (P : Database → Database → Prop)
    (w w' : Workspace) : Prop :=
  w'.selection = w.selection ∧
    ∃ d d' : Database,
      w.active? = some d ∧
        P d d' ∧
        Replaced d d' w.collection.databases
          w'.collection.databases

/- What a command may change, and how; all else it leaves as it was. -/
def Command.Frame
    (stamp : Stamp)
    (w w' : Workspace) : Command → Prop
| .insert table _ _ | .update table _ _ | .delete table _ =>
  w.SelectedChanged (Database.TableChanged table Table.SameColumns) w'
| .alterTable table (.addColumn definition) =>
  w.SelectedChanged
    (Database.TableChanged table
      (Table.ColumnAppended definition.name)) w'
| .alterTable table (.dropColumn column) =>
  w.SelectedChanged
    (Database.TableChanged table (Table.ColumnTakenOut column)) w'
| .alterTable table (.renameTo name) =>
  w.SelectedChanged
    (Database.TableChanged table fun t t' =>
      t' = { t with name := name }) w'
| .createTable name _ _ =>
  w.SelectedChanged (Database.TableAppended name) w'
| .dropTable name =>
  w.SelectedChanged (Database.TableTakenOut name) w'
| .permission action p =>
  w.SelectedChanged
    (fun d d' =>
      d' =
        { d with
          permissions :=
            d.permissions ++ [Work.eventOf stamp.time action p] })
    w'
| .createDatabase name ifNotExists =>
  (ifNotExists = true ∧
      (w.collection.findByName? name).isSome ∧ w' = w) ∨
    w'.collection.databases =
      w.collection.databases ++ [Database.new ⟨stamp.uuid⟩ name]
| .dropDatabase name =>
  ∃ found d : Database,
    found ∈ w.collection.databases ∧
      (∀ e ∈ w.collection.databases,
        e.isNamed name = true ↔ e = found) ∧
      d.id = found.id ∧
      (w.collection.ids.Nodup → d = found) ∧
      TakenOut d w.collection.databases w'.collection.databases
| .use _ => w'.collection = w.collection
| .select _ _ _ | .showDatabases | .showTables | .describe _ =>
  w' = w

end Rowstore

------------------------------------------------------------
-- Changes Of The Selected Database
------------------------------------------------------------

namespace Rowstore

namespace Database

variable {d : Database} {name : String} {t : Table}

theorem eq_of_isNamed
    (hNamed : d.Named)
    (hFind : d.table? name = some t) :
    ∀ u ∈ d.tables, u.isNamed name = true → u = t := by
  intro u hOther hSame
  exact
    hNamed.tables_distinct.eq_of_sameName
      (List.mem_of_find?_eq_some hFind) hOther
      (isNamed_of_table? hFind) hSame

theorem tableChanged_updateTable
    (hNamed : d.Named)
    (hFind : d.table? name = some t)
    {P : Table → Table → Prop}
    {f : Table → Table}
    (hChange : P t (f t)) :
    d.TableChanged name P (d.updateTable name f) :=
  ⟨t, f t, isNamed_of_table? hFind,
    eq_of_isNamed hNamed hFind, hChange,
    replaced_updateFirst hFind f, rfl⟩

theorem tableTakenOut_removeTable
    (hNamed : d.Named)
    (hFind : d.table? name = some t) :
    d.TableTakenOut name (d.removeTable name) :=
  ⟨t, isNamed_of_table? hFind, eq_of_isNamed hNamed hFind,
    takenOut_eraseP hFind, rfl⟩

end Database

namespace Work

open Execution

variable {α : Type} {w w' : Workspace} {d : Database}

theorem mem_databases_of_active?
    (hActive : w.active? = some d) :
    d ∈ w.collection.databases :=
  List.mem_of_find?_eq_some
    (Workspace.active?_eq_some_iff.mp hActive).2

theorem selectedChanged_updateActive
    (hActive : w.active? = some d)
    {f : Database → Database}
    {P : Database → Database → Prop}
    (hChange : P d (f d)) :
    w.SelectedChanged P (w.updateActive f) := by
  rw [Workspace.updateActive_eq hActive]
  exact
    ⟨rfl, d, f d, hActive, hChange,
      replaced_updateFirst
        (Workspace.active?_eq_some_iff.mp hActive).2 _⟩

/- A change of the selected database that is announced. -/
theorem selectedChanged_of_onActive
    {f : Database → Database}
    {P : Database → Database → Prop}
    (hChange : ∀ d, w.active? = some d → P d (f d))
    {change : Change}
    {text : String}
    {o : Outcome}
    (hRun :
      (do
        onActive f
        announce change text :
        Work Outcome).run.run w = (.ok o, w')) :
    w.SelectedChanged P w' := by
  rcases run_bind_ok hRun with ⟨u, w₁, hOn, hAnnounce⟩
  rcases onActive_ok hOn with ⟨d, hActive, rfl⟩
  rcases announce_ok hAnnounce with ⟨_, rfl⟩
  exact selectedChanged_updateActive hActive
    (hChange d hActive)

/- An edit of a table. -/
theorem selectedChanged_of_onTable
    (hNamed : w.collection.Named)
    {name : String}
    {edit : Edit α}
    {a : α}
    {P : Table → Table → Prop}
    (hChange :
      ∀ {d : Database} {t t' : Table},
        d ∈ w.collection.databases → t ∈ d.tables →
          edit.run.run t = (.ok a, t') → P t t')
    (hRun : (onTable name edit).run.run w = (.ok a, w')) :
    w.SelectedChanged (Database.TableChanged name P) w' := by
  rcases onTable_ok hRun with
    ⟨d, t, t', hActive, hFind, hEdit, rfl⟩
  have hMem := mem_databases_of_active? hActive
  exact selectedChanged_updateActive hActive
    (Database.tableChanged_updateTable
      (hNamed.databases_named d hMem) hFind
      (hChange hMem (List.mem_of_find?_eq_some hFind)
        hEdit))

/- An edit of rows by a statement. -/
theorem selectedChanged_of_onTable_announce
    (hNamed : w.collection.Named)
    {name : String}
    {edit : Edit α}
    {P : Table → Table → Prop}
    (hChange :
      ∀ {t t' : Table} {a : α},
        edit.run.run t = (.ok a, t') → P t t')
    {change : Change}
    {text : α → String}
    {o : Outcome}
    (hRun :
      (do
        let a ← onTable name edit
        announce change (text a) :
        Work Outcome).run.run w = (.ok o, w')) :
    w.SelectedChanged (Database.TableChanged name P) w' := by
  rcases run_bind_ok hRun with ⟨a, w₁, hOn, hAnnounce⟩
  rcases announce_ok hAnnounce with ⟨_, rfl⟩
  exact selectedChanged_of_onTable hNamed
    (fun _ _ hEdit => hChange hEdit) hOn

/- An edit of columns, after which the table is looked up. -/
theorem selectedChanged_of_edited
    (hNamed : w.collection.Named)
    {name : String}
    {edit : Edit α}
    {P : Table → Table → Prop}
    (hChange :
      ∀ {d : Database} {t t' : Table} {a : α},
        d ∈ w.collection.databases → t ∈ d.tables →
          edit.run.run t = (.ok a, t') → P t t')
    {text : Table → String}
    {o : Outcome}
    (hRun :
      (do
        let _ ← onTable name edit
        let t ← tableNamed name
        announce .tablesChanged (text t) :
        Work Outcome).run.run w = (.ok o, w')) :
    w.SelectedChanged (Database.TableChanged name P) w' := by
  rcases run_bind_ok hRun with ⟨a, w₁, hOn, hRest⟩
  rcases run_bind_ok hRest with ⟨t, w₂, hTable, hAnnounce⟩
  rcases tableNamed_ok hTable with ⟨_, rfl⟩
  rcases announce_ok hAnnounce with ⟨_, rfl⟩
  exact selectedChanged_of_onTable hNamed hChange hOn

end Work

end Rowstore

------------------------------------------------------------
-- Databases By Name
------------------------------------------------------------

namespace Rowstore

namespace Collection

/- What is found by a name is the only database with the name. -/
theorem eq_of_findByName?
    {c : Collection}
    (hNamed : c.Named)
    {name : String}
    {found : Database}
    (hFind : c.findByName? name = some found) :
    found ∈ c.databases ∧
      ∀ e ∈ c.databases,
        e.isNamed name = true ↔ e = found := by
  have hFound :
      found ∈ c.databases ∧ found.isNamed name = true := by
    rcases Option.or_eq_some_iff.mp hFind with
      hExact | ⟨_, hFold⟩
    · have hName : found.name = name := by
        simpa using List.find?_some hExact
      refine ⟨List.mem_of_find?_eq_some hExact, ?_⟩
      unfold Database.isNamed
      rw [hName, Text.sameName_iff]
    · exact
        ⟨List.mem_of_find?_eq_some hFold,
          List.find?_some
            (p := fun d : Database => d.isNamed name)
            hFold⟩
  refine ⟨hFound.1, ?_⟩
  intro e hMem
  constructor
  · intro hSame
    exact hNamed.databases_distinct.eq_of_sameName hFound.1
      hMem hFound.2 hSame
  · rintro rfl
    exact hFound.2

end Collection

theorem Workspace.databaseNamed_eq_ok_iff
    {w : Workspace}
    {name : String}
    {d : Database} :
    w.databaseNamed name = .ok d ↔
      w.collection.findByName? name = some d := by
  unfold databaseNamed
  cases w.collection.findByName? name with
  | none => simp
  | some e => simp

end Rowstore

------------------------------------------------------------
-- Commands Keep To Their Frames
------------------------------------------------------------

namespace Rowstore

namespace Work

open Execution

variable {w w' : Workspace} {o : Outcome}

theorem frame_insert
    (hNamed : w.collection.Named)
    {table : String}
    {columns values : List String}
    (hRun :
      (insert table columns values).run.run w = (.ok o, w')) :
    w.SelectedChanged
      (Database.TableChanged table Table.SameColumns) w' := by
  unfold insert at hRun
  by_cases hCount : columns.length ≠ values.length
  · rw [if_pos hCount] at hRun
    cases hRun
  · rw [if_neg hCount] at hRun
    exact selectedChanged_of_onTable_announce hNamed
      Edit.sameColumns_insert hRun

theorem frame_createTable
    {id : TableId}
    {name : String}
    {definitions : List ColumnDefinition}
    {keys : List String}
    (hRun :
      (createTable id name definitions keys).run.run w =
        (.ok o, w')) :
    w.SelectedChanged (Database.TableAppended name) w' := by
  unfold createTable at hRun
  rcases run_bind_ok hRun with ⟨d, w₁, hActive, hRun⟩
  rw [run_activeDatabase, Prod.mk.injEq] at hActive
  rcases hActive with ⟨_, rfl⟩
  by_cases hTaken : d.hasTable name = true
  · rw [if_pos hTaken] at hRun
    cases hRun
  rw [if_neg hTaken] at hRun
  rcases hDefine :
      (Edit.define definitions keys).run.run
        (Table.new id name) with ⟨e | u, t⟩
  · rw [hDefine] at hRun
    cases hRun
  rw [hDefine] at hRun
  rcases run_bind_ok hRun with ⟨_, w₂, hDone, hRest⟩
  cases hDone
  have hBuilt :
      Table.Built (definitions.map ColumnDefinition.name) id
        name t :=
    Edit.built_of_define
      (fun _ hMem => List.mem_map_of_mem hMem) hDefine
  refine selectedChanged_of_onActive ?_ hRest
  exact fun _ _ => ⟨t, hBuilt.name, rfl⟩

theorem frame_dropTable
    (hNamed : w.collection.Named)
    {name : String}
    (hRun : (dropTable name).run.run w = (.ok o, w')) :
    w.SelectedChanged (Database.TableTakenOut name) w' := by
  rcases run_bind_ok hRun with ⟨t, w₁, hTable, hRest⟩
  rcases tableNamed_ok hTable with ⟨⟨d, hActive, hFind⟩, rfl⟩
  refine selectedChanged_of_onActive ?_ hRest
  intro e hOther
  rw [hActive] at hOther
  cases hOther
  exact
    Database.tableTakenOut_removeTable
      (hNamed.databases_named d
        (mem_databases_of_active? hActive)) hFind

theorem frame_rename
    (hNamed : w.collection.Named)
    {table name : String}
    (hRun : (rename table name).run.run w = (.ok o, w')) :
    w.SelectedChanged
      (Database.TableChanged table fun t t' =>
        t' = { t with name := name }) w' := by
  unfold rename at hRun
  rcases run_bind_ok hRun with ⟨d, w₁, hActive, hRun⟩
  rw [run_activeDatabase, Prod.mk.injEq,
    Workspace.activeDatabase_eq_ok_iff] at hActive
  rcases hActive with ⟨hActive, rfl⟩
  split at hRun
  · cases hRun
  rcases run_bind_ok hRun with ⟨t, w₂, hTable, hRest⟩
  rcases tableNamed_ok hTable with ⟨⟨e, hOther, hFind⟩, rfl⟩
  rw [hActive] at hOther
  cases hOther
  refine selectedChanged_of_onActive ?_ hRest
  intro e hOther
  rw [hActive] at hOther
  cases hOther
  exact
    Database.tableChanged_updateTable
      (hNamed.databases_named d
        (mem_databases_of_active? hActive)) hFind rfl

theorem frame_alterTable
    (hNamed : w.collection.Named)
    (hIdentified : w.collection.Identified)
    (stamp : Stamp)
    {table : String}
    {action : AlterAction}
    (hRun :
      (alterTable table action).run.run w = (.ok o, w')) :
    (Command.alterTable table action).Frame stamp w w' := by
  cases action with
  | addColumn definition =>
      refine selectedChanged_of_edited hNamed ?_ hRun
      intro d t t' u _ _ hEdit
      exact Edit.columnAppended_addDefinition hEdit
  | dropColumn column =>
      refine selectedChanged_of_edited hNamed ?_ hRun
      intro d t t' u hDatabase hTable hEdit
      exact
        Edit.columnTakenOut_dropColumn
          (hIdentified d hDatabase t hTable)
          ((hNamed.databases_named d
            hDatabase).columns_distinct t hTable)
          hEdit
  | renameTo name => exact frame_rename hNamed hRun

theorem frame_createDatabase
    {stamp : Stamp}
    {name : String}
    {ifNotExists : Bool}
    (hRun :
      (createDatabase ⟨stamp.uuid⟩ name
          ifNotExists).run.run w = (.ok o, w')) :
    (Command.createDatabase name ifNotExists).Frame stamp
      w w' := by
  rcases run_bind_ok hRun with ⟨w₁, w₂, hGet, hRun⟩
  cases hGet
  cases hFind : w.collection.findByName? name with
  | some d =>
      simp only [hFind] at hRun
      cases ifNotExists with
      | true =>
          cases hRun
          refine .inl ⟨rfl, ?_, rfl⟩
          rw [hFind, Option.isSome_some]
      | false => cases hRun
  | none =>
      simp only [hFind] at hRun
      cases hRun
      exact .inr rfl

/- The database that is dropped is looked up by name, and then by its identifier. -/
theorem frame_dropDatabase
    (hNamed : w.collection.Named)
    (stamp : Stamp)
    {name : String}
    (hRun : (dropDatabase name).run.run w = (.ok o, w')) :
    (Command.dropDatabase name).Frame stamp w w' := by
  rcases run_bind_ok hRun with ⟨w₁, w₂, hGet, hRun⟩
  cases hGet
  rcases run_bind_ok hRun with ⟨found, w₃, hFind, hRun⟩
  rw [run_lift, Prod.mk.injEq,
    Workspace.databaseNamed_eq_ok_iff] at hFind
  rcases hFind with ⟨hFind, rfl⟩
  rcases run_bind_ok hRun with ⟨w₄, w₅, hGet, hRun⟩
  cases hGet
  rcases Collection.eq_of_findByName? hNamed hFind with
    ⟨hMem, hOnly⟩
  cases hStored : w.collection.get? found.id with
  | none =>
      simp only [hStored] at hRun
      cases hRun
  | some d =>
      simp only [hStored] at hRun
      cases hRun
      have hId := Collection.id_of_get? hStored
      refine
        ⟨found, d, hMem, hOnly, hId, ?_,
          takenOut_eraseP hStored⟩
      intro hDistinct
      exact
        List.inj_on_of_nodup_map hDistinct
          (List.mem_of_find?_eq_some hStored) hMem hId

theorem frame_use
    {name : String}
    (hRun : (useDatabase name).run.run w = (.ok o, w')) :
    w'.collection = w.collection := by
  rw [run_useDatabase] at hRun
  cases hFind : w.collection.findByName? name with
  | none =>
      rw [hFind] at hRun
      cases hRun
  | some d =>
      rw [hFind] at hRun
      cases hRun
      rfl

/- With distinct names and identifiers every command keeps to its frame. -/
theorem frame_execute
    (hNamed : w.collection.Named)
    (hIdentified : w.collection.Identified)
    {stamp : Stamp}
    {command : Command}
    (hRun :
      (execute stamp command).run.run w = (.ok o, w')) :
    command.Frame stamp w w' := by
  cases command with
  | insert table columns values =>
      exact frame_insert hNamed hRun
  | update table assignments condition =>
      exact selectedChanged_of_onTable_announce hNamed
        Edit.sameColumns_updateLiterals hRun
  | delete table condition =>
      exact selectedChanged_of_onTable_announce hNamed
        Edit.sameColumns_deleteSelected hRun
  | createTable name definitions keys =>
      exact frame_createTable hRun
  | createDatabase name ifNotExists =>
      exact frame_createDatabase hRun
  | dropTable name => exact frame_dropTable hNamed hRun
  | dropDatabase name =>
      exact frame_dropDatabase hNamed stamp hRun
  | alterTable table action =>
      exact frame_alterTable hNamed hIdentified stamp hRun
  | permission action p =>
      exact selectedChanged_of_onActive (fun _ _ => rfl) hRun
  | use name => exact frame_use hRun
  | select projection table condition =>
      exact
        (reads_select projection table condition).eq_of_run
          hRun
  | showDatabases =>
      exact reads_showDatabases.eq_of_run hRun
  | showTables => exact reads_showTables.eq_of_run hRun
  | describe table =>
      exact (reads_describe table).eq_of_run hRun

end Work

end Rowstore

------------------------------------------------------------
-- Reachable Collections
------------------------------------------------------------

namespace Rowstore

namespace Session

/-
  A command that succeeds on a collection of a reachable
  session changes what its frame has, and nothing else.
-/
theorem frame_of_reachable
    {s : Session (Outage Depot)}
    (hReachable : s.Reachable)
    {c : Collection}
    (hHolds : s.Holds c)
    (selection : Option DatabaseId)
    {stamp : Stamp}
    {command : Command}
    {o : Outcome}
    {w' : Workspace}
    (hRun :
      (Work.execute stamp command).run.run ⟨c, selection⟩ =
        (.ok o, w')) :
    command.Frame stamp ⟨c, selection⟩ w' := by
  refine
    Work.frame_execute (named_of_reachable hReachable hHolds)
      ?_ hRun
  intro d hDatabase t hTable
  exact
    (identified_of_reachable hReachable hHolds d hDatabase t
      hTable).1

/- A column of one of two tables is taken out. -/
theorem dropped_column_is_framed :
    let s :=
      (onDepot (.memory (.new .empty none)) .literal).afterAll
        [.statement epoch "CREATE DATABASE d",
          .statement epoch "CREATE TABLE t (a TEXT, b TEXT)",
          .statement epoch "CREATE TABLE u (a TEXT)",
          .insertRow "t" [("a", "x"), ("b", "y")]]
    let command : Command := .alterTable "T" (.dropColumn "A")
    ∃ c o w',
      s.Holds c ∧
        (Work.execute epoch command).run.run
            ⟨c, s.selection⟩ = (.ok o, w') ∧
        command.Frame epoch ⟨c, s.selection⟩ w' := by
  intro s command
  have hReachable : s.Reachable :=
    reachable_afterAll
      (reachable_onDepot (.memory (.new .empty none))
        ⟨none, rfl⟩ .literal) _
  have hSucceeds :
      s.backend.backend.loaded?.any (fun c =>
        ((Work.execute epoch command).run.run
          ⟨c, s.selection⟩).1.isOk) = true := by
    decide +kernel
  rw [Option.any_eq_true] at hSucceeds
  rcases hSucceeds with ⟨c, hLoaded, hOk⟩
  rcases hRun :
      (Work.execute epoch command).run.run
        ⟨c, s.selection⟩ with ⟨e | o, w'⟩
  · rw [hRun] at hOk
    cases hOk
  · exact
      ⟨c, o, w', .inl hLoaded, hRun,
        frame_of_reachable hReachable (.inl hLoaded)
          s.selection hRun⟩

end Session

end Rowstore
