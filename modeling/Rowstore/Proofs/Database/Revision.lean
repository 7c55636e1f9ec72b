import Mathlib.Data.List.Basic
import Rowstore.Database.Basic
import Rowstore.Proofs.Table.Identity
import Rowstore.Proofs.Table.Naming

/-
  What statements and row edits can make of a database and of
  a collection, and three properties of collections that
  every such revision keeps: the tables are identified, names
  can be quoted if those that are brought in can, and names
  are distinct up to letter case.

  Properties of single tables are kept since every revision
  of a table keeps them.

  Main declarations:
    * `Database.Revised` and `Collection.Revised`
    * `Collection.forall_databases_of_revised`
    * `Table.Lasts` and
      `Collection.forall_tables_of_revised`
    * `Collection.Identified` and
      `Collection.identified_of_revised`
    * `Collection.NamesQuotable` and
      `Collection.namesQuotable_of_revised`
    * `Collection.Named` and `Collection.named_of_revised`
-/

------------------------------------------------------------
-- Revisions
------------------------------------------------------------

namespace Rowstore

/-
  What can be made of a database, and which names, times of
  permissions and identifiers of tables it may bring in.
-/
inductive Database.Revised
    (names : List String)
    (times : List Moment)
    (ids : List TableId)
    (d : Database) : Database → Prop where
| tableRevised
    {name : String}
    {t t' : Table}
    (hTable : d.table? name = some t)
    (hRevised : t.Revised names t') :
    Revised names times ids d (d.updateTable name fun _ => t')
| tableAdded
    {id : TableId}
    (hId : id ∈ ids)
    {t : Table}
    (hName : t.name ∈ names)
    (hNew : d.table? t.name = none)
    (hBuilt : Table.Built names id t.name t) :
    Revised names times ids d (d.addTable t)
| tableRemoved
    (name : String) :
    Revised names times ids d (d.removeTable name)
| tableRenamed
    {table name : String}
    {t : Table}
    (hName : name ∈ names)
    (hTable : d.table? table = some t)
    (hFree :
      ∀ u ∈ d.tables, u.isNamed name = true →
        u.isNamed table = true) :
    Revised names times ids d
      (d.updateTable table fun t => { t with name := name })
| permissionRecorded
    {e : PermissionEvent}
    (hTime : e.time ∈ times) :
    Revised names times ids d (d.record e)

/- What can be made of a collection, and what it may bring in. -/
inductive Collection.Revised
    (names : List String)
    (times : List Moment)
    (ids : List TableId)
    (s : Collection) : Collection → Prop where
| databaseRevised
    {id : DatabaseId}
    {d d' : Database}
    (hFind : s.get? id = some d)
    (hRevised : d.Revised names times ids d') :
    Revised names times ids s (s.update id fun _ => d')
| databaseAdded
    {name : String}
    (hName : name ∈ names)
    (hNew : s.findByName? name = none)
    (id : DatabaseId) :
    Revised names times ids s (s.add (Database.new id name))
| databaseRemoved
    (id : DatabaseId) :
    Revised names times ids s (s.remove id)

/- A revision keeps the identifier and the name of the database. -/
theorem Database.Revised.id_name
    {names : List String}
    {times : List Moment}
    {ids : List TableId}
    {d d' : Database}
    (hRevised : d.Revised names times ids d') :
    d'.id = d.id ∧ d'.name = d.name := by
  cases hRevised with
  | tableRevised => exact ⟨rfl, rfl⟩
  | tableAdded => exact ⟨rfl, rfl⟩
  | tableRemoved => exact ⟨rfl, rfl⟩
  | tableRenamed => exact ⟨rfl, rfl⟩
  | permissionRecorded => exact ⟨rfl, rfl⟩

end Rowstore

------------------------------------------------------------
-- Properties Of Tables
------------------------------------------------------------

namespace Rowstore

/-
  New tables have a property, and revisions and new names
  keep it, as long as the names are given ones.
-/
structure Table.Lasts
    (names : List String)
    (P : Table → Prop) : Prop where
  created :
    ∀ (id : TableId) {name : String},
      name ∈ names → P (Table.new id name)
  revised :
    ∀ {t t' : Table}, t.Revised names t' → P t → P t'
  renamed :
    ∀ {t : Table} {name : String},
      name ∈ names → P t → P { t with name := name }

variable {names : List String} {times : List Moment}
variable {ids : List TableId}
variable {P : Table → Prop}

theorem Table.Lasts.built
    (hLasts : Table.Lasts names P)
    {id : TableId}
    {name : String}
    {t : Table}
    (hName : name ∈ names)
    (hBuilt : Table.Built names id name t) :
    P t := by
  induction hBuilt with
  | refl => exact hLasts.created id hName
  | tail _ hRevised ih => exact hLasts.revised hRevised ih

/- Such a property of all tables is kept by revisions of their database. -/
theorem Database.forall_tables_of_revised
    (hLasts : Table.Lasts names P)
    {d d' : Database}
    (hRevised : d.Revised names times ids d')
    (hAll : ∀ t ∈ d.tables, P t) :
    ∀ t ∈ d'.tables, P t := by
  intro u hMem
  cases hRevised with
  | tableRevised hTable hTableRevised =>
      rcases mem_of_mem_updateFirst hMem with
        hOld | ⟨t, hFind, rfl⟩
      · exact hAll u hOld
      · exact hLasts.revised hTableRevised
          (hAll _ (List.mem_of_find?_eq_some hTable))
  | tableAdded hId hName hNew hBuilt =>
      rcases List.mem_append.mp hMem with hOld | hAdded
      · exact hAll u hOld
      · rw [List.mem_singleton.mp hAdded]
        exact hLasts.built hName hBuilt
  | tableRemoved name =>
      exact hAll u (List.mem_of_mem_eraseP hMem)
  | tableRenamed hName hTable hFree =>
      rcases mem_of_mem_updateFirst hMem with
        hOld | ⟨t, hFind, rfl⟩
      · exact hAll u hOld
      · exact hLasts.renamed hName
          (hAll t (List.mem_of_find?_eq_some hFind))
  | permissionRecorded => exact hAll u hMem

/- A property of databases is kept if new ones have it and revisions of a database keep it. -/
theorem Collection.forall_databases_of_revised
    {Q : Database → Prop}
    (hCreated :
      ∀ (id : DatabaseId) (name : String),
        name ∈ names → Q (Database.new id name))
    (hDatabases :
      ∀ {d d' : Database},
        d.Revised names times ids d' → Q d → Q d')
    {s s' : Collection}
    (hRevised : s.Revised names times ids s')
    (hAll : ∀ d ∈ s.databases, Q d) :
    ∀ d ∈ s'.databases, Q d := by
  intro e hMem
  cases hRevised with
  | databaseRevised hFind hDatabase =>
      rcases mem_of_mem_updateFirst hMem with
        hOld | ⟨d, _, rfl⟩
      · exact hAll e hOld
      · exact hDatabases hDatabase
          (hAll _ (List.mem_of_find?_eq_some hFind))
  | @databaseAdded name hName hNew id =>
      rcases List.mem_append.mp hMem with hOld | hAdded
      · exact hAll e hOld
      · rw [List.mem_singleton.mp hAdded]
        exact hCreated id name hName
  | databaseRemoved id =>
      exact hAll e (List.mem_of_mem_eraseP hMem)

/- Such a property of all tables is kept by revisions of the collection. -/
theorem Collection.forall_tables_of_revised
    (hLasts : Table.Lasts names P)
    {s s' : Collection}
    (hRevised : s.Revised names times ids s')
    (hAll : ∀ d ∈ s.databases, ∀ t ∈ d.tables, P t) :
    ∀ d ∈ s'.databases, ∀ t ∈ d.tables, P t :=
  forall_databases_of_revised
    (fun _ _ _ => List.forall_mem_nil _)
    (fun hDatabase =>
      Database.forall_tables_of_revised hLasts hDatabase)
    hRevised hAll

end Rowstore

------------------------------------------------------------
-- Identifiers
------------------------------------------------------------

namespace Rowstore

/- Every table is identified. -/
def Database.Identified (d : Database) : Prop :=
  ∀ t ∈ d.tables, t.Identified

/- Every table of every database is identified. -/
def Collection.Identified (s : Collection) : Prop :=
  ∀ d ∈ s.databases, d.Identified

theorem Table.lasts_identified (names : List String) :
    Table.Lasts names Table.Identified where
  created := fun id name _ => identified_new id name
  revised := Identified.of_revised
  renamed := fun _ hIdentified =>
    { columns_ascend := hIdentified.columns_ascend
      columns_below := hIdentified.columns_below
      rows_ascend := hIdentified.rows_ascend
      rows_below := hIdentified.rows_below
      cells_within := hIdentified.cells_within }

namespace Collection

theorem identified_empty : Collection.empty.Identified := by
  intro d hMem
  cases hMem

theorem identified_of_revised
    {names : List String}
    {times : List Moment}
    {ids : List TableId}
    {s s' : Collection}
    (hRevised : s.Revised names times ids s')
    (hIdentified : s.Identified) :
    s'.Identified :=
  forall_tables_of_revised (Table.lasts_identified names)
    hRevised hIdentified

end Collection

end Rowstore

------------------------------------------------------------
-- Names That Can Be Quoted
------------------------------------------------------------

namespace Rowstore

/- The names in every table of every database can be quoted. -/
def Collection.NamesQuotable (s : Collection) : Prop :=
  ∀ d ∈ s.databases, ∀ t ∈ d.tables, t.NamesQuotable

theorem Table.lasts_namesQuotable
    {names : List String}
    (hNames : ∀ name ∈ names, Quotable name) :
    Table.Lasts names Table.NamesQuotable where
  created := fun id name hName =>
    namesQuotable_new id (hNames name hName)
  revised := namesQuotable_of_revised hNames
  renamed := fun hName hQuotable =>
    { name := hNames _ hName
      columns := hQuotable.columns }

namespace Collection

theorem namesQuotable_empty :
    Collection.empty.NamesQuotable := by
  intro d hMem
  cases hMem

theorem namesQuotable_of_revised
    {names : List String}
    {times : List Moment}
    {ids : List TableId}
    {s s' : Collection}
    (hNames : ∀ name ∈ names, Quotable name)
    (hRevised : s.Revised names times ids s')
    (hQuotable : s.NamesQuotable) :
    s'.NamesQuotable :=
  forall_tables_of_revised
    (Table.lasts_namesQuotable hNames) hRevised hQuotable

end Collection

end Rowstore

------------------------------------------------------------
-- Distinct Names
------------------------------------------------------------

namespace Rowstore

/- The names of the tables are distinct, and those of the columns of each table. -/
structure Database.Named (d : Database) : Prop where
  tables_distinct : NamesDistinct (d.tables.map Table.name)
  columns_distinct : ∀ t ∈ d.tables, t.ColumnsDistinct

/- The names of the databases are distinct, and those inside of each database. -/
structure Collection.Named (s : Collection) : Prop where
  databases_distinct :
    NamesDistinct (s.databases.map Database.name)
  databases_named : ∀ d ∈ s.databases, d.Named

theorem Table.lasts_columnsDistinct (names : List String) :
    Table.Lasts names Table.ColumnsDistinct where
  created := fun id name _ => columnsDistinct_new id name
  revised := columnsDistinct_of_revised
  renamed := fun _ hDistinct => hDistinct

namespace Database

variable {d : Database}

theorem named_new
    (id : DatabaseId)
    (name : String) :
    (Database.new id name).Named where
  tables_distinct := namesDistinct_nil
  columns_distinct := fun _ hMem => by cases hMem

theorem isNamed_of_table?
    {name : String}
    {t : Table}
    (hTable : d.table? name = some t) :
    Text.sameName t.name name = true :=
  List.find?_some (p := fun t : Table => t.isNamed name)
    hTable

theorem tablesDistinct_updateTable
    (hNamed : d.Named)
    {name : String}
    {t : Table}
    (hTable : d.table? name = some t)
    {f : Table → Table}
    (hFree :
      ∀ u ∈ d.tables,
        Text.sameName u.name (f t).name = true →
          Text.sameName u.name t.name = true) :
    NamesDistinct
      ((d.updateTable name f).tables.map Table.name) :=
  hNamed.tables_distinct.updateFirst hTable hFree

theorem tablesDistinct_addTable
    (hNamed : d.Named)
    {t : Table}
    (hNew : d.table? t.name = none) :
    NamesDistinct ((d.addTable t).tables.map Table.name) := by
  unfold addTable
  rw [List.map_append]
  apply hNamed.tables_distinct.append
  rw [List.forall_mem_map]
  intro u hMem
  unfold table? at hNew
  rw [List.find?_eq_none] at hNew
  simpa [Table.isNamed] using hNew u hMem

theorem tablesDistinct_of_revised
    {names : List String}
    {times : List Moment}
    {ids : List TableId}
    {d' : Database}
    (hRevised : d.Revised names times ids d')
    (hNamed : d.Named) :
    NamesDistinct (d'.tables.map Table.name) := by
  cases hRevised with
  | @tableRevised name t t' hTable hTableRevised =>
      apply tablesDistinct_updateTable hNamed hTable
      intro u hMem hSame
      rw [hTableRevised.id_name.2] at hSame
      exact hSame
  | tableAdded hId hName hNew hBuilt =>
      exact tablesDistinct_addTable hNamed hNew
  | tableRemoved name =>
      exact
        hNamed.tables_distinct.sublist
          (List.eraseP_sublist.map Table.name)
  | @tableRenamed table name t hName hTable hFree =>
      apply tablesDistinct_updateTable hNamed hTable
      intro u hMem hTaken
      -- Only the renamed table itself may have the new name.
      have hItself : Text.sameName u.name table = true :=
        hFree u hMem hTaken
      rw [Text.sameName_congr hItself, Text.sameName_comm]
      exact isNamed_of_table? hTable
  | permissionRecorded => exact hNamed.tables_distinct

theorem named_of_revised
    {names : List String}
    {times : List Moment}
    {ids : List TableId}
    {d' : Database}
    (hRevised : d.Revised names times ids d')
    (hNamed : d.Named) :
    d'.Named where
  tables_distinct :=
    tablesDistinct_of_revised hRevised hNamed
  columns_distinct :=
    forall_tables_of_revised
      (Table.lasts_columnsDistinct names) hRevised
      hNamed.columns_distinct

end Database

namespace Collection

theorem named_empty : Collection.empty.Named where
  databases_distinct := namesDistinct_nil
  databases_named := fun _ hMem => by cases hMem

/- A name that is not found is the name of no database. -/
theorem sameName_of_findByName?_eq_none
    {s : Collection}
    {name : String}
    (hNew : s.findByName? name = none)
    {d : Database}
    (hMem : d ∈ s.databases) :
    Text.sameName d.name name = false := by
  unfold findByName? at hNew
  rw [Option.or_eq_none_iff] at hNew
  rcases hNew with ⟨_, hFold⟩
  rw [List.find?_eq_none] at hFold
  simpa [Database.isNamed] using hFold d hMem

theorem databasesDistinct_of_revised
    {names : List String}
    {times : List Moment}
    {ids : List TableId}
    {s s' : Collection}
    (hRevised : s.Revised names times ids s')
    (hDistinct :
      NamesDistinct (s.databases.map Database.name)) :
    NamesDistinct (s'.databases.map Database.name) := by
  cases hRevised with
  | @databaseRevised id d d' hFind hDatabase =>
      apply hDistinct.updateFirst hFind
      intro e hMem hSame
      rw [hDatabase.id_name.2] at hSame
      exact hSame
  | @databaseAdded name hName hNew id =>
      unfold add
      rw [List.map_append]
      apply hDistinct.append
      rw [List.forall_mem_map]
      intro d hMem
      exact sameName_of_findByName?_eq_none hNew hMem
  | databaseRemoved id =>
      exact
        hDistinct.sublist
          (List.eraseP_sublist.map Database.name)

theorem named_of_revised
    {names : List String}
    {times : List Moment}
    {ids : List TableId}
    {s s' : Collection}
    (hRevised : s.Revised names times ids s')
    (hNamed : s.Named) :
    s'.Named where
  databases_distinct :=
    databasesDistinct_of_revised hRevised
      hNamed.databases_distinct
  databases_named :=
    forall_databases_of_revised
      (fun id name _ => Database.named_new id name)
      Database.named_of_revised hRevised
      hNamed.databases_named

end Collection

end Rowstore
