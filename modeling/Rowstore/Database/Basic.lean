import Rowstore.Calendar.Date
import Rowstore.Statement.Basic
import Rowstore.Table.Basic

/-
  This file defines databases, their permission logs, and the
  collection of all databases.

  Key definitions include:
    * `PermissionEvent`
    * `Database`
    * `Database.table?`
    * `Database.updateTable`
    * `Collection`
    * `Collection.get?`
    * `Collection.findByName?`
    * `Collection.update`
-/

namespace Rowstore

------------------------------------------------------------
-- Databases
------------------------------------------------------------

/- An entry of a permission log.  Entries are recorded and never consulted. -/
structure PermissionEvent where
  action : PermissionAction
  privilege : String
  scope : Scope
  name : String
  user : String
  time : Moment
deriving DecidableEq, Repr

/- A database: tables in order of creation, and a permission log. -/
structure Database where
  id : DatabaseId
  name : String
  tables : List Table
  permissions : List PermissionEvent
deriving DecidableEq

namespace Database

/- A database without tables. -/
def new
    (id : DatabaseId)
    (name : String) : Database :=
  { id := id
    name := name
    tables := []
    permissions := [] }

/- The database has a name, up to letter case. -/
def isNamed
    (d : Database)
    (name : String) : Bool :=
  Text.sameName d.name name

/- The first table with a name, up to letter case. -/
def table?
    (d : Database)
    (name : String) : Option Table :=
  d.tables.find? fun t => t.isNamed name

/- A table has the name, up to letter case. -/
def hasTable
    (d : Database)
    (name : String) : Bool :=
  (d.table? name).isSome

/- Append a table. -/
def addTable
    (d : Database)
    (t : Table) : Database :=
  { d with tables := d.tables ++ [t] }

/- Change the first table with a name. -/
def updateTable
    (d : Database)
    (name : String)
    (f : Table → Table) : Database :=
  { d with tables := updateFirst (fun t => t.isNamed name) f d.tables }

/- Remove the first table with a name. -/
def removeTable
    (d : Database)
    (name : String) : Database :=
  { d with tables := d.tables.eraseP fun t => t.isNamed name }

/- Append an entry to the permission log. -/
def record
    (d : Database)
    (e : PermissionEvent) : Database :=
  { d with permissions := d.permissions ++ [e] }

end Database

------------------------------------------------------------
-- Collections
------------------------------------------------------------

/- All databases in order of creation. -/
structure Collection where
  databases : List Database
deriving DecidableEq

namespace Collection

instance : Inhabited Collection :=
  ⟨⟨[]⟩⟩

/- No databases. -/
def empty : Collection :=
  ⟨[]⟩

/- The first database with an identifier. -/
def get?
    (s : Collection)
    (id : DatabaseId) : Option Database :=
  s.databases.find? fun d => d.id = id

/- A database has the identifier. -/
def contains
    (s : Collection)
    (id : DatabaseId) : Bool :=
  (s.get? id).isSome

/-
  The first database with exactly a name, or else the first
  one with the name up to letter case.
-/
def findByName?
    (s : Collection)
    (name : String) : Option Database :=
  (s.databases.find? fun d => d.name = name).or
    (s.databases.find? fun d => d.isNamed name)

/- Append a database. -/
def add
    (s : Collection)
    (d : Database) : Collection :=
  ⟨s.databases ++ [d]⟩

/- Remove the first database with an identifier. -/
def remove
    (s : Collection)
    (id : DatabaseId) : Collection :=
  ⟨s.databases.eraseP fun d => d.id = id⟩

/- Change the first database with an identifier. -/
def update
    (s : Collection)
    (id : DatabaseId)
    (f : Database → Database) : Collection :=
  ⟨updateFirst (fun d => d.id = id) f s.databases⟩

end Collection

end Rowstore
