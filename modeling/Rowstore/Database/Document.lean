import Rowstore.Calendar.Input
import Rowstore.Database.Basic
import Rowstore.Json.Reader
import Rowstore.Json.Writer
import Rowstore.Table.Document

/-
  This file defines the documents of permission logs,
  databases and collections, and their text.

  Key definitions include:
    * `PermissionEvent.toJson`
    * `PermissionEvent.ofJson?`
    * `Database.toJson`
    * `Database.ofJson?`
    * `Collection.toJson`
    * `Collection.ofJson?`
-/

namespace Rowstore

------------------------------------------------------------
-- Permission Logs
------------------------------------------------------------

/- The words for permission actions. -/
def PermissionAction.words : List (String × PermissionAction) :=
  [PermissionAction.grant, .revoke].map fun a => (a.word, a)

/- The words for scopes. -/
def Scope.words : List (String × Scope) :=
  [Scope.table, .database].map fun s => (s.word, s)

namespace Moment

/- The document of a moment. -/
def toJson (m : Moment) : Json :=
  .ofText (String.ofList m.stampText)

/- Read a moment. -/
def ofJson? (j : Json) : Option Moment := do
  Calendar.readStamp (← j.text?).toList

end Moment

namespace PermissionEvent

/- The fields of a permission event. -/
def fieldNames : List String :=
  ["action", "privilege", "scope", "name", "user", "timestamp"]

/- The document of a permission event. -/
def toJson (e : PermissionEvent) : Json :=
  .ofMembers
    [("action", .ofText e.action.word),
     ("privilege", .ofText e.privilege),
     ("scope", .ofText e.scope.word),
     ("name", .ofText e.name),
     ("user", .ofText e.user),
     ("timestamp", e.time.toJson)]

/- Read a permission event. -/
def ofJson? (j : Json) : Option PermissionEvent := do
  let fields ← Json.fields? fieldNames j
  let action ←
    Json.required? (Json.word? PermissionAction.words)
      (Json.place fields 0)
  let privilege ← Json.required? Json.text? (Json.place fields 1)
  let scope ←
    Json.required? (Json.word? Scope.words) (Json.place fields 2)
  let name ← Json.required? Json.text? (Json.place fields 3)
  let user ← Json.required? Json.text? (Json.place fields 4)
  let time ← Json.required? Moment.ofJson? (Json.place fields 5)
  pure
    { action := action
      privilege := privilege
      scope := scope
      name := name
      user := user
      time := time }

end PermissionEvent

------------------------------------------------------------
-- Databases
------------------------------------------------------------

namespace DatabaseId

/- The document of a database identifier. -/
def toJson (d : DatabaseId) : Json :=
  d.uuid.toJson

/- Read a database identifier. -/
def ofJson? (j : Json) : Option DatabaseId :=
  (Uuid.ofJson? j).map DatabaseId.mk

end DatabaseId

namespace Database

/- The fields of a database. -/
def fieldNames : List String :=
  ["id", "name", "tables", "meta"]

/- The fields of what is kept about a database besides its tables. -/
def metaFieldNames : List String :=
  ["permissions"]

/- The document of what is kept about a database besides its tables. -/
def metaToJson (permissions : List PermissionEvent) : Json :=
  .ofMembers
    [("permissions", .array (permissions.map PermissionEvent.toJson))]

/- Read what is kept about a database besides its tables. -/
def metaOfJson? (j : Json) : Option (List PermissionEvent) := do
  let fields ← Json.fields? metaFieldNames j
  Json.withDefault? (Json.list? PermissionEvent.ofJson?) []
    (Json.place fields 0)

/- The document of a database. -/
def toJson (d : Database) : Json :=
  .ofMembers
    [("id", d.id.toJson),
     ("name", .ofText d.name),
     ("tables", .array (d.tables.map Table.toJson)),
     ("meta", metaToJson d.permissions)]

/- Read a database. -/
def ofJson? (j : Json) : Option Database := do
  let fields ← Json.fields? fieldNames j
  let id ← Json.required? DatabaseId.ofJson? (Json.place fields 0)
  let name ← Json.required? Json.text? (Json.place fields 1)
  let tables ←
    Json.required? (Json.list? Table.ofJson?) (Json.place fields 2)
  let permissions ←
    Json.withDefault? metaOfJson? [] (Json.place fields 3)
  pure
    { id := id
      name := name
      tables := tables
      permissions := permissions }

end Database

------------------------------------------------------------
-- Collections
------------------------------------------------------------

namespace Collection

/- The document of a collection: its databases in order. -/
def toJson (s : Collection) : Json :=
  .array (s.databases.map Database.toJson)

/- Read a collection. -/
def ofJson? (j : Json) : Option Collection :=
  (Json.list? Database.ofJson? j).map Collection.mk

end Collection

end Rowstore
