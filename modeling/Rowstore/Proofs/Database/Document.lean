import Rowstore.Database.Document
import Rowstore.Proofs.Database.Revision
import Rowstore.Proofs.Table.Document

/-
  The documents of databases and collections: they can be
  written, and what is read from them is identified and has
  distinct names if that is so of what was written.

  Main declarations:
    * `Collection.proper_toJson`
    * `Database.Reread` and `Database.reread_of_ofJson?`
    * `Collection.Rereads`
    * `Collection.rereads_identified`
    * `Collection.rereads_named`
-/

------------------------------------------------------------
-- Documents That Can Be Written
------------------------------------------------------------

namespace Rowstore

open Json

theorem PermissionEvent.proper_toJson (e : PermissionEvent) :
    e.toJson.Proper := by
  apply proper_ofMembers
  simp only [List.forall_mem_cons, List.not_mem_nil,
    false_implies, implies_true, and_true]
  exact
    ⟨proper_ofText e.action.word, proper_ofText e.privilege,
      proper_ofText e.scope.word, proper_ofText e.name,
      proper_ofText e.user, proper_ofText _⟩

theorem Database.proper_metaToJson
    (permissions : List PermissionEvent) :
    (metaToJson permissions).Proper := by
  apply proper_ofMembers
  simp only [List.forall_mem_cons, List.not_mem_nil,
    false_implies, implies_true, and_true]
  apply proper_array
  rw [List.forall_mem_map]
  exact fun e _ => e.proper_toJson

theorem Database.proper_toJson (d : Database) :
    d.toJson.Proper := by
  apply proper_ofMembers
  simp only [List.forall_mem_cons, List.not_mem_nil,
    false_implies, implies_true, and_true]
  refine
    ⟨proper_ofText _, proper_ofText d.name, proper_array ?_,
      proper_metaToJson d.permissions⟩
  rw [List.forall_mem_map]
  exact fun t _ => t.proper_toJson

theorem Collection.proper_toJson (s : Collection) :
    s.toJson.Proper := by
  apply proper_array
  rw [List.forall_mem_map]
  exact fun d _ => d.proper_toJson

end Rowstore

------------------------------------------------------------
-- Databases
------------------------------------------------------------

namespace Rowstore

open Json

namespace Database

/- The fields of a written database. -/
theorem fields?_toJson (d : Database) :
    fields? fieldNames d.toJson =
      some
        [some d.id.toJson, some (.ofText d.name),
          some (.array (d.tables.map Table.toJson)),
          some (metaToJson d.permissions)] := by
  unfold toJson
  rw [fields?_ofMembers]
  · simp [fieldNames, List.lookup_cons]
  · simp

/- A database has the name of another one, and its tables, which were written and read. -/
structure Reread (d d' : Database) : Prop where
  name : d'.name = d.name
  tables : List.Forall₂ Table.Reread d.tables d'.tables

theorem reread_of_ofJson?
    {d d' : Database}
    (hRead : ofJson? d.toJson = some d') :
    d.Reread d' := by
  unfold ofJson? at hRead
  simp only [fields?_toJson, place_zero, place_succ,
    required?_some, withDefault?_some, text?_ofText,
    Option.bind_eq_bind, Option.bind_some,
    Option.bind_eq_some_iff] at hRead
  rcases hRead with
    ⟨id, _, tables, hTables, permissions, _, hDone⟩
  cases hDone
  exact
    { name := rfl
      tables :=
        (forall₂_of_list? hTables).imp
          fun _ _ hTable => Table.reread_of_ofJson? hTable }

theorem Reread.identified
    {d d' : Database}
    (hReread : d.Reread d')
    (hIdentified : d.Identified) :
    d'.Identified := by
  intro t' hMem
  rcases exists_mem_of_forall₂ hReread.tables hMem with
    ⟨t, hOld, hTable⟩
  exact hTable.identified (hIdentified t hOld)

theorem Reread.named
    {d d' : Database}
    (hReread : d.Reread d')
    (hNamed : d.Named) :
    d'.Named where
  tables_distinct := by
    rw [← map_eq_of_forall₂
      (fun _ _ hTable => hTable.name.symm) hReread.tables]
    exact hNamed.tables_distinct
  columns_distinct := by
    intro t' hMem
    rcases exists_mem_of_forall₂ hReread.tables hMem with
      ⟨t, hOld, hTable⟩
    exact hTable.columnsDistinct
      (hNamed.columns_distinct t hOld)

end Database

end Rowstore

------------------------------------------------------------
-- Collections
------------------------------------------------------------

namespace Rowstore

open Json

namespace Collection

theorem forall₂_of_ofJson?
    {s s' : Collection}
    (hRead : ofJson? s.toJson = some s') :
    List.Forall₂ Database.Reread s.databases s'.databases := by
  rcases Option.map_eq_some_iff.mp hRead with
    ⟨databases, hDatabases, rfl⟩
  exact (forall₂_of_list? hDatabases).imp
    fun _ _ hDatabase => Database.reread_of_ofJson? hDatabase

/- The property is not lost by writing a collection and reading it. -/
def Rereads (P : Collection → Prop) : Prop :=
  ∀ s s', ofJson? s.toJson = some s' → P s → P s'

theorem rereads_identified : Rereads Identified := by
  intro s s' hRead hIdentified d' hMem
  rcases exists_mem_of_forall₂
    (forall₂_of_ofJson? hRead) hMem with ⟨d, hOld, hDatabase⟩
  exact hDatabase.identified (hIdentified d hOld)

theorem rereads_named : Rereads Named := by
  intro s s' hRead hNamed
  refine
    { databases_distinct := ?_
      databases_named := ?_ }
  · rw [← map_eq_of_forall₂
      (fun _ _ hDatabase => hDatabase.name.symm)
      (forall₂_of_ofJson? hRead)]
    exact hNamed.databases_distinct
  · intro d' hMem
    rcases exists_mem_of_forall₂
      (forall₂_of_ofJson? hRead) hMem with
      ⟨d, hOld, hDatabase⟩
    exact hDatabase.named (hNamed.databases_named d hOld)

end Collection

end Rowstore
