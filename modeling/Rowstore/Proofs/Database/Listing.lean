import Mathlib.Data.List.Basic
import Rowstore.Proofs.Database.Document
import Rowstore.Proofs.Identity
import Rowstore.Proofs.Sequence

/-
  The identifiers of the databases of a collection: what
  lookups and changes have to do with them, and that they are
  read as they were written, whatever else becomes of the
  collection.

  Main declarations:
    * `Collection.ids`
    * `Collection.get?_eq_none_iff`
    * `Collection.ids_of_ofJson?`
-/

------------------------------------------------------------
-- Lookups And Changes
------------------------------------------------------------

namespace Rowstore

namespace Collection

/- The identifiers of the databases, in order. -/
def ids (s : Collection) : List DatabaseId :=
  s.databases.map Database.id

variable {s : Collection} {d : Database} {id : DatabaseId}

theorem get?_eq_none_iff :
    s.get? id = none ↔ id ∉ s.ids := by
  unfold get? ids
  simp [List.find?_eq_none]

theorem mem_ids_of_get? (hFind : s.get? id = some d) :
    id ∈ s.ids := by
  by_contra hOther
  rw [get?_eq_none_iff.mpr hOther] at hFind
  cases hFind

theorem id_of_get? (hFind : s.get? id = some d) :
    d.id = id := by
  have hTest :=
    List.find?_some (p := fun d : Database => d.id = id)
      hFind
  simpa using hTest

theorem mem_ids_of_findByName?
    {name : String}
    (hFind : s.findByName? name = some d) :
    d.id ∈ s.ids := by
  have hMem : d ∈ s.databases := by
    rcases Option.or_eq_some_iff.mp hFind with
      hExact | ⟨_, hFold⟩
    · exact List.mem_of_find?_eq_some hExact
    · exact List.mem_of_find?_eq_some hFold
  exact List.mem_map_of_mem hMem

theorem ids_update
    (id : DatabaseId)
    {f : Database → Database}
    (hKeeps : ∀ d, (f d).id = d.id) :
    (s.update id f).ids = s.ids :=
  map_updateFirst hKeeps s.databases

theorem ids_add (d : Database) :
    (s.add d).ids = s.ids ++ [d.id] :=
  List.map_append

/- A database with a new identifier is found under it. -/
theorem get?_add (hNew : d.id ∉ s.ids) :
    (s.add d).get? d.id = some d := by
  have hNone : s.get? d.id = none :=
    get?_eq_none_iff.mpr hNew
  unfold get? at hNone
  unfold get? add
  simp [List.find?_append, hNone]

theorem ids_remove (id : DatabaseId) :
    (s.remove id).ids = s.ids.erase id := by
  unfold ids remove
  rw [List.erase_eq_eraseP, List.eraseP_map]
  have hTest :
      (fun d : Database => decide (d.id = id)) =
        (fun i => id == i) ∘ Database.id := by
    funext d
    simp [eq_comm, Bool.beq_eq_decide_eq]
  rw [hTest]

end Collection

end Rowstore

------------------------------------------------------------
-- Documents
------------------------------------------------------------

namespace Rowstore

open Json

theorem DatabaseId.ofJson?_toJson (id : DatabaseId) :
    DatabaseId.ofJson? id.toJson = some id := by
  unfold DatabaseId.ofJson? DatabaseId.toJson
  rw [Uuid.ofJson?_toJson, Option.map_some]

/- A database that was written and read has its identifier. -/
theorem Database.id_of_ofJson?
    {d d' : Database}
    (hRead : ofJson? d.toJson = some d') :
    d'.id = d.id := by
  unfold ofJson? at hRead
  simp only [fields?_toJson, place_zero, place_succ,
    required?_some, withDefault?_some, text?_ofText,
    DatabaseId.ofJson?_toJson, Option.bind_eq_bind,
    Option.bind_some, Option.bind_eq_some_iff] at hRead
  rcases hRead with ⟨tables, _, permissions, _, hDone⟩
  cases hDone
  rfl

theorem Collection.ids_of_ofJson?
    {s s' : Collection}
    (hRead : ofJson? s.toJson = some s') :
    s'.ids = s.ids := by
  rcases Option.map_eq_some_iff.mp hRead with
    ⟨databases, hDatabases, rfl⟩
  have hEach :
      List.Forall₂ (fun d d' : Database => d.id = d'.id)
        s.databases databases :=
    (forall₂_of_list? hDatabases).imp
      fun _ _ hDatabase =>
        (Database.id_of_ofJson? hDatabase).symm
  exact (map_eq_of_forall₂ (fun _ _ hSame => hSame) hEach).symm

end Rowstore
