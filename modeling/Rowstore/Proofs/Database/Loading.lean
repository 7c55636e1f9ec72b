import Rowstore.Json.Reader
import Rowstore.Proofs.Database.Document

/-
  The next identifiers of tables that are read.

  A document gives the counters of a table or leaves them out,
  and reading compares them with nothing.  So the next
  identifiers are fresh exactly if the table has no row and no
  column with those that the document gives, or with the first
  ones where it gives none.  Documents of identified tables
  give counters above all identifiers.

  Main declarations:
    * `Table.Avoids` and `Table.NextAreFresh`
    * `Collection.tables` and `Collection.tableDocuments`
    * `Collection.next_are_fresh_iff`
-/

------------------------------------------------------------
-- Tables
------------------------------------------------------------

namespace Rowstore

namespace Table

/- The table has neither a row nor a column with the identifiers that counters give out. -/
def Avoids
    (t : Table)
    (next : Counters) : Prop :=
  ⟨next.nextRow⟩ ∉ t.rows.map Row.id ∧
    ⟨next.nextColumn⟩ ∉ t.columnIds

instance
    (t : Table)
    (next : Counters) :
    Decidable (t.Avoids next) :=
  inferInstanceAs (Decidable (_ ∧ _))

/- The next row and the next column get identifiers that the table does not have. -/
def NextAreFresh (t : Table) : Prop :=
  t.nextRowId ∉ t.rows.map Row.id ∧
    t.nextColumnId ∉ t.columnIds

instance (t : Table) : Decidable t.NextAreFresh :=
  inferInstanceAs (Decidable (_ ∧ _))

/- The counters that the document of a table gives, if it gives any. -/
def givenCounters? (j : Json) : Option Counters := do
  let fields ← Json.fields? fieldNames j
  (Json.place fields 4).bind Counters.ofJson?

/- A table has the counters of its document, or else the first ones. -/
theorem counters_of_ofJson?
    {j : Json}
    {t : Table}
    (hRead : ofJson? j = some t) :
    t.counters = (givenCounters? j).getD .start := by
  unfold ofJson? at hRead
  simp only [Option.bind_eq_bind, Option.bind_eq_some_iff]
    at hRead
  rcases hRead with
    ⟨fields, hFields, id, _, name, _, columns, _, rows, _,
      counters, hCounters, hDone⟩
  cases hDone
  unfold givenCounters?
  rw [hFields]
  cases hGiven : Json.place fields 4 with
  | none =>
      rw [hGiven] at hCounters
      cases hCounters
      simp [hGiven]
  | some written =>
      rw [hGiven, Json.withDefault?_some] at hCounters
      simp [hGiven, hCounters]

theorem nextAreFresh_iff_of_ofJson?
    {j : Json}
    {t : Table}
    (hRead : ofJson? j = some t) :
    t.NextAreFresh ↔
      t.Avoids ((givenCounters? j).getD .start) := by
  unfold NextAreFresh Avoids nextRowId nextColumnId
  rw [counters_of_ofJson? hRead]

/- What is below a counter is not what it gives out. -/
theorem Identified.nextAreFresh
    {t : Table}
    (hIdentified : t.Identified) :
    t.NextAreFresh := by
  constructor
  · intro hMem
    rcases List.mem_map.mp hMem with ⟨r, hRow, hSame⟩
    have hBelow := hIdentified.rows_below r hRow
    rw [hSame] at hBelow
    exact Nat.lt_irrefl _ hBelow
  · intro hMem
    rcases List.mem_map.mp hMem with ⟨c, hColumn, hSame⟩
    have hBelow := hIdentified.columns_below c hColumn
    rw [hSame] at hBelow
    exact Nat.lt_irrefl _ hBelow

end Table

end Rowstore

------------------------------------------------------------
-- Collections
------------------------------------------------------------

namespace Rowstore

/- The documents of the tables of a database. -/
def Database.tableDocuments (j : Json) : List Json :=
  match Json.fields? fieldNames j with
  | some fields => ((Json.place fields 2).bind Json.items?).getD []
  | none => []

theorem Database.tables_of_ofJson?
    {j : Json}
    {d : Database}
    (hRead : ofJson? j = some d) :
    List.Forall₂ (fun j' t => Table.ofJson? j' = some t)
      (tableDocuments j) d.tables := by
  unfold ofJson? at hRead
  simp only [Option.bind_eq_bind, Option.bind_eq_some_iff]
    at hRead
  rcases hRead with
    ⟨fields, hFields, id, _, name, _, tables, hTables,
      permissions, _, hDone⟩
  cases hDone
  rcases Option.bind_eq_some_iff.mp hTables with
    ⟨written, hPlace, hList⟩
  rcases Option.bind_eq_some_iff.mp hList with
    ⟨items, hItems, hEach⟩
  unfold tableDocuments
  simp only [hFields, hPlace, Option.bind_some, hItems,
    Option.getD_some]
  exact Json.forall₂_of_mapM hEach

namespace Collection

/- The tables of all databases. -/
def tables (s : Collection) : List Table :=
  s.databases.flatMap Database.tables

/- The documents of the tables of all databases. -/
def tableDocuments (j : Json) : List Json :=
  (j.items?.getD []).flatMap Database.tableDocuments

theorem tables_of_ofJson?
    {j : Json}
    {s : Collection}
    (hRead : ofJson? j = some s) :
    List.Forall₂ (fun j' t => Table.ofJson? j' = some t)
      (tableDocuments j) s.tables := by
  rcases Option.map_eq_some_iff.mp hRead with
    ⟨databases, hList, rfl⟩
  rcases Option.bind_eq_some_iff.mp hList with
    ⟨items, hItems, hEach⟩
  have hDatabases := Json.forall₂_of_mapM hEach
  unfold tableDocuments tables
  rw [hItems, Option.getD_some]
  clear hEach hItems hList hRead
  induction hDatabases with
  | nil => exact .nil
  | cons hFirst hRest ih =>
      rw [List.flatMap_cons, List.flatMap_cons]
      exact List.rel_append
        (Database.tables_of_ofJson? hFirst) ih

/-
  A text that is read as a collection: the next identifiers
  of a table are fresh exactly if the table has none of those
  that its document gives, or the first ones if it gives none.
  They are always fresh if the document is that of identified
  tables.
-/
theorem next_are_fresh_iff
    {text : List Char}
    {s : Collection}
    (hRead : (Json.read? text).bind ofJson? = some s) :
    ∃ j, Json.read? text = some j ∧
      List.Forall₂
        (fun j' t =>
          Table.ofJson? j' = some t ∧
            (t.NextAreFresh ↔
              t.Avoids
                ((Table.givenCounters? j').getD .start)))
        (tableDocuments j) s.tables ∧
      ∀ before : Collection,
        before.Identified → j = before.toJson →
          ∀ t ∈ s.tables, t.NextAreFresh := by
  rcases Option.bind_eq_some_iff.mp hRead with
    ⟨j, hText, hDocument⟩
  refine ⟨j, hText, ?_, ?_⟩
  · exact (tables_of_ofJson? hDocument).imp
      fun _ _ hTable =>
        ⟨hTable, Table.nextAreFresh_iff_of_ofJson? hTable⟩
  · rintro before hIdentified rfl t hMem
    rcases List.mem_flatMap.mp hMem with
      ⟨d, hDatabase, hTable⟩
    have hReread :=
      rereads_identified before s hDocument hIdentified
    exact (hReread d hDatabase t hTable).nextAreFresh

/-
  The document of a database with one table, which gives no
  counters.  Its column and its row have an identifier.
-/
def uncounted (id : Nat) : Json :=
  let uuid := "00000000-0000-0000-0000-000000000001"
  .array
    [.ofMembers
      [("id", .ofText uuid),
       ("name", .ofText "d"),
       ("tables",
        .array
          [.ofMembers
            [("id", .ofText uuid),
             ("name", .ofText "t"),
             ("columns",
              .array
                [.ofMembers
                  [("id", .ofNat id),
                   ("name", .ofText "a"),
                   ("base_type", .ofText "number"),
                   ("original_type", .ofText "INT")]]),
             ("rows",
              .array [.ofMembers [("id", .ofNat id)]])]])]]

/- Without counters, a table whose identifiers are 2 gives out 1 next. -/
theorem second_identifiers_leave_the_first :
    ∃ s,
      (Json.read? (uncounted 2).compact).bind ofJson? =
        some s ∧
      s.tables ≠ [] ∧ ∀ t ∈ s.tables, t.NextAreFresh := by
  have hCollection :
      ((Json.read? (uncounted 2).compact).bind ofJson?).any
        (fun s =>
          s.tables ≠ [] ∧ ∀ t ∈ s.tables, t.Avoids .start) =
        true := by
    decide +kernel
  have hDocuments :
      (Json.read? (uncounted 2).compact).all (fun j =>
        ∀ j' ∈ tableDocuments j,
          Table.givenCounters? j' = none) = true := by
    decide +kernel
  rw [Option.any_eq_true] at hCollection
  rcases hCollection with ⟨s, hRead, hTables⟩
  rcases of_decide_eq_true hTables with ⟨hSome, hAvoid⟩
  rcases next_are_fresh_iff hRead with ⟨j, hText, hEach, -⟩
  rw [hText, Option.all_some, decide_eq_true_eq]
    at hDocuments
  refine ⟨s, hRead, hSome, ?_⟩
  intro t hMem
  rcases Json.exists_mem_of_forall₂ hEach hMem with
    ⟨j', hDocument, -, hFresh⟩
  rw [hFresh, hDocuments j' hDocument]
  exact hAvoid t hMem

/-
  Without counters, a table whose identifiers are 1 gives out
  1 again.
-/
theorem first_identifiers_are_given_out_again :
    ∃ s,
      (Json.read? (uncounted 1).compact).bind ofJson? =
        some s ∧
      ∃ t ∈ s.tables,
        (t.rows.map Row.id).Nodup ∧ t.columnIds.Nodup ∧
          t.counters.nextRow < Json.maxId ∧
          t.counters.nextColumn < Json.maxId ∧
          ¬t.NextAreFresh := by
  have hCollection :
      ((Json.read? (uncounted 1).compact).bind ofJson?).any
        (fun s =>
          ∃ t ∈ s.tables,
            (t.rows.map Row.id).Nodup ∧ t.columnIds.Nodup ∧
              t.counters.nextRow < Json.maxId ∧
              t.counters.nextColumn < Json.maxId ∧
              ¬t.NextAreFresh) = true := by
    decide +kernel
  rw [Option.any_eq_true] at hCollection
  rcases hCollection with ⟨s, hRead, hTable⟩
  exact ⟨s, hRead, of_decide_eq_true hTable⟩

end Collection

end Rowstore
