import Rowstore.Proofs.Session.Invariants
import Rowstore.Proofs.Table.Finiteness

/-
  No reachable session holds a number that is not finite,
  which would be written as null.

  Numbers come from literals, from texts that are coerced and
  from documents that are read; the other revisions only take
  cells out or move them.

  Main declarations:
    * `Collection.IsFinite`
    * `Session.isFinite_of_reachable`
-/

namespace Rowstore

------------------------------------------------------------
-- Collections
------------------------------------------------------------

/- No cell of a table holds an infinity or a NaN. -/
def Collection.IsFinite (s : Collection) : Prop :=
  ∀ d ∈ s.databases, ∀ t ∈ d.tables, t.IsFinite

theorem Table.lasts_isFinite (names : List String) :
    Table.Lasts names Table.IsFinite where
  created := fun _ _ _ => List.forall_mem_nil _
  revised := IsFinite.of_revised
  renamed := fun _ hFinite => hFinite

theorem Collection.rereads_isFinite :
    Collection.Rereads Collection.IsFinite := by
  intro s s' hRead _ d' hDatabase t' hTable
  rcases Json.exists_mem_of_forall₂
    (forall₂_of_ofJson? hRead) hDatabase with
    ⟨d, _, hRereadDatabase⟩
  rcases Json.exists_mem_of_forall₂
    hRereadDatabase.tables hTable with ⟨t, _, hReread⟩
  exact hReread.isFinite

namespace Session

theorem lasts_isFinite :
    Collection.Lasts Collection.IsFinite where
  empty := List.forall_mem_nil _
  revised := fun _ =>
    Collection.forall_tables_of_revised
      (Table.lasts_isFinite _)

------------------------------------------------------------
-- Reachable Sessions
------------------------------------------------------------

/-
  In the loaded collection and in every snapshot, each number
  in a cell is finite, and so it is written as a number.
-/
theorem isFinite_of_reachable
    {s : Session (Outage Depot)}
    (hReachable : s.Reachable)
    {c : Collection}
    (hHolds : s.Holds c) :
    ∀ d ∈ c.databases, ∀ t ∈ d.tables, ∀ r ∈ t.rows,
      ∀ cell ∈ r.cells.toList, ∀ x : Float,
        cell.2 = .number x →
          x.isFinite = true ∧ cell.2.toJson ≠ .null := by
  intro d hDatabase t hTable r hRow cell hCell x hNumber
  have hFinite : x.isFinite = true :=
    holds_of_reachable lasts_isFinite
      Collection.rereads_isFinite hReachable hHolds d
      hDatabase t hTable r hRow cell hCell x hNumber
  refine ⟨hFinite, ?_⟩
  rw [hNumber]
  simp [Value.toJson, Json.ofFloat, hFinite]

/- With a scale of 400 the power of ten is infinite, and the entered number stays. -/
theorem infinite_scale_leaves_numbers_finite :
    let s :=
      (onDepot (.memory (.new .empty none)) .literal).afterAll
        [.statement epoch "CREATE DATABASE d",
          .statement epoch "CREATE TABLE t (a DECIMAL(10,400))",
          .insertRow "t" [("a", "1.5")],
          .insertRow "t" [("a", "0")]]
    ∃ c, s.Holds c ∧
      ∃ d ∈ c.databases, ∃ t ∈ d.tables, ∃ r ∈ t.rows,
        ∃ cell ∈ r.cells.toList,
          cell.2 = .number 1.5 ∧
            (1.5 : Float).isFinite = true ∧
              cell.2.toJson ≠ .null := by
  intro s
  have hReachable : s.Reachable :=
    reachable_afterAll
      (reachable_onDepot (.memory (.new .empty none))
        ⟨none, rfl⟩ .literal) _
  have hFull :
      s.backend.backend.stack.any (fun c =>
        c.databases.any fun d =>
          d.tables.any fun t =>
            t.rows.any fun r =>
              r.cells.toList.any fun cell =>
                cell.2 = .number 1.5) = true := by
    decide +kernel
  simp only [List.any_eq_true, decide_eq_true_eq] at hFull
  rcases hFull with
    ⟨c, hSnapshot, d, hDatabase, t, hTable, r, hRow, cell,
      hCell, hNumber⟩
  exact
    ⟨c, .inr hSnapshot, d, hDatabase, t, hTable, r, hRow,
      cell, hCell, hNumber,
      isFinite_of_reachable hReachable (.inr hSnapshot) d
        hDatabase t hTable r hRow cell hCell _ hNumber⟩

end Session

end Rowstore
