import Rowstore.Proofs.Session.Reaching
import Rowstore.Proofs.Storage.Depot

/-
  What holds of the stored collection and of every snapshot
  of a reachable session, in memory or in a directory:
  identifiers ascend below their counters, cells have their
  columns, and names are distinct up to letter case.

  Main declarations:
    * `Session.holds_of_reachable`
    * `Session.identified_of_reachable`
    * `Session.named_of_reachable`
-/

namespace Rowstore

namespace Session

/- A new session over a backend all calls of which are in order. -/
def onDepot
    (b : Depot)
    (mode : Mode) : Session (Outage Depot) :=
  Session.new
    { backend := b
      failing := [] }
    mode

theorem reachable_onDepot
    (b : Depot)
    (hBegins : Backend.History.Begins b)
    (mode : Mode) :
    (onDepot b mode).Reachable := by
  apply Reachable.opened
  exact hBegins

/- The backend loads the collection or has it as a snapshot. -/
def Holds
    (s : Session (Outage Depot))
    (c : Collection) : Prop :=
  s.backend.backend.Holds c

/- What revisions, writing and reading keep holds of all collections. -/
theorem holds_of_reachable
    {P : Collection → Prop}
    (hLasts : Collection.Lasts P)
    (hRereads : Collection.Rereads P)
    {s : Session (Outage Depot)}
    (hReachable : s.Reachable)
    {c : Collection}
    (hHolds : s.Holds c) :
    P c := by
  have hSafe : Depot.Safe P s.backend.backend :=
    safe_of_reachable (Outage.guards (Depot.guards hRereads))
      (Outage.keeps (Depot.keeps hLasts.empty)) hLasts
      hReachable
  exact hSafe.holds hRereads hHolds

/-
  In every table, column identifiers are distinct, ascend and
  are below the counter, and so are row identifiers; and
  every cell stands under a column of the table.
-/
theorem identified_of_reachable
    {s : Session (Outage Depot)}
    (hReachable : s.Reachable)
    {c : Collection}
    (hHolds : s.Holds c) :
    ∀ d ∈ c.databases, ∀ t ∈ d.tables,
      t.Identified ∧
        t.columnIds.Nodup ∧
        (t.rows.map Row.id).Nodup := by
  intro d hDatabase t hTable
  have hIdentified : t.Identified :=
    holds_of_reachable lasts_identified
      Collection.rereads_identified hReachable hHolds d
      hDatabase t hTable
  exact
    ⟨hIdentified, hIdentified.nodup_columnIds,
      hIdentified.nodup_rowIds⟩

/- A row was inserted, and its column dropped: the snapshots are still sound. -/
theorem snapshot_is_identified :
    let s :=
      (onDepot (.memory (.new .empty none)) .literal).afterAll
        [.statement epoch "CREATE DATABASE d",
          .statement epoch "CREATE TABLE t (a TEXT, b TEXT)",
          .insertRow "t" [("a", "x"), ("b", "y")],
          .statement epoch "ALTER TABLE t DROP COLUMN a"]
    ∃ c, s.Holds c ∧
      ∃ d ∈ c.databases, ∃ t ∈ d.tables,
        t.rows ≠ [] ∧ t.Identified ∧ t.columnIds.Nodup ∧
          (t.rows.map Row.id).Nodup := by
  intro s
  have hReachable : s.Reachable :=
    reachable_afterAll
      (reachable_onDepot (.memory (.new .empty none))
        ⟨none, rfl⟩ .literal) _
  have hFull :
      s.backend.backend.stack.any (fun c =>
        c.databases.any fun d =>
          d.tables.any fun t => t.rows ≠ []) = true := by
    decide +kernel
  simp only [List.any_eq_true, decide_eq_true_eq] at hFull
  rcases hFull with
    ⟨c, hSnapshot, d, hDatabase, t, hTable, hRows⟩
  exact
    ⟨c, .inr hSnapshot, d, hDatabase, t, hTable, hRows,
      identified_of_reachable hReachable (.inr hSnapshot) d
        hDatabase t hTable⟩

/- No two databases, tables of a database or columns of a table have the same name. -/
theorem named_of_reachable
    {s : Session (Outage Depot)}
    (hReachable : s.Reachable)
    {c : Collection}
    (hHolds : s.Holds c) :
    c.Named :=
  holds_of_reachable lasts_named Collection.rereads_named
    hReachable hHolds

/- A directory does not get a second database with the name of the first one. -/
theorem second_database_is_rejected :
    let f : Folder :=
      { directory := .empty
        options := .testing "data"
        stack := [] }
    let s :=
      (onDepot (.folder f) .scoped).afterAll
        [.statement epoch "CREATE DATABASE d",
          .statement epoch "CREATE DATABASE D"]
    ∃ c, s.Holds c ∧
      c.databases.map Database.name = ["d"] ∧ c.Named := by
  intro f s
  have hReachable : s.Reachable :=
    reachable_afterAll
      (reachable_onDepot (.folder f)
        ⟨f.options, .empty, rfl, rfl, rfl⟩ .scoped) _
  have hLoaded :
      s.backend.backend.loaded?.any (fun c =>
        c.databases.map Database.name = ["d"]) = true := by
    decide +kernel
  clear_value s
  rw [Option.any_eq_true] at hLoaded
  rcases hLoaded with ⟨c, hLoaded, hNames⟩
  exact
    ⟨c, .inl hLoaded, of_decide_eq_true hNames,
      named_of_reachable hReachable (.inl hLoaded)⟩

end Session

end Rowstore
