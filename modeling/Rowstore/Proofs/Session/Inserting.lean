import Rowstore.Proofs.Session.Issuing

/-
  Insertions, and which identifiers are issued again.

  An insertion answers with the identifier of a row which is
  there afterwards and was not there before, so the ledger
  has what it tells.  Identifiers are issued again by rollbacks
  only: these give them back with the counters.

  Main declarations:
    * `Work.givesRow_of_onTable`
    * `Session.Request.Inserts`
    * `Session.inserted_row_is_issued`
    * `Session.issued_nodup_iff`
-/

------------------------------------------------------------
-- Rows That Are Inserted
------------------------------------------------------------

namespace Rowstore

open Execution

/- The identifier of an inserted row is the next one of its table. -/
theorem Edit.insert_ok
    {value : Column → String → Value}
    {entries : List (String × String)}
    {t t' : Table}
    {id : RowId}
    (hRun :
      (insert value entries).run.run t = (.ok id, t')) :
    id = t.nextRowId ∧ ∃ cells, t' = t.insertRow cells := by
  rw [run_insert] at hRun
  cases hCells : cellsOf t value entries with
  | error e =>
      rw [hCells] at hRun
      cases hRun
  | ok cells =>
      rw [hCells] at hRun
      cases hRun
      exact ⟨rfl, cells, rfl⟩

/- A table in a database that is there has its outline in the collection. -/
theorem Collection.outline_mem
    {s : Collection}
    {id : DatabaseId}
    {d : Database}
    (hFind : s.get? id = some d)
    {name : String}
    {t : Table}
    (hTable : d.table? name = some t) :
    t.outline ∈ s.outlines :=
  List.mem_flatMap.mpr
    ⟨d, List.mem_of_find?_eq_some hFind,
      List.mem_map_of_mem (List.mem_of_find?_eq_some hTable)⟩

/- A row of a table has an identifier that the table had yet to give. -/
def Outline.GivesRow
    (before after : List Outline)
    (id : RowId) : Prop :=
  ∃ o ∈ before,
    o.MayIssue (.row o.id id) ∧ .row o.id id ∈ issuesOf after

/- An inserted row is given its identifier by its table. -/
theorem Work.givesRow_of_onTable
    {value : Column → String → Value}
    {entries : List (String × String)}
    {name : String}
    {w w' : Workspace}
    {id : RowId}
    (hRun :
      (onTable name (Edit.insert value entries)).run.run w =
        (.ok id, w')) :
    Outline.GivesRow w.collection.outlines
      w'.collection.outlines id := by
  rcases onTable_ok hRun with
    ⟨d, t, t', hActive, hTable, hEdit, rfl⟩
  rcases Edit.insert_ok hEdit with ⟨rfl, cells, rfl⟩
  have hFind := (Workspace.active?_eq_some_iff.mp hActive).2
  refine
    ⟨t.outline, Collection.outline_mem hFind hTable,
      ⟨rfl, Nat.le_refl _⟩, ?_⟩
  have hActive' :=
    Workspace.active?_updateActive hActive
      (f := fun d =>
        d.updateTable name fun _ => t.insertRow cells) rfl
  have hNamed : (t.insertRow cells).isNamed name = true :=
    Database.isNamed_of_table? (t := t) hTable
  have hTable' :
      (d.updateTable name
        fun _ => t.insertRow cells).table? name =
          some (t.insertRow cells) :=
    find?_updateFirst hTable hNamed
  refine
    List.mem_flatMap.mpr
      ⟨(t.insertRow cells).outline,
        Collection.outline_mem
          (Workspace.active?_eq_some_iff.mp hActive').2
          hTable', ?_⟩
  rw [Outline.mem_issues_row]
  refine ⟨rfl, ?_⟩
  unfold Table.outline Table.insertRow
  rw [List.map_append]
  exact List.mem_append_right _ List.mem_cons_self

end Rowstore

------------------------------------------------------------
-- Insertions
------------------------------------------------------------

namespace Rowstore

open Execution

namespace Session

/- The request inserts a row, and tells its identifier in a form of answer. -/
inductive Request.Inserts : Request → (RowId → Answer) → Prop
| entered
    (table : String)
    (entries : List (String × String)) :
    Inserts (.insertRow table entries) .row
| literals
    (stamp : Stamp)
    {text table : String}
    {columns values : List String}
    (hParse :
      Statement.parse text =
        .ok (.command (.insert table columns values))) :
    Inserts (.statement stamp text) fun id =>
      .result (.message s!"1 row inserted (id {id.value})")

/- Work of an insertion that succeeds, has a notice and tells what it inserts. -/
theorem givesRow_of_inserts
    {r : Request}
    {form : RowId → Answer}
    (hInserts : r.Inserts form) :
    ∃ work,
      r.task = .change work ∧
        ∀ {w w' : Workspace} {a : Answer} {notice : Option Notice},
          work.run.run w = (.ok (a, notice), w') →
            notice.isSome ∧
              ∃ id, a = form id ∧
                Outline.GivesRow w.collection.outlines
                  w'.collection.outlines id := by
  cases hInserts with
  | entered table entries =>
      refine ⟨_, rfl, ?_⟩
      intro w w' a notice hRun
      rcases run_bind_ok hRun with ⟨⟨id, n⟩, w₁, hWork, hDone⟩
      cases hDone
      rcases run_bind_ok hWork with ⟨id', w₂, hEdit, hRest⟩
      rcases run_bind_ok hRest with ⟨d, w₃, hActive, hEnd⟩
      rw [Work.run_activeDatabase, Prod.mk.injEq] at hActive
      rcases hActive with ⟨_, rfl⟩
      cases hEnd
      exact ⟨rfl, id, rfl, Work.givesRow_of_onTable hEdit⟩
  | @literals stamp text table columns values hParse =>
      refine
        ⟨answering .result
          (commandWork stamp (.insert table columns values)),
          ?_, ?_⟩
      · simp only [Request.task, hParse, Task.ofStatement]
        rfl
      intro w w' a notice hRun
      rcases run_bind_ok hRun with ⟨⟨q, n⟩, w₁, hWork, hDone⟩
      cases hDone
      rcases run_bind_ok hWork with ⟨o, w₂, hExecute, hEnd⟩
      cases hEnd
      change
        (Work.insert table columns values).run.run w = _
        at hExecute
      unfold Work.insert at hExecute
      by_cases hCount : columns.length ≠ values.length
      · rw [if_pos hCount] at hExecute
        cases hExecute
      rw [if_neg hCount] at hExecute
      rcases run_bind_ok hExecute with
        ⟨id, w₃, hEdit, hAnnounce⟩
      rcases run_bind_ok hAnnounce with ⟨d, w₄, hActive, hLast⟩
      rw [Work.run_activeDatabase, Prod.mk.injEq] at hActive
      rcases hActive with ⟨_, rfl⟩
      cases hLast
      exact ⟨rfl, id, rfl, Work.givesRow_of_onTable hEdit⟩

theorem newTables_of_inserts
    {r : Request}
    {form : RowId → Answer}
    (hInserts : r.Inserts form) :
    r.newTables = [] := by
  cases hInserts with
  | entered => rfl
  | literals stamp hParse =>
      simp only [Request.newTables, hParse, Work.newTables]

theorem ne_rollback_of_inserts
    {r : Request}
    {form : RowId → Answer}
    (hInserts : r.Inserts form) :
    r.control? ≠ some .rollback := by
  rcases givesRow_of_inserts hInserts with ⟨work, hTask, -⟩
  unfold Request.control?
  rw [hTask]
  rintro ⟨⟩

/- What an insertion stores, if the backend can be read after it. -/
theorem stored_of_inserts
    {s : Session (Outage Depot)}
    {r : Request}
    {form : RowId → Answer}
    (hInserts : r.Inserts form)
    {a : Answer}
    (hAnswer : (s.handle r).1 = .ok a)
    (hReadable : (s.after r).backend.backend.loaded?.isSome) :
    ∃ id, a = form id ∧
      Outline.GivesRow s.outlines (s.after r).outlines id := by
  rcases givesRow_of_inserts hInserts with ⟨work, hTask, hWork⟩
  have hRun :
      (change work : Action (Outage Depot) Answer).run.run s =
        (.ok a, s.after r) := by
    have hServe := run_serve r s
    rw [hTask] at hServe
    exact hServe.symm.trans (Prod.ext hAnswer rfl)
  rcases (leads_change_seen shows_outlines work _ _).ok
    ⟨rfl, rfl⟩ hRun with
    ⟨c, w, notice, hSeen, hRan, hStored⟩
  rcases hWork hRan with ⟨hNotice, id, hForm, hGives⟩
  have hAfter : (s.after r).outlines = w.collection.outlines := by
    rcases Option.isSome_iff_exists.mp hReadable with
      ⟨c', hLoaded⟩
    have hSeen' :
        (s.after r).backend.backend.seen? Collection.outlines =
          some c'.outlines := by
      rw [Depot.seen?_eq, hLoaded]
      rfl
    rw [outlines_of_seen hSeen']
    exact hStored hNotice c'.outlines hSeen'
  rw [outlines_of_seen hSeen, hAfter]
  exact ⟨id, hForm, hGives⟩

/-
  If the backend can be read after an insertion, the ledger
  has the identifier that is told once more than before.
-/
theorem inserted_row_is_issued
    {l : Ledger}
    {s : Session (Outage Depot)}
    (hRecorded : Recorded l s.backend)
    {r : Request}
    {form : RowId → Answer}
    (hInserts : r.Inserts form)
    {a : Answer}
    (hAnswer : (s.handle r).1 = .ok a)
    (hReadable : (s.after r).backend.backend.loaded?.isSome) :
    ∃ id table,
      a = form id ∧
        (l.after s r).issued.count (.row table id) =
          l.issued.count (.row table id) + 1 := by
  rcases stored_of_inserts hInserts hAnswer hReadable with
    ⟨id, hForm, o, hTable, hMay, hIssue⟩
  have hNew :
      Issue.row o.id id ∈
        Ledger.newIssues s.outlines (s.after r).outlines :=
    Ledger.mem_newIssues.mpr
      ⟨hIssue,
        not_mem_issues_of_mayIssue hRecorded hTable hMay⟩
  have hNodup :=
    nodup_newIssues hRecorded (r := r)
      (by simp [newTables_of_inserts hInserts])
  refine ⟨id, o.id, hForm, ?_⟩
  rw [Ledger.issued_after (ne_rollback_of_inserts hInserts),
    List.count_append,
    List.count_eq_one_of_mem hNodup hNew, Nat.add_comm]

------------------------------------------------------------
-- Identifiers That Are Issued Again
------------------------------------------------------------

/-
  Over every run of sessions, identifiers are issued once as
  long as what rollbacks give back does not stand again; the
  next identifiers of a table are issued again exactly if
  they were given back; requests other than rollbacks only
  move counters forward; and what an insertion tells is
  issued by it.
-/
theorem issued_nodup_iff
    {l : Ledger}
    {s : Session (Outage Depot)}
    (hRecorded : Recorded l s.backend) :
    (l.issued.Nodup ↔
        l.returned.Nodup ∧ ∀ i ∈ l.returned, i ∉ l.standing) ∧
      (∀ o ∈ s.outlines, ∀ i ∈ o.nextIssues,
        i ∈ l.issued ↔ i ∈ l.returned) ∧
      (∀ r : Request,
        r.control? ≠ some .rollback →
          (∀ id ∈ r.newTables, id ∉ l.tables) →
            ∀ o ∈ s.outlines, ∀ o' ∈ (s.after r).outlines,
              o'.id = o.id →
                o.counters.nextColumn ≤
                    o'.counters.nextColumn ∧
                  o.counters.nextRow ≤ o'.counters.nextRow) ∧
      ∀ (r : Request) (form : RowId → Answer) (a : Answer),
        r.Inserts form →
          (s.handle r).1 = .ok a →
            (s.after r).backend.backend.loaded?.isSome →
              ∃ id table,
                a = form id ∧
                  (l.after s r).issued.count (.row table id) =
                    l.issued.count (.row table id) + 1 := by
  have hFits := fits_of_recorded hRecorded
  refine ⟨hFits.nodup_issued_iff, ?_, ?_, ?_⟩
  · intro o hTable i hNext
    exact
      hFits.mem_issued_iff_of_mayIssue hTable
        (Outline.mayIssue_of_mem_nextIssues hNext)
  · intro r hOther hFresh o hBefore o' hAfter hSame
    exact
      counters_le_after hRecorded hOther hFresh hBefore hAfter
        hSame
  · intro r form a hInserts hAnswer hReadable
    exact
      inserted_row_is_issued hRecorded hInserts hAnswer
        hReadable

/- A rollback brings a deleted row back, and the next row gets a new identifier. -/
theorem row_after_rollback_is_new :
    let s := onDepot (.memory (.new .empty none)) .literal
    let rs : List Request :=
      [.statement epoch "CREATE DATABASE d",
        .statement epoch "CREATE TABLE t (a INT)",
        .insertRow "t" [("a", "1")],
        .statement epoch "DELETE FROM t",
        .statement epoch "ROLLBACK",
        .insertRow "t" [("a", "1")]]
    let l := Ledger.empty.afterAll s rs
    Recorded l (s.afterAll rs).backend ∧
      l.issued =
        [.row ⟨epoch.uuid⟩ ⟨2⟩, .row ⟨epoch.uuid⟩ ⟨1⟩,
          .column ⟨epoch.uuid⟩ ⟨1⟩] ∧
      l.issued.Nodup := by
  intro s rs l
  have hBegins : Backend.History.Begins s.backend :=
    ⟨none, rfl⟩
  have hRecorded : Recorded l (s.afterAll rs).backend := by
    apply recorded_afterAll (.begun hBegins)
    decide +kernel
  have hReturned : l.returned = [] := by decide +kernel
  have hIssued :
      l.issued =
        [.row ⟨epoch.uuid⟩ ⟨2⟩, .row ⟨epoch.uuid⟩ ⟨1⟩,
          .column ⟨epoch.uuid⟩ ⟨1⟩] := by
    decide +kernel
  refine ⟨hRecorded, hIssued, ?_⟩
  rw [(issued_nodup_iff hRecorded).1, hReturned]
  exact ⟨List.nodup_nil, List.forall_mem_nil _⟩

/- A rollback takes an inserted row back, and the next row gets its identifier. -/
theorem rolled_back_row_is_issued_again :
    let s := onDepot (.memory (.new .empty none)) .literal
    let insert := Request.insertRow "t" [("a", "1")]
    let rs : List Request :=
      [.statement epoch "CREATE DATABASE d",
        .statement epoch "CREATE TABLE t (a INT)", insert,
        .statement epoch "ROLLBACK", insert]
    let l := Ledger.empty.afterAll s rs
    Recorded l (s.afterAll rs).backend ∧
      ((s.afterAll (rs.take 2)).handle insert).1 =
        .ok (.row ⟨1⟩) ∧
      ((s.afterAll (rs.take 4)).handle insert).1 =
        .ok (.row ⟨1⟩) ∧
      l.tables = [⟨epoch.uuid⟩] ∧
      ¬l.issued.Nodup := by
  intro s insert rs l
  have hBegins : Backend.History.Begins s.backend :=
    ⟨none, rfl⟩
  refine ⟨?_, ?_⟩
  · apply recorded_afterAll (.begun hBegins)
    decide +kernel
  · decide +kernel

end Session

end Rowstore
