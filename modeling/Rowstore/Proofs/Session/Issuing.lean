import Rowstore.Proofs.Database.Issuing
import Rowstore.Proofs.Session.Invariants
import Rowstore.Proofs.Session.Showing

/-
  The identifiers that sessions over one backend give to
  columns and rows.

  Beside the backend stands a ledger of all identifiers that
  were issued.  A request other than a rollback issues only
  what counters have yet to give, and moves them forward.  A
  rollback moves them back with the tables that it restores,
  so what the ledger has on one side the tables may issue
  once more.

  Main declarations:
    * `Session.advances_after`
    * `Ledger` and `Session.Recorded`
    * `Session.fits_of_recorded`
    * `Session.counters_le_after`
-/

------------------------------------------------------------
-- What A Request Stores
------------------------------------------------------------

namespace Rowstore

/- The outlines of the tables that the backend loads, if it loads any. -/
def Depot.outlines (b : Depot) : List Outline :=
  (b.seen? Collection.outlines).getD []

namespace Session

/- The outlines of the tables that the session would find. -/
def outlines (s : Session (Outage Depot)) : List Outline :=
  s.backend.backend.outlines

theorem outlines_of_seen
    {s : Session (Outage Depot)}
    {os : List Outline}
    (hSeen :
      s.backend.backend.seen? Collection.outlines = some os) :
    s.outlines = os := by
  unfold outlines Depot.outlines
  rw [hSeen]
  rfl

theorem shows_outlines :
    Backend.Shows (Outage Depot) Collection.outlines
      (fun b => b.backend.seen? Collection.outlines) :=
  Outage.shows (Depot.shows Collection.outlines_of_ofJson?)

/-
  After a request other than a rollback, every table has
  moved on from what it was, or it is a new one.
-/
theorem advances_after
    {s : Session (Outage Depot)}
    {r : Request}
    (hOther : r.control? ≠ some .rollback) :
    ∀ o' ∈ (s.after r).outlines,
      (∃ o ∈ s.outlines, o.Advances o') ∨
        o'.id ∈ r.newTables := by
  intro o' hMem
  cases hSeen :
    (s.after r).backend.backend.seen? Collection.outlines with
  | none =>
      unfold outlines Depot.outlines at hMem
      rw [hSeen] at hMem
      cases hMem
  | some os' =>
      rw [outlines_of_seen hSeen] at hMem
      rcases seen_after_of_ne_rollback shows_outlines hOther
        hSeen with hSame | ⟨c, c', hBefore, hRevised, rfl⟩
      · rw [outlines_of_seen hSame]
        exact .inl ⟨o', hMem, .refl o'⟩
      · rw [outlines_of_seen hBefore]
        exact
          (Collection.follows_of_revised
            hRevised).advances_or_new hMem

end Session

end Rowstore

------------------------------------------------------------
-- Ledgers
------------------------------------------------------------

namespace Rowstore

/-
  The tables that were created, all identifiers that were
  issued, those of them that stand, and those that were
  given back.
-/
structure Ledger where
  tables : List TableId
  issued : List Issue
  standing : List Issue
  returned : List Issue

namespace Ledger

/- Nothing was issued. -/
def empty : Ledger :=
  { tables := []
    issued := []
    standing := []
    returned := [] }

/- What columns and rows have and did not have before. -/
def newIssues
    (before after : List Outline) : List Issue :=
  (Outline.issuesOf after).filter fun i =>
    i ∉ Outline.issuesOf before

theorem mem_newIssues
    {before after : List Outline}
    {i : Issue} :
    i ∈ newIssues before after ↔
      i ∈ Outline.issuesOf after ∧
        i ∉ Outline.issuesOf before := by
  simp [newIssues]

/- Tables are created and identifiers issued. -/
def issue
    (l : Ledger)
    (ids : List TableId)
    (new : List Issue) : Ledger :=
  { tables := ids ++ l.tables
    issued := new ++ l.issued
    standing := new ++ l.standing
    returned := l.returned }

/- One of the tables has yet to give the identifier. -/
def isDue
    (os : List Outline)
    (i : Issue) : Bool :=
  os.any fun o => o.MayIssue i

/- The identifiers that tables have yet to give are given back. -/
def giveBack
    (l : Ledger)
    (os : List Outline) : Ledger :=
  { l with
    standing := l.standing.filter fun i => !isDue os i
    returned := l.standing.filter (isDue os) ++ l.returned }

/-
  The ledger after a request.  A rollback gives identifiers
  back; any other request issues those that columns and rows
  have after it and did not have before.
-/
def after
    (l : Ledger)
    (s : Session (Outage Depot))
    (r : Session.Request) : Ledger :=
  if r.control? = some .rollback then
    l.giveBack (s.after r).outlines
  else
    l.issue r.newTables
      (newIssues s.outlines (s.after r).outlines)

theorem issued_after
    {l : Ledger}
    {s : Session (Outage Depot)}
    {r : Session.Request}
    (hOther : r.control? ≠ some .rollback) :
    (l.after s r).issued =
      newIssues s.outlines (s.after r).outlines ++
        l.issued := by
  unfold after
  rw [if_neg hOther]
  rfl

/- The ledger after requests, one after the other. -/
def afterAll
    (l : Ledger)
    (s : Session (Outage Depot)) :
    List Session.Request → Ledger
| [] => l
| r :: rs => (l.after s r).afterAll (s.after r) rs

/-
  What was issued was given back or stands, what stands was
  issued once by tables that were created, and no table has
  yet to give it.
-/
structure Fits
    (l : Ledger)
    (os : List Outline) : Prop where
  counts :
    ∀ i,
      l.issued.count i =
        l.returned.count i + l.standing.count i
  distinct : l.standing.Nodup
  known : ∀ i ∈ l.standing, i.table ∈ l.tables
  past : ∀ o ∈ os, ∀ i ∈ l.standing, ¬o.MayIssue i

variable {l : Ledger} {os os' : List Outline}

theorem fits_empty (os : List Outline) : empty.Fits os where
  counts := fun _ => rfl
  distinct := List.nodup_nil
  known := fun _ hMem => by cases hMem
  past := fun _ _ _ hMem => by cases hMem

/- Whatever tables are restored, the ledger fits them once identifiers are given back. -/
theorem Fits.giveBack
    (hFits : l.Fits os)
    (os' : List Outline) :
    (l.giveBack os').Fits os' where
  counts := by
    intro i
    have hParts :
        l.standing.count i =
          (l.standing.filter (isDue os')).count i +
            (l.standing.filter fun i => !isDue os' i).count i := by
      simpa [List.count] using
        List.countP_eq_countP_filter_add l.standing (· == i)
          (isDue os')
    simp only [Ledger.giveBack, List.count_append]
    rw [hFits.counts i, hParts]
    omega
  distinct := hFits.distinct.filter _
  known := fun i hMem =>
    hFits.known i (List.mem_of_mem_filter hMem)
  past := by
    intro o hTable i hMem hMay
    have hNot := List.of_mem_filter hMem
    rw [Bool.not_eq_true', isDue, List.any_eq_false] at hNot
    exact hNot o hTable (decide_eq_true hMay)

/- An identifier is issued again exactly if it is given back and stands, or given back again. -/
theorem Fits.nodup_issued_iff
    (hFits : l.Fits os) :
    l.issued.Nodup ↔
      l.returned.Nodup ∧ ∀ i ∈ l.returned, i ∉ l.standing := by
  simp only [List.nodup_iff_count_le_one, hFits.counts]
  constructor
  · intro hOnce
    refine ⟨fun i => by have := hOnce i; omega, ?_⟩
    intro i hBack hStands
    have hOnceOnly := hOnce i
    have hFirst := List.count_pos_iff.mpr hBack
    have hSecond := List.count_pos_iff.mpr hStands
    omega
  · rintro ⟨hOnce, hApart⟩ i
    by_cases hBack : i ∈ l.returned
    · rw [List.count_eq_zero.mpr (hApart i hBack)]
      exact hOnce i
    · rw [List.count_eq_zero.mpr hBack, Nat.zero_add]
      exact List.nodup_iff_count_le_one.mp hFits.distinct i

/- What a table has yet to give was issued before exactly if it was given back. -/
theorem Fits.mem_issued_iff_of_mayIssue
    (hFits : l.Fits os)
    {o : Outline}
    (hTable : o ∈ os)
    {i : Issue}
    (hMay : o.MayIssue i) :
    i ∈ l.issued ↔ i ∈ l.returned := by
  have hStands : i ∉ l.standing := fun hMem =>
    hFits.past o hTable i hMem hMay
  rw [← List.count_pos_iff, ← List.count_pos_iff,
    hFits.counts i, List.count_eq_zero.mpr hStands,
    Nat.add_zero]

section

variable {ids : List TableId}
variable (hFits : l.Fits os)
variable (hAdvances :
  ∀ o' ∈ os', (∃ o ∈ os, o.Advances o') ∨ o'.id ∈ ids)
variable (hFresh : ∀ id ∈ ids, id ∉ l.tables)

include hFits hAdvances hFresh

/- What was not issued before by a table that moves on or is new does not stand. -/
theorem Fits.not_mem_standing
    {i : Issue}
    (hIssue : i ∈ Outline.issuesOf os')
    (hNew : i ∉ Outline.issuesOf os) :
    i ∉ l.standing := by
  intro hStands
  rcases List.mem_flatMap.mp hIssue with ⟨o', hTable, hHas⟩
  rcases hAdvances o' hTable with ⟨o, hOld, hMoved⟩ | hCreated
  -- What is new in a table that moves on was still to be given, and nothing that stands is.
  · rcases hMoved.issues i hHas with hHad | hMay
    · exact hNew (List.mem_flatMap.mpr ⟨o, hOld, hHad⟩)
    · exact hFits.past o hOld i hStands hMay
  · rw [← Outline.table_of_mem_issues hHas] at hCreated
    exact hFresh _ hCreated (hFits.known i hStands)

/- What stands is past for tables that move on, and not of new ones. -/
theorem Fits.past_of_advances :
    ∀ o' ∈ os', ∀ i ∈ l.standing, ¬o'.MayIssue i := by
  intro o' hTable i hStands hMay
  rcases hAdvances o' hTable with ⟨o, hOld, hMoved⟩ | hCreated
  · exact hFits.past o hOld i hStands (hMoved.mayIssue i hMay)
  · rw [← Outline.table_of_mayIssue hMay] at hCreated
    exact hFresh _ hCreated (hFits.known i hStands)

/- A ledger fits what a request other than a rollback stores. -/
theorem Fits.issue
    {c : Collection}
    (hRegistered : c.Registered (ids ++ l.tables))
    (hStored : c.outlines = os') :
    (l.issue ids (newIssues os os')).Fits os' := by
  subst hStored
  exact
    { counts := by
        intro i
        simp only [Ledger.issue, List.count_append,
          hFits.counts i]
        omega
      distinct := by
        refine
          (hRegistered.nodup_issues.filter _).append
            hFits.distinct ?_
        intro i hMem
        exact
          hFits.not_mem_standing hAdvances hFresh
            (mem_newIssues.mp hMem).1 (mem_newIssues.mp hMem).2
      known := by
        intro i hMem
        rcases List.mem_append.mp hMem with hMem | hMem
        · exact hRegistered.table_mem (mem_newIssues.mp hMem).1
        · exact List.mem_append_right _ (hFits.known i hMem)
      past := by
        intro o hTable i hMem
        rcases List.mem_append.mp hMem with hMem | hMem
        · exact
            hRegistered.not_mayIssue
              (mem_newIssues.mp hMem).1 hTable
        · exact
            hFits.past_of_advances hAdvances hFresh o hTable
              i hMem }

end

end Ledger

end Rowstore

------------------------------------------------------------
-- Recorded Backends
------------------------------------------------------------

namespace Rowstore

namespace Session

/-
  A backend that began empty, with the ledger of what was
  asked of it, by any number of sessions and in any order.
  Tables are created under identifiers that no table had.
-/
inductive Recorded : Ledger → Outage Depot → Prop where
| begun
    {b : Outage Depot}
    (hBegins : Backend.History.Begins b) :
    Recorded .empty b
| served
    {l : Ledger}
    {s : Session (Outage Depot)}
    (hRecorded : Recorded l s.backend)
    (r : Request)
    (hFresh : ∀ id ∈ r.newTables, id ∉ l.tables) :
    Recorded (l.after s r) (s.after r).backend
| resumed
    {l : Ledger}
    {b b' : Outage Depot}
    (hRecorded : Recorded l b)
    (hResumes : Backend.History.Resumes b b') :
    Recorded l b'

theorem newTables_of_control
    {r : Request}
    {c : Control}
    (hControl : r.control? = some c) :
    r.newTables = [] := by
  rw [control?_eq_some_iff] at hControl
  cases r with
  | statement stamp text =>
      unfold Request.task at hControl
      unfold Request.newTables
      cases hParse : Statement.parse text with
      | error e => simp only [hParse]
      | ok statement =>
          cases statement with
          | control c' => simp only [hParse]
          | command c' =>
              simp only [hParse, Task.ofStatement] at hControl
              split at hControl
              · cases hControl
              · cases hControl
  | insertRow | updateCell | deleteRows | choose => rfl

theorem tables_after
    (l : Ledger)
    (s : Session (Outage Depot))
    (r : Request) :
    (l.after s r).tables = r.newTables ++ l.tables := by
  unfold Ledger.after
  split
  · rename_i hRollback
    rw [newTables_of_control hRollback]
    rfl
  · rfl

/- Requests are recorded if all tables that they create are distinct. -/
theorem recorded_afterAll
    {l : Ledger}
    {s : Session (Outage Depot)}
    (hRecorded : Recorded l s.backend)
    (rs : List Request)
    (hFresh :
      (l.tables ++ rs.flatMap Request.newTables).Nodup) :
    Recorded (l.afterAll s rs) (s.afterAll rs).backend := by
  induction rs generalizing l s with
  | nil => exact hRecorded
  | cons r rs ih =>
      rw [List.flatMap_cons, ← List.append_assoc] at hFresh
      rcases List.nodup_append.mp hFresh with
        ⟨hTables, _, _⟩
      have hServed :=
        hRecorded.served r fun id hNew hOld =>
          (List.nodup_append.mp hTables).2.2 id hOld id hNew
            rfl
      apply ih hServed
      rw [tables_after]
      exact
        (List.perm_append_comm.append_right _).nodup_iff.mpr
          hFresh

------------------------------------------------------------
-- Ledgers Of Recorded Backends
------------------------------------------------------------

/- All collections that a recorded backend has are of tables that were created. -/
theorem registered_of_recorded
    {l : Ledger}
    {b : Outage Depot}
    (hRecorded : Recorded l b) :
    Depot.Safe (Collection.Registered l.tables) b.backend := by
  induction hRecorded with
  | begun hBegins =>
      exact
        (Outage.keeps (Depot.keeps
          (Collection.registered_empty _))).begins hBegins
  | @served l s hRecorded r hFresh ih =>
      have hGuards (tables : List TableId) :=
        Outage.guards
          (Depot.guards (Collection.rereads_registered tables))
      rw [tables_after]
      apply
        safe_after_weakening (hGuards l.tables)
          (hGuards (r.newTables ++ l.tables))
      · intro b
        exact Depot.Safe.imp fun c hRegistered =>
          hRegistered.mono (List.subset_append_right _ _)
      · intro c c' hRevised hRegistered
        exact
          Collection.registered_of_revised hRevised hFresh
            hRegistered
      · exact ih
  | resumed _ hResumes ih =>
      exact
        (Outage.keeps (Depot.keeps
          (Collection.registered_empty _))).resumes ih hResumes

theorem exists_registered
    {l : Ledger}
    {b : Outage Depot}
    (hRecorded : Recorded l b) :
    ∃ c : Collection,
      c.Registered l.tables ∧
        c.outlines = b.backend.outlines := by
  have hSafe := registered_of_recorded hRecorded
  unfold Depot.outlines
  rw [Depot.seen?_eq]
  cases hLoaded : b.backend.loaded? with
  | none => exact ⟨.empty, Collection.registered_empty _, rfl⟩
  | some c =>
      exact
        ⟨c, hSafe.holds (Collection.rereads_registered _)
          (.inl hLoaded), rfl⟩

/- No column or row has an identifier that a table has yet to give. -/
theorem not_mem_issues_of_mayIssue
    {l : Ledger}
    {s : Session (Outage Depot)}
    (hRecorded : Recorded l s.backend)
    {o : Outline}
    (hTable : o ∈ s.outlines)
    {i : Issue}
    (hMay : o.MayIssue i) :
    i ∉ Outline.issuesOf s.outlines := by
  rcases exists_registered hRecorded with
    ⟨c, hRegistered, hStored⟩
  unfold outlines at hTable ⊢
  rw [← hStored] at hTable ⊢
  exact fun hIssue =>
    hRegistered.not_mayIssue hIssue hTable hMay

theorem nodup_newIssues
    {l : Ledger}
    {s : Session (Outage Depot)}
    (hRecorded : Recorded l s.backend)
    {r : Request}
    (hFresh : ∀ id ∈ r.newTables, id ∉ l.tables) :
    (Ledger.newIssues s.outlines
      (s.after r).outlines).Nodup := by
  rcases exists_registered (hRecorded.served r hFresh) with
    ⟨c, hRegistered, hStored⟩
  unfold outlines
  rw [← hStored]
  exact hRegistered.nodup_issues.filter _

/- The ledger of a recorded backend fits what it stores. -/
theorem fits_of_recorded
    {l : Ledger}
    {b : Outage Depot}
    (hRecorded : Recorded l b) :
    l.Fits b.backend.outlines := by
  induction hRecorded with
  | begun => exact Ledger.fits_empty _
  | @served l s hRecorded r hFresh ih =>
      rcases exists_registered (hRecorded.served r hFresh) with
        ⟨c, hRegistered, hStored⟩
      rw [tables_after] at hRegistered
      unfold Ledger.after
      split
      -- A rollback may restore any tables: what they may give again is taken out.
      · exact ih.giveBack _
      · rename_i hOther
        exact
          ih.issue (advances_after hOther) hFresh hRegistered
            hStored
  | @resumed l b b' hRecorded hResumes ih =>
      unfold Depot.outlines at ih ⊢
      rw [shows_outlines.resumes hResumes]
      exact ih

/- A request other than a rollback does not lower the counters of a table. -/
theorem counters_le_after
    {l : Ledger}
    {s : Session (Outage Depot)}
    (hRecorded : Recorded l s.backend)
    {r : Request}
    (hOther : r.control? ≠ some .rollback)
    (hFresh : ∀ id ∈ r.newTables, id ∉ l.tables)
    {o o' : Outline}
    (hBefore : o ∈ s.outlines)
    (hAfter : o' ∈ (s.after r).outlines)
    (hSame : o'.id = o.id) :
    o.counters.nextColumn ≤ o'.counters.nextColumn ∧
      o.counters.nextRow ≤ o'.counters.nextRow := by
  rcases exists_registered hRecorded with
    ⟨c, hRegistered, hStored⟩
  have hStored : c.outlines = s.outlines := hStored
  rcases advances_after hOther o' hAfter with
    ⟨o₁, hOld, hAdvances⟩ | hNew
  · rw [← hStored] at hOld hBefore
    have hTable : o₁ = o :=
      hRegistered.eq_of_id_eq hOld hBefore
        (hAdvances.id.symm.trans hSame)
    subst hTable
    exact hAdvances.counters_le
  · rw [← hStored] at hBefore
    rw [hSame] at hNew
    exact absurd (hRegistered.known o hBefore) (hFresh _ hNew)

end Session

end Rowstore
