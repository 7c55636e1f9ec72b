import Rowstore.Proofs.Session.Calls
import Rowstore.Proofs.Workspace.Selecting

/-
  Statements that insert, update and delete rows depend on one
  table and write one table.  Two of them that name different
  tables can therefore be executed in either order: both times
  each has the answer that it has alone, and the workspace in
  the end is the same.

  Main declarations:
    * `Workspace.within` and `Workspace.within_comm`
    * `Work.attempt`
    * `Work.attempt_eq_within`
    * `Work.data_commands_commute`
-/

------------------------------------------------------------
-- Tables With Different Names
------------------------------------------------------------

namespace Rowstore

/- No table has both of two different names. -/
theorem Table.isNamed_eq_false_of_isNamed
    {a b : String}
    (hApart : Text.sameName a b = false)
    {t : Table}
    (hName : t.isNamed a = true) :
    t.isNamed b = false := by
  unfold isNamed at hName ⊢
  rw [Text.sameName_congr hName b]
  exact hApart

namespace Workspace

variable {w : Workspace} {a b : String} {t u : Table}

/- Changes of the selected database, one after the other, are one change. -/
theorem updateActive_updateActive
    (w : Workspace)
    {f : Database → Database}
    (hKeeps : ∀ d, (f d).id = d.id)
    (g : Database → Database) :
    (w.updateActive f).updateActive g =
      w.updateActive fun d => g (f d) := by
  rcases w with ⟨c, _ | id⟩
  · rfl
  · unfold updateActive Collection.update
    simp only
    rw [updateFirst_updateFirst]
    intro d hId
    simpa [hKeeps d] using hId

/- A replaced table is not seen under another name. -/
theorem tableNamed_replaceTable_of_apart
    (hApart : Text.sameName a b = false)
    {t₀ : Table}
    (hTable : w.tableNamed a = .ok t₀)
    (hName : t.isNamed a = true) :
    (w.replaceTable a t).tableNamed b = w.tableNamed b := by
  rcases tableNamed_eq_ok_iff.mp hTable with
    ⟨d, hActive, _⟩
  have hBefore := activeDatabase_eq_ok_iff.mpr hActive
  have hAfter :
      (w.replaceTable a t).activeDatabase =
        .ok (d.updateTable a fun _ => t) :=
    activeDatabase_eq_ok_iff.mpr
      (active?_updateActive hActive rfl)
  have hFind :
      (d.updateTable a fun _ => t).table? b = d.table? b := by
    apply find?_updateFirst_of_disjoint
    · intro u hOther
      exact Table.isNamed_eq_false_of_isNamed hApart hOther
    · intro u hOther
      exact Table.isNamed_eq_false_of_isNamed hApart hName
  unfold tableNamed
  rw [hBefore, hAfter]
  simp only [bind, Except.bind, hFind]

theorem replaceTable_replaceTable
    (w : Workspace)
    (a b : String)
    (t u : Table) :
    (w.replaceTable a t).replaceTable b u =
      w.updateActive fun d =>
        (d.updateTable a fun _ => t).updateTable b
          fun _ => u := by
  apply updateActive_updateActive
  exact fun _ => rfl

/- Tables with different names are replaced in either order. -/
theorem replaceTable_comm
    (w : Workspace)
    (hApart : Text.sameName a b = false)
    (hFirst : t.isNamed a = true)
    (hSecond : u.isNamed b = true) :
    (w.replaceTable a t).replaceTable b u =
      (w.replaceTable b u).replaceTable a t := by
  rw [replaceTable_replaceTable, replaceTable_replaceTable]
  congr 1
  funext d
  unfold Database.updateTable
  simp only [Database.mk.injEq, true_and, and_true]
  apply updateFirst_comm
  · intro x hName
    exact Table.isNamed_eq_false_of_isNamed hApart hName
  · exact fun _ _ => hFirst
  · exact fun _ _ => hSecond

------------------------------------------------------------
-- Steps Within One Table
------------------------------------------------------------

/- What is done with a table that was looked up, or with the failure to find it. -/
abbrev Step :=
  Except Error Table → Except Error (QueryResult × Table)

/- Do a step with a table; if it fails, nothing is done. -/
def within
    (w : Workspace)
    (name : String)
    (step : Step) :
    Except Error QueryResult × Workspace :=
  match step (w.tableNamed name) with
  | .ok (r, t) => (.ok r, w.replaceTable name t)
  | .error e => (.error e, w)

/- The step needs a table, and keeps its name. -/
def Step.KeepsName (step : Step) : Prop :=
  ∀ {found : Except Error Table} {r : QueryResult}
    {t : Table},
    step found = .ok (r, t) →
      ∃ t₀, found = .ok t₀ ∧ t.name = t₀.name

/- A step that succeeds found a table, and leaves one that is found again. -/
theorem Step.KeepsName.isNamed
    {step : Step}
    (hKeeps : step.KeepsName)
    {r : QueryResult}
    (hStep : step (w.tableNamed a) = .ok (r, t)) :
    (∃ t₀, w.tableNamed a = .ok t₀) ∧
      t.isNamed a = true := by
  rcases hKeeps hStep with ⟨t₀, hTable, hName⟩
  rcases tableNamed_eq_ok_iff.mp hTable with ⟨d, _, hFind⟩
  refine ⟨⟨t₀, hTable⟩, ?_⟩
  unfold Table.isNamed
  rw [hName]
  exact Database.isNamed_of_table? hFind

/- A step with one table is not seen under another name. -/
theorem tableNamed_within_of_apart
    (w : Workspace)
    (hApart : Text.sameName a b = false)
    {step : Step}
    (hKeeps : step.KeepsName) :
    (w.within a step).2.tableNamed b = w.tableNamed b := by
  unfold within
  rcases hStep : step (w.tableNamed a) with e | ⟨r, t⟩
  · rfl
  · rcases hKeeps.isNamed hStep with ⟨⟨t₀, hTable⟩, hName⟩
    exact tableNamed_replaceTable_of_apart hApart hTable
      hName

/- Steps with tables of different names are done in either order. -/
theorem within_comm
    (w : Workspace)
    (hApart : Text.sameName a b = false)
    {first second : Step}
    (hFirst : first.KeepsName)
    (hSecond : second.KeepsName) :
    (w.within a first).2.within b second =
      ((w.within b second).1,
        ((w.within b second).2.within a first).2) := by
  have hOther : Text.sameName b a = false := by
    rw [Text.sameName_comm]
    exact hApart
  have hSeen :=
    tableNamed_within_of_apart w hApart hFirst
  have hAlso :=
    tableNamed_within_of_apart w hOther hSecond
  rcases hLeft : first (w.tableNamed a) with e | ⟨r, t⟩
  · rcases hRight : second (w.tableNamed b) with e' | ⟨r', u⟩
    · simp [within, hLeft, hRight]
    · have hAfter := hAlso
      simp only [within, hRight] at hAfter
      simp [within, hLeft, hRight, hAfter]
  · have hBefore := hSeen
    simp only [within, hLeft] at hBefore
    rcases hRight : second (w.tableNamed b) with e' | ⟨r', u⟩
    · simp [within, hLeft, hRight, hBefore]
    · have hAfter := hAlso
      simp only [within, hRight] at hAfter
      simp only [within, hLeft, hRight, hBefore, hAfter]
      rw [replaceTable_comm w hApart (hFirst.isNamed hLeft).2
        (hSecond.isNamed hRight).2]

end Workspace

end Rowstore

------------------------------------------------------------
-- Statements As Steps
------------------------------------------------------------

namespace Rowstore

/- The table whose rows a statement inserts, updates or deletes. -/
def Command.dataTable? : Command → Option String
| .insert table _ _ => some table
| .update table _ _ => some table
| .delete table _ => some table
| _ => none

namespace Workspace

variable {α : Type}

/- Edit a table, and answer with a text. -/
def Step.ofEdit
    (edit : Edit α)
    (text : α → String) : Step
| .error e => .error e
| .ok t =>
  match edit.run.run t with
  | (.ok a, t') => .ok (.message (text a), t')
  | (.error e, _) => .error e

theorem Step.keepsName_ofEdit
    {names : List String}
    {edit : Edit α}
    (hRevises : edit.Revises names)
    (text : α → String) :
    (Step.ofEdit edit text).KeepsName := by
  intro found r t' hStep
  cases found with
  | error e => cases hStep
  | ok t =>
      unfold Step.ofEdit at hStep
      rcases hEdit : edit.run.run t with ⟨e | a, t₁⟩
      · simp only [hEdit] at hStep
        cases hStep
      · simp only [hEdit] at hStep
        cases hStep
        exact ⟨t, rfl, (hRevises hEdit).id_name.2⟩

theorem Step.keepsName_error (e : Error) :
    Step.KeepsName fun _ => .error e := by
  intro found r t hStep
  cases hStep

end Workspace

namespace Work

open Execution Workspace

variable {α : Type}

/- Do work on a copy, which is put back only if the work succeeds. -/
def attempt
    (work : Work Outcome)
    (w : Workspace) :
    Except Error QueryResult × Workspace :=
  match work.run.run w with
  | (.ok o, w') => (.ok o.result, w')
  | (.error e, _) => (.error e, w)

theorem attempt_of_ok
    {work : Work Outcome}
    {w w' : Workspace}
    {o : Outcome}
    (hRun : work.run.run w = (.ok o, w')) :
    attempt work w = (.ok o.result, w') := by
  unfold attempt
  rw [hRun]

theorem attempt_of_error
    {work : Work Outcome}
    {w w' : Workspace}
    {e : Error}
    (hRun : work.run.run w = (.error e, w')) :
    attempt work w = (.error e, w) := by
  unfold attempt
  rw [hRun]

/- An edit that is announced is a step with its table. -/
theorem attempt_onTable_announce
    (name : String)
    (edit : Edit α)
    (change : Change)
    (text : α → String)
    (w : Workspace) :
    attempt
        (do
          let a ← onTable name edit
          announce change (text a)) w =
      w.within name (.ofEdit edit text) := by
  cases hTable : w.tableNamed name with
  | error e =>
      have hOn :
          (onTable name edit).run.run w = (.error e, w) := by
        simp only [run_onTable, hTable]
      simp only [attempt, run_bind, hOn, Workspace.within,
        hTable, Step.ofEdit]
  | ok t =>
      rcases hEdit : edit.run.run t with ⟨e | a, t'⟩
      · rcases run_onTable_error hTable hEdit change text with
          ⟨w', hRun⟩
        rw [attempt_of_error hRun]
        simp only [Workspace.within, hTable, Step.ofEdit,
          hEdit]
      · rcases run_onTable_announce hTable hEdit change
          text with ⟨d, hRun⟩
        rw [attempt_of_ok hRun]
        simp only [Workspace.within, hTable, Step.ofEdit,
          hEdit, Outcome.announced]

theorem exists_step_of_onTable
    (name : String)
    {names : List String}
    {edit : Edit α}
    (hRevises : edit.Revises names)
    (change : Change)
    (text : α → String) :
    ∃ step : Step,
      step.KeepsName ∧
        ∀ w,
          attempt
              (do
                let a ← onTable name edit
                announce change (text a)) w =
            w.within name step :=
  ⟨.ofEdit edit text, Step.keepsName_ofEdit hRevises text,
    attempt_onTable_announce name edit change text⟩

/- Names and values are counted before the table is looked up. -/
theorem exists_step_of_insert
    (name : String)
    (columns values : List String) :
    ∃ step : Step,
      step.KeepsName ∧
        ∀ w,
          attempt (insert name columns values) w =
            w.within name step := by
  unfold insert
  by_cases hCount : columns.length ≠ values.length
  · rw [if_pos hCount]
    exact ⟨_, Step.keepsName_error _, fun _ => rfl⟩
  · rw [if_neg hCount]
    exact exists_step_of_onTable name
      (Edit.revises_insertLiterals _) _ _

/- A statement that inserts, updates or deletes rows is a step with its table. -/
theorem attempt_eq_within
    (stamp : Stamp)
    {c : Command}
    {name : String}
    (hData : c.dataTable? = some name) :
    ∃ step : Step,
      step.KeepsName ∧
        ∀ w,
          attempt (execute stamp c) w =
            w.within name step := by
  cases c with
  | insert table columns values =>
      cases hData
      exact exists_step_of_insert name columns values
  | update table assignments condition =>
      cases hData
      exact exists_step_of_onTable name
        (Edit.revises_updateLiterals assignments condition)
        _ _
  | delete table condition =>
      cases hData
      exact exists_step_of_onTable name
        (Edit.revises_deleteSelected condition) _ _
  | select | createTable | createDatabase | dropTable
  | dropDatabase | alterTable | use | permission
  | showDatabases | showTables | describe => cases hData

/-
  Of two statements that insert, update or delete rows of
  tables with different names, the second one answers as if
  the first one had not been executed, whichever is the first,
  and the workspace after both is the same in both orders.
-/
theorem data_commands_commute
    {first second : Command}
    {a b : String}
    (hFirst : first.dataTable? = some a)
    (hSecond : second.dataTable? = some b)
    (hApart : Text.sameName a b = false)
    (stamp stamp' : Stamp)
    (w : Workspace) :
    let one := attempt (execute stamp first)
    let other := attempt (execute stamp' second)
    other (one w).2 = ((other w).1, (one (other w).2).2) ∧
      one (other w).2 = ((one w).1, (other (one w).2).2) := by
  intro one other
  rcases attempt_eq_within stamp hFirst with
    ⟨step, hKeeps, hOne⟩
  rcases attempt_eq_within stamp' hSecond with
    ⟨step', hKeeps', hOther⟩
  have hSwapped : Text.sameName b a = false := by
    rw [Text.sameName_comm]
    exact hApart
  simp only [one, other, hOne, hOther]
  exact
    ⟨within_comm w hApart hKeeps hKeeps',
      within_comm w hSwapped hKeeps' hKeeps⟩

/- A row is inserted into one table and one is deleted from another one. -/
theorem insertion_and_deletion_commute :
    let t : Table :=
      { Table.new ⟨⟨1⟩⟩ "t" with
        columns := [listingColumn 1 "a" .text] }
    let u : Table :=
      { Table.new ⟨⟨2⟩⟩ "u" with
        rows := [{ id := ⟨1⟩, cells := .ofList [] }] }
    let d : Database :=
      { Database.new ⟨⟨0⟩⟩ "d" with tables := [t, u] }
    let w : Workspace :=
      { collection := Collection.empty.add d
        selection := some d.id }
    let insertion : Command := .insert "T" ["a"] ["'x'"]
    let deletion : Command := .delete "U" none
    let one := attempt (execute Session.epoch insertion)
    let other := attempt (execute Session.epoch deletion)
    (one (other w).2).2 = (other (one w).2).2 ∧
      (one (other w).2).1 =
        .ok (.message "1 row inserted (id 1)") ∧
      (other (one w).2).1 =
        .ok (.message "1 row(s) deleted") := by
  intro t u d w insertion deletion one other
  have hFirst : insertion.dataTable? = some "T" := rfl
  have hSecond : deletion.dataTable? = some "U" := rfl
  have hApart : Text.sameName "T" "U" = false := by
    decide +kernel
  have hInserted :
      (one w).1 = .ok (.message "1 row inserted (id 1)") := by
    decide +kernel
  have hDeleted :
      (other w).1 = .ok (.message "1 row(s) deleted") := by
    decide +kernel
  have hBoth :=
    data_commands_commute hFirst hSecond hApart
      Session.epoch Session.epoch w
  rcases hBoth with ⟨hOther, hOne⟩
  rw [Prod.ext_iff] at hOther hOne
  exact
    ⟨hOne.2, hOne.1.trans hInserted,
      hOther.1.trans hDeleted⟩

end Work

end Rowstore
