import Rowstore.Proofs.Execution
import Rowstore.Workspace.Execute

/-
  Commands that are not mutating leave the collection as it
  is, and the selection too unless they succeed.

  Main declarations:
    * `Work.collection_execute_of_not_mutating`
    * `Work.execute_error_of_not_mutating`
-/

namespace Rowstore

namespace Work

open Execution

------------------------------------------------------------
-- Lookups And Listings
------------------------------------------------------------

theorem reads_activeDatabase : Reads activeDatabase := by
  apply Reads.bind Reads.of_get
  intro w
  exact Reads.of_lift w.activeDatabase

theorem reads_tableNamed (name : String) :
    Reads (tableNamed name) := by
  apply Reads.bind Reads.of_get
  intro w
  exact Reads.of_lift (w.tableNamed name)

theorem reads_select
    (projection : Projection)
    (table : String)
    (condition : Option String) :
    Reads (select projection table condition) := by
  apply Reads.bind (reads_tableNamed table)
  intro t
  apply Reads.bind (Reads.of_lift (projected t projection))
  intro columns
  apply Reads.bind (Reads.of_lift (t.selected condition))
  intro rows
  exact Reads.of_pure _

theorem reads_showDatabases : Reads showDatabases := by
  apply Reads.bind Reads.of_get
  intro w
  exact Reads.of_pure _

theorem reads_showTables : Reads showTables := by
  apply Reads.bind reads_activeDatabase
  intro d
  exact Reads.of_pure _

theorem reads_describe (table : String) :
    Reads (describe table) := by
  apply Reads.bind (reads_tableNamed table)
  intro t
  exact Reads.of_pure _

------------------------------------------------------------
-- Commands
------------------------------------------------------------

/- Selecting a database selects it, or fails and does nothing. -/
theorem run_useDatabase
    (name : String)
    (w : Workspace) :
    (useDatabase name).run.run w =
      match w.collection.findByName? name with
      | some d =>
        (.ok (.message s!"Using database '{d.name}'"),
          { w with selection := some d.id })
      | none => (.error (.databaseNotFound name), w) := by
  cases hFind : w.collection.findByName? name with
  | none =>
      simp only [useDatabase, run_bind, run_get,
        Workspace.databaseNamed, hFind, run_lift]
  | some d =>
      simp only [useDatabase, run_bind, run_get,
        Workspace.databaseNamed, hFind, run_lift,
        run_modify, run_pure]

/-
  A command that is not mutating only reads, or selects a
  database.
-/
theorem reads_execute_of_not_mutating
    (stamp : Stamp)
    {c : Command}
    (hReads : c.isMutating = false) :
    Reads (execute stamp c) ∨
      ∃ name, c = .use name := by
  cases c with
  | select projection table condition =>
      exact .inl (reads_select projection table condition)
  | showDatabases => exact .inl reads_showDatabases
  | showTables => exact .inl reads_showTables
  | describe table => exact .inl (reads_describe table)
  | use name => exact .inr ⟨name, rfl⟩
  | insert => cases hReads
  | update => cases hReads
  | delete => cases hReads
  | createTable => cases hReads
  | createDatabase => cases hReads
  | dropTable => cases hReads
  | dropDatabase => cases hReads
  | alterTable => cases hReads
  | permission => cases hReads

theorem collection_execute_of_not_mutating
    (stamp : Stamp)
    {c : Command}
    (hReads : c.isMutating = false)
    (w : Workspace) :
    ((execute stamp c).run.run w).2.collection =
      w.collection := by
  rcases reads_execute_of_not_mutating stamp hReads with
    hExecute | ⟨name, rfl⟩
  · rw [hExecute w]
  · rw [show execute stamp (.use name) = useDatabase name
      from rfl, run_useDatabase]
    cases w.collection.findByName? name with
    | none => rfl
    | some d => rfl

theorem execute_error_of_not_mutating
    (stamp : Stamp)
    {c : Command}
    (hReads : c.isMutating = false)
    {w w' : Workspace}
    {e : Error}
    (hRun : (execute stamp c).run.run w = (.error e, w')) :
    w' = w := by
  rcases reads_execute_of_not_mutating stamp hReads with
    hExecute | ⟨name, rfl⟩
  · exact hExecute.eq_of_run hRun
  · rw [show execute stamp (.use name) = useDatabase name
      from rfl, run_useDatabase] at hRun
    cases hFind : w.collection.findByName? name with
    | none =>
        rw [hFind] at hRun
        exact (congrArg Prod.snd hRun).symm
    | some d =>
        rw [hFind] at hRun
        cases congrArg Prod.fst hRun

end Work

end Rowstore
