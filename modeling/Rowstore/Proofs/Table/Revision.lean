import Mathlib.Data.List.Basic
import Mathlib.Data.List.Forall2
import Mathlib.Logic.Relation
import Rowstore.Proofs.Execution
import Rowstore.Proofs.Table.Cells
import Rowstore.Table.Edit

/-
  What edits do to a table, and what the successful ones have
  in common: each is one of five revisions, which touch only
  columns that the table has and append only columns whose
  name is new.

  Main declarations:
    * `Edit.run_insert`, `Edit.run_updateLiterals` and
      `Edit.run_deleteSelected`
    * `Value.Entered`
    * `Table.Revised` and `Table.forall_columns_of_revised`
    * `Edit.Revises`
    * `Edit.built_of_define`
-/

------------------------------------------------------------
-- Runs Of Edits
------------------------------------------------------------

namespace Rowstore

namespace Edit

open Execution

variable {α : Type}

theorem run_insert
    (value : Column → String → Value)
    (entries : List (String × String))
    (t : Table) :
    (insert value entries).run.run t =
      match cellsOf t value entries with
      | .ok cells => (.ok t.nextRowId, t.insertRow cells)
      | .error e => (.error e, t) := by
  cases hCells : cellsOf t value entries with
  | error e =>
      simp only [insert, run_bind, run_get, hCells, run_lift]
  | ok cells =>
      simp only [insert, run_bind, run_get, hCells, run_lift,
        run_set, run_pure]

/- Both the assigned columns and the condition are looked up before a row is changed. -/
theorem run_updateLiterals
    (assignments : List Assignment)
    (condition : Option String)
    (t : Table) :
    (updateLiterals assignments condition).run.run t =
      match changesOf t assignments with
      | .error e => (.error e, t)
      | .ok changes =>
        match t.selectedIds condition with
        | .error e => (.error e, t)
        | .ok ids =>
          (.ok ids.length,
            updateRows t ids (assign changes)) := by
  cases hChanges : changesOf t assignments with
  | error e =>
      simp only [updateLiterals, run_bind, run_get, hChanges,
        run_lift]
  | ok changes =>
      cases hIds : t.selectedIds condition with
      | error e =>
          simp only [updateLiterals, run_bind, run_get,
            hChanges, hIds, run_lift]
      | ok ids =>
          simp only [updateLiterals, run_bind, run_get,
            hChanges, hIds, run_lift, run_set, run_pure]

theorem run_remove
    (ids : List RowId)
    (t : Table) :
    (remove ids).run.run t =
      (.ok (t.rows.length - (t.removeRows ids).rows.length),
        t.removeRows ids) := rfl

theorem run_deleteSelected
    (condition : Option String)
    (t : Table) :
    (deleteSelected condition).run.run t =
      match t.selectedIds condition with
      | .error e => (.error e, t)
      | .ok ids => (remove ids).run.run t := by
  cases hIds : t.selectedIds condition with
  | error e =>
      simp only [deleteSelected, run_bind, run_get, hIds,
        run_lift]
  | ok ids =>
      simp only [deleteSelected, run_bind, run_get, hIds,
        run_lift]

theorem run_updateEntered
    (id : RowId)
    (column raw : String)
    (t : Table) :
    (updateEntered id column raw).run.run t =
      match t.columnNamed column with
      | .error e => (.error e, t)
      | .ok c =>
        match t.row? id with
        | none => (.error (.rowNotFound id.value), t)
        | some _ =>
          (.ok (c.coerce raw),
            t.updateRow id fun r =>
              r.put c.id (c.coerce raw)) := by
  cases hColumn : t.columnNamed column with
  | error e =>
      simp only [updateEntered, run_bind, run_get, hColumn,
        run_lift]
  | ok c =>
      cases hRow : t.row? id with
      | none =>
          simp only [updateEntered, run_bind, run_get,
            hColumn, hRow, run_lift, run_throw]
      | some r =>
          simp only [updateEntered, run_bind, run_get,
            hColumn, hRow, run_lift, run_set, run_pure]

theorem run_deleteListed
    (ids : List RowId)
    (t : Table) :
    (deleteListed ids).run.run t =
      match ids.find? fun id => (t.row? id).isNone with
      | some id => (.error (.rowNotFound id.value), t)
      | none => (remove ids).run.run t := by
  cases hMissing :
      ids.find? fun id => (t.row? id).isNone with
  | none =>
      simp only [deleteListed, run_bind, run_get, hMissing]
  | some id =>
      simp only [deleteListed, run_bind, run_get, hMissing,
        run_throw]

theorem run_addDefinition
    (d : ColumnDefinition)
    (isKey : Bool)
    (t : Table) :
    (addDefinition d isKey).run.run t =
      match t.column? d.name with
      | some _ => (.error (.duplicateColumnName d.name), t)
      | none =>
        match DeclaredType.parse d.typeText with
        | none => (.error (.invalidType d.typeText), t)
        | some type =>
          (.ok (),
            t.addColumn d.name type
              (d.primaryKey || isKey)) := by
  cases hColumn : t.column? d.name with
  | some c =>
      simp only [addDefinition, run_bind, run_get, hColumn,
        Option.isSome_some, if_true, run_throw]
  | none =>
      cases hType : DeclaredType.parse d.typeText with
      | none =>
          simp only [addDefinition, run_bind, run_get,
            hColumn, hType, Option.isSome_none,
            Bool.false_eq_true, if_false, run_throw]
      | some type =>
          simp only [addDefinition, run_bind, run_get,
            hColumn, hType, Option.isSome_none,
            Bool.false_eq_true, if_false, run_set]

theorem run_dropColumn
    (name : String)
    (t : Table) :
    (dropColumn name).run.run t =
      match t.columnNamed name with
      | .error e => (.error e, t)
      | .ok c => (.ok (), t.removeColumn c.id) := by
  cases hColumn : t.columnNamed name with
  | error e =>
      simp only [dropColumn, run_bind, run_get, hColumn,
        run_lift]
  | ok c =>
      simp only [dropColumn, run_bind, run_get, hColumn,
        run_lift, run_set]

end Edit

end Rowstore

------------------------------------------------------------
-- Changes Of Rows
------------------------------------------------------------

namespace Rowstore

namespace Edit

theorem assign_id
    (changes : List Cell)
    (r : Row) :
    (assign changes r).id = r.id := by
  unfold assign
  induction changes generalizing r with
  | nil => rfl
  | cons change changes ih => exact ih _

theorem assign_cells
    (changes : List Cell)
    (r : Row) :
    (assign changes r).cells =
      r.cells.putAll changes := by
  unfold assign
  induction changes generalizing r with
  | nil => rfl
  | cons change changes ih => exact ih _

/- Changing rows leaves everything else of a table as it is. -/
theorem updateRows_eq
    (t : Table)
    (ids : List RowId)
    (f : Row → Row) :
    updateRows t ids f =
      { t with rows := (updateRows t ids f).rows } := by
  unfold updateRows
  induction ids generalizing t with
  | nil => rfl
  | cons id ids ih => exact ih (t.updateRow id f)

end Edit

end Rowstore

------------------------------------------------------------
-- Revisions
------------------------------------------------------------

namespace Rowstore

/- A value that some text stands for, as a literal or under a column. -/
inductive Value.Entered : Value → Prop where
| literal
    (s : List Char) :
    Entered (ofLiteral s)
| coerced
    (c : Column)
    (raw : String) :
    Entered (c.coerce raw)

namespace Table

/- The identifiers of the columns, in order. -/
def columnIds (t : Table) : List ColumnId :=
  t.columns.map Column.id

/- What an edit that brings in given names can make of a table. -/
inductive Revised
    (names : List String)
    (t : Table) : Table → Prop where
| rowInserted
    {cells : Cells}
    (hCells : cells.Within t.columnIds)
    (hValues : ∀ cell ∈ cells.toList, cell.2.Entered) :
    Revised names t (t.insertRow cells)
| rowsChanged
    (ids : List RowId)
    {changes : List Cell}
    (hChanges : ∀ cell ∈ changes, cell.1 ∈ t.columnIds)
    (hValues : ∀ cell ∈ changes, cell.2.Entered) :
    Revised names t
      (Edit.updateRows t ids (Edit.assign changes))
| rowsRemoved
    (ids : List RowId) :
    Revised names t (t.removeRows ids)
| columnAdded
    {name : String}
    (hName : name ∈ names)
    (hNew : t.column? name = none)
    {text : String}
    {type : DeclaredType}
    (hType : DeclaredType.parse text = some type)
    (isKey : Bool) :
    Revised names t (t.addColumn name type isKey)
| columnRemoved
    (id : ColumnId) :
    Revised names t (t.removeColumn id)

/- A revision keeps the identifier and the name of the table. -/
theorem Revised.id_name
    {names : List String}
    {t t' : Table}
    (hRevised : t.Revised names t') :
    t'.id = t.id ∧ t'.name = t.name := by
  cases hRevised with
  | rowInserted => exact ⟨rfl, rfl⟩
  | rowsChanged ids =>
      rw [Edit.updateRows_eq]
      exact ⟨rfl, rfl⟩
  | rowsRemoved => exact ⟨rfl, rfl⟩
  | columnAdded => exact ⟨rfl, rfl⟩
  | columnRemoved id =>
      unfold removeColumn
      split
      · exact ⟨rfl, rfl⟩
      · exact ⟨rfl, rfl⟩

/- A property of columns is kept if the columns that are added have it. -/
theorem forall_columns_of_revised
    {names : List String}
    {P : Column → Prop}
    (hAdded :
      ∀ id name text type isKey,
        name ∈ names → DeclaredType.parse text = some type →
          P (Column.ofType id name type isKey))
    {t t' : Table}
    (hRevised : t.Revised names t')
    (hAll : ∀ c ∈ t.columns, P c) :
    ∀ c ∈ t'.columns, P c := by
  intro c hMem
  cases hRevised with
  | rowInserted => exact hAll c hMem
  | rowsChanged ids =>
      rw [Edit.updateRows_eq] at hMem
      exact hAll c hMem
  | rowsRemoved => exact hAll c hMem
  | columnAdded hName _ hType =>
      rcases List.mem_append.mp hMem with hOld | hNew
      · exact hAll c hOld
      · rw [List.mem_singleton.mp hNew]
        exact hAdded _ _ _ _ _ hName hType
  | columnRemoved id =>
      unfold removeColumn at hMem
      split at hMem
      · exact hAll c (List.mem_of_mem_eraseP hMem)
      · exact hAll c hMem

/- A table that was made from a new one by revisions. -/
def Built
    (names : List String)
    (id : TableId)
    (name : String) : Table → Prop :=
  Relation.ReflTransGen (Revised names) (Table.new id name)

theorem Built.id
    {names : List String}
    {id : TableId}
    {name : String}
    {t : Table}
    (hBuilt : Built names id name t) :
    t.id = id := by
  induction hBuilt with
  | refl => rfl
  | tail _ hRevised ih => exact hRevised.id_name.1.trans ih

theorem Built.name
    {names : List String}
    {id : TableId}
    {name : String}
    {t : Table}
    (hBuilt : Built names id name t) :
    t.name = name := by
  induction hBuilt with
  | refl => rfl
  | tail _ hRevised ih => exact hRevised.id_name.2.trans ih

theorem columnNamed_eq_ok_iff
    {t : Table}
    {name : String}
    {c : Column} :
    t.columnNamed name = .ok c ↔ t.column? name = some c := by
  unfold columnNamed
  cases t.column? name with
  | none => simp
  | some b => simp

theorem mem_columnIds_of_columnNamed
    {t : Table}
    {name : String}
    {c : Column}
    (hColumn : t.columnNamed name = .ok c) :
    c.id ∈ t.columnIds :=
  List.mem_map_of_mem
    (List.mem_of_find?_eq_some
      (columnNamed_eq_ok_iff.mp hColumn))

end Table

namespace Edit

open Execution

variable {α : Type}

/- A success of the edit is a revision that brings in given names. -/
def Revises
    (names : List String)
    (edit : Edit α) : Prop :=
  ∀ {t t' : Table} {a : α},
    edit.run.run t = (.ok a, t') → t.Revised names t'

/- For each of several entries a column is looked up, and gives the value of its cell. -/
theorem forall₂_of_mapM
    {γ : Type}
    {t : Table}
    {name : γ → String}
    {value : γ → Column → Value}
    {entries : List γ}
    {cells : List Cell}
    (hCells :
      (entries.mapM fun entry => do
        let c ← t.columnNamed (name entry)
        pure (c.id, value entry c)) =
        (.ok cells : Except Error (List Cell))) :
    List.Forall₂
      (fun entry cell =>
        ∃ c,
          t.columnNamed (name entry) = .ok c ∧
            cell = (c.id, value entry c))
      entries cells := by
  induction entries generalizing cells with
  | nil =>
      cases hCells
      exact .nil
  | cons entry entries ih =>
      rw [List.mapM_cons] at hCells
      cases hColumn : t.columnNamed (name entry) with
      | error e =>
          rw [hColumn] at hCells
          cases hCells
      | ok c =>
          rw [hColumn] at hCells
          generalize hRest :
            (entries.mapM fun entry => do
              let c ← t.columnNamed (name entry)
              pure (c.id, value entry c) :
              Except Error (List Cell)) = rest at hCells
          cases rest with
          | error e => cases hCells
          | ok rest =>
              cases hCells
              exact .cons ⟨c, hColumn, rfl⟩ (ih hRest)

theorem forall_of_mapM
    {P : Cell → Prop}
    {γ : Type}
    {t : Table}
    {name : γ → String}
    {value : γ → Column → Value}
    (hValue :
      ∀ entry {c : Column},
        t.columnNamed (name entry) = .ok c →
          P (c.id, value entry c))
    {entries : List γ}
    {cells : List Cell}
    (hCells :
      (entries.mapM fun entry => do
        let c ← t.columnNamed (name entry)
        pure (c.id, value entry c)) =
        (.ok cells : Except Error (List Cell))) :
    ∀ cell ∈ cells, P cell := by
  have hPairs := forall₂_of_mapM hCells
  clear hCells
  induction hPairs with
  | nil => exact List.forall_mem_nil _
  | cons hPair _ ih =>
      rcases hPair with ⟨c, hColumn, rfl⟩
      rw [List.forall_mem_cons]
      exact ⟨hValue _ hColumn, ih⟩

theorem exists_of_cellsOf
    {t : Table}
    {value : Column → String → Value}
    {entries : List (String × String)}
    {cells : Cells}
    (hCells : cellsOf t value entries = .ok cells) :
    ∃ list,
      (entries.mapM fun entry => do
        let c ← t.columnNamed entry.1
        pure (c.id, value c entry.2)) =
        (.ok list : Except Error (List Cell)) ∧
        cells = Cells.ofList list := by
  change
    ((do
      let list ← entries.mapM fun entry => do
        let c ← t.columnNamed entry.1
        pure (c.id, value c entry.2)
      pure (Cells.ofList list)) :
      Except Error Cells) = .ok cells at hCells
  generalize hList :
    (entries.mapM fun entry => do
      let c ← t.columnNamed entry.1
      pure (c.id, value c entry.2) :
      Except Error (List Cell)) = list at hCells
  cases list with
  | error e => cases hCells
  | ok list =>
      cases hCells
      exact ⟨list, rfl, rfl⟩

theorem forall_of_cellsOf
    {P : Cell → Prop}
    {t : Table}
    {value : Column → String → Value}
    (hValue :
      ∀ name raw {c : Column},
        t.columnNamed name = .ok c → P (c.id, value c raw))
    {entries : List (String × String)}
    {cells : Cells}
    (hCells : cellsOf t value entries = .ok cells) :
    ∀ cell ∈ cells.toList, P cell := by
  rcases exists_of_cellsOf hCells with ⟨list, hList, rfl⟩
  exact Cells.forall_ofList
    (forall_of_mapM
      (fun entry _ => hValue entry.1 entry.2) hList)

theorem within_of_cellsOf
    {t : Table}
    {value : Column → String → Value}
    {entries : List (String × String)}
    {cells : Cells}
    (hCells : cellsOf t value entries = .ok cells) :
    cells.Within t.columnIds :=
  forall_of_cellsOf
    (fun _ _ _ hColumn =>
      Table.mem_columnIds_of_columnNamed hColumn)
    hCells

theorem revises_insert
    {value : Column → String → Value}
    (hValue : ∀ c raw, (value c raw).Entered)
    (entries : List (String × String)) :
    Revises [] (insert value entries) := by
  intro t t' id hRun
  rw [run_insert] at hRun
  cases hCells : cellsOf t value entries with
  | error e =>
      rw [hCells] at hRun
      cases hRun
  | ok cells =>
      rw [hCells] at hRun
      cases hRun
      exact
        .rowInserted (within_of_cellsOf hCells)
          (forall_of_cellsOf (fun _ raw c _ => hValue c raw)
            hCells)

theorem revises_insertLiterals
    (entries : List (String × String)) :
    Revises [] (insertLiterals entries) :=
  revises_insert (fun _ raw => .literal raw.toList) entries

theorem revises_insertEntered
    (entries : List (String × String)) :
    Revises [] (insertEntered entries) :=
  revises_insert (fun c raw => .coerced c raw) entries

theorem revises_updateLiterals
    (assignments : List Assignment)
    (condition : Option String) :
    Revises [] (updateLiterals assignments condition) := by
  intro t t' n hRun
  rw [run_updateLiterals] at hRun
  cases hChanges : changesOf t assignments with
  | error e =>
      rw [hChanges] at hRun
      cases hRun
  | ok changes =>
      cases hIds : t.selectedIds condition with
      | error e =>
          rw [hChanges, hIds] at hRun
          cases hRun
      | ok ids =>
          rw [hChanges, hIds] at hRun
          cases hRun
          refine .rowsChanged _ ?_ ?_
          · exact
              forall_of_mapM
                (fun _ _ hColumn =>
                  Table.mem_columnIds_of_columnNamed hColumn)
                hChanges
          · exact
              forall_of_mapM
                (fun a _ _ => .literal a.value.toList)
                hChanges

theorem revises_remove (ids : List RowId) :
    Revises [] (remove ids) := by
  intro t t' n hRun
  rw [run_remove] at hRun
  cases hRun
  exact .rowsRemoved ids

theorem revises_deleteSelected
    (condition : Option String) :
    Revises [] (deleteSelected condition) := by
  intro t t' n hRun
  rw [run_deleteSelected] at hRun
  cases hIds : t.selectedIds condition with
  | error e =>
      rw [hIds] at hRun
      cases hRun
  | ok ids =>
      rw [hIds] at hRun
      exact revises_remove _ hRun

theorem revises_updateEntered
    (id : RowId)
    (column raw : String) :
    Revises [] (updateEntered id column raw) := by
  intro t t' v hRun
  rw [run_updateEntered] at hRun
  cases hColumn : t.columnNamed column with
  | error e =>
      rw [hColumn] at hRun
      cases hRun
  | ok c =>
      cases hRow : t.row? id with
      | none =>
          rw [hColumn, hRow] at hRun
          cases hRun
      | some r =>
          rw [hColumn, hRow] at hRun
          cases hRun
          have hChanges :
              ∀ cell ∈ [(c.id, c.coerce raw)],
                cell.1 ∈ t.columnIds := by
            rw [List.forall_mem_singleton]
            exact Table.mem_columnIds_of_columnNamed hColumn
          have hValues :
              ∀ cell ∈ [(c.id, c.coerce raw)],
                cell.2.Entered := by
            rw [List.forall_mem_singleton]
            exact .coerced c raw
          exact .rowsChanged [id] hChanges hValues

theorem revises_deleteListed (ids : List RowId) :
    Revises [] (deleteListed ids) := by
  intro t t' n hRun
  rw [run_deleteListed] at hRun
  cases hMissing :
      ids.find? fun id => (t.row? id).isNone with
  | some id =>
      rw [hMissing] at hRun
      cases hRun
  | none =>
      rw [hMissing] at hRun
      exact revises_remove ids hRun

theorem revises_addDefinition
    {names : List String}
    {d : ColumnDefinition}
    (hName : d.name ∈ names)
    (isKey : Bool) :
    Revises names (addDefinition d isKey) := by
  intro t t' a hRun
  rw [run_addDefinition] at hRun
  cases hColumn : t.column? d.name with
  | some c =>
      rw [hColumn] at hRun
      cases hRun
  | none =>
      cases hType : DeclaredType.parse d.typeText with
      | none =>
          rw [hColumn, hType] at hRun
          cases hRun
      | some type =>
          rw [hColumn, hType] at hRun
          cases hRun
          exact .columnAdded hName hColumn hType _

theorem revises_dropColumn (name : String) :
    Revises [] (dropColumn name) := by
  intro t t' a hRun
  rw [run_dropColumn] at hRun
  cases hColumn : t.columnNamed name with
  | error e =>
      rw [hColumn] at hRun
      cases hRun
  | ok c =>
      rw [hColumn] at hRun
      cases hRun
      exact .columnRemoved c.id

------------------------------------------------------------
-- New Tables
------------------------------------------------------------

/- Edits one after the other are revisions one after the other. -/
theorem revised_of_forM
    {γ : Type}
    {names : List String}
    {edit : γ → Edit Unit}
    {items : List γ}
    (hRevises : ∀ c ∈ items, Revises names (edit c))
    {t t' : Table}
    {u : PUnit}
    (hRun : (items.forM edit).run.run t = (.ok u, t')) :
    Relation.ReflTransGen (Table.Revised names) t t' := by
  induction items generalizing t with
  | nil =>
      cases hRun
      exact .refl
  | cons item items ih =>
      change
        (edit item >>= fun _ => items.forM edit).run.run t =
          (.ok u, t') at hRun
      rw [run_bind] at hRun
      rcases hStep : (edit item).run.run t with
        ⟨_ | _, next⟩
      · rw [hStep] at hRun
        cases hRun
      · rw [hStep] at hRun
        rw [List.forall_mem_cons] at hRevises
        exact
          .head (hRevises.1 hStep) (ih hRevises.2 hRun)

/- A defined table is made from a new one by revisions. -/
theorem built_of_define
    {names : List String}
    {definitions : List ColumnDefinition}
    (hNames : ∀ d ∈ definitions, d.name ∈ names)
    {keys : List String}
    {id : TableId}
    {name : String}
    {u : Unit}
    {t : Table}
    (hRun :
      (define definitions keys).run.run
        (Table.new id name) = (.ok u, t)) :
    Table.Built names id name t := by
  unfold define at hRun
  rw [run_bind] at hRun
  rcases hAdded :
      (definitions.forM fun d =>
        addDefinition d
          (keys.any fun k => Text.sameName k d.name) :
        Edit PUnit).run.run (Table.new id name) with
    ⟨_ | _, filled⟩
  · rw [hAdded] at hRun
    cases hRun
  · have hBuilt : Table.Built names id name filled :=
      revised_of_forM
        (fun d hMember =>
          revises_addDefinition (hNames d hMember) _)
        hAdded
    rw [hAdded] at hRun
    simp only [run_bind, run_get] at hRun
    cases hMissing :
        keys.find? fun k => (filled.column? k).isNone with
    | some k =>
        rw [hMissing] at hRun
        cases hRun
    | none =>
        rw [hMissing] at hRun
        cases hRun
        exact hBuilt

end Edit

end Rowstore
