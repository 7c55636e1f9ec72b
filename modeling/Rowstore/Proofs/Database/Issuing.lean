import Mathlib.Data.List.Flatten
import Rowstore.Proofs.Database.Document
import Rowstore.Proofs.Table.Issuing

/-
  What a revision of a collection does to the identifiers
  that its tables have given and have yet to give: at most
  one table moves on, is added or is removed with others.

  Main declarations:
    * `Outline.Follows`
    * `Collection.outlines` and
      `Collection.follows_of_revised`
    * `Collection.isKept_outlines`
    * `Collection.Registered` and
      `Collection.registered_of_revised`
-/

------------------------------------------------------------
-- Lists Of Outlines
------------------------------------------------------------

namespace Rowstore

namespace Outline

/- What the outlines of tables can become, and which tables can be new. -/
inductive Follows
    (ids : List TableId)
    (os : List Outline) : List Outline → Prop where
| advanced
    {before after : List Outline}
    {o o' : Outline}
    (hSplit : os = before ++ o :: after)
    (hAdvances : o.Advances o') :
    Follows ids os (before ++ o' :: after)
| added
    {before after : List Outline}
    {o : Outline}
    (hSplit : os = before ++ after)
    (hNew : o.id ∈ ids) :
    Follows ids os (before ++ o :: after)
| removed
    {os' : List Outline}
    (hSublist : os'.Sublist os) :
    Follows ids os os'

variable {ids tables : List TableId}
variable {os os' : List Outline}

namespace Follows

theorem refl (os : List Outline) : Follows ids os os :=
  .removed (List.Sublist.refl os)

/- Outlines may stand between others. -/
theorem between
    (hFollows : Follows ids os os')
    (first last : List Outline) :
    Follows ids (first ++ os ++ last)
      (first ++ os' ++ last) := by
  cases hFollows with
  | @advanced before after o o' hSplit hAdvances =>
      have hMoved :
          Follows ids (first ++ os ++ last)
            (first ++ before ++ o' :: (after ++ last)) :=
        advanced (by simp [hSplit]) hAdvances
      simpa using hMoved
  | @added before after o hSplit hNew =>
      have hMoved :
          Follows ids (first ++ os ++ last)
            (first ++ before ++ o :: (after ++ last)) :=
        added (by simp [hSplit]) hNew
      simpa using hMoved
  | removed hSublist =>
      exact
        removed
          (((List.Sublist.refl first).append hSublist).append
            (List.Sublist.refl last))

/- A table that was not there before is a new one. -/
theorem advances_or_new
    (hFollows : Follows ids os os')
    {o' : Outline}
    (hMem : o' ∈ os') :
    (∃ o ∈ os, o.Advances o') ∨ o'.id ∈ ids := by
  cases hFollows with
  | @advanced before after o o₁ hSplit hAdvances =>
      subst hSplit
      rcases List.mem_append.mp hMem with hMem | hMem
      · exact .inl ⟨o', List.mem_append_left _ hMem, .refl o'⟩
      rcases List.mem_cons.mp hMem with rfl | hMem
      · exact .inl ⟨o, by simp, hAdvances⟩
      · exact .inl ⟨o', by simp [hMem], .refl o'⟩
  | @added before after o hSplit hNew =>
      subst hSplit
      rcases List.mem_append.mp hMem with hMem | hMem
      · exact .inl ⟨o', List.mem_append_left _ hMem, .refl o'⟩
      rcases List.mem_cons.mp hMem with rfl | hMem
      · exact .inr hNew
      · exact .inl
          ⟨o', List.mem_append_right _ hMem, .refl o'⟩
  | removed hSublist =>
      exact .inl ⟨o', hSublist.subset hMem, .refl o'⟩

theorem known
    (hFollows : Follows ids os os')
    (hKnown : ∀ o ∈ os, o.id ∈ tables) :
    ∀ o' ∈ os', o'.id ∈ ids ++ tables := by
  intro o' hMem
  rcases hFollows.advances_or_new hMem with
    ⟨o, hOld, hAdvances⟩ | hNew
  · rw [hAdvances.id]
    exact List.mem_append_right _ (hKnown o hOld)
  · exact List.mem_append_left _ hNew

/- Tables stay distinct as long as new ones were not known. -/
theorem distinct
    (hFollows : Follows ids os os')
    (hKnown : ∀ o ∈ os, o.id ∈ tables)
    (hFresh : ∀ id ∈ ids, id ∉ tables)
    (hDistinct : (os.map Outline.id).Nodup) :
    (os'.map Outline.id).Nodup := by
  cases hFollows with
  | advanced hSplit hAdvances =>
      subst hSplit
      simpa only [List.map_append, List.map_cons,
        hAdvances.id] using hDistinct
  | @added before after o hSplit hNew =>
      subst hSplit
      rw [List.map_append, List.map_cons, List.nodup_middle,
        List.nodup_cons, ← List.map_append]
      refine ⟨?_, hDistinct⟩
      intro hMem
      rcases List.mem_map.mp hMem with ⟨u, hOld, hSame⟩
      apply hFresh o.id hNew
      rw [← hSame]
      exact hKnown u hOld
  | removed hSublist =>
      exact hDistinct.sublist (hSublist.map _)

end Follows

end Outline

end Rowstore

------------------------------------------------------------
-- Revisions
------------------------------------------------------------

namespace Rowstore

/- The outlines of the tables of a database. -/
def Database.outlines (d : Database) : List Outline :=
  d.tables.map Table.outline

/- The outlines of the tables of all databases. -/
def Collection.outlines (s : Collection) : List Outline :=
  s.databases.flatMap Database.outlines

variable {names : List String} {times : List Moment}
variable {ids : List TableId}

theorem Database.follows_of_revised
    {d d' : Database}
    (hRevised : d.Revised names times ids d') :
    Outline.Follows ids d.outlines d'.outlines := by
  cases hRevised with
  | @tableRevised name t t' hTable hTableRevised =>
      rcases updateFirst_split (fun _ => t') hTable with
        ⟨before, after, hTables, _, hUpdated⟩
      unfold outlines updateTable
      rw [hUpdated, hTables]
      simp only [List.map_append, List.map_cons]
      exact .advanced rfl
        (Table.advances_of_revised hTableRevised)
  | @tableAdded id hId t hName hNew hBuilt =>
      have hAdded : t.outline.id ∈ ids := by
        rw [show t.outline.id = t.id from rfl, hBuilt.id]
        exact hId
      unfold outlines addTable
      rw [List.map_append]
      exact .added (List.append_nil _).symm hAdded
  | tableRemoved name =>
      exact .removed (List.eraseP_sublist.map _)
  | @tableRenamed table name t hName hTable hFree =>
      have hSame :
          (d.updateTable table fun t =>
            { t with name := name }).outlines = d.outlines :=
        map_updateFirst (fun t => t.outline_renamed name) _
      rw [hSame]
      exact .refl _
  | permissionRecorded => exact .refl _

namespace Collection

theorem follows_of_revised
    {s s' : Collection}
    (hRevised : s.Revised names times ids s') :
    Outline.Follows ids s.outlines s'.outlines := by
  cases hRevised with
  | @databaseRevised id d d' hFind hDatabase =>
      rcases updateFirst_split (fun _ => d') hFind with
        ⟨before, after, hDatabases, _, hUpdated⟩
      unfold outlines update
      rw [hUpdated, hDatabases]
      simp only [List.flatMap_append, List.flatMap_cons,
        ← List.append_assoc]
      exact (Database.follows_of_revised hDatabase).between _ _
  | @databaseAdded name hName hNew id =>
      have hSame :
          (s.add (Database.new id name)).outlines =
            s.outlines := by
        unfold outlines add
        rw [List.flatMap_append]
        exact List.append_nil _
      rw [hSame]
      exact .refl _
  | databaseRemoved id =>
      exact .removed (List.eraseP_sublist.flatMap _)

------------------------------------------------------------
-- Documents
------------------------------------------------------------

/- Writing and reading a collection keeps the outlines. -/
theorem outlines_of_ofJson?
    {s s' : Collection}
    (hRead : ofJson? s.toJson = some s') :
    s'.outlines = s.outlines := by
  have hSame
      {d d' : Database}
      (hReread : d.Reread d') :
      d.outlines = d'.outlines :=
    Json.map_eq_of_forall₂
      (fun _ _ hTable => hTable.outline.symm) hReread.tables
  unfold outlines
  rw [List.flatMap_def, List.flatMap_def,
    Json.map_eq_of_forall₂ (fun _ _ hReread => hSame hReread)
      (forall₂_of_ofJson? hRead)]

end Collection

end Rowstore

------------------------------------------------------------
-- Registered Tables
------------------------------------------------------------

namespace Rowstore

/- The identifiers in a list of outlines. -/
def Outline.issuesOf (os : List Outline) : List Issue :=
  os.flatMap issues

namespace Collection

/- The tables are identified, and they are distinct ones of a list. -/
structure Registered
    (tables : List TableId)
    (s : Collection) : Prop where
  identified : s.Identified
  distinct : (s.outlines.map Outline.id).Nodup
  known : ∀ o ∈ s.outlines, o.id ∈ tables

variable {tables : List TableId} {s s' : Collection}

theorem registered_empty (tables : List TableId) :
    Collection.empty.Registered tables where
  identified := identified_empty
  distinct := List.nodup_nil
  known := fun _ hMem => by cases hMem

theorem Registered.mono
    (hRegistered : s.Registered tables)
    {tables' : List TableId}
    (hTables : tables ⊆ tables') :
    s.Registered tables' where
  identified := hRegistered.identified
  distinct := hRegistered.distinct
  known := fun o hMem => hTables (hRegistered.known o hMem)

/- Tables that are created under new identifiers are registered besides the others. -/
theorem registered_of_revised
    {names : List String}
    {times : List Moment}
    {ids : List TableId}
    (hRevised : s.Revised names times ids s')
    (hFresh : ∀ id ∈ ids, id ∉ tables)
    (hRegistered : s.Registered tables) :
    s'.Registered (ids ++ tables) where
  identified :=
    identified_of_revised hRevised hRegistered.identified
  distinct :=
    (follows_of_revised hRevised).distinct hRegistered.known
      hFresh hRegistered.distinct
  known := (follows_of_revised hRevised).known hRegistered.known

theorem rereads_registered (tables : List TableId) :
    Rereads (Registered tables) := by
  intro s s' hRead hRegistered
  have hSame := outlines_of_ofJson? hRead
  exact
    { identified :=
        rereads_identified s s' hRead hRegistered.identified
      distinct := by
        rw [hSame]
        exact hRegistered.distinct
      known := by
        rw [hSame]
        exact hRegistered.known }

namespace Registered

variable {o o' : Outline}

theorem isSound
    (hRegistered : s.Registered tables)
    (hMem : o ∈ s.outlines) :
    o.IsSound := by
  rcases List.mem_flatMap.mp hMem with
    ⟨d, hDatabase, hOutline⟩
  rcases List.mem_map.mp hOutline with ⟨t, hTable, rfl⟩
  exact (hRegistered.identified d hDatabase t hTable).isSound

theorem eq_of_id_eq
    (hRegistered : s.Registered tables)
    (hMem : o ∈ s.outlines)
    (hMem' : o' ∈ s.outlines)
    (hSame : o.id = o'.id) :
    o = o' :=
  List.inj_on_of_nodup_map hRegistered.distinct hMem hMem'
    hSame

/- No table has yet to give an identifier that a column or a row has. -/
theorem not_mayIssue
    (hRegistered : s.Registered tables)
    {i : Issue}
    (hIssue : i ∈ Outline.issuesOf s.outlines)
    (hMem : o ∈ s.outlines) :
    ¬o.MayIssue i := by
  intro hMay
  rcases List.mem_flatMap.mp hIssue with ⟨o', hOther, hHas⟩
  have hSame : o' = o :=
    hRegistered.eq_of_id_eq hOther hMem
      ((Outline.table_of_mem_issues hHas).symm.trans
        (Outline.table_of_mayIssue hMay))
  subst hSame
  exact (hRegistered.isSound hMem).past i hHas hMay

theorem table_mem
    (hRegistered : s.Registered tables)
    {i : Issue}
    (hIssue : i ∈ Outline.issuesOf s.outlines) :
    i.table ∈ tables := by
  rcases List.mem_flatMap.mp hIssue with ⟨o, hMem, hHas⟩
  rw [Outline.table_of_mem_issues hHas]
  exact hRegistered.known o hMem

theorem nodup_issues
    (hRegistered : s.Registered tables) :
    (Outline.issuesOf s.outlines).Nodup := by
  unfold Outline.issuesOf
  rw [List.nodup_flatMap]
  refine
    ⟨fun o hMem => (hRegistered.isSound hMem).distinct, ?_⟩
  have hIds := List.pairwise_map.mp hRegistered.distinct
  refine hIds.imp ?_
  intro o o' hOther i hHas hHas'
  apply hOther
  rw [← Outline.table_of_mem_issues hHas,
    ← Outline.table_of_mem_issues hHas']

end Registered

end Collection

end Rowstore
