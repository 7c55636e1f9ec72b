import Rowstore.Proofs.Session.Invariants
import Rowstore.Proofs.Session.Showing
import Rowstore.Proofs.Workspace.Reading
import Rowstore.Proofs.Workspace.Reports

/-
  A selected database is there.  If no other session writes to
  its backend, then after every request of a session the
  selected identifier, if there is one, is that of a database
  which the backend loads, whichever calls failed.

  The selection and the collection change at different moments
  of a request.  What carries the proof is that a collection
  is stored before the selection that belongs to it is taken
  over, and that nothing fails between the two.

  Main declarations:
    * `Workspace.Anchored`
    * `Session.Anchored` and `Session.anchored_after`
    * `Session.Ongoing`
    * `Session.selection_is_present`
-/

------------------------------------------------------------
-- Workspaces
------------------------------------------------------------

namespace Rowstore

namespace Workspace

/- The selected database, if there is one, is in the collection. -/
def Anchored (w : Workspace) : Prop :=
  ∀ id ∈ w.selection, id ∈ w.collection.ids

/- Work that announces what it does leaves a selected database in the collection. -/
theorem anchored_of_reported
    {fresh : List DatabaseId}
    {notice : Option Notice}
    {w w' : Workspace}
    (hReported : Work.Reported fresh w notice w')
    (hAnchored : w.Anchored) :
    w'.Anchored := by
  cases hReported with
  | nothing => exact hAnchored
  | changed hChange hActive hSame =>
      unfold Anchored
      rw [hSame.selection, hSame.ids]
      exact hAnchored
  | created hNew name =>
      rintro _ ⟨⟩
      rw [Collection.ids_add]
      exact List.mem_append_right _ List.mem_cons_self
  | dropped hStored =>
      rename_i d
      intro id hSelected
      simp only [Option.mem_def] at hSelected
      split at hSelected
      · cases hSelected
      · rename_i hOther
        have hNe : id ≠ d.id := by
          rintro rfl
          exact hOther hSelected
        rw [Collection.ids_remove, List.mem_erase_of_ne hNe]
        exact hAnchored id hSelected

/- So does a command that only selects. -/
theorem anchored_execute_of_not_mutating
    (stamp : Stamp)
    {c : Command}
    (hReads : c.isMutating = false)
    {w : Workspace}
    (hAnchored : w.Anchored) :
    ((Work.execute stamp c).run.run w).2.Anchored := by
  rcases Work.reads_execute_of_not_mutating stamp hReads with
    hExecute | ⟨name, rfl⟩
  · rw [hExecute w]
    exact hAnchored
  · rw [show Work.execute stamp (.use name) =
      Work.useDatabase name from rfl, Work.run_useDatabase]
    cases hFind : w.collection.findByName? name with
    | none => exact hAnchored
    | some d =>
        rintro _ ⟨⟩
        exact Collection.mem_ids_of_findByName? hFind

end Workspace

end Rowstore

------------------------------------------------------------
-- Sessions
------------------------------------------------------------

namespace Rowstore

open Execution

namespace Session

section

variable {β : Type} [Backend β] [Backend.History β]
variable {ids? : β → Option (List DatabaseId)}

/- The selected database, if there is one, is among those that the backend lists. -/
def Anchored
    (ids? : β → Option (List DatabaseId))
    (s : Session β) : Prop :=
  ∀ ids ∈ ids? s.backend, ∀ id ∈ s.selection, id ∈ ids

/- Besides, the backend lists the databases of a collection. -/
def Holding
    (ids? : β → Option (List DatabaseId))
    (c : Collection)
    (s : Session β) : Prop :=
  ids? s.backend = some c.ids ∧ s.Anchored ids?

omit [Backend β] [Backend.History β] in
theorem ofView_anchored :
    OfView ids? (Anchored ids?) := by
  intro s s' hIds hSelection hAnchored
  unfold Anchored
  rw [hIds, hSelection]
  exact hAnchored

omit [Backend β] [Backend.History β] in
theorem ofView_holding (c : Collection) :
    OfView ids? (Holding ids? c) := by
  rintro s s' hIds hSelection ⟨hListed, hAnchored⟩
  exact
    ⟨hIds.trans hListed,
      ofView_anchored s s' hIds hSelection hAnchored⟩

------------------------------------------------------------
-- Calls
------------------------------------------------------------

variable (hShows : Backend.Shows β Collection.ids ids?)

include hShows

/- What is loaded has the selected database. -/
theorem leads_load :
    Leads (Anchored ids?)
      (onBackend Backend.load : Action β Collection)
      (fun c => Holding ids? c) (Anchored ids?) := by
  apply leads_onBackend hShows.load ofView_anchored
  rintro s c b hAnchored ⟨hSame, hListed⟩
  exact
    ⟨hSame.trans hListed,
      ofView_anchored s _ hSame rfl hAnchored⟩

/- After a collection is stored no others than its databases are listed. -/
theorem leads_save (c : Collection) :
    Leads (Anchored ids?)
      (onBackend (Backend.save c) : Action β Unit)
      (fun _ s => ∀ listed ∈ ids? s.backend, listed = c.ids)
      (Anchored ids?) := by
  apply
    leads_onBackend (fun ids => hShows.save ids c)
      ofView_anchored
  exact fun _ _ _ _ hStored => hStored

------------------------------------------------------------
-- Changes
------------------------------------------------------------

/- The selection of a workspace is only taken over after its collection is stored. -/
theorem leads_settle
    (previous : Option Collection)
    {w : Workspace}
    (hAnchored : w.Anchored)
    (n : Notice) :
    Leads (Anchored ids?)
      (settle previous w n : Action β Unit)
      (fun _ => Anchored ids?) (Anchored ids?) := by
  apply Leads.bind (leads_save hShows w.collection)
  intro _
  apply Leads.bind (Q := fun _ => Anchored ids?)
  · apply Leads.of_modify
    intro s hStored ids hListed
    rw [hStored ids hListed]
    exact hAnchored
  · intro _
    cases previous with
    | none => exact leads_notify ofView_anchored n
    | some c =>
        apply Leads.bind (leads_afterChange hShows ofView_anchored c)
        intro _
        exact leads_notify ofView_anchored n

theorem leads_change
    {α : Type}
    {fresh : List DatabaseId}
    {work : Work (α × Option Notice)}
    (hReports : Work.Reports fresh Prod.snd work) :
    Leads (Anchored ids?) (change work : Action β α)
      (fun _ => Anchored ids?) (Anchored ids?) := by
  apply Leads.bind (leads_load hShows)
  intro c
  apply Leads.bind
    ((leads_beforeChange hShows (ofView_holding c) c).imp
      (fun _ _ hState => hState) fun _ hState => hState.2)
  intro _
  apply Leads.bind Leads.of_get
  intro t
  -- The session is the one whose selection the work is given.
  apply Leads.assuming
    (p :=
      Workspace.Anchored
        { collection := c
          selection := t.selection })
  · rintro _ ⟨rfl, hListed, hAnchored⟩
    exact hAnchored c.ids hListed
  intro hBefore
  rcases hWork :
      work.run.run
        { collection := c
          selection := t.selection } with ⟨e | ⟨a, notice⟩, w⟩
  · exact Leads.of_throw e fun _ hState => hState.2.2
  apply Leads.bind
    (Q := fun answer s =>
      answer = (a, notice) ∧ t = s ∧ Holding ids? c s)
  · apply Leads.of_lift
    · rintro _ ⟨⟩ s hState
      exact ⟨rfl, hState⟩
    · exact fun _ hState => hState.2.2
  intro answer
  apply Leads.assuming (p := answer = (a, notice))
    fun _ hState => hState.1
  rintro rfl
  have hReported := (hReports _).ok rfl hWork
  have hAfter : w.Anchored :=
    Workspace.anchored_of_reported hReported hBefore
  cases notice with
  | some n =>
      apply Leads.bind
        ((leads_settle hShows _ hAfter n).mono
          fun _ hState => hState.2.2.2)
      intro _
      exact Leads.of_pure fun _ hState => hState
  | none =>
      apply Leads.bind (Q := fun _ => Anchored ids?)
      · apply Leads.of_modify
        rintro _ ⟨_, rfl, hListed, hAnchored⟩
        cases hReported
        exact hAnchored
      · intro _
        exact Leads.of_pure fun _ hState => hState

------------------------------------------------------------
-- Other Tasks
------------------------------------------------------------

theorem leads_read
    (stamp : Stamp)
    {c : Command}
    (hReads : c.isMutating = false) :
    Leads (Anchored ids?)
      (read stamp c : Action β QueryResult)
      (fun _ => Anchored ids?) (Anchored ids?) := by
  apply Leads.bind (leads_load hShows)
  intro current
  apply Leads.bind Leads.of_get
  intro t
  rcases hWork :
      (Work.execute stamp c).run.run
        { collection := current
          selection := t.selection } with ⟨answer, w⟩
  apply Leads.bind (Q := fun _ => Anchored ids?)
  · apply Leads.of_modify
    rintro _ ⟨rfl, hListed, hAnchored⟩ ids hIds
    have hCollection :=
      Work.collection_execute_of_not_mutating stamp hReads
        { collection := current
          selection := t.selection }
    have hAfter :=
      Workspace.anchored_execute_of_not_mutating stamp hReads
        (w :=
          { collection := current
            selection := t.selection })
        (hAnchored current.ids hListed)
    rw [hWork] at hCollection hAfter
    unfold Workspace.Anchored at hAfter
    rw [hCollection] at hAfter
    have hSame : some current.ids = some ids :=
      hListed.symm.trans hIds
    cases hSame
    exact hAfter
  · intro _
    apply Leads.bind
      (Leads.of_lift (fun _ _ _ hState => hState)
        fun _ hState => hState)
    intro o
    exact Leads.of_pure fun _ hState => hState

theorem leads_choose (name : String) :
    Leads (Anchored ids?) (choose name : Action β Unit)
      (fun _ => Anchored ids?) (Anchored ids?) := by
  apply Leads.bind (leads_load hShows)
  intro current
  cases hFind : current.findByName? name with
  | none => exact Leads.of_throw _ fun _ hState => hState.2
  | some d =>
      apply Leads.of_modify
      rintro s ⟨hListed, _⟩ ids hIds _ ⟨⟩
      have hSame : some current.ids = some ids :=
        hListed.symm.trans hIds
      cases hSame
      exact Collection.mem_ids_of_findByName? hFind

theorem leads_begin (c : Collection) :
    Leads (Anchored ids?) (begin c)
      (fun _ => Anchored ids?) (Anchored ids?) := by
  apply Leads.bind
    (leads_quietly (fun ids => hShows.push ids c)
      ofView_anchored)
  intro _
  apply Leads.bind Leads.of_get
  intro t
  apply Leads.bind
    ((leads_setDepth ofView_anchored _).mono
      fun _ hState => hState.2)
  intro _
  exact Leads.of_pure fun _ hState => hState

theorem leads_commit :
    Leads (Anchored ids?) (commit : Action β String)
      (fun _ => Anchored ids?) (Anchored ids?) := by
  apply Leads.bind Leads.of_get
  intro t
  apply Leads.mono (P := Anchored ids?) _
    fun _ hState => hState.2
  split
  · apply Leads.bind
      (leads_quietly hShows.clear ofView_anchored)
    intro _
    apply Leads.bind (leads_setDepth ofView_anchored 0)
    intro _
    exact Leads.of_pure fun _ hState => hState
  · split
    · exact Leads.of_pure fun _ hState => hState
    · apply Leads.bind
        (leads_quietly hShows.pop ofView_anchored)
      intro _
      apply Leads.bind (leads_setDepth ofView_anchored _)
      intro _
      exact Leads.of_pure fun _ hState => hState

theorem leads_takeBack :
    Leads (Anchored ids?)
      (takeBack : Action β (Option Collection))
      (fun _ => Anchored ids?) (Anchored ids?) := by
  apply Leads.bind
    (leads_quietly hShows.pop ofView_anchored)
  intro found
  cases found with
  | none =>
      apply Leads.bind (leads_setDepth ofView_anchored 0)
      intro _
      exact Leads.of_pure fun _ hState => hState
  | some c =>
      apply Leads.bind Leads.of_get
      intro t
      apply Leads.bind
        ((leads_setDepth ofView_anchored _).mono
          fun _ hState => hState.2)
      intro _
      exact Leads.of_pure fun _ hState => hState

/- A snapshot that is gone back to has the selected database, or nothing is selected. -/
theorem leads_restore (c : Collection) :
    Leads (Anchored ids?) (restore c)
      (fun _ => Anchored ids?) (Anchored ids?) := by
  apply Leads.bind (leads_save hShows c)
  intro _
  apply Leads.bind Leads.of_get
  intro t
  cases hActive : t.selection.bind c.get? with
  | none =>
      apply Leads.of_modify
      rintro _ _ ids _ _ ⟨⟩
  | some d =>
      rcases Option.bind_eq_some_iff.mp hActive with
        ⟨id, hSelection, hFind⟩
      apply (leads_notify ofView_anchored _).mono
      rintro _ ⟨rfl, hStored⟩ ids hIds id' hSelected
      rw [hStored ids hIds]
      have hSame : some id = some id' :=
        hSelection.symm.trans hSelected
      cases hSame
      exact Collection.mem_ids_of_get? hFind

theorem leads_control (c : Control) :
    Leads (Anchored ids?) (control c : Action β QueryResult)
      (fun _ => Anchored ids?) (Anchored ids?) := by
  cases c with
  | begin =>
      apply Leads.bind (leads_load hShows)
      intro current
      apply Leads.bind
        ((leads_begin hShows current).mono
          fun _ hState => hState.2)
      intro _
      exact Leads.of_pure fun _ hState => hState
  | commit =>
      apply Leads.bind (leads_commit hShows)
      intro _
      exact Leads.of_pure fun _ hState => hState
  | rollback =>
      apply Leads.bind (leads_takeBack hShows)
      intro found
      cases found with
      | none => exact Leads.of_pure fun _ hState => hState
      | some c =>
          apply Leads.bind (leads_restore hShows c)
          intro _
          exact Leads.of_pure fun _ hState => hState

------------------------------------------------------------
-- Requests
------------------------------------------------------------

/- Whatever is asked, and whatever fails, a selected database is listed. -/
theorem anchored_after
    {s : Session β}
    (hAnchored : s.Anchored ids?)
    (r : Request) :
    (s.after r).Anchored ids? := by
  unfold after handle
  rw [run_serve]
  apply Leads.keeps _ hAnchored
  cases hTask : r.task with
  | reject e => exact Leads.of_throw e fun _ hState => hState
  | control c =>
      apply Leads.bind (leads_control hShows c)
      intro _
      exact Leads.of_pure fun _ hState => hState
  | read stamp c =>
      apply Leads.bind
        (leads_read hShows stamp
          (isMutating_eq_false_of_task hTask))
      intro _
      exact Leads.of_pure fun _ hState => hState
  | change work =>
      exact leads_change hShows (reports_of_task hTask)
  | choose name =>
      apply Leads.bind (leads_choose hShows name)
      intro _
      exact Leads.of_pure fun _ hState => hState

omit hShows

/-
  A session over any backend, in either mode; a session after
  a request; and a session to whose backend happened what can
  happen to it without being called, such as a fault.  No
  other session calls the backend.
-/
inductive Ongoing : Session β → Prop where
| opened
    (b : β)
    (mode : Mode) :
    Ongoing (Session.new b mode)
| served
    {s : Session β}
    (hOngoing : s.Ongoing)
    (r : Request) :
    Ongoing (s.after r)
| resumed
    {s : Session β}
    (hOngoing : s.Ongoing)
    {b : β}
    (hResumes : Backend.History.Resumes s.backend b) :
    Ongoing { s with backend := b }

theorem anchored_of_ongoing
    (hShows : Backend.Shows β Collection.ids ids?)
    {s : Session β}
    (hOngoing : s.Ongoing) :
    s.Anchored ids? := by
  induction hOngoing with
  | opened b mode =>
      rintro _ _ _ ⟨⟩
  | served _ r ih => exact anchored_after hShows ih r
  | resumed _ hResumes ih =>
      exact
        ofView_anchored _ _ (hShows.resumes hResumes) rfl ih

end

------------------------------------------------------------
-- In Memory Or In A Directory
------------------------------------------------------------

/- Nothing is selected, or a database that the backend loads. -/
theorem selection_is_present
    {s : Session (Outage Depot)}
    (hOngoing : s.Ongoing)
    {c : Collection}
    (hLoaded : s.backend.backend.loaded? = some c) :
    s.selection = none ∨
      ∃ id, s.selection = some id ∧ c.contains id = true := by
  have hAnchored :=
    anchored_of_ongoing
      (Outage.shows (Depot.shows Collection.ids_of_ofJson?))
      hOngoing
  cases hSelection : s.selection with
  | none => exact .inl rfl
  | some id =>
      refine .inr ⟨id, rfl, ?_⟩
      have hListed :
          s.backend.backend.seen? Collection.ids =
            some c.ids := by
        rw [Depot.seen?_eq, hLoaded]
        rfl
      have hMem := hAnchored c.ids hListed id hSelection
      unfold Collection.contains
      rw [Option.isSome_iff_ne_none]
      intro hNone
      exact Collection.get?_eq_none_iff.mp hNone hMem

/-
  Snapshots cannot be written, so that the creation of a
  database fails; the database is there and selected.
-/
theorem failed_creation_is_present :
    let f : Folder :=
      { directory :=
          Directory.empty.setFault Folder.snapshotsFile
            (some
              { step := .write
                detail := "disk full" })
        options := .testing "data"
        stack := [] }
    let r := Request.statement epoch "CREATE DATABASE d"
    let s := onDepot (.folder f) .scoped
    (s.handle r).1 = .error (.io "disk full") ∧
      ∃ c, (s.after r).backend.backend.loaded? = some c ∧
        ((s.after r).selection = none ∨
          ∃ id,
            (s.after r).selection = some id ∧
              c.contains id = true) ∧
        (s.after r).selection ≠ none := by
  intro f r s
  have hOngoing : (s.after r).Ongoing :=
    .served (.opened _ .scoped) r
  have hFailed :
      (s.handle r).1 = .error (.io "disk full") := by
    decide +kernel
  have hLoaded :
      (s.after r).backend.backend.loaded?.isSome = true := by
    decide +kernel
  have hSelected : (s.after r).selection ≠ none := by
    decide +kernel
  rcases Option.isSome_iff_exists.mp hLoaded with ⟨c, hLoaded⟩
  exact
    ⟨hFailed, c, hLoaded,
      selection_is_present hOngoing hLoaded, hSelected⟩

end Session

end Rowstore
