import Rowstore.Proofs.Session.Handling
import Rowstore.Proofs.Storage.Guarding
import Rowstore.Proofs.Workspace.Effects

/-
  Sessions over a backend that guards a property of
  collections: if revisions keep the property, then so does
  whatever a session is asked to do, in either mode, whether
  it succeeds or not.

  Main declarations:
    * `Collection.Lasts` and `Session.Request.Keeps`
    * `Session.safe_after_weakening`
    * `Session.safe_after`
-/

namespace Rowstore

/-
  The empty collection has a property, and revisions keep it
  if the names that they bring in can be quoted.
-/
structure Collection.Lasts (P : Collection → Prop) : Prop where
  empty : P .empty
  revised :
    ∀ {names : List String} {times : List Moment}
      {ids : List TableId} {s s' : Collection},
      (∀ name ∈ names, Quotable name) →
        s.Revised names times ids s' → P s → P s'

namespace Session

/- Whatever the request can make of a collection keeps a property. -/
def Request.Keeps
    (r : Request)
    (P : Collection → Prop) : Prop :=
  ∀ {s s' : Collection},
    s.Revised r.newNames r.times r.newTables s' → P s → P s'

theorem Request.keeps_of_lasts
    {P : Collection → Prop}
    (hLasts : Collection.Lasts P)
    (r : Request) :
    r.Keeps P :=
  hLasts.revised r.quotable_newNames

open Execution

variable {β : Type} [Backend β]
variable {P : Collection → Prop} {Safe : β → Prop}

/- The backend of the session has a property. -/
def Over
    (Safe : β → Prop)
    (s : Session β) : Prop :=
  Safe s.backend

------------------------------------------------------------
-- Calls And Settings
------------------------------------------------------------

omit [Backend β] in
theorem ensures_onBackend
    {α : Type}
    {call : Call β α}
    {Q : α → Prop}
    (hCall : Ensures Safe call Q) :
    Ensures (Over Safe) (onBackend call) Q := by
  intro s hSafe
  rcases hRun : call.run.run s.backend with ⟨answer, b⟩
  have hEnd := hCall s.backend hSafe
  rw [hRun] at hEnd
  rw [run_onBackend hRun]
  exact hEnd

omit [Backend β] in
theorem ensures_setDepth (n : Nat) :
    Ensures (Over Safe) (setDepth n) (fun _ => True) :=
  Ensures.of_modify fun _ hSafe => hSafe

omit [Backend β] in
theorem ensures_setSelection (id : Option DatabaseId) :
    Ensures (Over Safe) (setSelection id) (fun _ => True) :=
  Ensures.of_modify fun _ hSafe => hSafe

omit [Backend β] in
theorem ensures_notify (n : Notice) :
    Ensures (Over Safe) (notify n) (fun _ => True) :=
  Ensures.of_modify fun _ hSafe => hSafe

------------------------------------------------------------
-- Changes
------------------------------------------------------------

variable (hStores : Backend.Stores β P Safe)

include hStores

theorem ensures_beforeChange
    {current : Collection}
    (hCurrent : P current) :
    Ensures (Over Safe) (beforeChange current)
      (fun _ => True) := by
  apply Ensures.bind Ensures.of_get
  intro s _
  split
  · exact ensures_onBackend (hStores.push current hCurrent)
  · exact Ensures.of_pure trivial

theorem ensures_afterChange
    {previous : Collection}
    (hPrevious : P previous) :
    Ensures (Over Safe) (afterChange previous)
      (fun _ => True) := by
  apply Ensures.bind Ensures.of_get
  intro s _
  split
  · exact ensures_onBackend (hStores.push previous hPrevious)
  · exact Ensures.of_pure trivial

theorem ensures_settle
    {previous : Option Collection}
    (hPrevious : ∀ p ∈ previous, P p)
    {w : Workspace}
    (hWorkspace : P w.collection)
    (n : Notice) :
    Ensures (Over Safe) (settle previous w n)
      (fun _ => True) := by
  apply Ensures.bind
    (ensures_onBackend (hStores.save _ hWorkspace))
  intro _ _
  apply Ensures.bind (ensures_setSelection w.selection)
  intro _ _
  cases previous with
  | none => exact ensures_notify n
  | some p =>
      apply Ensures.bind
        (ensures_afterChange hStores (hPrevious p rfl))
      intro _ _
      exact ensures_notify n

/- What is made of the loaded collection has to have the property, too. -/
theorem ensures_changeLoaded
    {current : Collection}
    (hCurrent : P current)
    {α : Type}
    {names : List String}
    {times : List Moment}
    {ids : List TableId}
    (hMade :
      ∀ {s' : Collection},
        current.Revised names times ids s' → P s')
    {work : Work (α × Option Notice)}
    (hEffect : HasEffect names times ids work) :
    Ensures (Over Safe)
      (changeLoaded work current : Action β α)
      (fun _ => True) := by
  apply Ensures.bind (ensures_beforeChange hStores hCurrent)
  intro _ _
  apply Ensures.bind Ensures.of_get
  intro s _
  rcases hWork :
      work.run.run
        { collection := current
          selection := s.selection } with ⟨e | ⟨a, notice⟩, w⟩
  · simp only
    apply Ensures.bind
      (Ensures.of_lift (Q := fun _ => False)
        (fun _ hOk => by cases hOk))
    intro _ hFalse
    exact hFalse.elim
  · have hEnd : P w.collection := by
      cases hEffect hWork with
      | nothing => exact hCurrent
      | revised hRevised =>
          exact hMade hRevised
    simp only
    apply Ensures.bind
      (Ensures.of_lift (Q := fun answer =>
          answer = (a, notice))
        (fun _ hOk => by cases hOk; rfl))
    rintro _ rfl
    have hPrevious :
        ∀ p ∈ (if s.needsPrevious then some current
          else none), P p := by
      intro p hMem
      split at hMem
      · cases hMem
        exact hCurrent
      · cases hMem
    cases notice with
    | none =>
        apply Ensures.bind (ensures_setSelection w.selection)
        intro _ _
        exact Ensures.of_pure trivial
    | some n =>
        apply Ensures.bind
          (ensures_settle hStores hPrevious hEnd n)
        intro _ _
        exact Ensures.of_pure trivial

------------------------------------------------------------
-- Other Tasks
------------------------------------------------------------

theorem ensures_read
    (stamp : Stamp)
    (c : Command) :
    Ensures (Over Safe) (read stamp c : Action β QueryResult)
      (fun _ => True) := by
  apply Ensures.bind (ensures_onBackend hStores.load)
  intro current _
  apply Ensures.bind Ensures.of_get
  intro s _
  apply Ensures.bind (ensures_setSelection _)
  intro _ _
  apply Ensures.bind (Ensures.of_lift (Q := fun _ => True)
    (fun _ _ => trivial))
  intro o _
  exact Ensures.of_pure trivial

theorem ensures_choose (name : String) :
    Ensures (Over Safe) (choose name : Action β Unit)
      (fun _ => True) := by
  apply Ensures.bind (ensures_onBackend hStores.load)
  intro current _
  split
  · exact Ensures.of_throw _
  · exact ensures_setSelection _

theorem ensures_begin
    {current : Collection}
    (hCurrent : P current) :
    Ensures (Over Safe) (begin current) (fun _ => True) := by
  apply Ensures.bind
    (ensures_onBackend (hStores.push current hCurrent))
  intro _ _
  apply Ensures.bind Ensures.of_get
  intro s _
  apply Ensures.bind (ensures_setDepth _)
  intro _ _
  exact Ensures.of_pure trivial

theorem ensures_commit :
    Ensures (Over Safe) (commit : Action β String)
      (fun _ => True) := by
  apply Ensures.bind Ensures.of_get
  intro s _
  split
  · apply Ensures.bind (ensures_onBackend hStores.clear)
    intro _ _
    apply Ensures.bind (ensures_setDepth _)
    intro _ _
    exact Ensures.of_pure trivial
  · split
    · exact Ensures.of_pure trivial
    · apply Ensures.bind (ensures_onBackend hStores.pop)
      intro _ _
      apply Ensures.bind (ensures_setDepth _)
      intro _ _
      exact Ensures.of_pure trivial

theorem ensures_restore
    {snapshot : Collection}
    (hSnapshot : P snapshot) :
    Ensures (Over Safe) (restore snapshot)
      (fun _ => True) := by
  apply Ensures.bind
    (ensures_onBackend (hStores.save snapshot hSnapshot))
  intro _ _
  apply Ensures.bind Ensures.of_get
  intro s _
  split
  · exact ensures_notify _
  · exact ensures_setSelection _

/- Snapshots are put on the stack and taken off, but not stored. -/
theorem ensures_control_of_ne_rollback
    {c : Control}
    (hOther : c ≠ .rollback) :
    Ensures (Over Safe) (control c : Action β QueryResult)
      (fun _ => True) := by
  cases c with
  | begin =>
      apply Ensures.bind (ensures_onBackend hStores.load)
      intro current hCurrent
      apply Ensures.bind (ensures_begin hStores hCurrent)
      intro _ _
      exact Ensures.of_pure trivial
  | commit =>
      apply Ensures.bind (ensures_commit hStores)
      intro _ _
      exact Ensures.of_pure trivial
  | rollback => exact absurd rfl hOther

------------------------------------------------------------
-- Requests
------------------------------------------------------------

/-
  A request other than a rollback stores nothing but what is
  made of the collection that is loaded first.
-/
theorem safe_after_of_ne_rollback
    {s : Session β}
    (hSafe : Safe s.backend)
    {r : Request}
    (hOther : r.control? ≠ some .rollback)
    (hMade :
      ∀ {c c' : Collection} {b : β},
        (Backend.load : Call β Collection).run.run s.backend =
            (.ok c, b) →
          c.Revised r.newNames r.times r.newTables c' →
            P c') :
    Safe (s.after r).backend := by
  have hEnds
      (hEnsures :
        Ensures (Over Safe) (perform r.task : Action β Answer)
          (fun _ => True)) :
      Safe ((perform r.task).run.run s).2.backend :=
    (hEnsures s hSafe).1
  change Safe ((serve r).run.run s).2.backend
  rw [run_serve]
  cases hTask : r.task with
  | reject e => exact hSafe
  | control c =>
      rw [hTask] at hEnds
      apply hEnds
      have hControl : c ≠ .rollback := by
        rintro rfl
        exact hOther ((control?_eq_some_iff r _).mpr hTask)
      apply Ensures.bind
        (ensures_control_of_ne_rollback hStores hControl)
      intro _ _
      exact Ensures.of_pure trivial
  | read stamp c =>
      rw [hTask] at hEnds
      apply hEnds
      apply Ensures.bind (ensures_read hStores stamp c)
      intro _ _
      exact Ensures.of_pure trivial
  | change work =>
      have hLoad := ensures_onBackend hStores.load s hSafe
      change Safe ((change work).run.run s).2.backend
      unfold change
      rw [run_bind]
      rcases hCall :
        (Backend.load : Call β Collection).run.run s.backend
        with ⟨e | current, b⟩
      · rw [run_onBackend hCall] at hLoad ⊢
        exact hLoad.1
      · rw [run_onBackend hCall] at hLoad ⊢
        exact
          (ensures_changeLoaded hStores (hLoad.2 current rfl)
            (fun hRevised => hMade hCall hRevised)
            (hasEffect_of_task hTask) _ hLoad.1).1
  | choose name =>
      rw [hTask] at hEnds
      apply hEnds
      apply Ensures.bind (ensures_choose hStores name)
      intro _ _
      exact Ensures.of_pure trivial

omit hStores

------------------------------------------------------------
-- Rollbacks
------------------------------------------------------------

variable (hGuards : Backend.Guards β P Safe)

include hGuards

theorem ensures_takeBack :
    Ensures (Over Safe)
      (takeBack : Action β (Option Collection))
      (fun found => ∀ c ∈ found, P c) := by
  apply Ensures.bind (ensures_onBackend hGuards.pop)
  intro found hFound
  cases found with
  | none =>
      apply Ensures.bind (ensures_setDepth _)
      intro _ _
      exact Ensures.of_pure hFound
  | some c =>
      apply Ensures.bind Ensures.of_get
      intro s _
      apply Ensures.bind (ensures_setDepth _)
      intro _ _
      exact Ensures.of_pure hFound

theorem ensures_rollback :
    Ensures (Over Safe)
      (control .rollback : Action β QueryResult)
      (fun _ => True) := by
  apply Ensures.bind (ensures_takeBack hGuards)
  intro found hFound
  cases found with
  | none => exact Ensures.of_pure trivial
  | some snapshot =>
      apply Ensures.bind
        (ensures_restore hGuards.stores (hFound snapshot rfl))
      intro _ _
      exact Ensures.of_pure trivial

omit hGuards in
/-
  A request may turn a guarded property into a weaker one that
  is guarded as well: what it makes of a collection with the
  first property only needs to have the second one.
-/
theorem safe_after_weakening
    {P' : Collection → Prop}
    {Safe' : β → Prop}
    (hGuards : Backend.Guards β P Safe)
    (hGuards' : Backend.Guards β P' Safe')
    (hWeaker : ∀ b, Safe b → Safe' b)
    {r : Request}
    (hMade :
      ∀ {c c' : Collection},
        c.Revised r.newNames r.times r.newTables c' →
          P c → P' c')
    {s : Session β}
    (hSafe : Safe s.backend) :
    Safe' (s.after r).backend := by
  by_cases hRollback : r.control? = some .rollback
  · apply hWeaker
    change Safe ((serve r).run.run s).2.backend
    rw [run_serve, (control?_eq_some_iff r _).mp hRollback]
    have hEnsures :
        Ensures (Over Safe)
          (perform (.control .rollback) : Action β Answer)
          (fun _ => True) := by
      apply Ensures.bind (ensures_rollback hGuards)
      intro _ _
      exact Ensures.of_pure trivial
    exact (hEnsures s hSafe).1
  · apply
      safe_after_of_ne_rollback hGuards'.stores
        (hWeaker _ hSafe) hRollback
    intro c c' b hLoad hRevised
    have hLoaded := hGuards.load s.backend hSafe
    rw [hLoad] at hLoaded
    exact hMade hRevised (hLoaded.2 c rfl)

/- A guarded property outlasts every request that keeps it. -/
theorem safe_after
    {r : Request}
    (hKeeps : r.Keeps P)
    {s : Session β}
    (hSafe : Safe s.backend) :
    Safe (s.after r).backend :=
  safe_after_weakening hGuards hGuards (fun _ h => h) hKeeps
    hSafe

end Session

end Rowstore
