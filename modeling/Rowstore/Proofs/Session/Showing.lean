import Rowstore.Proofs.Session.Calls
import Rowstore.Proofs.Session.Guarding
import Rowstore.Proofs.Storage.Views

/-
  What is seen of the backend of a session.

  Snapshots, messages and settings do not change it.  A change
  stores what its work makes of the collection that is loaded
  first, so apart from rollbacks all that is seen later comes
  from what was seen before.

  Main declarations:
    * `Session.OfView`
    * `Session.leads_change_seen`
    * `Session.seen_after_of_ne_rollback`
-/

namespace Rowstore

open Execution

namespace Session

section

variable {β γ : Type}
variable {view : Collection → γ} {seen? : β → Option γ}

/- A property that depends on no more than what is seen and on the selection. -/
def OfView
    (seen? : β → Option γ)
    (P : Session β → Prop) : Prop :=
  ∀ s s', seen? s'.backend = seen? s.backend →
    s'.selection = s.selection → P s → P s'

------------------------------------------------------------
-- Calls And Settings
------------------------------------------------------------

/- What a call does to what is seen of its backend it does to that of the session. -/
theorem leads_onBackend
    {α : Type}
    {call : Call β α}
    {Q : Option γ → α → β → Prop}
    (hCall :
      ∀ seen,
        Leads (seen? · = seen) call (Q seen) (seen? · = seen))
    {P : Session β → Prop}
    {R : α → Session β → Prop}
    (hView : OfView seen? P)
    (hEnds :
      ∀ s a b, P s → Q (seen? s.backend) a b →
        R a { s with backend := b }) :
    Leads P (onBackend call) R P where
  ok := by
    intro s s' a hState hRun
    rcases hRan : call.run.run s.backend with ⟨answer, b⟩
    rw [run_onBackend hRan, Prod.mk.injEq] at hRun
    rcases hRun with ⟨rfl, rfl⟩
    exact hEnds s a b hState ((hCall _).ok rfl hRan)
  error := by
    intro s s' e hState hRun
    rcases hRan : call.run.run s.backend with ⟨answer, b⟩
    rw [run_onBackend hRan, Prod.mk.injEq] at hRun
    rcases hRun with ⟨rfl, rfl⟩
    exact hView s _ ((hCall _).error rfl hRan) rfl hState

/- A call that does not change what is seen keeps what depends on this only. -/
theorem leads_quietly
    {α : Type}
    {call : Call β α}
    (hCall :
      ∀ seen,
        Leads (seen? · = seen) call
          (fun _ => (seen? · = seen)) (seen? · = seen))
    {P : Session β → Prop}
    (hView : OfView seen? P) :
    Leads P (onBackend call) (fun _ => P) P := by
  apply leads_onBackend hCall hView
  exact fun s _ b hState hSame =>
    hView s _ hSame rfl hState

theorem leads_setDepth
    {P : Session β → Prop}
    (hView : OfView seen? P)
    (n : Nat) :
    Leads P (setDepth n) (fun _ => P) P := by
  apply Leads.of_modify
  exact fun s hState => hView s _ rfl rfl hState

theorem leads_notify
    {P : Session β → Prop}
    (hView : OfView seen? P)
    (n : Notice) :
    Leads P (notify n) (fun _ => P) P := by
  apply Leads.of_modify
  exact fun s hState => hView s _ rfl rfl hState

------------------------------------------------------------
-- Changes
------------------------------------------------------------

/- What is seen and what is selected, as they were. -/
structure Sees
    (seen? : β → Option γ)
    (seen : Option γ)
    (selection : Option DatabaseId)
    (s : Session β) : Prop where
  seen : seen? s.backend = seen
  selection : s.selection = selection

/- Nothing is seen that does not come from a collection. -/
def Stored
    (view : Collection → γ)
    (seen? : β → Option γ)
    (c : Collection)
    (s : Session β) : Prop :=
  ∀ x ∈ seen? s.backend, x = view c

theorem ofView_sees
    (seen : Option γ)
    (selection : Option DatabaseId) :
    OfView seen? (Sees seen? seen selection) :=
  fun _ _ hSeen hSelection hState =>
    { seen := hSeen.trans hState.seen
      selection := hSelection.trans hState.selection }

theorem ofView_stored (c : Collection) :
    OfView seen? (Stored view seen? c) := by
  intro s s' hSeen _ hStored
  unfold Stored
  rw [hSeen]
  exact hStored

variable [Backend β] [Backend.History β]
variable (hShows : Backend.Shows β view seen?)

include hShows

theorem leads_beforeChange
    {P : Session β → Prop}
    (hView : OfView seen? P)
    (c : Collection) :
    Leads P (beforeChange c) (fun _ => P) P := by
  apply Leads.bind Leads.of_get
  intro t
  split
  · exact
      (leads_quietly (fun seen => hShows.push seen c)
        hView).mono fun _ hState => hState.2
  · exact Leads.of_pure fun _ hState => hState.2

theorem leads_afterChange
    {P : Session β → Prop}
    (hView : OfView seen? P)
    (c : Collection) :
    Leads P (afterChange c) (fun _ => P) P := by
  apply Leads.bind Leads.of_get
  intro t
  split
  · exact
      (leads_quietly (fun seen => hShows.push seen c)
        hView).mono fun _ hState => hState.2
  · exact Leads.of_pure fun _ hState => hState.2

/- After a collection is stored, nothing is seen that does not come from it. -/
theorem leads_settle_stored
    (previous : Option Collection)
    (w : Workspace)
    (n : Notice) :
    Leads (fun _ => True)
      (settle previous w n : Action β Unit)
      (fun _ => Stored view seen? w.collection)
      (fun _ => True) := by
  have hView :
      OfView seen? (Stored view seen? w.collection) :=
    ofView_stored w.collection
  apply Leads.bind
    (Q := fun _ => Stored view seen? w.collection)
  · apply
      leads_onBackend (fun seen => hShows.save seen w.collection)
        fun _ _ _ _ _ => trivial
    exact fun _ _ _ _ hStored => hStored
  intro _
  apply Leads.bind
    (Q := fun _ => Stored view seen? w.collection)
  · apply Leads.of_modify
    exact fun _ hStored => hStored
  intro _
  have hNotify :=
    (leads_notify hView n).imp (fun _ _ hStored => hStored)
      fun _ _ => trivial
  cases previous with
  | none => exact hNotify
  | some p =>
      apply Leads.bind
        ((leads_afterChange hShows hView p).imp
          (fun _ _ hStored => hStored) fun _ _ => trivial)
      intro _
      exact hNotify

/-
  A change that succeeds does so because its work does, on
  the collection that is loaded; what is announced is stored.
-/
theorem leads_change_seen
    {α : Type}
    (work : Work (α × Option Notice))
    (seen : Option γ)
    (selection : Option DatabaseId) :
    Leads (Sees seen? seen selection)
      (change work : Action β α)
      (fun a s =>
        ∃ c w notice,
          seen = some (view c) ∧
            work.run.run
                { collection := c
                  selection := selection } =
              (.ok (a, notice), w) ∧
            (notice.isSome → Stored view seen? w.collection s))
      (fun _ => True) := by
  have hView : OfView seen? (Sees seen? seen selection) :=
    ofView_sees seen selection
  apply Leads.bind
    (Q := fun c s =>
      seen = some (view c) ∧ Sees seen? seen selection s)
  · refine
      (leads_onBackend hShows.load hView ?_).imp
        (fun _ _ hLoaded => hLoaded) fun _ _ => trivial
    rintro s c b hState ⟨hSame, hLoaded⟩
    exact
      ⟨hState.seen.symm.trans hLoaded,
        hView s _ hSame rfl hState⟩
  intro c
  apply Leads.assuming (p := seen = some (view c))
    fun _ hState => hState.1
  intro hLoaded
  apply Leads.bind
    (((leads_beforeChange hShows hView c).mono
      fun _ hState => hState.2).imp
        (fun _ _ hState => hState) fun _ _ => trivial)
  intro _
  apply Leads.bind Leads.of_get
  intro t
  apply Leads.assuming (p := t.selection = selection)
  · rintro _ ⟨rfl, hState⟩
    exact hState.selection
  rintro rfl
  rcases hWork :
      work.run.run
        { collection := c
          selection := t.selection } with ⟨e | ⟨a, notice⟩, w⟩
  · exact Leads.of_throw e fun _ _ => trivial
  apply Leads.bind
    (Q := fun answer _ => answer = (a, notice))
  · exact Leads.of_lift
      (fun _ hAnswer _ _ => by cases hAnswer; rfl)
      fun _ _ => trivial
  intro answer
  apply Leads.assuming (p := answer = (a, notice))
    fun _ hAnswer => hAnswer
  rintro rfl
  cases notice with
  | some n =>
      apply Leads.bind
        ((leads_settle_stored hShows _ w n).mono
          fun _ _ => trivial)
      intro _
      exact Leads.of_pure fun _ hStored =>
        ⟨c, w, some n, hLoaded, hWork, fun _ => hStored⟩
  | none =>
      apply Leads.bind (Q := fun _ _ => True)
      · exact Leads.of_modify fun _ _ => trivial
      · intro _
        exact Leads.of_pure fun _ _ =>
          ⟨c, w, none, hLoaded, hWork, fun hNone => by
            cases hNone⟩

------------------------------------------------------------
-- Requests
------------------------------------------------------------

/-
  After a request other than a rollback, what is seen of a
  backend is what was seen before it, or what is seen of a
  revision of the collection that was loaded.
-/
theorem seen_after_of_ne_rollback
    {s : Session β}
    {r : Request}
    (hOther : r.control? ≠ some .rollback)
    {x : γ}
    (hSeen : seen? (s.after r).backend = some x) :
    seen? s.backend = some x ∨
      ∃ c c',
        seen? s.backend = some (view c) ∧
          c.Revised r.newNames r.times r.newTables c' ∧
            view c' = x := by
  -- What is stored is seen as what was loaded, or as what was made of it.
  let P (c : Collection) : Prop :=
    seen? s.backend = some (view c) ∨
      ∃ c₀ c',
        seen? s.backend = some (view c₀) ∧
          c₀.Revised r.newNames r.times r.newTables c' ∧
            view c' = view c
  let F (seen : Option γ) : Prop :=
    seen = seen? s.backend ∨
      ∃ c, P c ∧ ∀ x ∈ seen, x = view c
  have hStores : Backend.Stores β P (fun b => F (seen? b)) := by
    apply hShows.stores
    · rintro c (hSame | ⟨c', hMade, hView⟩)
      · exact .inl hSame.symm
      · unfold P
        rw [hView _ rfl]
        exact hMade
    · exact fun c hMade seen hView => .inr ⟨c, hMade, hView⟩
  have hAfter : F (seen? (s.after r).backend) := by
    apply
      safe_after_of_ne_rollback hStores (.inl rfl) hOther
    intro c c' b hLoad hRevised
    have hLoaded := (hShows.load _).ok rfl hLoad
    exact .inr ⟨c, c', hLoaded.2, hRevised, rfl⟩
  rcases hAfter with hSame | ⟨c, hMade, hView⟩
  · exact .inl (hSame.symm.trans hSeen)
  · rw [hView x hSeen]
    exact hMade

end

end Session

end Rowstore
