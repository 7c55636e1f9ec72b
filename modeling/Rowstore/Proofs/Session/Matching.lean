import Rowstore.Proofs.Session.Handling
import Rowstore.Storage.Folder

/-
  Sessions over two backends that agree: the calls of both
  have the same answers, and keep the backends related.  Then
  the sessions have the same answers too, and stay alike, in
  whatever they are asked.

  A relation between backends need not be enough for loading
  and for taking back a snapshot; what these need besides is
  a condition on the state in which a request is made.

  Main declarations:
    * `Backend.Agree`
    * `Session.Alike` and `Session.matches_serve`
    * `Session.Step` and `Session.before`
    * `Session.alike_before`
-/

namespace Rowstore

open Execution

/-
  Two backends agree if related ones stay related and have
  the same answers.  Of a snapshot that is only discarded the
  answers may differ.
-/
structure Backend.Agree
    {β γ : Type}
    [Backend β]
    [Backend γ]
    (R Loads Pops : β → γ → Prop)
    (P : Collection → Prop) : Prop where
  load :
    Matches (fun b c => R b c ∧ Loads b c) R
      (Backend.load : Call β Collection)
      (Backend.load : Call γ Collection)
      (fun s t => s = t ∧ P s)
  save :
    ∀ s,
      Matches R R (Backend.save s : Call β Unit)
        (Backend.save s : Call γ Unit) (fun _ _ => True)
  push :
    ∀ s, P s →
      Matches R R (Backend.push s : Call β Unit)
        (Backend.push s : Call γ Unit) (fun _ _ => True)
  pop :
    Matches (fun b c => R b c ∧ Pops b c) R
      (Backend.pop : Call β (Option Collection))
      (Backend.pop : Call γ (Option Collection)) (· = ·)
  discard :
    Matches R R (Backend.pop : Call β (Option Collection))
      (Backend.pop : Call γ (Option Collection))
      (fun _ _ => True)
  clear :
    Matches R R (Backend.clear : Call β Unit)
      (Backend.clear : Call γ Unit) (fun _ _ => True)

namespace Session

variable {β γ : Type} {R S : β → γ → Prop}

/- Two sessions are alike if all but their backends is the same. -/
structure Alike
    (R : β → γ → Prop)
    (s : Session β)
    (t : Session γ) : Prop where
  backend : R s.backend t.backend
  mode : s.mode = t.mode
  depth : s.depth = t.depth
  selection : s.selection = t.selection
  notices : s.notices = t.notices

theorem Alike.mono
    {s : Session β}
    {t : Session γ}
    (hAlike : Alike R s t)
    (hWeaker : R s.backend t.backend → S s.backend t.backend) :
    Alike S s t where
  backend := hWeaker hAlike.backend
  mode := hAlike.mode
  depth := hAlike.depth
  selection := hAlike.selection
  notices := hAlike.notices

------------------------------------------------------------
-- Calls And Settings
------------------------------------------------------------

theorem matches_onBackend
    {α α' : Type}
    {x : Call β α}
    {y : Call γ α'}
    {Q : α → α' → Prop}
    (hCalls : Matches R S x y Q) :
    Matches (Alike R) (Alike S) (onBackend x) (onBackend y)
      Q := by
  intro s t hAlike
  rcases hLeft : x.run.run s.backend with ⟨answer, b⟩
  rcases hRight : y.run.run t.backend with ⟨answer', c⟩
  have hEnd := hCalls s.backend t.backend hAlike.backend
  rw [hLeft, hRight] at hEnd
  rw [run_onBackend hLeft, run_onBackend hRight]
  exact
    ⟨{ backend := hEnd.1
       mode := hAlike.mode
       depth := hAlike.depth
       selection := hAlike.selection
       notices := hAlike.notices }, hEnd.2⟩

theorem matches_setDepth
    {n m : Nat}
    (hSame : n = m) :
    Matches (Alike R) (Alike R) (setDepth n) (setDepth m)
      (fun _ _ => True) := by
  apply Matches.of_modify
  intro s t hAlike
  exact
    { backend := hAlike.backend
      mode := hAlike.mode
      depth := hSame
      selection := hAlike.selection
      notices := hAlike.notices }

theorem matches_setSelection (id : Option DatabaseId) :
    Matches (Alike R) (Alike R) (setSelection id)
      (setSelection id) (fun _ _ => True) := by
  apply Matches.of_modify
  intro s t hAlike
  exact
    { backend := hAlike.backend
      mode := hAlike.mode
      depth := hAlike.depth
      selection := rfl
      notices := hAlike.notices }

theorem matches_notify (n : Notice) :
    Matches (Alike R) (Alike R) (notify n) (notify n)
      (fun _ _ => True) := by
  apply Matches.of_modify
  intro s t hAlike
  exact
    { backend := hAlike.backend
      mode := hAlike.mode
      depth := hAlike.depth
      selection := hAlike.selection
      notices := by
        change s.notices ++ [n] = t.notices ++ [n]
        rw [hAlike.notices] }

theorem Alike.needsPrevious
    {s : Session β}
    {t : Session γ}
    (hAlike : Alike R s t) :
    s.needsPrevious = t.needsPrevious := by
  unfold Session.needsPrevious
  rw [hAlike.mode, hAlike.depth]

------------------------------------------------------------
-- Changes
------------------------------------------------------------

variable [Backend β] [Backend γ]
variable {Loads Pops : β → γ → Prop} {P : Collection → Prop}
variable (hAgree : Backend.Agree R Loads Pops P)

include hAgree

theorem matches_load :
    Matches (Alike fun b c => R b c ∧ Loads b c) (Alike R)
      (onBackend Backend.load : Action β Collection)
      (onBackend Backend.load : Action γ Collection)
      (fun s t => s = t ∧ P s) :=
  matches_onBackend hAgree.load

theorem matches_beforeChange
    {current : Collection}
    (hCurrent : P current) :
    Matches (Alike R) (Alike R)
      (beforeChange current : Action β Unit)
      (beforeChange current : Action γ Unit)
      (fun _ _ => True) := by
  apply Matches.bind Matches.of_get
  intro s t hAlike
  rw [hAlike.mode]
  split
  · exact matches_onBackend (hAgree.push current hCurrent)
  · exact Matches.of_pure trivial

theorem matches_afterChange
    {previous : Collection}
    (hPrevious : P previous) :
    Matches (Alike R) (Alike R)
      (afterChange previous : Action β Unit)
      (afterChange previous : Action γ Unit)
      (fun _ _ => True) := by
  apply Matches.bind Matches.of_get
  intro s t hAlike
  rw [hAlike.needsPrevious]
  split
  · exact matches_onBackend (hAgree.push previous hPrevious)
  · exact Matches.of_pure trivial

theorem matches_settle
    {previous : Option Collection}
    (hPrevious : ∀ p ∈ previous, P p)
    (w : Workspace)
    (n : Notice) :
    Matches (Alike R) (Alike R)
      (settle previous w n : Action β Unit)
      (settle previous w n : Action γ Unit)
      (fun _ _ => True) := by
  apply Matches.bind
    (matches_onBackend (hAgree.save w.collection))
  intro _ _ _
  apply Matches.bind (matches_setSelection w.selection)
  intro _ _ _
  cases previous with
  | none => exact matches_notify n
  | some p =>
      apply Matches.bind
        (matches_afterChange hAgree (hPrevious p rfl))
      intro _ _ _
      exact matches_notify n

theorem matches_change
    {α : Type}
    (work : Work (α × Option Notice)) :
    Matches (Alike fun b c => R b c ∧ Loads b c) (Alike R)
      (change work : Action β α) (change work : Action γ α)
      (· = ·) := by
  apply Matches.bind (matches_load hAgree)
  rintro current _ ⟨rfl, hCurrent⟩
  apply Matches.bind (matches_beforeChange hAgree hCurrent)
  intro _ _ _
  apply Matches.bind Matches.of_get
  intro s t hAlike
  rw [hAlike.needsPrevious, hAlike.selection]
  have hPrevious :
      ∀ p ∈ (if t.needsPrevious then some current else none),
        P p := by
    intro p hMem
    split at hMem
    · cases hMem
      exact hCurrent
    · cases hMem
  -- Both sessions do the same work on the same copy.
  rcases work.run.run
      { collection := current
        selection := t.selection } with ⟨answer, w⟩
  apply Matches.bind
    (Matches.of_lift (SameAnswer.refl answer))
  rintro ⟨a, notice⟩ _ rfl
  cases notice with
  | none =>
      apply Matches.bind (matches_setSelection w.selection)
      intro _ _ _
      exact Matches.of_pure rfl
  | some n =>
      apply Matches.bind
        (matches_settle hAgree hPrevious w n)
      intro _ _ _
      exact Matches.of_pure rfl

------------------------------------------------------------
-- Other Tasks
------------------------------------------------------------

theorem matches_read
    (stamp : Stamp)
    (c : Command) :
    Matches (Alike fun b c => R b c ∧ Loads b c) (Alike R)
      (read stamp c : Action β QueryResult)
      (read stamp c : Action γ QueryResult) (· = ·) := by
  apply Matches.bind (matches_load hAgree)
  rintro current _ ⟨rfl, _⟩
  apply Matches.bind Matches.of_get
  intro s t hAlike
  rw [hAlike.selection]
  rcases (Work.execute stamp c).run.run
      { collection := current
        selection := t.selection } with ⟨answer, w⟩
  apply Matches.bind (matches_setSelection w.selection)
  intro _ _ _
  apply Matches.bind
    (Matches.of_lift (SameAnswer.refl answer))
  rintro o _ rfl
  exact Matches.of_pure rfl

theorem matches_choose (name : String) :
    Matches (Alike fun b c => R b c ∧ Loads b c) (Alike R)
      (choose name : Action β Unit)
      (choose name : Action γ Unit) (fun _ _ => True) := by
  apply Matches.bind (matches_load hAgree)
  rintro current _ ⟨rfl, _⟩
  split
  · exact Matches.of_throw _
  · exact matches_setSelection _

theorem matches_begin
    {current : Collection}
    (hCurrent : P current) :
    Matches (Alike R) (Alike R)
      (begin current : Action β String)
      (begin current : Action γ String) (· = ·) := by
  apply Matches.bind
    (matches_onBackend (hAgree.push current hCurrent))
  intro _ _ _
  apply Matches.bind Matches.of_get
  intro s t hAlike
  rw [hAlike.depth]
  apply Matches.bind (matches_setDepth rfl)
  intro _ _ _
  exact Matches.of_pure rfl

theorem matches_commit :
    Matches (Alike R) (Alike R) (commit : Action β String)
      (commit : Action γ String) (· = ·) := by
  apply Matches.bind Matches.of_get
  intro s t hAlike
  rw [hAlike.mode, hAlike.depth]
  split
  · apply Matches.bind (matches_onBackend hAgree.clear)
    intro _ _ _
    apply Matches.bind (matches_setDepth rfl)
    intro _ _ _
    exact Matches.of_pure rfl
  · split
    · exact Matches.of_pure rfl
    · apply Matches.bind (matches_onBackend hAgree.discard)
      intro _ _ _
      apply Matches.bind (matches_setDepth rfl)
      intro _ _ _
      exact Matches.of_pure rfl

theorem matches_takeBack :
    Matches (Alike fun b c => R b c ∧ Pops b c) (Alike R)
      (takeBack : Action β (Option Collection))
      (takeBack : Action γ (Option Collection)) (· = ·) := by
  apply Matches.bind (matches_onBackend hAgree.pop)
  rintro found _ rfl
  cases found with
  | none =>
      apply Matches.bind (matches_setDepth rfl)
      intro _ _ _
      exact Matches.of_pure rfl
  | some snapshot =>
      apply Matches.bind Matches.of_get
      intro s t hAlike
      rw [hAlike.depth]
      apply Matches.bind (matches_setDepth rfl)
      intro _ _ _
      exact Matches.of_pure rfl

theorem matches_restore (snapshot : Collection) :
    Matches (Alike R) (Alike R)
      (restore snapshot : Action β Unit)
      (restore snapshot : Action γ Unit)
      (fun _ _ => True) := by
  apply Matches.bind
    (matches_onBackend (hAgree.save snapshot))
  intro _ _ _
  apply Matches.bind Matches.of_get
  intro s t hAlike
  rw [hAlike.selection]
  split
  · exact matches_notify _
  · exact matches_setSelection none

/- Only a rollback needs the condition for taking back a snapshot. -/
theorem matches_control (c : Control) :
    Matches
      (Alike fun b c' =>
        R b c' ∧ Loads b c' ∧ (c = .rollback → Pops b c'))
      (Alike R) (control c : Action β QueryResult)
      (control c : Action γ QueryResult) (· = ·) := by
  cases c with
  | begin =>
      apply Matches.bind ((matches_load hAgree).mono ?_)
      · rintro current _ ⟨rfl, hCurrent⟩
        apply Matches.bind (matches_begin hAgree hCurrent)
        rintro text _ rfl
        exact Matches.of_pure rfl
      · intro s t hAlike
        exact hAlike.mono fun ⟨hR, hLoads, _⟩ => ⟨hR, hLoads⟩
  | commit =>
      apply Matches.bind ((matches_commit hAgree).mono ?_)
      · rintro text _ rfl
        exact Matches.of_pure rfl
      · intro s t hAlike
        exact hAlike.mono fun ⟨hR, _⟩ => hR
  | rollback =>
      apply Matches.bind ((matches_takeBack hAgree).mono ?_)
      · rintro found _ rfl
        cases found with
        | none => exact Matches.of_pure rfl
        | some snapshot =>
            apply Matches.bind
              (matches_restore hAgree snapshot)
            intro _ _ _
            exact Matches.of_pure rfl
      · intro s t hAlike
        exact hAlike.mono
          fun ⟨hR, _, hPops⟩ => ⟨hR, hPops rfl⟩

------------------------------------------------------------
-- Requests
------------------------------------------------------------

theorem matches_perform (task : Task) :
    Matches
      (Alike fun b c =>
        R b c ∧ Loads b c ∧
          (task = .control .rollback → Pops b c))
      (Alike R) (perform task : Action β Answer)
      (perform task : Action γ Answer) (· = ·) := by
  have hLoading :
      ∀ (s : Session β) (t : Session γ),
        Alike (fun b c => R b c ∧ Loads b c ∧
          (task = .control .rollback → Pops b c)) s t →
        Alike (fun b c => R b c ∧ Loads b c) s t :=
    fun _ _ hAlike =>
      hAlike.mono fun ⟨hR, hLoads, _⟩ => ⟨hR, hLoads⟩
  cases task with
  | reject e =>
      refine (Matches.of_throw e).mono fun s t hAlike => ?_
      exact hAlike.mono fun ⟨hR, _⟩ => hR
  | control c =>
      apply Matches.bind ((matches_control hAgree c).mono ?_)
      · rintro result _ rfl
        exact Matches.of_pure rfl
      · intro s t hAlike
        exact hAlike.mono fun ⟨hR, hLoads, hPops⟩ =>
          ⟨hR, hLoads, fun hRollback =>
            hPops (by rw [hRollback])⟩
  | read stamp c =>
      apply Matches.bind
        ((matches_read hAgree stamp c).mono hLoading)
      rintro result _ rfl
      exact Matches.of_pure rfl
  | change work =>
      exact (matches_change hAgree work).mono hLoading
  | choose name =>
      apply Matches.bind
        ((matches_choose hAgree name).mono hLoading)
      intro _ _ _
      exact Matches.of_pure rfl

theorem matches_serve (r : Request) :
    Matches
      (Alike fun b c =>
        R b c ∧ Loads b c ∧
          (r.control? = some .rollback → Pops b c))
      (Alike R) (serve r : Action β Answer)
      (serve r : Action γ Answer) (· = ·) := by
  intro s t hAlike
  rw [run_serve, run_serve]
  apply matches_perform hAgree
  exact hAlike.mono fun ⟨hR, hLoads, hPops⟩ =>
    ⟨hR, hLoads, fun hRollback =>
      hPops
        ((control?_eq_some_iff r .rollback).mpr hRollback)⟩

end Session

end Rowstore

------------------------------------------------------------
-- Steps
------------------------------------------------------------

namespace Rowstore

open Execution

/- How a backend is opened again by a new session. -/
class Backend.Reopening (β : Type) where
  reopen : β → Except Error β

/- A memory is handed to the new session as it is. -/
instance : Backend.Reopening Memory where
  reopen := .ok

/- A directory is opened with the same options. -/
instance : Backend.Reopening Folder where
  reopen := fun f => Folder.ofDirectory f.options f.directory

namespace Session

/-
  What a client does: it makes a request, or leaves the
  session for a new one, in either mode.
-/
inductive Step where
| ask (r : Request)
| reopen (mode : Mode)

/- The transaction control that a step asks for, if it does. -/
def Step.control? : Step → Option Control
| ask r => r.control?
| reopen _ => none

section

variable {β : Type} [Backend β] [Backend.Reopening β]

/- The answer to a step, and the session after it. -/
def step
    (s : Session β) :
    Step → Except Error (Option Answer) × Session β
| .ask r => ((s.handle r).1.map some, s.after r)
| .reopen mode =>
  match Backend.Reopening.reopen s.backend with
  | .ok b => (.ok none, Session.new b mode)
  | .error e => (.error e, s)

/- The session after steps, one after the other. -/
def afterSteps
    (s : Session β)
    (steps : List Step) : Session β :=
  steps.foldl (fun s x => (s.step x).2) s

/- The session before the step with a number, or after all steps. -/
def before
    (s : Session β)
    (steps : List Step)
    (n : Nat) : Session β :=
  s.afterSteps (steps.take n)

theorem before_succ
    (s : Session β)
    {steps : List Step}
    {n : Nat}
    {x : Step}
    (hStep : steps[n]? = some x) :
    s.before steps (n + 1) = ((s.before steps n).step x).2 := by
  unfold before afterSteps
  rw [List.take_add_one, hStep, List.foldl_append]
  rfl

theorem before_succ_of_none
    (s : Session β)
    {steps : List Step}
    {n : Nat}
    (hDone : steps[n]? = none) :
    s.before steps (n + 1) = s.before steps n := by
  unfold before
  rw [List.take_add_one, hDone]
  simp

end

section

variable {β γ : Type} {R : β → γ → Prop}
variable [Backend β] [Backend γ]
variable [Backend.Reopening β] [Backend.Reopening γ]
variable {Loads Pops : β → γ → Prop} {P : Collection → Prop}

/-
  Loading works before a step, and if the step asks for a
  rollback, so does taking back a snapshot.
-/
def Ready
    (Loads Pops : β → γ → Prop)
    (x : Step)
    (b : β)
    (c : γ) : Prop :=
  Loads b c ∧ (x.control? = some .rollback → Pops b c)

variable (hAgree : Backend.Agree R Loads Pops P)
variable (hReopen :
  ∀ b c, R b c →
    SameAnswer R (Backend.Reopening.reopen b)
      (Backend.Reopening.reopen c))

include hAgree hReopen

theorem alike_step
    {s : Session β}
    {t : Session γ}
    (hAlike : Alike R s t)
    {x : Step}
    (hReady : Ready Loads Pops x s.backend t.backend) :
    (s.step x).1 = (t.step x).1 ∧
      Alike R (s.step x).2 (t.step x).2 := by
  rcases hReady with ⟨hLoads, hPops⟩
  cases x with
  | ask r =>
      have hServed :=
        matches_serve hAgree r s t
          (hAlike.mono fun hR => ⟨hR, hLoads, hPops⟩)
      rcases hServed with ⟨hAfter, hSame⟩
      exact ⟨congrArg (Except.map some) hSame.eq, hAfter⟩
  | reopen mode =>
      have hOpened := hReopen _ _ hAlike.backend
      unfold step
      generalize
        (Backend.Reopening.reopen s.backend : Except Error β) =
          left at hOpened
      generalize
        (Backend.Reopening.reopen t.backend : Except Error γ) =
          right at hOpened
      cases hOpened with
      | ok hBackends =>
          exact
            ⟨rfl,
              { backend := hBackends
                mode := rfl
                depth := rfl
                selection := rfl
                notices := rfl }⟩
      | error e => exact ⟨rfl, hAlike⟩

/- Alike sessions stay alike, as long as loading and rollbacks work. -/
theorem alike_before
    {s : Session β}
    {t : Session γ}
    (hAlike : Alike R s t)
    {steps : List Step}
    {n : Nat}
    (hReady :
      ∀ k < n, ∀ x ∈ steps[k]?,
        Alike R (s.before steps k) (t.before steps k) →
          Ready Loads Pops x (s.before steps k).backend
            (t.before steps k).backend) :
    Alike R (s.before steps n) (t.before steps n) := by
  induction n with
  | zero => exact hAlike
  | succ n ih =>
      have hBefore :
          Alike R (s.before steps n) (t.before steps n) :=
        ih fun k hLt => hReady k (Nat.lt_succ_of_lt hLt)
      cases hStep : steps[n]? with
      | none =>
          rw [before_succ_of_none s hStep,
            before_succ_of_none t hStep]
          exact hBefore
      | some x =>
          rw [before_succ s hStep, before_succ t hStep]
          exact
            (alike_step hAgree hReopen hBefore
              (hReady n (Nat.lt_succ_self n) x hStep
                hBefore)).2

end

end Session

end Rowstore
