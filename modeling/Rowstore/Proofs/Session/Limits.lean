import Mathlib.Data.List.Basic
import Rowstore.Proofs.Session.Matching

/-
  The limit of the stack only shortens history.  Sessions in
  memory that differ in their limits cannot be told apart
  until a rollback finds no snapshot in the one with the
  smaller limit, and its stack is always the most recent part
  of the other one.

  Main declarations:
    * `NoWider`
    * `Memory.Shortens` and `Memory.shortens_agree`
    * `Session.limit_only_shortens`
-/

------------------------------------------------------------
-- Stacks
------------------------------------------------------------

namespace Rowstore

open Execution

/- The first limit allows for no more than the second one; none is the widest. -/
def NoWider : Option Nat → Option Nat → Prop
| _, none => True
| none, some _ => False
| some m, some n => m ≤ n

/- A narrower stack stays the most recent part of a wider one. -/
theorem prefix_pushWithin
    {limit limit' : Option Nat}
    (hLimits : NoWider limit limit')
    (s : Collection)
    {stack stack' : List Collection}
    (hStacks : stack <+: stack') :
    pushWithin limit s stack <+: pushWithin limit' s stack' := by
  have hPushed : s :: stack <+: s :: stack' :=
    List.cons_prefix_cons.mpr ⟨rfl, hStacks⟩
  cases limit with
  | none =>
      cases limit' with
      | none => exact hPushed
      | some n => cases hLimits
  | some m =>
      have hShort : (s :: stack).take m <+: s :: stack' :=
        (List.take_prefix m _).trans hPushed
      cases limit' with
      | none => exact hShort
      | some n =>
          have hLength : ((s :: stack).take m).length ≤ n :=
            Nat.le_trans (List.length_take_le m _) hLimits
          exact List.prefix_take_iff.mpr ⟨hShort, hLength⟩

theorem prefix_tail
    {stack stack' : List Collection}
    (hStacks : stack <+: stack') :
    stack.tail <+: stack'.tail := by
  rcases hStacks with ⟨older, rfl⟩
  cases stack with
  | nil => exact List.nil_prefix
  | cons s stack => exact List.prefix_append stack older

namespace Memory

/-
  A memory stores the collection of another one, and its
  stack, of no wider limit, is the most recent part of the
  other one.
-/
structure Shortens (m m' : Memory) : Prop where
  stored : m.stored = m'.stored
  stack : m.stack <+: m'.stack
  limit : NoWider m.limit m'.limit

theorem Shortens.pop
    {m m' : Memory}
    (hShortens : m.Shortens m') :
    { m with stack := m.stack.tail }.Shortens
      { m' with stack := m'.stack.tail } where
  stored := hShortens.stored
  stack := prefix_tail hShortens.stack
  limit := hShortens.limit

/- If the shorter stack has a snapshot, both have the same newest one. -/
theorem Shortens.head?
    {m m' : Memory}
    (hShortens : m.Shortens m')
    (hSome : m.stack ≠ []) :
    m.stack.head? = m'.stack.head? := by
  rcases hShortens.stack with ⟨older, hStack⟩
  rw [← hStack, List.head?_append_of_ne_nil _ hSome]

/- Only taking back a snapshot needs one on the shorter stack. -/
theorem shortens_agree :
    Backend.Agree Shortens (fun _ _ => True)
      (fun m _ => m.stack ≠ []) (fun _ => True) where
  load := by
    rintro m m' ⟨hShortens, _⟩
    exact ⟨hShortens, .ok ⟨hShortens.stored, trivial⟩⟩
  save := by
    intro s
    apply Matches.of_modify
    intro m m' hShortens
    exact ⟨rfl, hShortens.stack, hShortens.limit⟩
  push := by
    intro s _
    apply Matches.of_modify
    intro m m' hShortens
    exact
      ⟨hShortens.stored,
        prefix_pushWithin hShortens.limit s hShortens.stack,
        hShortens.limit⟩
  pop := by
    rintro m m' ⟨hShortens, hSome⟩
    exact ⟨hShortens.pop, .ok (hShortens.head? hSome)⟩
  discard := by
    intro m m' hShortens
    exact ⟨hShortens.pop, .ok trivial⟩
  clear := by
    apply Matches.of_modify
    intro m m' hShortens
    exact
      ⟨hShortens.stored, List.prefix_rfl, hShortens.limit⟩

end Memory

end Rowstore

------------------------------------------------------------
-- Sessions
------------------------------------------------------------

namespace Rowstore

open Execution

namespace Session

/- The answer to a rollback that finds no snapshot. -/
def nothingToRollback : Except Error (Option Answer) :=
  .ok (some (.result (.message "Nothing to rollback")))

/- With nothing on the stack, a rollback finds no snapshot. -/
theorem nothing_to_rollback
    {s : Session Memory}
    (hEmpty : s.backend.stack = [])
    {x : Step}
    (hAsked : x.control? = some .rollback) :
    (s.step x).1 = nothingToRollback := by
  cases x with
  | reopen mode => cases hAsked
  | ask r =>
      have hTask : r.task = .control .rollback :=
        (control?_eq_some_iff r .rollback).mp hAsked
      have hPop :
          (onBackend Backend.pop).run.run s =
            (.ok none,
              { s with
                backend :=
                  { s.backend with
                    stack := s.backend.stack.tail } }) := by
        apply run_onBackend
        change
          (Except.ok s.backend.stack.head?, _) =
            (Except.ok none, _)
        rw [hEmpty]
        rfl
      have hRun :
          (s.handle r).1 =
            .ok (.result (.message "Nothing to rollback")) := by
        unfold handle
        rw [run_serve, hTask]
        simp only [perform, control, takeBack, setDepth,
          run_bind, hPop, run_modify, run_pure]
      change (s.handle r).1.map some = nothingToRollback
      rw [hRun]
      rfl

/-
  Two sessions in memory, of which the first one has the
  smaller limit, up to the first rollback for which the first
  one finds no snapshot: they have the same collections,
  selection, depth and notices and have given the same
  answers, and the snapshots of the first one are the most
  recent ones of the second one.
-/
theorem limit_only_shortens
    (mode : Mode)
    (c : Collection)
    {limit limit' : Option Nat}
    (hLimits : NoWider limit limit')
    {steps : List Step}
    {n : Nat}
    (hRollbacks :
      ∀ k < n, ∀ x ∈ steps[k]?,
        x.control? = some .rollback →
          (((Session.new (Memory.new c limit) mode).before
            steps k).step x).1 ≠ nothingToRollback) :
    let s :=
      (Session.new (Memory.new c limit) mode).before steps
    let t :=
      (Session.new (Memory.new c limit') mode).before steps
    (s n).backend.stored = (t n).backend.stored ∧
      (s n).backend.stack <+: (t n).backend.stack ∧
      (s n).mode = (t n).mode ∧ (s n).depth = (t n).depth ∧
      (s n).selection = (t n).selection ∧
      (s n).notices = (t n).notices ∧
      ∀ k < n, ∀ x ∈ steps[k]?,
        ((s k).step x).1 = ((t k).step x).1 := by
  intro s t
  have hReopen :
      ∀ m m' : Memory, m.Shortens m' →
        SameAnswer Memory.Shortens
          (Backend.Reopening.reopen m)
          (Backend.Reopening.reopen m') :=
    fun _ _ hShortens => .ok hShortens
  have hReady :
      ∀ k < n, ∀ x ∈ steps[k]?,
        Ready (fun _ _ => True) (fun m _ => m.stack ≠ []) x
          (s k).backend (t k).backend := by
    intro k hLt x hStep
    refine ⟨trivial, ?_⟩
    -- A rollback that finds a snapshot has one to take back.
    intro hAsked hEmpty
    exact hRollbacks k hLt x hStep hAsked
      (nothing_to_rollback hEmpty hAsked)
  have hAlike :
      ∀ k ≤ n, Alike Memory.Shortens (s k) (t k) := by
    intro k hPlace
    apply alike_before Memory.shortens_agree hReopen
    · exact
        { backend := ⟨rfl, List.prefix_rfl, hLimits⟩
          mode := rfl
          depth := rfl
          selection := rfl
          notices := rfl }
    · intro i hLt x hStep _
      exact hReady i (Nat.lt_of_lt_of_le hLt hPlace) x hStep
  have hEnd := hAlike n (Nat.le_refl n)
  refine
    ⟨hEnd.backend.stored, hEnd.backend.stack, hEnd.mode,
      hEnd.depth, hEnd.selection, hEnd.notices, ?_⟩
  intro k hLt x hStep
  exact
    (alike_step Memory.shortens_agree hReopen
      (hAlike k (Nat.le_of_lt hLt))
      (hReady k hLt x hStep)).1

/- With room for one snapshot, a rollback still restores what it restores without a limit. -/
theorem newest_snapshot_is_kept :
    let steps : List Step :=
      [.ask (.statement epoch "CREATE DATABASE d"),
        .ask (.statement epoch "CREATE TABLE t (a INT)"),
        .ask (.insertRow "t" [("a", "1")]),
        .ask (.statement epoch "ROLLBACK"),
        .ask (.insertRow "t" [("a", "2")])]
    let start : Option Nat → Session Memory := fun limit =>
      Session.new (Memory.new .empty limit) .literal
    let s := (start (some 1)).before steps 5
    let t := (start none).before steps 5
    NoWider (some 1) none ∧
      (∀ k < 5, ∀ x ∈ steps[k]?,
        x.control? = some .rollback →
          (((start (some 1)).before steps k).step x).1 ≠
            nothingToRollback) ∧
      s.backend.stack.length = 1 ∧
      t.backend.stack.length = 3 ∧
      s.backend.stack <+: t.backend.stack ∧
      s.backend.stored = t.backend.stored := by
  intro steps start s t
  have hRollbacks :
      ∀ k < 5, ∀ x ∈ steps[k]?,
        x.control? = some .rollback →
          (((start (some 1)).before steps k).step x).1 ≠
            nothingToRollback := by
    decide +kernel
  have hShort : s.backend.stack.length = 1 := by
    decide +kernel
  have hLong : t.backend.stack.length = 3 := by
    decide +kernel
  have hBoth :=
    limit_only_shortens .literal .empty
      (show NoWider (some 1) none from trivial) hRollbacks
  exact
    ⟨trivial, hRollbacks, hShort, hLong, hBoth.2.1,
      hBoth.1⟩

end Session

end Rowstore
