import Rowstore.Proofs.Execution
import Rowstore.Storage.Memory
import Rowstore.Storage.Outage

/-
  Backends that hold only collections with a property, and
  answer only with such collections, as long as they are
  given no others.

  Main declarations:
    * `Backend.Guards` and `Backend.Stores`
    * `Memory.guards`
    * `Outage.guards`
-/

namespace Rowstore

open Execution

------------------------------------------------------------
-- Guarding
------------------------------------------------------------

/-
  A property of backends that all calls keep, as long as only
  collections with a property of their own are handed over;
  then only such collections are answered.
-/
structure Backend.Guards
    (β : Type)
    [Backend β]
    (P : Collection → Prop)
    (Safe : β → Prop) : Prop where
  load : Ensures Safe (Backend.load : Call β Collection) P
  save :
    ∀ c, P c →
      Ensures Safe (Backend.save c : Call β Unit)
        (fun _ => True)
  push :
    ∀ c, P c →
      Ensures Safe (Backend.push c : Call β Unit)
        (fun _ => True)
  pop :
    Ensures Safe (Backend.pop : Call β (Option Collection))
      (fun found => ∀ c ∈ found, P c)
  clear :
    Ensures Safe (Backend.clear : Call β Unit)
      (fun _ => True)

/- The same for backends that may answer snapshots without the property. -/
structure Backend.Stores
    (β : Type)
    [Backend β]
    (P : Collection → Prop)
    (Safe : β → Prop) : Prop where
  load : Ensures Safe (Backend.load : Call β Collection) P
  save :
    ∀ c, P c →
      Ensures Safe (Backend.save c : Call β Unit)
        (fun _ => True)
  push :
    ∀ c, P c →
      Ensures Safe (Backend.push c : Call β Unit)
        (fun _ => True)
  pop :
    Ensures Safe (Backend.pop : Call β (Option Collection))
      (fun _ => True)
  clear :
    Ensures Safe (Backend.clear : Call β Unit)
      (fun _ => True)

theorem Backend.Guards.stores
    {β : Type}
    [Backend β]
    {P : Collection → Prop}
    {Safe : β → Prop}
    (hGuards : Backend.Guards β P Safe) :
    Backend.Stores β P Safe where
  load := hGuards.load
  save := hGuards.save
  push := hGuards.push
  pop := fun b hSafe =>
    ⟨(hGuards.pop b hSafe).1, fun _ _ => trivial⟩
  clear := hGuards.clear

/- A snapshot on a stack is the one that was put there, or was there before. -/
theorem mem_of_mem_pushWithin
    {limit : Option Nat}
    {s c : Collection}
    {stack : List Collection}
    (hMem : c ∈ pushWithin limit s stack) :
    c = s ∨ c ∈ stack := by
  unfold pushWithin at hMem
  cases limit with
  | none => exact List.mem_cons.mp hMem
  | some n =>
      exact List.mem_cons.mp (List.mem_of_mem_take hMem)

------------------------------------------------------------
-- In Memory
------------------------------------------------------------

namespace Memory

/- The stored collection and all snapshots have a property. -/
structure Safe
    (P : Collection → Prop)
    (m : Memory) : Prop where
  stored : P m.stored
  stack : ∀ c ∈ m.stack, P c

variable {P : Collection → Prop}

theorem Safe.imp
    {P' : Collection → Prop}
    (hWeaker : ∀ c, P c → P' c)
    {m : Memory}
    (hSafe : Safe P m) :
    Safe P' m where
  stored := hWeaker _ hSafe.stored
  stack := fun c hMem => hWeaker c (hSafe.stack c hMem)

theorem guards (P : Collection → Prop) :
    Backend.Guards Memory P (Safe P) where
  load := by
    apply Ensures.bind Ensures.of_get
    intro m hSafe
    exact Ensures.of_pure hSafe.stored
  save := by
    intro c hGiven
    apply Ensures.of_modify
    intro m hSafe
    exact ⟨hGiven, hSafe.stack⟩
  push := by
    intro c hGiven
    apply Ensures.of_modify
    intro m hSafe
    refine ⟨hSafe.stored, ?_⟩
    intro d hMem
    rcases mem_of_mem_pushWithin hMem with rfl | hMem
    · exact hGiven
    · exact hSafe.stack d hMem
  pop := by
    apply Ensures.bind Ensures.of_get
    intro m hSafe
    have hRest : Safe P { m with stack := m.stack.tail } :=
      ⟨hSafe.stored, fun c hMem =>
        hSafe.stack c (List.mem_of_mem_tail hMem)⟩
    apply Ensures.bind (Ensures.of_set hRest)
    intro _ _
    apply Ensures.of_pure
    intro c hFirst
    exact hSafe.stack c (List.mem_of_mem_head? hFirst)
  clear := by
    apply Ensures.of_modify
    intro m hSafe
    exact ⟨hSafe.stored, fun _ hMem => by cases hMem⟩

end Memory

------------------------------------------------------------
-- With Calls Out Of Order
------------------------------------------------------------

namespace Outage

variable {β : Type}

/-
  A call that is out of order fails and does nothing; any
  other call does what the backend does.
-/
theorem run_call
    {α : Type}
    (name : CallName)
    (c : Call β α)
    (o : Outage β) :
    (call name c).run.run o =
      if name ∈ o.failing then (.error failure, o)
      else
        ((c.run.run o.backend).1,
          { o with backend := (c.run.run o.backend).2 }) := by
  by_cases hFail : name ∈ o.failing
  · have hContains : o.failing.contains name = true := by
      simpa using hFail
    simp only [call, run_bind, run_get, hContains, if_true,
      run_throw, if_pos hFail]
  · have hContains : o.failing.contains name = false := by
      simpa using hFail
    rcases hCall : c.run.run o.backend with ⟨answer, b⟩
    simp only [call, run_bind, run_get, hContains, hCall,
      run_set, run_lift, Bool.false_eq_true, if_false,
      if_neg hFail]

theorem ensures_call
    {α : Type}
    {Safe : β → Prop}
    {c : Call β α}
    {Q : α → Prop}
    (hCall : Ensures Safe c Q)
    (name : CallName) :
    Ensures (fun o : Outage β => Safe o.backend)
      (call name c) Q := by
  intro o hSafe
  rw [run_call]
  split
  · exact ⟨hSafe, fun _ hOk => by cases hOk⟩
  · exact hCall o.backend hSafe

/- Calls that fail before they do anything are no harm. -/
theorem guards
    [Backend β]
    {P : Collection → Prop}
    {Safe : β → Prop}
    (hGuards : Backend.Guards β P Safe) :
    Backend.Guards (Outage β) P
      (fun o => Safe o.backend) where
  load := ensures_call hGuards.load .load
  save := fun c hGiven =>
    ensures_call (hGuards.save c hGiven) .save
  push := fun c hGiven =>
    ensures_call (hGuards.push c hGiven) .push
  pop := ensures_call hGuards.pop .pop
  clear := ensures_call hGuards.clear .clear

end Outage

end Rowstore
