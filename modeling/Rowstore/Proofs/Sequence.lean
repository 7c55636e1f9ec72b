import Mathlib.Data.List.Basic
import Rowstore.Sequence

/-
  What a change to the first item with a property leaves as
  it was: all other items, every feature that the change
  keeps, and a relation between the items.

  Main declarations:
    * `updateFirst_split`
    * `updateFirst_comm`
    * `updateFirst_eq_map`
    * `map_updateFirst`
    * `find?_updateFirst`
    * `pairwise_updateFirst`
-/

namespace Rowstore

variable {α γ : Type} {p : α → Bool}

theorem updateFirst_append
    (f : α → α)
    {before : List α}
    (hBefore : ∀ b ∈ before, p b = false)
    {a : α}
    (hHolds : p a = true)
    (after : List α) :
    updateFirst p f (before ++ a :: after) =
      before ++ f a :: after := by
  induction before with
  | nil => simp [updateFirst, hHolds]
  | cons b before ih =>
      rw [List.forall_mem_cons] at hBefore
      simp [updateFirst, hBefore.1, ih hBefore.2]

/- The change takes place between the items before and after the first one. -/
theorem updateFirst_split
    (f : α → α)
    {l : List α}
    {a : α}
    (hFind : l.find? p = some a) :
    ∃ before after,
      l = before ++ a :: after ∧
        (∀ b ∈ before, p b = false) ∧
        updateFirst p f l = before ++ f a :: after := by
  rw [List.find?_eq_some_iff_append] at hFind
  rcases hFind with ⟨hHolds, before, after, rfl, hBefore⟩
  have hNone : ∀ b ∈ before, p b = false := by
    simpa using hBefore
  exact
    ⟨before, after, rfl, hNone,
      updateFirst_append f hNone hHolds after⟩

theorem updateFirst_of_find?_eq_none
    (f : α → α)
    {l : List α}
    (hFind : l.find? p = none) :
    updateFirst p f l = l := by
  induction l with
  | nil => rfl
  | cons a l ih =>
      rw [List.find?_eq_none, List.forall_mem_cons] at hFind
      rcases hFind with ⟨hFirst, hRest⟩
      simp [updateFirst, hFirst,
        ih (List.find?_eq_none.mpr hRest)]

/- A change to a known item can be given by its result. -/
theorem updateFirst_const
    (f : α → α)
    {l : List α}
    {a : α}
    (hFind : l.find? p = some a) :
    updateFirst p (fun _ => f a) l = updateFirst p f l := by
  rcases updateFirst_split f hFind with
    ⟨before, after, rfl, hBefore, hSplit⟩
  rw [hSplit]
  exact updateFirst_append (fun _ => f a) hBefore
    (List.find?_some hFind) after

/- An item in its own place changes nothing. -/
theorem updateFirst_self
    {l : List α}
    {a : α}
    (hFind : l.find? p = some a) :
    updateFirst p (fun _ => a) l = l := by
  rcases updateFirst_split (fun _ => a) hFind with
    ⟨before, after, hList, _, hSplit⟩
  exact hSplit.trans hList.symm

theorem mem_of_mem_updateFirst
    {f : α → α}
    {l : List α}
    {b : α}
    (hMem : b ∈ updateFirst p f l) :
    b ∈ l ∨ ∃ a, l.find? p = some a ∧ b = f a := by
  cases hFind : l.find? p with
  | none =>
      rw [updateFirst_of_find?_eq_none f hFind] at hMem
      exact .inl hMem
  | some a =>
      rcases updateFirst_split f hFind with
        ⟨before, after, rfl, _, hSplit⟩
      rw [hSplit] at hMem
      rcases List.mem_append.mp hMem with hMem | hMem
      · exact .inl (List.mem_append_left _ hMem)
      rcases List.mem_cons.mp hMem with rfl | hMem
      · exact .inr ⟨a, rfl, rfl⟩
      · exact .inl
          (List.mem_append_right _
            (List.mem_cons_of_mem _ hMem))

/- With distinct keys, the first item with a key is the only one. -/
theorem updateFirst_eq_map
    [DecidableEq γ]
    {key : α → γ}
    {l : List α}
    (hDistinct : (l.map key).Nodup)
    (k : γ)
    (f : α → α) :
    updateFirst (fun a => key a = k) f l =
      l.map fun a => if key a = k then f a else a := by
  induction l with
  | nil => rfl
  | cons a l ih =>
      rw [List.map_cons, List.nodup_cons] at hDistinct
      rcases hDistinct with ⟨hFirst, hRest⟩
      rw [List.map_cons]
      by_cases hKey : key a = k
      · subst hKey
        have hOthers :
            (l.map fun b => if key b = key a then f b else b) =
              l.map id := by
          apply List.map_congr_left
          intro b hMem
          have hOther : key b ≠ key a := fun hSame =>
            hFirst (hSame ▸ List.mem_map_of_mem hMem)
          exact if_neg hOther
        simp [updateFirst, hOthers]
      · simp [updateFirst, hKey, ih hRest]

/- A feature that the change keeps is the same for all items. -/
theorem map_updateFirst
    {f : α → α}
    {g : α → γ}
    (hKeeps : ∀ a, g (f a) = g a)
    (l : List α) :
    (updateFirst p f l).map g = l.map g := by
  induction l with
  | nil => rfl
  | cons a l ih =>
      by_cases hHolds : p a = true
      · simp [updateFirst, hHolds, hKeeps]
      · simp [updateFirst, hHolds, ih]

/- The changed item is still the first one with the property. -/
theorem find?_updateFirst
    {f : α → α}
    {l : List α}
    {a : α}
    (hFind : l.find? p = some a)
    (hStill : p (f a) = true) :
    (updateFirst p f l).find? p = some (f a) := by
  rcases updateFirst_split f hFind with
    ⟨before, after, rfl, hBefore, hSplit⟩
  rw [hSplit, List.find?_eq_some_iff_append]
  exact
    ⟨hStill, before, after, rfl, by simpa using hBefore⟩

/- Changes to the same item are one change. -/
theorem updateFirst_updateFirst
    {f : α → α}
    (hStill : ∀ a, p a = true → p (f a) = true)
    (g : α → α)
    (l : List α) :
    updateFirst p g (updateFirst p f l) =
      updateFirst p (fun a => g (f a)) l := by
  induction l with
  | nil => rfl
  | cons a l ih =>
      by_cases hHolds : p a = true
      · simp [updateFirst, hHolds, hStill a hHolds]
      · simp [updateFirst, hHolds, ih]

/- A search for items of another kind does not see the change. -/
theorem find?_updateFirst_of_disjoint
    {q : α → Bool}
    {f : α → α}
    (hBefore : ∀ a, p a = true → q a = false)
    (hAfter : ∀ a, p a = true → q (f a) = false)
    (l : List α) :
    (updateFirst p f l).find? q = l.find? q := by
  induction l with
  | nil => rfl
  | cons a l ih =>
      by_cases hHolds : p a = true
      · simp [updateFirst, hHolds, hBefore a hHolds,
          hAfter a hHolds]
      · simp [updateFirst, hHolds, List.find?_cons, ih]

/-
  Changes to items that no item can be both of are made in
  either order, if each changed item is still of its kind.
-/
theorem updateFirst_comm
    {q : α → Bool}
    {f g : α → α}
    (hDisjoint : ∀ a, p a = true → q a = false)
    (hFirst : ∀ a, p a = true → p (f a) = true)
    (hSecond : ∀ a, q a = true → q (g a) = true)
    (l : List α) :
    updateFirst q g (updateFirst p f l) =
      updateFirst p f (updateFirst q g l) := by
  have hApart : ∀ a, q a = true → p a = false := by
    intro a hHolds
    cases hOther : p a with
    | true =>
        rw [hDisjoint a hOther] at hHolds
        cases hHolds
    | false => rfl
  induction l with
  | nil => rfl
  | cons a l ih =>
      cases hP : p a with
      | true =>
          have hQ := hDisjoint a hP
          have hStill := hDisjoint _ (hFirst a hP)
          simp [updateFirst, hP, hQ, hStill]
      | false =>
          cases hQ : q a with
          | true =>
              have hStill := hApart _ (hSecond a hQ)
              simp [updateFirst, hP, hQ, hStill]
          | false => simp [updateFirst, hP, hQ, ih]

/-
  A relation between the items stays if the changed item has
  it to all items to which the item before had it.
-/
theorem pairwise_updateFirst
    {R : α → α → Prop}
    {f : α → α}
    {l : List α}
    {a : α}
    (hPairwise : l.Pairwise R)
    (hFind : l.find? p = some a)
    (hBefore : ∀ b ∈ l, R b a → R b (f a))
    (hAfter : ∀ b ∈ l, R a b → R (f a) b) :
    (updateFirst p f l).Pairwise R := by
  rcases updateFirst_split f hFind with
    ⟨before, after, rfl, _, hSplit⟩
  rw [hSplit]
  rw [List.pairwise_append, List.pairwise_cons]
    at hPairwise ⊢
  rcases hPairwise with ⟨hFirst, ⟨hItem, hLast⟩, hCross⟩
  refine ⟨hFirst, ⟨?_, hLast⟩, ?_⟩
  · intro b hMem
    exact hAfter b (by simp [hMem]) (hItem b hMem)
  · intro b hMem c hOther
    rcases List.mem_cons.mp hOther with rfl | hOther
    · exact hBefore b (by simp [hMem])
        (hCross b hMem a List.mem_cons_self)
    · exact hCross b hMem c
        (List.mem_cons_of_mem _ hOther)

end Rowstore
