import Rowstore.Proofs.Json.Numerals
import Rowstore.Proofs.Json.Strings

/-
  The written forms of a document differ in their blanks
  only.  This file defines the form with any given blanks, of
  which the compact and the indented form are cases.

  Main declarations:
    * `Json.Gaps`
    * `Json.spaced`
    * `Json.compact_eq_spaced`
    * `Json.indentedAt_eq_spaced`
-/

------------------------------------------------------------
-- Blanks
------------------------------------------------------------

namespace Rowstore

namespace Json

/- The blanks of a written form: where a line may begin at a depth, and after a colon. -/
structure Gaps where
  line : Nat → List Char
  colon : List Char

/- There are nothing but blanks. -/
def IsBlank (s : List Char) : Prop :=
  ∀ c ∈ s, isSpace c = true

theorem isBlank_nil : IsBlank [] := List.forall_mem_nil _

structure Gaps.AreBlank (g : Gaps) : Prop where
  line : ∀ depth, IsBlank (g.line depth)
  colon : IsBlank g.colon

/- No blanks. -/
def Gaps.none : Gaps :=
  { line := fun _ => []
    colon := [] }

/- A line for each part, with two blanks for each level. -/
def Gaps.lines : Gaps :=
  { line := newLine
    colon := [' '] }

theorem Gaps.areBlank_none : Gaps.none.AreBlank where
  line := fun _ => isBlank_nil
  colon := isBlank_nil

theorem Gaps.areBlank_lines : Gaps.lines.AreBlank where
  line := by
    intro depth c hMem
    rcases List.mem_cons.mp hMem with rfl | hMem
    · rfl
    · rw [(List.mem_replicate.mp hMem).2]
      rfl
  colon := by
    intro c hMem
    rw [List.mem_singleton.mp hMem]
    rfl

end Json

end Rowstore

------------------------------------------------------------
-- Spaced Forms
------------------------------------------------------------

namespace Rowstore

namespace Json

mutual

/- The form of a document with given blanks, at a depth. -/
def spaced
    (g : Gaps)
    (depth : Nat) : Json → List Char
| null => "null".toList
| boolean b => booleanText b
| number n => n.text
| string body => quoted body
| array [] => ['[', ']']
| array (v :: vs) =>
  '[' :: (g.line (depth + 1) ++
    (spacedItems g (depth + 1) (v :: vs) ++
      (g.line depth ++ [']'])))
| object [] => ['\x7b', '\x7d']
| object (m :: ms) =>
  '\x7b' :: (g.line (depth + 1) ++
    (spacedMembers g (depth + 1) (m :: ms) ++
      (g.line depth ++ ['\x7d'])))

/- The forms of items, with commas between them. -/
def spacedItems
    (g : Gaps)
    (depth : Nat) : List Json → List Char
| [] => []
| [v] => spaced g depth v
| v :: w :: vs =>
  spaced g depth v ++
    ',' :: (g.line depth ++ spacedItems g depth (w :: vs))

/- The forms of members, with commas between them. -/
def spacedMembers
    (g : Gaps)
    (depth : Nat) : List (List Char × Json) → List Char
| [] => []
| [(k, v)] =>
  quoted k ++ ':' :: (g.colon ++ spaced g depth v)
| (k, v) :: m :: ms =>
  quoted k ++
    ':' :: (g.colon ++
      (spaced g depth v ++
        ',' :: (g.line depth ++
          spacedMembers g depth (m :: ms))))

end

mutual

/- The compact form has no blanks. -/
theorem compact_eq_spaced :
    ∀ (depth : Nat) (j : Json),
      j.compact = j.spaced .none depth
| _, null => rfl
| _, boolean _ => rfl
| _, number _ => rfl
| _, string _ => rfl
| _, array [] => rfl
| depth, array (v :: vs) => by
  have hItems :=
    compactItems_eq_spacedItems (depth + 1) (v :: vs)
  simp [compact, spaced, Gaps.none, hItems]
| _, object [] => rfl
| depth, object (m :: ms) => by
  have hMembers :=
    compactMembers_eq_spacedMembers (depth + 1) (m :: ms)
  simp [compact, spaced, Gaps.none, hMembers]

theorem compactItems_eq_spacedItems :
    ∀ (depth : Nat) (vs : List Json),
      compactItems vs = spacedItems .none depth vs
| _, [] => rfl
| depth, [v] => by
  simp [compactItems, spacedItems,
    compact_eq_spaced depth v]
| depth, v :: w :: vs => by
  simp [compactItems, spacedItems,
    compact_eq_spaced depth v,
    compactItems_eq_spacedItems depth (w :: vs), Gaps.none]

theorem compactMembers_eq_spacedMembers :
    ∀ (depth : Nat) (ms : List (List Char × Json)),
      compactMembers ms = spacedMembers .none depth ms
| _, [] => rfl
| depth, [(k, v)] => by
  simp [compactMembers, spacedMembers,
    compact_eq_spaced depth v, Gaps.none]
| depth, (k, v) :: m :: ms => by
  simp [compactMembers, spacedMembers,
    compact_eq_spaced depth v,
    compactMembers_eq_spacedMembers depth (m :: ms),
    Gaps.none]

end

mutual

/- The indented form has a line for each part. -/
theorem indentedAt_eq_spaced :
    ∀ (depth : Nat) (j : Json),
      j.indentedAt depth = j.spaced .lines depth
| _, null => rfl
| _, boolean _ => rfl
| _, number _ => rfl
| _, string _ => rfl
| _, array [] => rfl
| depth, array (v :: vs) => by
  have hItems :=
    indentedItems_eq_spacedItems (depth + 1) (v :: vs)
  simp [indentedAt, spaced, Gaps.lines, hItems]
| _, object [] => rfl
| depth, object (m :: ms) => by
  have hMembers :=
    indentedMembers_eq_spacedMembers (depth + 1) (m :: ms)
  simp [indentedAt, spaced, Gaps.lines, hMembers]

theorem indentedItems_eq_spacedItems :
    ∀ (depth : Nat) (vs : List Json),
      indentedItems depth vs = spacedItems .lines depth vs
| _, [] => rfl
| depth, [v] => by
  simp [indentedItems, spacedItems,
    indentedAt_eq_spaced depth v]
| depth, v :: w :: vs => by
  simp [indentedItems, spacedItems,
    indentedAt_eq_spaced depth v,
    indentedItems_eq_spacedItems depth (w :: vs),
    Gaps.lines]

theorem indentedMembers_eq_spacedMembers :
    ∀ (depth : Nat) (ms : List (List Char × Json)),
      indentedMembers depth ms =
        spacedMembers .lines depth ms
| _, [] => rfl
| depth, [(k, v)] => by
  simp [indentedMembers, spacedMembers,
    indentedAt_eq_spaced depth v, Gaps.lines]
| depth, (k, v) :: m :: ms => by
  simp [indentedMembers, spacedMembers,
    indentedAt_eq_spaced depth v,
    indentedMembers_eq_spacedMembers depth (m :: ms),
    Gaps.lines]

end

end Json

end Rowstore
