import Mathlib.Data.List.Basic
import Rowstore.Proofs.Sequence
import Rowstore.Proofs.Statement.Naming
import Rowstore.Proofs.Table.Revision

/-
  Names that are distinct up to letter case, and the names of
  a table and of its columns.

  A column is only added under a name that no column has, so
  every revision keeps the names of columns distinct.  All
  names can be quoted, if those that are brought in can.

  Main declarations:
    * `NamesDistinct`
    * `NamesDistinct.append` and `NamesDistinct.find?_eq`
    * `Table.columnsDistinct_of_revised`
    * `Table.namesQuotable_of_revised`
-/

------------------------------------------------------------
-- Distinct Names
------------------------------------------------------------

namespace Rowstore

namespace Text

theorem sameName_iff (a b : String) :
    sameName a b = true ↔
      lowerBasic a.toList = lowerBasic b.toList := by
  unfold sameName
  exact sameLetters_iff

theorem sameName_comm (a b : String) :
    sameName a b = sameName b a := by
  rw [Bool.eq_iff_iff, sameName_iff, sameName_iff]
  exact eq_comm

/- Of two names that are the same, each is the same as the same others. -/
theorem sameName_congr
    {a b : String}
    (hSame : sameName a b = true)
    (c : String) :
    sameName a c = sameName b c := by
  rw [sameName_iff] at hSame
  rw [Bool.eq_iff_iff, sameName_iff, sameName_iff, hSame]

/- What has the one name has the other one. -/
theorem hasName_congr
    {a b : String}
    {α : Type}
    (name : α → String)
    (hSame : sameName a b = true) :
    (fun x => sameName (name x) a) =
      fun x => sameName (name x) b := by
  funext x
  rw [sameName_comm, sameName_congr hSame, sameName_comm]

end Text

/- No two of the names are the same up to letter case. -/
def NamesDistinct (names : List String) : Prop :=
  names.Pairwise fun a b => Text.sameName a b = false

theorem namesDistinct_nil : NamesDistinct [] :=
  List.Pairwise.nil

namespace NamesDistinct

variable {names : List String}

theorem sublist
    (hDistinct : NamesDistinct names)
    {fewer : List String}
    (hSublist : fewer.Sublist names) :
    NamesDistinct fewer :=
  List.Pairwise.sublist hSublist hDistinct

/- A name that none of the others is may be appended. -/
theorem append
    (hDistinct : NamesDistinct names)
    {name : String}
    (hNew : ∀ other ∈ names, Text.sameName other name = false) :
    NamesDistinct (names ++ [name]) := by
  unfold NamesDistinct
  rw [List.pairwise_append]
  refine ⟨hDistinct, List.pairwise_singleton _ _, ?_⟩
  intro other hMem last hLast
  rw [List.mem_singleton.mp hLast]
  exact hNew other hMem

/- Under its own name an item is found, and no other one. -/
theorem find?_eq
    {α : Type}
    {name : α → String}
    {l : List α}
    (hDistinct : NamesDistinct (l.map name))
    {a : α}
    (hMem : a ∈ l) :
    (l.find? fun b => Text.sameName (name b) (name a)) =
      some a := by
  induction l with
  | nil => cases hMem
  | cons b l ih =>
      rw [List.map_cons, NamesDistinct,
        List.pairwise_cons] at hDistinct
      rcases List.mem_cons.mp hMem with rfl | hMem
      · apply List.find?_cons_of_pos
        rw [Text.sameName_iff]
      · have hOther :=
          hDistinct.1 _ (List.mem_map_of_mem hMem)
        rw [List.find?_cons_of_neg (by simp [hOther])]
        exact ih hDistinct.2 hMem

/- Names stay distinct if an item gets the name it has, or one that no other item has. -/
theorem updateFirst
    {α : Type}
    {p : α → Bool}
    {f : α → α}
    {name : α → String}
    {l : List α}
    (hDistinct : NamesDistinct (l.map name))
    {a : α}
    (hFind : l.find? p = some a)
    (hFree :
      ∀ b ∈ l, Text.sameName (name b) (name (f a)) = true →
        Text.sameName (name b) (name a) = true) :
    NamesDistinct ((Rowstore.updateFirst p f l).map name) := by
  unfold NamesDistinct at hDistinct ⊢
  rw [List.pairwise_map] at hDistinct ⊢
  have hKept :
      ∀ b ∈ l, Text.sameName (name b) (name a) = false →
        Text.sameName (name b) (name (f a)) = false := by
    intro b hMem hOther
    rw [← Bool.not_eq_true] at hOther ⊢
    exact fun hTaken => hOther (hFree b hMem hTaken)
  apply pairwise_updateFirst hDistinct hFind hKept
  intro b hMem hOther
  rw [Text.sameName_comm] at hOther ⊢
  exact hKept b hMem hOther

end NamesDistinct

------------------------------------------------------------
-- Columns Of A Table
------------------------------------------------------------

namespace Table

variable {t : Table}

/- No two columns have the same name up to letter case. -/
def ColumnsDistinct (t : Table) : Prop :=
  NamesDistinct (t.columns.map Column.name)

theorem columnsDistinct_new
    (id : TableId)
    (name : String) :
    (Table.new id name).ColumnsDistinct :=
  namesDistinct_nil

theorem columnsDistinct_addColumn
    (hDistinct : t.ColumnsDistinct)
    {name : String}
    (hNew : t.column? name = none)
    (type : DeclaredType)
    (isKey : Bool) :
    (t.addColumn name type isKey).ColumnsDistinct := by
  unfold ColumnsDistinct addColumn
  rw [List.map_append]
  apply NamesDistinct.append hDistinct
  rw [List.forall_mem_map]
  intro c hMem
  unfold column? at hNew
  rw [List.find?_eq_none] at hNew
  simpa [Column.isNamed, Column.ofType] using hNew c hMem

theorem columnsDistinct_removeColumn
    (hDistinct : t.ColumnsDistinct)
    (id : ColumnId) :
    (t.removeColumn id).ColumnsDistinct := by
  unfold removeColumn
  split
  · exact hDistinct.sublist
      (List.eraseP_sublist.map Column.name)
  · exact hDistinct

theorem columnsDistinct_of_revised
    {names : List String}
    {t' : Table}
    (hRevised : t.Revised names t')
    (hDistinct : t.ColumnsDistinct) :
    t'.ColumnsDistinct := by
  cases hRevised with
  | rowInserted => exact hDistinct
  | rowsChanged ids =>
      rw [Edit.updateRows_eq]
      exact hDistinct
  | rowsRemoved => exact hDistinct
  | columnAdded hName hNew hType isKey =>
      exact columnsDistinct_addColumn hDistinct hNew _ isKey
  | columnRemoved id =>
      exact columnsDistinct_removeColumn hDistinct id

------------------------------------------------------------
-- Names That Can Be Quoted
------------------------------------------------------------

/- The names of a table and of its columns can be quoted. -/
structure NamesQuotable (t : Table) : Prop where
  name : Quotable t.name
  columns : ∀ c ∈ t.columns, Quotable c.name

theorem namesQuotable_new
    (id : TableId)
    {name : String}
    (hName : Quotable name) :
    (Table.new id name).NamesQuotable where
  name := hName
  columns := fun _ hMem => by cases hMem

theorem namesQuotable_of_revised
    {names : List String}
    (hNames : ∀ name ∈ names, Quotable name)
    {t' : Table}
    (hRevised : t.Revised names t')
    (hQuotable : t.NamesQuotable) :
    t'.NamesQuotable where
  name := by
    rw [hRevised.id_name.2]
    exact hQuotable.name
  columns :=
    forall_columns_of_revised
      (fun _ name _ _ _ hName _ => hNames name hName)
      hRevised hQuotable.columns

end Table

end Rowstore
