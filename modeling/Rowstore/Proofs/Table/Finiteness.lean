import Rowstore.Proofs.Decimal.Finiteness
import Rowstore.Proofs.Table.Comparing
import Rowstore.Proofs.Table.Document

/-
  The numbers in the cells of a table are finite: those that
  are entered as literals, those that are coerced to a
  column's type whatever its scale is, and those that are
  read from documents.

  Main declarations:
    * `Value.IsFinite`
    * `Value.Entered.isFinite` and `Value.isFinite_of_ofJson?`
    * `Table.IsFinite` and `Table.IsFinite.of_revised`
    * `Table.Reread.isFinite`
-/

------------------------------------------------------------
-- Values
------------------------------------------------------------

namespace Rowstore

namespace Value

/- If the value is a number, then it is a finite one. -/
def IsFinite (v : Value) : Prop :=
  ∀ x, v = number x → x.isFinite = true

theorem isFinite_null : null.IsFinite :=
  fun _ hNumber => nomatch hNumber

theorem isFinite_boolean (b : Bool) : (boolean b).IsFinite :=
  fun _ hNumber => nomatch hNumber

theorem isFinite_text (s : String) : (text s).IsFinite :=
  fun _ hNumber => nomatch hNumber

theorem isFinite_number
    {x : Float}
    (hFinite : x.isFinite = true) :
    (number x).IsFinite := by
  intro y hNumber
  cases hNumber
  exact hFinite

theorem isFinite_ofLiteral (s : List Char) :
    (ofLiteral s).IsFinite := by
  unfold ofLiteral
  dsimp only
  split
  · exact isFinite_text _
  · split_ifs
    · exact isFinite_boolean true
    · exact isFinite_boolean false
    · exact isFinite_null
    · split
      · rename_i x hParse
        exact isFinite_number (isFinite_of_parseNumber hParse)
      · exact isFinite_text _

end Value

namespace Column

/- A text that is no number is coerced to zero, which is finite as well. -/
theorem isFinite_coerceNumber
    (precision scale : Option Nat)
    (s : List Char) :
    (coerceNumber precision scale s).isFinite = true := by
  have hParsed :
      ((Value.parseNumber s).getD 0).isFinite = true := by
    cases hParse : Value.parseNumber s with
    | none => decide +kernel
    | some x => exact Value.isFinite_of_parseNumber hParse
  unfold coerceNumber
  dsimp only
  split
  · exact Decimal.isFinite_roundToPlaces hParsed _
  · exact hParsed

theorem isFinite_coerce
    (c : Column)
    (raw : String) :
    (c.coerce raw).IsFinite := by
  unfold coerce
  dsimp only
  cases c.base with
  | number =>
      exact Value.isFinite_number (isFinite_coerceNumber _ _ _)
  | boolean => exact Value.isFinite_boolean _
  | date => exact Value.isFinite_text _
  | datetime => exact Value.isFinite_text _
  | text => exact Value.isFinite_text _

end Column

namespace Value

theorem Entered.isFinite
    {v : Value}
    (hEntered : v.Entered) :
    v.IsFinite := by
  cases hEntered with
  | literal s => exact isFinite_ofLiteral s
  | coerced c raw => exact c.isFinite_coerce raw

/- No document is read as a number that is not finite. -/
theorem isFinite_of_ofJson?
    {j : Json}
    {v : Value}
    (hRead : ofJson? j = some v) :
    v.IsFinite := by
  cases j with
  | null =>
      cases hRead
      exact isFinite_null
  | boolean b =>
      cases hRead
      exact isFinite_boolean b
  | number n =>
      rcases Option.map_eq_some_iff.mp hRead with
        ⟨x, hValue, rfl⟩
      exact isFinite_number
        (Json.Numeral.isFinite_of_value? hValue)
  | string body =>
      rcases Option.map_eq_some_iff.mp hRead with
        ⟨s, _, rfl⟩
      exact isFinite_text s
  | array items => cases hRead
  | object members => cases hRead

end Value

end Rowstore

------------------------------------------------------------
-- Tables
------------------------------------------------------------

namespace Rowstore

/- No cell holds an infinity or a NaN. -/
def Cells.IsFinite (cells : Cells) : Prop :=
  ∀ cell ∈ cells.toList, cell.2.IsFinite

theorem Cells.isFinite_of_ofJson?
    {j : Json}
    {cells : Cells}
    (hRead : Cells.ofJson? j = some cells) :
    cells.IsFinite := by
  cases j with
  | object members =>
      rcases Option.map_eq_some_iff.mp hRead with
        ⟨entries, hEntries, rfl⟩
      apply Cells.forall_ofList
      intro entry hMem
      rcases Json.exists_mem_of_forall₂
        (Json.forall₂_of_mapM hEntries) hMem with
        ⟨member, _, hEntry⟩
      rcases Option.bind_eq_some_iff.mp hEntry with
        ⟨column, _, hEntry⟩
      rcases Option.bind_eq_some_iff.mp hEntry with
        ⟨value, hValue, hDone⟩
      cases hDone
      exact Value.isFinite_of_ofJson? hValue
  | null => cases hRead
  | boolean b => cases hRead
  | number n => cases hRead
  | string body => cases hRead
  | array items => cases hRead

namespace Table

/- No cell of a row holds an infinity or a NaN. -/
def IsFinite (t : Table) : Prop :=
  ∀ r ∈ t.rows, r.cells.IsFinite

namespace IsFinite

variable {t : Table}

theorem insertRow
    (hFinite : t.IsFinite)
    {cells : Cells}
    (hCells : cells.IsFinite) :
    (t.insertRow cells).IsFinite := by
  intro r hMem
  rcases List.mem_append.mp hMem with hOld | hNew
  · exact hFinite r hOld
  · rw [List.mem_singleton.mp hNew]
    exact hCells

theorem updateRows
    (hFinite : t.IsFinite)
    (ids : List RowId)
    {changes : List Cell}
    (hChanges : ∀ cell ∈ changes, cell.2.IsFinite) :
    (Edit.updateRows t ids (Edit.assign changes)).IsFinite := by
  unfold Edit.updateRows
  induction ids generalizing t with
  | nil => exact hFinite
  | cons id ids ih =>
      apply ih
      intro r hMem
      rcases mem_of_mem_updateFirst hMem with
        hOld | ⟨old, hFind, rfl⟩
      · exact hFinite r hOld
      · rw [Edit.assign_cells]
        exact Cells.forall_putAll
          (hFinite old (List.mem_of_find?_eq_some hFind))
          hChanges

theorem removeColumn
    (hFinite : t.IsFinite)
    (id : ColumnId) :
    (t.removeColumn id).IsFinite := by
  unfold Table.removeColumn
  split
  · intro r hMem
    rcases List.mem_map.mp hMem with ⟨old, hOld, rfl⟩
    exact fun cell hCell =>
      hFinite old hOld cell (List.mem_of_mem_filter hCell)
  · exact hFinite

/- What is put in by a revision is entered, and so it is finite. -/
theorem of_revised
    {names : List String}
    {t' : Table}
    (hRevised : t.Revised names t')
    (hFinite : t.IsFinite) :
    t'.IsFinite := by
  cases hRevised with
  | rowInserted _ hValues =>
      exact hFinite.insertRow fun cell hMem =>
        (hValues cell hMem).isFinite
  | rowsChanged ids _ hValues =>
      exact hFinite.updateRows ids fun cell hMem =>
        (hValues cell hMem).isFinite
  | rowsRemoved ids =>
      exact fun r hMem =>
        hFinite r (List.mem_of_mem_filter hMem)
  | columnAdded => exact hFinite
  | columnRemoved id => exact hFinite.removeColumn id

end IsFinite

/- What has been read is finite, whatever was written. -/
theorem Reread.isFinite
    {t t' : Table}
    (hReread : t.Reread t') :
    t'.IsFinite := by
  intro r' hMem
  rcases Json.exists_mem_of_forall₂ hReread.rows hMem with
    ⟨r, _, _, hCells⟩
  exact Cells.isFinite_of_ofJson? hCells

end Table

end Rowstore
