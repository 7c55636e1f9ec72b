import Rowstore.Proofs.Identity
import Rowstore.Proofs.Table.Document

/-
  Tables are read as they were written.  What this takes is
  that amounts fit the words they are read into, and that
  numbers survive being written and read.

  Main declarations:
    * `Json.Survives` and `Table.NumbersSurvive`
    * `Column.Fits`, `Row.Fits` and `Table.Fits`
    * `Cells.ofJson?_toJson`
    * `Table.ofJson?_toJson`
-/

------------------------------------------------------------
-- Values
------------------------------------------------------------

namespace Rowstore

open Json

/- The number is finite, and is read as it was written. -/
def Json.Survives (x : Float) : Prop :=
  x.isFinite = true ∧ float? (ofFloat x) = some x

instance (x : Float) : Decidable (Survives x) :=
  inferInstanceAs (Decidable (_ ∧ _))

/- The value is no number, or one that survives. -/
def Value.NumberSurvives (v : Value) : Prop :=
  ∀ x ∈ v.number?, Survives x

instance (v : Value) : Decidable v.NumberSurvives :=
  inferInstanceAs (Decidable (∀ x ∈ v.number?, Survives x))

/- No kind of value is taken for another one. -/
theorem Value.ofJson?_toJson
    {v : Value}
    (hNumber : v.NumberSurvives) :
    Value.ofJson? v.toJson = some v := by
  cases v with
  | null => rfl
  | boolean b => rfl
  | number x =>
      rcases hNumber x rfl with ⟨hFinite, hRead⟩
      have hWritten :
          ofFloat x =
            .number (Numeral.ofDecimal
              (Decimal.shortest .toEven x)) :=
        if_pos hFinite
      simp only [Value.toJson, hWritten] at hRead ⊢
      simp only [Value.ofJson?, hRead, Option.map_some]
  | text s =>
      have hRead : Json.text? (ofText s) = some s :=
        text?_ofText s
      unfold ofText at hRead
      simp only [Value.toJson, ofText, Value.ofJson?, hRead,
        Option.map_some]

end Rowstore

------------------------------------------------------------
-- Columns
------------------------------------------------------------

namespace Rowstore

open Json

/- A size that is declared fits its word. -/
def SizeFits (size : Option Nat) : Prop :=
  ∀ n ∈ size, n ≤ DeclaredType.maxArgument

instance (size : Option Nat) : Decidable (SizeFits size) :=
  inferInstanceAs
    (Decidable (∀ n ∈ size, n ≤ DeclaredType.maxArgument))

theorem size?_map_ofNat
    {size : Option Nat}
    (hFits : SizeFits size) :
    size? (size.map ofNat) = some size := by
  cases size with
  | none => rfl
  | some n =>
      have hAmount := natUpTo?_ofNat (hFits n rfl)
      unfold ofNat at hAmount
      simp only [size?, Option.map_some, withDefault?_some,
        nullable?, ofNat, hAmount]

/- The declared sizes of a column fit their words. -/
def Column.SizesFit (c : Column) : Prop :=
  SizeFits c.length ∧ SizeFits c.precision ∧ SizeFits c.scale

instance (c : Column) : Decidable c.SizesFit :=
  inferInstanceAs (Decidable (_ ∧ _ ∧ _))

/- The identifier of a column and its sizes fit their words. -/
def Column.Fits (c : Column) : Prop :=
  c.id.value ≤ maxId ∧ c.SizesFit

instance (c : Column) : Decidable c.Fits :=
  inferInstanceAs (Decidable (_ ∧ _))

theorem ColumnId.ofJson?_toJson
    {c : ColumnId}
    (hFits : c.value ≤ maxId) :
    ColumnId.ofJson? c.toJson = some c := by
  unfold ColumnId.ofJson? ColumnId.toJson
  rw [natUpTo?_ofNat hFits, Option.map_some]

theorem Column.ofJson?_toJson
    {c : Column}
    (hFits : c.Fits) :
    Column.ofJson? c.toJson = some c := by
  rcases hFits with ⟨hId, hLength, hPrecision, hScale⟩
  unfold Column.ofJson?
  simp only [Column.fields?_toJson, place_zero, place_succ,
    required?_some, withDefault?_some, text?_ofText, boolean?,
    BaseType.word?_name, ColumnId.ofJson?_toJson hId,
    size?_map_ofNat hLength, size?_map_ofNat hPrecision,
    size?_map_ofNat hScale, Option.bind_eq_bind,
    Option.bind_some, Option.pure_def]

end Rowstore

------------------------------------------------------------
-- Rows
------------------------------------------------------------

namespace Rowstore

open Json

/- The keys of cells fit their words. -/
def Cells.KeysFit (cells : Cells) : Prop :=
  ∀ cell ∈ cells.toList, cell.1.value ≤ maxId

instance (cells : Cells) : Decidable cells.KeysFit :=
  inferInstanceAs (Decidable (∀ cell ∈ cells.toList, _))

/- All numbers in cells survive. -/
def Cells.NumbersSurvive (cells : Cells) : Prop :=
  ∀ cell ∈ cells.toList, cell.2.NumberSurvives

instance (cells : Cells) : Decidable cells.NumbersSurvive :=
  inferInstanceAs (Decidable (∀ cell ∈ cells.toList, _))

theorem Cells.key?_digitsText
    {c : ColumnId}
    (hFits : c.value ≤ maxId) :
    Cells.key? (Decimal.digitsText c.value) = some c := by
  have hSome :
      (Decimal.digitsText c.value).isEmpty = false :=
    List.isEmpty_eq_false_iff.mpr
      (Decimal.digitsText_ne_nil c.value)
  have hDigits :
      (Decimal.digitsText c.value).all Decimal.isDigit =
        true :=
    List.all_eq_true.mpr
      fun _ hMem => Decimal.isDigit_of_mem_digitsText hMem
  have hFirst :
      ((Decimal.digitsText c.value).head? == some '0' &&
          (Decimal.digitsText c.value).length != 1) =
        false := by
    rcases Nat.eq_zero_or_pos c.value with hZero | hPositive
    · rw [hZero]
      rfl
    · rw [beq_false_of_ne (Decimal.head?_digitsText hPositive)]
      rfl
  simp only [Cells.key?, hSome, hDigits, hFirst,
    Decimal.digitsValue_digitsText, decide_eq_false
    (Nat.not_lt.mpr hFits)]
  rfl

theorem Cells.mapM_cell?
    {cells : List Cell}
    (hKeys : ∀ cell ∈ cells, cell.1.value ≤ maxId)
    (hNumbers : ∀ cell ∈ cells, cell.2.NumberSurvives) :
    (cells.map fun (c, v) =>
        (Decimal.digitsText c.value, v.toJson)).mapM
        Cells.cell? =
      some cells := by
  induction cells with
  | nil => rfl
  | cons cell cells ih =>
      rw [List.forall_mem_cons] at hKeys hNumbers
      have hCell :
          Cells.cell?
              (Decimal.digitsText cell.1.value,
                cell.2.toJson) =
            some cell := by
        simp only [Cells.cell?, Cells.key?_digitsText hKeys.1,
          Value.ofJson?_toJson hNumbers.1,
          Option.bind_eq_bind, Option.bind_some,
          Option.pure_def]
      rw [List.map_cons, List.mapM_cons, hCell,
        ih hKeys.2 hNumbers.2]
      rfl

/- Cells stand in order, so storing them one after the other gives them back. -/
theorem Cells.ofJson?_toJson
    {cells : Cells}
    (hKeys : cells.KeysFit)
    (hNumbers : cells.NumbersSurvive) :
    Cells.ofJson? cells.toJson = some cells := by
  simp only [Cells.toJson, Cells.ofJson?,
    Cells.mapM_cell? hKeys hNumbers, Option.map_some,
    Cells.ofList_eq fun _ => Iff.rfl]

/- The identifier of a row and the keys of its cells fit their words. -/
def Row.Fits (r : Row) : Prop :=
  r.id.value ≤ maxId ∧ r.cells.KeysFit

instance (r : Row) : Decidable r.Fits :=
  inferInstanceAs (Decidable (_ ∧ _))

theorem RowId.ofJson?_toJson
    {r : RowId}
    (hFits : r.value ≤ maxId) :
    RowId.ofJson? r.toJson = some r := by
  unfold RowId.ofJson? RowId.toJson
  rw [natUpTo?_ofNat hFits, Option.map_some]

theorem Row.ofJson?_toJson
    {r : Row}
    (hFits : r.Fits)
    (hNumbers : r.cells.NumbersSurvive) :
    Row.ofJson? r.toJson = some r := by
  unfold Row.ofJson?
  simp only [Row.fields?_toJson, place_zero, place_succ,
    required?_some, withDefault?_some,
    RowId.ofJson?_toJson hFits.1,
    Cells.ofJson?_toJson hFits.2 hNumbers,
    Option.bind_eq_bind, Option.bind_some, Option.pure_def]

end Rowstore

------------------------------------------------------------
-- Tables
------------------------------------------------------------

namespace Rowstore

open Json

/- Both counters fit their words. -/
def Counters.Fits (c : Counters) : Prop :=
  c.nextColumn ≤ maxId ∧ c.nextRow ≤ maxId

instance (c : Counters) : Decidable c.Fits :=
  inferInstanceAs (Decidable (_ ∧ _))

theorem Counters.ofJson?_toJson
    {c : Counters}
    (hFits : c.Fits) :
    Counters.ofJson? c.toJson = some c := by
  unfold Counters.ofJson?
  simp only [Counters.fields?_toJson, place_zero, place_succ,
    required?_some, natUpTo?_ofNat hFits.1, natUpTo?_ofNat hFits.2, Option.bind_eq_bind,
    Option.bind_some, Option.pure_def]

namespace Table

/- All amounts in a table fit their words. -/
def Fits (t : Table) : Prop :=
  (∀ c ∈ t.columns, c.Fits) ∧ (∀ r ∈ t.rows, r.Fits) ∧
    t.counters.Fits

instance (t : Table) : Decidable t.Fits :=
  inferInstanceAs (Decidable (_ ∧ _ ∧ _))

/- All numbers in the rows of a table survive. -/
def NumbersSurvive (t : Table) : Prop :=
  ∀ r ∈ t.rows, r.cells.NumbersSurvive

instance (t : Table) : Decidable t.NumbersSurvive :=
  inferInstanceAs (Decidable (∀ r ∈ t.rows, _))

theorem ofJson?_toJson
    {t : Table}
    (hFits : t.Fits)
    (hNumbers : t.NumbersSurvive) :
    Table.ofJson? t.toJson = some t := by
  rcases hFits with ⟨hColumns, hRows, hCounters⟩
  have hId : TableId.ofJson? t.id.toJson = some t.id := by
    unfold TableId.ofJson? TableId.toJson
    rw [Uuid.ofJson?_toJson, Option.map_some]
  have hColumnList :
      list? Column.ofJson?
          (.array (t.columns.map Column.toJson)) =
        some t.columns :=
    list?_array_map fun c hMem =>
      Column.ofJson?_toJson (hColumns c hMem)
  have hRowList :
      list? Row.ofJson? (.array (t.rows.map Row.toJson)) =
        some t.rows :=
    list?_array_map fun r hMem =>
      Row.ofJson?_toJson (hRows r hMem) (hNumbers r hMem)
  unfold Table.ofJson?
  simp only [Table.fields?_toJson, place_zero, place_succ,
    required?_some, withDefault?_some, text?_ofText, hId,
    hColumnList, hRowList, Counters.ofJson?_toJson hCounters,
    Option.bind_eq_bind, Option.bind_some, Option.pure_def]

end Table

end Rowstore
