import Mathlib.Data.List.Perm.Basic
import Rowstore.Table.Selection

/-
  The comparison operators agree with each other, on values
  of all kinds.

  Equality and order are defined apart, for each pair of
  kinds.  They agree if every number that is compared is
  finite and denoted by the text that shows it: between two
  values that are not null, exactly one of the signs `<`, `=`
  and `>` holds.  So a literal divides the rows of a table.

  Main declarations:
    * `Value.compareNumbers_eq` and `Value.compareNumbers_swap`
    * `Value.compareTexts_swap` and `Value.compareTexts_eq_iff`
    * `Value.Legible`
    * `Value.looseCompare_swap` and
      `Value.looseEq_iff_looseCompare`
    * `Comparison.Coherent`
    * `Comparison.coherent_and_partitions`
-/

------------------------------------------------------------
-- Numbers
------------------------------------------------------------

namespace Rowstore

namespace Value

variable {x y : Float}

open Float.Model in
/- Changing sides reverses the order of binary numbers. -/
theorem compare_unpacked_swap (x y : UnpackedFloat) :
    y.compare x = (x.compare y).map Ordering.swap := by
  have hParts (e e' : Int) (m m' : Nat) :
      (compare e' e).then (compare m' m) =
        ((compare e e').then (compare m m')).swap := by
    rw [Ordering.swap_then, ← Std.OrientedOrd.eq_swap,
      ← Std.OrientedOrd.eq_swap]
  -- Only two finite numbers of one sign compare by their parts.
  rcases x with s | _ | s | ⟨s, m, e, hm⟩ <;>
    rcases y with s' | _ | s' | ⟨s', m', e', hm'⟩ <;>
    first
      | rfl
      | (cases s <;> rfl)
      | (cases s' <;> rfl)
      | (cases s <;> cases s' <;>
          first
            | rfl
            | exact congrArg some (hParts e e' m m')
            | exact congrArg (fun o => some o.swap)
                (hParts e e' m m'))

theorem lt_iff_compare_unpacked :
    x < y ↔
      x.toModel.unpack.compare y.toModel.unpack =
        some .lt := by
  change decide (x.toModel < y.toModel) = true ↔ _
  rw [decide_eq_true_eq]
  exact beq_iff_eq

theorem beq_iff_compare_unpacked :
    (x == y) = true ↔
      x.toModel.unpack.compare y.toModel.unpack =
        some .eq := by
  change
    (x.toModel.unpack.compare y.toModel.unpack ==
      some .eq) = true ↔ _
  exact beq_iff_eq

/- The three signs between numbers come from one comparison. -/
theorem compareNumbers_eq (x y : Float) :
    compareNumbers x y =
      x.toModel.unpack.compare y.toModel.unpack := by
  unfold compareNumbers
  simp only [lt_iff_compare_unpacked,
    beq_iff_compare_unpacked]
  rw [compare_unpacked_swap x.toModel.unpack]
  rcases x.toModel.unpack.compare y.toModel.unpack with
    _ | _ | _ | _ <;> simp

theorem compareNumbers_swap (x y : Float) :
    compareNumbers y x =
      (compareNumbers x y).map Ordering.swap := by
  rw [compareNumbers_eq, compareNumbers_eq,
    compare_unpacked_swap]

theorem beq_iff_compareNumbers :
    (x == y) = true ↔ compareNumbers x y = some .eq := by
  rw [compareNumbers_eq, beq_iff_compare_unpacked]

theorem beq_comm_numbers (x y : Float) :
    (x == y) = (y == x) := by
  rw [Bool.eq_iff_iff, beq_iff_compareNumbers,
    beq_iff_compareNumbers, compareNumbers_swap x y,
    Option.map_eq_some_iff]
  constructor
  · intro hEqual
    exact ⟨.eq, hEqual, rfl⟩
  · rintro ⟨o, hOrder, hSwap⟩
    cases o <;> simp_all

open Float.Model in
theorem isSome_compare_unpacked
    {x y : UnpackedFloat}
    (hx : x.isFinite = true)
    (hy : y.isFinite = true) :
    (x.compare y).isSome = true := by
  rcases x with s | _ | s | ⟨s, m, e, hm⟩
  · cases hx
  · cases hx
  · rcases y with s' | _ | s' | ⟨s', _⟩
    · cases hy
    · cases hy
    · rfl
    · cases s' <;> rfl
  · rcases y with s' | _ | s' | ⟨s', _⟩
    · cases hy
    · cases hy
    · cases s <;> rfl
    · cases s <;> cases s' <;> rfl

/- Finite numbers are ordered. -/
theorem isSome_compareNumbers
    (hx : x.isFinite = true)
    (hy : y.isFinite = true) :
    (compareNumbers x y).isSome = true := by
  rw [compareNumbers_eq]
  exact isSome_compare_unpacked hx hy

theorem isFinite_of_parseNumber
    {s : List Char}
    (hParse : parseNumber s = some x) :
    x.isFinite = true := by
  unfold parseNumber at hParse
  dsimp only at hParse
  split at hParse
  · exact (Option.filter_eq_some_iff.mp hParse).2
  · cases hParse

theorem isFinite_booleanNumber (b : Bool) :
    (booleanNumber b).isFinite = true := by
  cases b <;> decide +kernel

end Value

end Rowstore

------------------------------------------------------------
-- Texts
------------------------------------------------------------

namespace Rowstore

namespace Value

theorem compareTexts_swap (s t : List Char) :
    compareTexts t s = (compareTexts s t).swap := by
  fun_induction compareTexts s t with
  | case1 => rfl
  | case2 => rfl
  | case3 => rfl
  | case4 a s b t hLess =>
      rw [compareTexts, if_neg (by omega), if_pos hLess]
      rfl
  | case5 a s b t hNotLess hLess =>
      rw [compareTexts, if_pos hLess]
      rfl
  | case6 a s b t hNotLess hNotMore ih =>
      rw [compareTexts, if_neg hNotMore, if_neg hNotLess, ih]

theorem compareTexts_eq_iff {s t : List Char} :
    compareTexts s t = .eq ↔ s = t := by
  fun_induction compareTexts s t with
  | case1 => simp
  | case2 => simp
  | case3 => simp
  | case4 a s b t hLess =>
      simp only [reduceCtorEq, List.cons.injEq, false_iff]
      rintro ⟨rfl, _⟩
      exact Nat.lt_irrefl _ hLess
  | case5 a s b t hNotLess hLess =>
      simp only [reduceCtorEq, List.cons.injEq, false_iff]
      rintro ⟨rfl, _⟩
      exact hNotLess hLess
  | case6 a s b t hNotLess hNotMore ih =>
      have hSame : a = b := Char.toNat_inj.mp (by omega)
      rw [ih, List.cons.injEq, and_iff_right hSame]

/- A text before a number is ordered like the number before the text, the other way round. -/
theorem compareTextNumber_eq
    (t : List Char)
    (x : Float) :
    compareTextNumber t x =
      (compareNumberText x t).map Ordering.swap := by
  unfold compareTextNumber compareNumberText
  cases parseNumber t with
  | some y => exact compareNumbers_swap x y
  | none =>
      dsimp only
      rw [Option.map_some, compareTexts_swap]

/- The words for truth values are in small letters. -/
theorem lowerBasic_booleanText (b : Bool) :
    Text.lowerBasic (booleanText b).toList =
      (booleanText b).toList := by
  cases b <;> decide

end Value

end Rowstore

------------------------------------------------------------
-- Values Of All Kinds
------------------------------------------------------------

namespace Rowstore

namespace Value

variable {a b : Value}

/- The number is finite, and the text that shows it denotes it. -/
def LegibleNumber (x : Float) : Prop :=
  x.isFinite = true ∧
    ((parseNumber (formatNumber x)).any fun y => y == x) =
      true

instance (x : Float) : Decidable (LegibleNumber x) :=
  inferInstanceAs (Decidable (_ ∧ _))

/- The number that the value may carry is legible. -/
def Legible : Value → Prop
| number x => LegibleNumber x
| _ => True

instance (v : Value) : Decidable v.Legible :=
  match v with
  | null => inferInstanceAs (Decidable True)
  | boolean _ => inferInstanceAs (Decidable True)
  | number x => inferInstanceAs (Decidable (LegibleNumber x))
  | text _ => inferInstanceAs (Decidable True)

/- The text that shows a legible number is read as a number. -/
theorem LegibleNumber.parseNumber_ne_none
    {x : Float}
    (hLegible : LegibleNumber x) :
    parseNumber (formatNumber x) ≠ none := by
  intro hNone
  simpa [hNone] using hLegible.2

theorem map_swap_eq_some_iff
    {answer : Option Ordering}
    {o : Ordering} :
    answer.map Ordering.swap = some o ↔
      answer = some o.swap := by
  rcases answer with _ | _ | _ | _ <;> cases o <;> simp

theorem looseEq_comm (a b : Value) :
    a.looseEq b = b.looseEq a := by
  cases a with
  | null => cases b <;> rfl
  | boolean p =>
      cases b with
      | boolean q => exact Bool.beq_comm
      | null | number | text => rfl
  | number x =>
      cases b with
      | number y => exact beq_comm_numbers x y
      | null | boolean | text => rfl
  | text s =>
      cases b with
      | text t => exact Bool.beq_comm
      | null | boolean | number => rfl

/- Changing sides reverses the order of values. -/
theorem looseCompare_swap (a b : Value) :
    b.looseCompare a =
      (a.looseCompare b).map Ordering.swap := by
  cases a with
  | null => cases b <;> rfl
  | boolean p =>
      cases b with
      | null => rfl
      | boolean q => cases p <;> cases q <;> rfl
      | number y => exact compareNumbers_swap _ y
      | text t => rfl
  | number x =>
      cases b with
      | null => rfl
      | boolean q => exact compareNumbers_swap x _
      | number y => exact compareNumbers_swap x y
      | text t => exact compareTextNumber_eq t.toList x
  | text s =>
      cases b with
      | null => rfl
      | boolean q => simp [looseCompare]
      | number y =>
          rw [looseCompare, looseCompare, compareTextNumber_eq]
          simp [Function.comp_def]
      | text t =>
          simp only [looseCompare, Option.map_some]
          rw [compareTexts_swap]

theorem numberEqText_iff
    {x : Float}
    (hLegible : LegibleNumber x)
    (t : List Char) :
    numberEqText x t = true ↔
      compareNumberText x t = some .eq := by
  unfold numberEqText compareNumberText
  cases hParse : parseNumber t with
  | some y =>
      dsimp only
      rw [beq_comm_numbers, beq_iff_compareNumbers]
  | none =>
      -- The text is no number, so it is not the one shown.
      have hOther : formatNumber x ≠ t := by
        rintro rfl
        exact hLegible.parseNumber_ne_none hParse
      simp [compareTexts_eq_iff, hOther]

theorem booleanEqText_iff
    (b : Bool)
    (t : List Char) :
    booleanEqText b t = true ↔
      compareBooleanText b t = .eq := by
  unfold booleanEqText compareBooleanText
  cases parseNumber t with
  | some y =>
      dsimp only
      rw [beq_comm_numbers, beq_iff_compareNumbers]
      rcases compareNumbers (booleanNumber b) y with
        _ | _ | _ | _ <;> simp
  | none =>
      dsimp only
      rw [Text.sameLetters_iff, lowerBasic_booleanText,
        compareTexts_eq_iff, eq_comm]

/- Between values that are not null, equality is a case of the order. -/
theorem looseEq_iff_looseCompare
    (ha : a.Legible)
    (hb : b.Legible)
    (hNoNullLeft : a.isNull = false)
    (hNoNullRight : b.isNull = false) :
    a.looseEq b = true ↔ a.looseCompare b = some .eq := by
  have hTurn (a b : Value) :
      (b.looseEq a = true ↔ b.looseCompare a = some .eq) →
        (a.looseEq b = true ↔
          a.looseCompare b = some .eq) := by
    intro hBack
    rw [looseEq_comm, looseCompare_swap b a,
      map_swap_eq_some_iff]
    exact hBack
  cases a with
  | null => cases hNoNullLeft
  | boolean p =>
      cases b with
      | null => cases hNoNullRight
      | boolean q => cases p <;> cases q <;> decide
      | number y => exact beq_iff_compareNumbers
      | text t =>
          rw [looseCompare, Option.some.injEq]
          exact booleanEqText_iff p t.toList
  | number x =>
      cases b with
      | null => cases hNoNullRight
      | boolean q =>
          apply hTurn
          exact beq_iff_compareNumbers
      | number y => exact beq_iff_compareNumbers
      | text t => exact numberEqText_iff ha t.toList
  | text s =>
      cases b with
      | null => cases hNoNullRight
      | boolean q =>
          apply hTurn
          rw [looseCompare, Option.some.injEq]
          exact booleanEqText_iff q s.toList
      | number y =>
          apply hTurn
          exact numberEqText_iff hb s.toList
      | text t =>
          rw [looseEq, looseCompare, Option.some.injEq,
            compareTexts_eq_iff, beq_iff_eq,
            String.toList_inj]

/- Values that are not null are ordered. -/
theorem isSome_looseCompare
    (ha : a.Legible)
    (hb : b.Legible)
    (hNoNullLeft : a.isNull = false)
    (hNoNullRight : b.isNull = false) :
    (a.looseCompare b).isSome = true := by
  have hText (x : Float) (t : List Char) :
      LegibleNumber x →
        (compareNumberText x t).isSome = true := by
    intro hLegible
    unfold compareNumberText
    cases hParse : parseNumber t with
    | some y =>
        exact isSome_compareNumbers hLegible.1
          (isFinite_of_parseNumber hParse)
    | none => rfl
  cases a with
  | null => cases hNoNullLeft
  | boolean p =>
      cases b with
      | null => cases hNoNullRight
      | boolean q => rfl
      | number y =>
          exact isSome_compareNumbers
            (isFinite_booleanNumber p) hb.1
      | text t => rfl
  | number x =>
      cases b with
      | null => cases hNoNullRight
      | boolean q =>
          exact isSome_compareNumbers ha.1
            (isFinite_booleanNumber q)
      | number y => exact isSome_compareNumbers ha.1 hb.1
      | text t => exact hText x t.toList ha
  | text s =>
      cases b with
      | null => cases hNoNullRight
      | boolean q => rfl
      | number y =>
          rw [looseCompare, compareTextNumber_eq,
            Option.isSome_map]
          exact hText y s.toList hb
      | text t => rfl

end Value

end Rowstore

------------------------------------------------------------
-- Operators
------------------------------------------------------------

namespace Rowstore

namespace Comparison

variable {a b : Value}

/- What the operators make of two values that are not null. -/
structure Ordered (a b : Value) : Prop where
  equality :
    a.looseEq b = true ↔ a.looseCompare b = some .eq
  exactlyOne :
    ∃! op, op ∈ [lt, eq, gt] ∧ op.holds a b = true
  atMost :
    le.holds a b = (lt.holds a b || eq.holds a b)
  atLeast :
    ge.holds a b = (gt.holds a b || eq.holds a b)
  reversed : lt.holds a b = gt.holds b a

/- What the operators make of two values, one of which is null. -/
structure Unordered (a b : Value) : Prop where
  none :
    ∀ op ∈ [lt, le, gt, ge], op.holds a b = false
  equality :
    eq.holds a b = true ↔ a.isNull = true ∧ b.isNull = true

/- The operators agree with each other on two values. -/
structure Coherent (a b : Value) : Prop where
  symmetric : a.looseEq b = b.looseEq a
  reversed :
    b.looseCompare a = (a.looseCompare b).map Ordering.swap
  negated : ne.holds a b = !eq.holds a b
  ordered :
    a.isNull = false → b.isNull = false → Ordered a b
  unordered :
    a.isNull = true ∨ b.isNull = true → Unordered a b

theorem holds_lt_swap (a b : Value) :
    lt.holds a b = gt.holds b a := by
  simp only [holds]
  rw [Value.looseCompare_swap a b]
  rcases a.looseCompare b with _ | _ | _ | _ <;> rfl

/- Once equality is a case of the order, the three signs are apart. -/
theorem ordered_of_looseCompare
    {o : Ordering}
    (hOrder : a.looseCompare b = some o)
    (hEquality :
      a.looseEq b = true ↔ a.looseCompare b = some .eq) :
    Ordered a b := by
  have hEqual : a.looseEq b = (o == .eq) := by
    rw [Bool.eq_iff_iff, hEquality, hOrder, beq_iff_eq,
      Option.some.injEq]
  refine
    { equality := hEquality
      exactlyOne := ?_
      atMost := ?_
      atLeast := ?_
      reversed := holds_lt_swap a b }
  · cases o with
    | lt => exact ⟨lt, by simp [holds, hOrder, hEqual]⟩
    | eq => exact ⟨eq, by simp [holds, hOrder, hEqual]⟩
    | gt => exact ⟨gt, by simp [holds, hOrder, hEqual]⟩
  · cases o <;> simp [holds, hOrder, hEqual]
  · cases o <;> simp [holds, hOrder, hEqual]

theorem ordered_of_legible
    (ha : a.Legible)
    (hb : b.Legible)
    (hNoNullLeft : a.isNull = false)
    (hNoNullRight : b.isNull = false) :
    Ordered a b := by
  have hSome :=
    Value.isSome_looseCompare ha hb hNoNullLeft hNoNullRight
  rcases Option.isSome_iff_exists.mp hSome with ⟨o, hOrder⟩
  exact
    ordered_of_looseCompare hOrder
      (Value.looseEq_iff_looseCompare ha hb hNoNullLeft
        hNoNullRight)

theorem unordered_of_isNull
    (hNull : a.isNull = true ∨ b.isNull = true) :
    Unordered a b := by
  have hOrder : a.looseCompare b = Option.none := by
    cases a <;> cases b <;> simp_all [Value.isNull,
      Value.looseCompare]
  refine ⟨by simp [holds, hOrder], ?_⟩
  cases a <;> cases b <;> simp_all [Value.isNull, holds,
    Value.looseEq]

theorem coherent_of_legible
    (ha : a.Legible)
    (hb : b.Legible) :
    Coherent a b where
  symmetric := Value.looseEq_comm a b
  reversed := Value.looseCompare_swap a b
  negated := rfl
  ordered := ordered_of_legible ha hb
  unordered := unordered_of_isNull

end Comparison

end Rowstore

------------------------------------------------------------
-- Rows
------------------------------------------------------------

namespace Rowstore

/- The rows whose cell under a column compares with a literal, in table order. -/
def Table.compared
    (t : Table)
    (column : ColumnId)
    (op : Comparison)
    (literal : Value) : List Row :=
  t.rows.filter
    (Test.holds
      { column := column
        op := op
        literal := literal })

namespace Comparison

open Value

variable {α : Type}

/- Two properties that exclude each other divide the members that have either. -/
theorem perm_filter_of_exclusive
    {p q n : α → Bool}
    {l : List α}
    (hEither : ∀ x ∈ l, n x = (p x || q x))
    (hApart : ∀ x ∈ l, p x = true → q x = false) :
    (l.filter p ++ l.filter q).Perm (l.filter n) := by
  have hFirst :
      (l.filter n).filter p = l.filter p := by
    rw [List.filter_filter]
    apply List.filter_congr
    intro x hMember
    rw [hEither x hMember]
    cases p x <;> rfl
  have hSecond :
      ((l.filter n).filter fun x => !p x) = l.filter q := by
    rw [List.filter_filter]
    apply List.filter_congr
    intro x hMember
    have hNotBoth := hApart x hMember
    rw [hEither x hMember]
    cases hp : p x <;> simp_all
  have hDivided := List.filter_append_perm p (l.filter n)
  rwa [hFirst, hSecond] at hDivided

variable {t : Table} {column : ColumnId} {literal : Value}

/- Equal and different rows are all rows. -/
theorem perm_eq_append_ne
    (t : Table)
    (column : ColumnId)
    (literal : Value) :
    (t.compared column eq literal ++
      t.compared column ne literal).Perm t.rows :=
  List.filter_append_perm _ t.rows

theorem Ordered.exclusive
    {a b : Value}
    {op other : Comparison}
    (hOrdered : Ordered a b)
    (hOp : op ∈ [lt, eq, gt])
    (hOther : other ∈ [lt, eq, gt])
    (hApart : op ≠ other)
    (hHolds : op.holds a b = true) :
    other.holds a b = false := by
  rw [Bool.eq_false_iff]
  intro hBoth
  exact
    hApart
      (hOrdered.exactlyOne.unique ⟨hOp, hHolds⟩
        ⟨hOther, hBoth⟩)

/- Of three signs one holds, so the two ordered ones with equality cover all. -/
theorem Ordered.covers
    {a b : Value}
    (hOrdered : Ordered a b) :
    (le.holds a b || gt.holds a b) = true := by
  rcases hOrdered.exactlyOne.exists with
    ⟨op, hOp, hHolds⟩
  rw [hOrdered.atMost]
  simp only [List.mem_cons, List.not_mem_nil, or_false] at hOp
  rcases hOp with rfl | rfl | rfl <;> simp [hHolds]

/- A null cell compares with no literal but null. -/
theorem not_holds_of_isNull
    {a b : Value}
    {op : Comparison}
    (hNull : a.isNull = true)
    (hNoNull : b.isNull = false)
    (hOp : op ≠ ne) :
    op.holds a b = false := by
  have hNone := unordered_of_isNull (b := b) (.inl hNull)
  have hDifferent : eq.holds a b = false := by
    rw [Bool.eq_false_iff, ne_eq, hNone.equality, hNoNull]
    simp
  cases op with
  | ne => contradiction
  | eq => exact hDifferent
  | lt | le | gt | ge => exact hNone.none _ (by simp)

/- A literal that is not null divides the rows with a cell that is not null. -/
theorem perm_lt_append_eq_append_gt
    (hLiteral : literal.Legible)
    (hNoNull : literal.isNull = false)
    (hCells : ∀ r ∈ t.rows, (r.get column).Legible) :
    (t.compared column lt literal ++
      t.compared column eq literal ++
      t.compared column gt literal).Perm
        (t.rows.filter fun r => !(r.get column).isNull) := by
  have hOrdered :
      ∀ r ∈ t.rows, (r.get column).isNull = false →
        Ordered (r.get column) literal :=
    fun r hMember hCell =>
      ordered_of_legible (hCells r hMember) hLiteral hCell
        hNoNull
  have hUpTo :
      (t.compared column lt literal ++
        t.compared column eq literal).Perm
          (t.compared column le literal) := by
    apply perm_filter_of_exclusive
    · intro r hMember
      cases hCell : (r.get column).isNull with
      | false => exact (hOrdered r hMember hCell).atMost
      | true =>
          simp [Test.holds, not_holds_of_isNull hCell hNoNull]
    · intro r hMember hLess
      cases hCell : (r.get column).isNull with
      | false =>
          exact
            (hOrdered r hMember hCell).exclusive (by simp)
              (by simp) (by simp) hLess
      | true =>
          exact not_holds_of_isNull hCell hNoNull (by simp)
  have hAll :
      (t.compared column le literal ++
        t.compared column gt literal).Perm
          (t.rows.filter fun r =>
            !(r.get column).isNull) := by
    apply perm_filter_of_exclusive
    · intro r hMember
      cases hCell : (r.get column).isNull with
      | false => exact (hOrdered r hMember hCell).covers.symm
      | true =>
          simp [Test.holds, not_holds_of_isNull hCell hNoNull]
    · intro r hMember hUpTo
      cases hCell : (r.get column).isNull with
      | false =>
          have hRow := hOrdered r hMember hCell
          simp only [Test.holds, hRow.atMost,
            Bool.or_eq_true] at hUpTo
          rcases hUpTo with hLess | hEqual
          · exact
              hRow.exclusive (by simp) (by simp) (by simp)
                hLess
          · exact
              hRow.exclusive (by simp) (by simp) (by simp)
                hEqual
      | true =>
          exact not_holds_of_isNull hCell hNoNull (by simp)
  exact (hUpTo.append_right _).trans hAll

/- A condition selects the rows that compare with its literal. -/
theorem selected_eq_compared
    {text : String}
    {c : Condition}
    {found : Column}
    (hParse : Condition.parse text = .ok c)
    (hColumn : t.column? c.column = some found) :
    t.selected (some text) =
      .ok (t.compared found.id c.op c.literal) := by
  simp [Table.selected, Table.rowsWhere, hParse,
    Condition.bind, Table.columnNamed, hColumn, bind,
    Except.bind, pure, Except.pure, Table.compared]

/-
  The operators agree on all values, and a literal divides the
  rows of a table that conditions select: those with an equal
  and those with another cell are all rows, and if the literal
  is not null, those with a lesser, an equal and a greater
  cell are the rows with a cell that is not null.
-/
theorem coherent_and_partitions :
    (∀ a b : Value, a.Legible → b.Legible → Coherent a b) ∧
      (∀ (t : Table) (column : ColumnId) (literal : Value),
        (t.compared column eq literal ++
          t.compared column ne literal).Perm t.rows ∧
        (literal.Legible → literal.isNull = false →
          (∀ r ∈ t.rows, (r.get column).Legible) →
            (t.compared column lt literal ++
              t.compared column eq literal ++
              t.compared column gt literal).Perm
                (t.rows.filter fun r =>
                  !(r.get column).isNull))) ∧
      ∀ (t : Table) (text : String) (c : Condition)
        (column : Column),
        Condition.parse text = .ok c →
          t.column? c.column = some column →
            t.selected (some text) =
              .ok (t.compared column.id c.op c.literal) :=
  ⟨fun _ _ => coherent_of_legible,
    fun t column literal =>
      ⟨perm_eq_append_ne t column literal,
        perm_lt_append_eq_append_gt⟩,
    fun _ _ _ _ => selected_eq_compared⟩

/- Cells of all kinds are divided by a truth value. -/
theorem mixed_cells_are_divided :
    let column : Column :=
      { id := ⟨1⟩
        name := "a"
        base := .text
        declaredType := "TEXT"
        length := none
        precision := none
        scale := none
        isPrimaryKey := false }
    let cells : List Value :=
      [.null, .number 1.5, .boolean false, .text " TRUE ",
        .text "1", .text "zero"]
    let t : Table :=
      { Table.new ⟨⟨0⟩⟩ "t" with
        columns := [column]
        rows := cells.zipIdx.map fun (v, n) =>
          { id := ⟨n⟩
            cells := .ofList [(⟨1⟩, v)] } }
    ((number (-0.0)).Legible ∧ (text " 0 ").Legible ∧
      Coherent (number (-0.0)) (text " 0 ")) ∧
      ((boolean true).Legible ∧
        (boolean true).isNull = false ∧
        (∀ r ∈ t.rows, (r.get ⟨1⟩).Legible) ∧
        (t.compared ⟨1⟩ lt (boolean true) ++
          t.compared ⟨1⟩ eq (boolean true) ++
          t.compared ⟨1⟩ gt (boolean true)).Perm
            (t.rows.filter fun r =>
              !(r.get ⟨1⟩).isNull)) ∧
      Condition.parse "A <= true" =
        .ok
          { column := "A"
            op := .le
            literal := boolean true } ∧
      t.column? "A" = some column ∧
      t.selected (some "A <= true") =
        .ok (t.compared ⟨1⟩ le (boolean true)) := by
  intro column cells t
  have hZero : (number (-0.0)).Legible := by
    decide +kernel
  have hRows : ∀ r ∈ t.rows, (r.get ⟨1⟩).Legible := by
    decide +kernel
  have hParse :
      Condition.parse "A <= true" =
        .ok
          { column := "A"
            op := .le
            literal := boolean true } := by
    decide +kernel
  have hColumn : t.column? "A" = some column := by
    decide +kernel
  rcases coherent_and_partitions with
    ⟨hCoherent, hDivided, hSelected⟩
  exact
    ⟨⟨hZero, trivial, hCoherent _ _ hZero trivial⟩,
      ⟨trivial, rfl, hRows,
        (hDivided t ⟨1⟩ (boolean true)).2 trivial rfl hRows⟩,
      hParse, hColumn, hSelected t _ _ _ hParse hColumn⟩

end Comparison

end Rowstore
