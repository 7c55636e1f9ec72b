import Rowstore.Proofs.Database.Lossless

/-
  Collections that revisions make fit the words into which
  their documents are read, as long as their counters do and
  the times that are recorded exist.  Declared sizes fit
  since no larger ones are accepted, and identifiers and the
  keys of cells stay below the counters.

  Main declarations:
    * `DeclaredType.sizesFit_of_parse`
    * `Collection.WellFormed` and
      `Collection.wellFormed_of_revised`
    * `Collection.WellFormed.fits`
-/

------------------------------------------------------------
-- Declared Sizes
------------------------------------------------------------

namespace Rowstore

namespace DeclaredType

theorem le_of_argument?
    {s : List Char}
    {n : Nat}
    (hArgument : argument? s = some n) :
    n ≤ maxArgument := by
  have hDigits :
      ∀ digits : List Char,
        (if digits.isEmpty || !digits.all Decimal.isDigit ||
            maxArgument < Decimal.digitsValue digits then
          none
        else some (Decimal.digitsValue digits)) = some n →
        n ≤ maxArgument := by
    intro digits hValue
    split at hValue
    · cases hValue
    · rename_i hWithin
      cases hValue
      simp only [Bool.or_eq_true, decide_eq_true_eq, not_or]
        at hWithin
      exact Nat.not_lt.mp hWithin.2
  exact hDigits _ hArgument

theorem le_of_parts?
    {s word : List Char}
    {arguments : List Nat}
    (hParts : parts? s = some (word, arguments)) :
    ∀ n ∈ arguments, n ≤ maxArgument := by
  unfold parts? at hParts
  simp only at hParts
  split at hParts
  · cases hParts
    exact List.forall_mem_nil _
  · split at hParts
    · rcases Option.bind_eq_some_iff.mp hParts with
        ⟨read, hRead, hDone⟩
      cases hDone
      intro n hMem
      rcases Json.exists_mem_of_forall₂
        (Json.forall₂_of_mapM hRead) hMem with
        ⟨piece, _, hArgument⟩
      exact le_of_argument? hArgument
    · cases hParts

/- The sizes of a type are arguments of its declaration. -/
theorem sizesFit_of_arguments
    {spelling : String}
    {base : BaseType}
    {arguments : List Nat}
    (hArguments : ∀ n ∈ arguments, n ≤ maxArgument)
    {type : DeclaredType}
    (hType : ofArguments? spelling base arguments = some type) :
    SizeFits type.length ∧ SizeFits type.precision ∧
      SizeFits type.scale := by
  have hNone : SizeFits none := fun n hMem => by cases hMem
  have hSome : ∀ n ∈ arguments, SizeFits (some n) := by
    intro n hMem m hSize
    cases hSize
    exact hArguments n hMem
  rcases arguments with _ | ⟨n, _ | ⟨m, _ | _⟩⟩
  · cases hType
    exact ⟨hNone, hNone, hNone⟩
  · have hOnly : SizeFits (some n) :=
      hSome n List.mem_cons_self
    simp only [ofArguments?] at hType
    split at hType
    · cases hType
      exact ⟨hOnly, hNone, hNone⟩
    · cases hType
      exact ⟨hNone, hOnly, hNone⟩
  · simp only [ofArguments?] at hType
    split at hType
    · cases hType
      exact ⟨hNone, hNone, hNone⟩
    · cases hType
      exact
        ⟨hNone, hSome n List.mem_cons_self,
          hSome m (List.mem_cons_of_mem n List.mem_cons_self)⟩
  · cases hType

theorem sizesFit_of_parse
    {text : String}
    {type : DeclaredType}
    (hType : parse text = some type) :
    SizeFits type.length ∧ SizeFits type.precision ∧
      SizeFits type.scale := by
  rcases Option.bind_eq_some_iff.mp hType with
    ⟨⟨word, arguments⟩, hParts, hType⟩
  simp only at hType
  split at hType
  · exact sizesFit_of_arguments (le_of_parts? hParts) hType
  · cases hType

end DeclaredType

namespace Table

/- The declared sizes of all columns fit their words. -/
def SizesFit (t : Table) : Prop :=
  ∀ c ∈ t.columns, c.SizesFit

theorem sizesFit_of_revised
    {names : List String}
    {t t' : Table}
    (hRevised : t.Revised names t')
    (hFit : t.SizesFit) :
    t'.SizesFit :=
  forall_columns_of_revised
    (fun _ _ _ _ _ _ hType =>
      DeclaredType.sizesFit_of_parse hType)
    hRevised hFit

theorem lasts_sizesFit (names : List String) :
    Table.Lasts names Table.SizesFit where
  created := fun _ _ _ => List.forall_mem_nil _
  revised := sizesFit_of_revised
  renamed := fun _ hFit => hFit

/- Identifiers and keys of cells are below the counters. -/
theorem fits_of_identified
    {t : Table}
    (hIdentified : t.Identified)
    (hSizes : t.SizesFit)
    (hCounters : t.counters.Fits) :
    t.Fits := by
  rcases hCounters with ⟨hNextColumn, hNextRow⟩
  have hColumn :
      ∀ c ∈ t.columns, c.id.value ≤ Json.maxId :=
    fun c hMem =>
      (hIdentified.columns_below c hMem).le.trans hNextColumn
  refine ⟨?_, ?_, hNextColumn, hNextRow⟩
  · intro c hMem
    exact ⟨hColumn c hMem, hSizes c hMem⟩
  · intro r hMem
    refine
      ⟨(hIdentified.rows_below r hMem).le.trans hNextRow, ?_⟩
    intro cell hCell
    -- A cell has the key of a column, which is below the counter.
    rcases List.mem_map.mp
      (hIdentified.cells_within r hMem cell hCell) with
      ⟨c, hOwn, hKey⟩
    rw [← hKey]
    exact hColumn c hOwn

end Table

end Rowstore

------------------------------------------------------------
-- Collections
------------------------------------------------------------

namespace Rowstore

theorem Database.timesExist_of_revised
    {names : List String}
    {times : List Moment}
    {ids : List TableId}
    (hTimes : ∀ m ∈ times, m.IsValid)
    {d d' : Database}
    (hRevised : d.Revised names times ids d')
    (hExist : d.TimesExist) :
    d'.TimesExist := by
  intro e hMem
  cases hRevised with
  | tableRevised => exact hExist e hMem
  | tableAdded => exact hExist e hMem
  | tableRemoved => exact hExist e hMem
  | tableRenamed => exact hExist e hMem
  | permissionRecorded hTime =>
      rcases List.mem_append.mp hMem with hOld | hRecorded
      · exact hExist e hOld
      · rw [List.mem_singleton.mp hRecorded]
        exact hTimes _ hTime

namespace Collection

/- The counters of all tables fit their words. -/
def CountersFit (s : Collection) : Prop :=
  ∀ d ∈ s.databases, ∀ t ∈ d.tables, t.counters.Fits

instance (s : Collection) : Decidable s.CountersFit :=
  inferInstanceAs
    (Decidable (∀ d ∈ s.databases, ∀ t ∈ d.tables, _))

/-
  What revisions keep: tables are identified, the declared
  sizes of their columns fit their words, and the moments of
  permission logs exist.
-/
structure WellFormed (s : Collection) : Prop where
  identified : s.Identified
  sizesFit :
    ∀ d ∈ s.databases, ∀ t ∈ d.tables, t.SizesFit
  timesExist : ∀ d ∈ s.databases, d.TimesExist

theorem wellFormed_empty : Collection.empty.WellFormed where
  identified := identified_empty
  sizesFit := List.forall_mem_nil _
  timesExist := List.forall_mem_nil _

theorem timesExist_of_revised
    {names : List String}
    {times : List Moment}
    {ids : List TableId}
    (hTimes : ∀ m ∈ times, m.IsValid)
    {s s' : Collection}
    (hRevised : s.Revised names times ids s')
    (hExist : ∀ d ∈ s.databases, d.TimesExist) :
    ∀ d ∈ s'.databases, d.TimesExist :=
  forall_databases_of_revised
    (fun _ _ _ => List.forall_mem_nil _)
    (fun hDatabase =>
      Database.timesExist_of_revised hTimes hDatabase)
    hRevised hExist

theorem wellFormed_of_revised
    {names : List String}
    {times : List Moment}
    {ids : List TableId}
    (hTimes : ∀ m ∈ times, m.IsValid)
    {s s' : Collection}
    (hRevised : s.Revised names times ids s')
    (hWellFormed : s.WellFormed) :
    s'.WellFormed where
  identified :=
    identified_of_revised hRevised hWellFormed.identified
  sizesFit :=
    forall_tables_of_revised (Table.lasts_sizesFit names)
      hRevised hWellFormed.sizesFit
  timesExist :=
    timesExist_of_revised hTimes hRevised
      hWellFormed.timesExist

theorem WellFormed.fits
    {s : Collection}
    (hWellFormed : s.WellFormed)
    (hCounters : s.CountersFit) :
    s.Fits := by
  intro d hMem
  refine ⟨?_, hWellFormed.timesExist d hMem⟩
  intro t hTable
  exact
    Table.fits_of_identified
      (hWellFormed.identified d hMem t hTable)
      (hWellFormed.sizesFit d hMem t hTable)
      (hCounters d hMem t hTable)

end Collection

end Rowstore
