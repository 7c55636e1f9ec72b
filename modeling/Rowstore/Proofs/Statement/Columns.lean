import Rowstore.Proofs.Statement.Commands

/-
  How columns are defined.

  A definition has a name and a declared type, and words
  behind them that are only searched for those of a key.  The
  pieces of a table definition are columns and key clauses.

  Main declarations:
    * `Lexeme.TypeWritten` and
      `Reader.typeLexemes?_eq_some_iff`
    * `Reader.columnDefinition_eq_ok_iff`
    * `Reader.tablePieces_cons_eq_ok_iff`
-/

------------------------------------------------------------
-- Declared Types
------------------------------------------------------------

namespace Rowstore

/- A type is a name, or a name and parentheses up to the first closing one. -/
inductive Lexeme.TypeWritten :
    List Lexeme → List Lexeme → Prop where
| word
    {t : Lexeme}
    {rest : List Lexeme}
    (hName : t.name?.isSome = true)
    (hNoOpen :
      ∀ p ∈ rest.head?, p.token ≠ .mark .openParen) :
    TypeWritten [t] (t :: rest)
| arguments
    {t p q : Lexeme}
    {inner rest : List Lexeme}
    (hName : t.name?.isSome = true)
    (hOpen : p.token = .mark .openParen)
    (hInner : ∀ l ∈ inner, l.token ≠ .mark .closeParen)
    (hClose : q.token = .mark .closeParen) :
    TypeWritten (t :: p :: (inner ++ [q]))
      (t :: p :: (inner ++ q :: rest))

namespace Reader

open Lexeme

variable {ls type piece : List Lexeme}

theorem getElem?_length_takeWhile
    {α : Type}
    (p : α → Bool)
    (as : List α) :
    as[(as.takeWhile p).length]? =
      (as.dropWhile p).head? := by
  induction as with
  | nil => rfl
  | cons a as ih =>
      by_cases hHolds : p a = true
      · rw [List.takeWhile_cons_of_pos hHolds,
          List.dropWhile_cons_of_pos hHolds, List.length_cons,
          List.getElem?_cons_succ, ih]
      · rw [List.takeWhile_cons_of_neg hHolds,
          List.dropWhile_cons_of_neg hHolds]
        rfl

/- The arguments of a type, when its parenthesis has just been seen. -/
theorem typeLexemes?_open
    {t p : Lexeme}
    (hName : t.name?.isSome = true)
    (hOpen : p.token = .mark .openParen) :
    typeLexemes? (t :: p :: ls) =
      (ls.dropWhile fun l => !l.isMark .closeParen).head?.map
        fun q =>
          t :: p ::
            ((ls.takeWhile fun l => !l.isMark .closeParen) ++
              [q]) := by
  have hNone : ¬t.name?.isNone = true := by
    simpa [Option.isSome_iff_ne_none] using hName
  have hMark : p.isMark .openParen = true := by
    simp [isMark, hOpen]
  have hOther : (!p.isMark .closeParen) = true := by
    simp [isMark, hOpen]
  unfold typeLexemes?
  dsimp only
  rw [if_neg hNone, if_pos hMark, getElem?_length_takeWhile]
  simp only [List.dropWhile_cons, List.takeWhile_cons, hOther,
    if_true]
  rfl

theorem typeLexemes?_word
    {t : Lexeme}
    (hName : t.name?.isSome = true)
    (hNoOpen :
      ∀ p ∈ ls.head?, p.token ≠ .mark .openParen) :
    typeLexemes? (t :: ls) = some [t] := by
  have hNone : ¬t.name?.isNone = true := by
    simpa [Option.isSome_iff_ne_none] using hName
  unfold typeLexemes?
  dsimp only
  rw [if_neg hNone]
  cases ls with
  | nil => rfl
  | cons p ls =>
      have hMark : ¬p.isMark .openParen = true := by
        simpa [isMark] using hNoOpen
      exact if_neg hMark

/- The arguments end at the first closing parenthesis. -/
theorem typeWritten_of_close
    {t p q : Lexeme}
    (hName : t.name?.isSome = true)
    (hOpen : p.token = .mark .openParen)
    (hEnd :
      (ls.dropWhile fun l => !l.isMark .closeParen).head? =
        some q) :
    TypeWritten
      (t :: p ::
        ((ls.takeWhile fun l => !l.isMark .closeParen) ++
          [q]))
      (t :: p :: ls) := by
  have hSplit :=
    List.takeWhile_append_dropWhile
      (p := fun l : Lexeme => !l.isMark .closeParen)
      (l := ls)
  have hClose :=
    List.head?_dropWhile_not
      (fun l : Lexeme => !l.isMark .closeParen) ls
  have hAll :=
    List.all_eq_true.mp <|
      List.all_takeWhile
        (p := fun l : Lexeme => !l.isMark .closeParen)
        (l := ls)
  cases hRest :
      ls.dropWhile fun l => !l.isMark .closeParen with
  | nil =>
      rw [hRest] at hEnd
      cases hEnd
  | cons q' rest =>
      rw [hRest] at hEnd hSplit hClose
      cases hEnd
      have hInner :
          ∀ l ∈ ls.takeWhile fun l => !l.isMark .closeParen,
            l.token ≠ .mark .closeParen := by
        intro l hMember
        simpa [isMark] using hAll l hMember
      have hLast : q.token = .mark .closeParen := by
        simpa [isMark] using hClose
      have hWritten :
          TypeWritten _ (t :: p :: (_ ++ q :: rest)) :=
        .arguments hName hOpen hInner hLast
      rwa [hSplit] at hWritten

theorem typeLexemes?_eq_some_iff :
    typeLexemes? ls = some type ↔ TypeWritten type ls := by
  constructor
  · intro hType
    rcases ls with _ | ⟨t, ls⟩
    · cases hType
    have hName : t.name?.isSome = true := by
      cases hSome : t.name? with
      | some name => rfl
      | none => simp [typeLexemes?, hSome] at hType
    by_cases hOpen :
        ∃ p ∈ ls.head?, p.token = .mark .openParen
    · rcases hOpen with ⟨p, hHead, hOpen⟩
      rcases ls with _ | ⟨_, ls⟩
      · cases hHead
      cases hHead
      rw [typeLexemes?_open hName hOpen,
        Option.map_eq_some_iff] at hType
      rcases hType with ⟨q, hEnd, rfl⟩
      exact typeWritten_of_close hName hOpen hEnd
    · have hNoOpen :
          ∀ p ∈ ls.head?, p.token ≠ .mark .openParen :=
        fun p hHead hMark => hOpen ⟨p, hHead, hMark⟩
      rw [typeLexemes?_word hName hNoOpen] at hType
      cases hType
      exact .word hName hNoOpen
  · intro hWritten
    cases hWritten with
    | word hName hNoOpen =>
        exact typeLexemes?_word hName hNoOpen
    | @arguments t p q inner rest hName hOpen hInner hClose =>
        have hInside :
            ∀ l ∈ inner, (!l.isMark .closeParen) = true := by
          simpa [isMark] using hInner
        have hEnd : (!q.isMark .closeParen) = false := by
          simp [isMark, hClose]
        rw [typeLexemes?_open hName hOpen,
          List.dropWhile_append_of_pos hInside,
          List.takeWhile_append_of_pos hInside]
        simp [hEnd]

/- A definition has a name and a type, and anything behind them. -/
theorem columnDefinition_eq_ok_iff
    {column : ColumnDefinition} :
    columnDefinition piece = .ok column ↔
      ∃ l ls type,
        piece = l :: ls ∧ l.name? = some column.name ∧
          TypeWritten type ls ∧
            column.typeText = source type ∧
              column.primaryKey =
                declaresKey (sourceText piece) := by
  unfold columnDefinition
  constructor
  · intro hColumn
    rcases piece with _ | ⟨l, ls⟩
    · cases hColumn
    cases hName : l.name? with
    | none =>
        simp only [hName] at hColumn
        cases hColumn
    | some name =>
        cases hType : typeLexemes? ls with
        | none =>
            simp only [hName, hType] at hColumn
            cases hColumn
        | some type =>
            simp only [hName, hType] at hColumn
            cases hColumn
            rw [typeLexemes?_eq_some_iff] at hType
            exact ⟨l, ls, type, rfl, hName, hType, rfl, rfl⟩
  · rintro ⟨l, ls, type, rfl, hName, hType, hText, hKey⟩
    rw [← typeLexemes?_eq_some_iff] at hType
    simp only [hName, hType, ← hText, ← hKey]

/- One piece more is a key clause or a column. -/
theorem tablePieces_cons_eq_ok_iff
    {columns : List ColumnDefinition}
    {key : List String} :
    tablePieces (p :: pieces) = .ok (columns, key) ↔
      (startsKeyClause p = true ∧
        ∃ names others,
          keyClause p = .ok names ∧
            tablePieces pieces = .ok (columns, others) ∧
              key = names ++ others) ∨
        (startsKeyClause p = false ∧
          ∃ first others,
            columnDefinition p = .ok first ∧
              tablePieces pieces = .ok (others, key) ∧
                columns = first :: others) := by
  rw [tablePieces]
  constructor
  · intro hPieces
    cases hRest : tablePieces pieces with
    | error e =>
        rw [hRest] at hPieces
        split at hPieces
        · cases hFirst : keyClause p <;>
            (rw [hFirst] at hPieces
             cases hPieces)
        · cases hFirst : columnDefinition p <;>
            (rw [hFirst] at hPieces
             cases hPieces)
    | ok rest =>
        rw [hRest] at hPieces
        split at hPieces
        · rename_i hStarts
          cases hFirst : keyClause p with
          | error e =>
              rw [hFirst] at hPieces
              cases hPieces
          | ok names =>
              rw [hFirst] at hPieces
              cases hPieces
              exact
                .inl ⟨hStarts, names, rest.2, rfl, rfl, rfl⟩
        · rename_i hStarts
          cases hFirst : columnDefinition p with
          | error e =>
              rw [hFirst] at hPieces
              cases hPieces
          | ok first =>
              rw [hFirst] at hPieces
              cases hPieces
              exact
                .inr
                  ⟨by simpa using hStarts, first, rest.1, rfl,
                    rfl, rfl⟩
  · rintro
      (⟨hStarts, names, others, hFirst, hRest, rfl⟩ |
        ⟨hStarts, first, others, hFirst, hRest, rfl⟩)
    · rw [if_pos hStarts, hFirst, hRest]
      rfl
    · rw [if_neg (by simp [hStarts]), hFirst, hRest]
      rfl

end Reader

end Rowstore
