import Rowstore.Proofs.Statement.Definitions

/-
  The key clauses of table definitions.

  A key clause is written as two words and, in parentheses,
  names with commas between them.  The reader looks for a name
  at every other place and for a comma between, so it takes a
  comma behind the last name as well.  A table has the names of
  all its key clauses, in order; the first piece that can
  neither be read as a key clause nor as a column is what the
  error names.

  Main declarations:
    * `Lexeme.KeyClause` and `Lexeme.CommaKeyClause`
    * `Reader.keyClause_eq_ok_iff`
    * `Reader.TableWritten` and `Reader.tablePieces_eq_ok_iff`
    * `Statement.TableText`
    * `Statement.key_clauses_are_read`
-/

------------------------------------------------------------
-- Names In Parentheses
------------------------------------------------------------

namespace Rowstore

namespace Lexeme

variable {names names' : List String}
variable {ls list piece : List Lexeme} {c : Lexeme}

/- Two words, and in parentheses names with commas between them. -/
inductive KeyClause : List String → List Lexeme → Prop where
| intro
    {names : List String}
    {w k p q : Lexeme}
    {list : List Lexeme}
    (hPrimary : w.token = .keyword .primary)
    (hKey : k.token = .keyword .key)
    (hOpen : p.token = .mark .openParen)
    (hNames : NameList names list)
    (hClose : q.token = .mark .closeParen) :
    KeyClause names (w :: k :: p :: (list ++ [q]))

/- A key clause with one more comma behind its last name. -/
inductive CommaKeyClause :
    List String → List Lexeme → Prop where
| intro
    {names : List String}
    {w k p c q : Lexeme}
    {list : List Lexeme}
    (hPrimary : w.token = .keyword .primary)
    (hKey : k.token = .keyword .key)
    (hOpen : p.token = .mark .openParen)
    (hNames : NameList names list)
    (hComma : c.token = .mark .comma)
    (hClose : q.token = .mark .closeParen) :
    CommaKeyClause names (w :: k :: p :: (list ++ [c] ++ [q]))

/- Further names end in a name, if there are any. -/
theorem MoreNames.not_comma
    (hNames : MoreNames names ls)
    (hComma : c.token = .mark .comma) :
    ls ≠ list ++ [c] := by
  induction hNames generalizing list with
  | nil => simp
  | @cons d l name names ls _ hName _ ih =>
      intro hSplit
      cases list with
      | nil => cases hSplit
      | cons e list =>
          rw [List.cons_append, List.cons.injEq] at hSplit
          rcases hSplit with ⟨_, hSplit⟩
          cases list with
          | nil =>
              cases hSplit
              exact not_mark_of_name hName .comma hComma
          | cons e list =>
              rw [List.cons_append, List.cons.injEq] at hSplit
              exact ih hSplit.2

/- A list of names ends in a name. -/
theorem NameList.not_comma
    (hNames : NameList names ls)
    (hComma : c.token = .mark .comma) :
    ls ≠ list ++ [c] := by
  rcases hNames with @⟨l, name, names, ls, hName, hMore⟩
  intro hSplit
  cases list with
  | nil =>
      cases hSplit
      exact not_mark_of_name hName .comma hComma
  | cons e list =>
      rw [List.cons_append, List.cons.injEq] at hSplit
      exact hMore.not_comma hComma hSplit.2

/- No clause is written both with and without a comma at its end. -/
theorem KeyClause.no_comma
    (hClause : KeyClause names piece) :
    ¬CommaKeyClause names' piece := by
  rcases hClause with ⟨_, _, _, hNames, _⟩
  generalize hPiece : _ :: _ :: _ :: (_ ++ [_]) = all
  rintro ⟨_, _, _, _, hComma, _⟩
  simp only [List.cons.injEq] at hPiece
  have hSplit := (List.append_inj' hPiece.2.2.2 rfl).1
  exact hNames.not_comma hComma hSplit

end Lexeme

namespace Reader

open Lexeme

variable {names : List String} {ls piece : List Lexeme}

/- One name and a comma more in front of names. -/
theorem nameList_cons
    {l c : Lexeme}
    {name : String}
    (hName : l.name? = some name)
    (hComma : c.token = .mark .comma)
    (hNames : NameList names ls) :
    NameList (name :: names) (l :: c :: ls) := by
  rcases hNames with ⟨hFirst, hMore⟩
  exact .intro hName (.cons hComma hFirst hMore)

/-
  Names at every other place: nothing at all, names with commas
  between them, or such names and one more comma.
-/
theorem alternatingNames?_eq_some_iff :
    alternatingNames? ls = some names ↔
      (ls = [] ∧ names = []) ∨ NameList names ls ∨
        ∃ list c,
          ls = list ++ [c] ∧ NameList names list ∧
            c.token = .mark .comma := by
  constructor
  · intro hNames
    fun_induction alternatingNames? ls generalizing names with
    | case1 =>
        cases hNames
        exact .inl ⟨rfl, rfl⟩
    | case2 n =>
        rw [Option.map_eq_some_iff] at hNames
        rcases hNames with ⟨name, hName, rfl⟩
        exact .inr (.inl (.intro hName .nil))
    | case3 => cases hNames
    | case4 n c ls name hName hComma ih =>
        rw [Option.map_eq_some_iff] at hNames
        rcases hNames with ⟨others, hOthers, rfl⟩
        have hToken : c.token = .mark .comma := by
          simpa [isMark] using hComma
        rcases ih hOthers with
          ⟨rfl, rfl⟩ | hList | ⟨list, d, rfl, hList, hLast⟩
        · exact
            .inr
              (.inr ⟨[n], c, rfl, .intro hName .nil, hToken⟩)
        · exact
            .inr (.inl (nameList_cons hName hToken hList))
        · exact
            .inr
              (.inr
                ⟨n :: c :: list, d, rfl,
                  nameList_cons hName hToken hList, hLast⟩)
    | case5 => cases hNames
  · -- With or without a comma behind them, names are found.
    have hFound
        (rest : List Lexeme)
        (hRest :
          rest = [] ∨ ∃ c, rest = [c] ∧ c.token = .mark .comma)
        {l : Lexeme}
        {name : String}
        {names : List String}
        {more : List Lexeme}
        (hName : l.name? = some name)
        (hMore : MoreNames names more) :
        alternatingNames? (l :: (more ++ rest)) =
          some (name :: names) := by
      induction hMore generalizing l name with
      | nil =>
          rcases hRest with rfl | ⟨c, rfl, hComma⟩
          · simp [alternatingNames?, hName]
          · simp [alternatingNames?, hName, isMark, hComma]
      | cons hComma hNext _ ih =>
          simp [alternatingNames?, hName, isMark, hComma,
            ih hNext]
    rintro
      (⟨rfl, rfl⟩ | hNames | ⟨list, c, rfl, hNames, hComma⟩)
    · rfl
    · rcases hNames with ⟨hName, hMore⟩
      have hList := hFound [] (.inl rfl) hName hMore
      rwa [List.append_nil] at hList
    · rcases hNames with ⟨hName, hMore⟩
      exact hFound [c] (.inr ⟨c, rfl, hComma⟩) hName hMore

theorem ne_nil_of_nameList (hNames : NameList names ls) :
    names ≠ [] := by
  cases hNames
  exact List.cons_ne_nil _ _

theorem keyClause?_cons
    (w k p : Lexeme)
    (inner : List Lexeme) :
    keyClause? (w :: k :: p :: inner) =
      if k.isKeyword .key && p.isMark .openParen &&
          inner.getLast?.any (isMark .closeParen) then
        (alternatingNames? inner.dropLast).filter fun names =>
          !names.isEmpty
      else none := rfl

/- A piece is read as a key clause if it is one, up to a comma behind the last name. -/
theorem keyClause_eq_ok_iff
    (hStarts : startsKeyClause piece = true) :
    keyClause piece = .ok names ↔
      KeyClause names piece ∨ CommaKeyClause names piece := by
  have hOk :
      keyClause piece = .ok names ↔
        keyClause? piece = some names := by
    unfold keyClause
    cases keyClause? piece <;> simp
  rw [hOk]
  constructor
  · intro hClause
    rcases piece with _ | ⟨w, _ | ⟨k, _ | ⟨p, inner⟩⟩⟩
    · cases hClause
    · cases hClause
    · cases hClause
    have hPrimary : w.token = .keyword .primary :=
      isKeyword_iff.mp hStarts
    rw [keyClause?_cons] at hClause
    split at hClause
    · rename_i hShape
      rw [Bool.and_eq_true, Bool.and_eq_true, isKeyword_iff]
        at hShape
      rcases hShape with ⟨⟨hKey, hOpen⟩, hClose⟩
      have hOpen : p.token = .mark .openParen := by
        simpa [isMark] using hOpen
      rcases List.eq_nil_or_concat inner with
        rfl | ⟨list, q, rfl⟩
      · cases hClose
      rw [List.concat_eq_append] at hClause hClose ⊢
      have hLast : q.token = .mark .closeParen := by
        simpa [isMark] using hClose
      rw [List.dropLast_concat, Option.filter_eq_some_iff,
        alternatingNames?_eq_some_iff] at hClause
      rcases hClause with
        ⟨⟨_, rfl⟩ | hNames | ⟨list, c, rfl, hNames, hComma⟩,
          hSome⟩
      · cases hSome
      · exact .inl (.intro hPrimary hKey hOpen hNames hLast)
      · exact
          .inr (.intro hPrimary hKey hOpen hNames hComma hLast)
    · cases hClause
  · intro hClause
    -- Both kinds of clauses pass the test of their shape.
    have hFound
        {w k p q : Lexeme}
        {list : List Lexeme}
        (hKey : k.token = .keyword .key)
        (hOpen : p.token = .mark .openParen)
        (hClose : q.token = .mark .closeParen)
        (hNames : alternatingNames? list = some names)
        (hSome : names ≠ []) :
        keyClause? (w :: k :: p :: (list ++ [q])) =
          some names := by
      simp [keyClause?, isKeyword, isMark, hKey, hOpen, hClose,
        hNames, hSome]
    rcases hClause with hClause | hClause
    · rcases hClause with ⟨_, hKey, hOpen, hNames, hClose⟩
      exact
        hFound hKey hOpen hClose
          (alternatingNames?_eq_some_iff.mpr
            (.inr (.inl hNames)))
          (ne_nil_of_nameList hNames)
    · rcases hClause with
        ⟨_, hKey, hOpen, hNames, hComma, hClose⟩
      exact
        hFound hKey hOpen hClose
          (alternatingNames?_eq_some_iff.mpr
            (.inr (.inr ⟨_, _, rfl, hNames, hComma⟩)))
          (ne_nil_of_nameList hNames)

------------------------------------------------------------
-- Pieces Of A Table
------------------------------------------------------------

/- The pieces of a table with its columns and the names of its key, in order. -/
inductive TableWritten :
    List (List Lexeme) → List ColumnDefinition →
      List String → Prop where
| nil : TableWritten [] [] []
| key
    {p : List Lexeme}
    {ps : List (List Lexeme)}
    {columns : List ColumnDefinition}
    {names others : List String}
    (hClause :
      KeyClause names p ∨ CommaKeyClause names p)
    (hRest : TableWritten ps columns others) :
    TableWritten (p :: ps) columns (names ++ others)
| column
    {p : List Lexeme}
    {ps : List (List Lexeme)}
    {column : ColumnDefinition}
    {columns : List ColumnDefinition}
    {names : List String}
    (hColumn : columnDefinition p = .ok column)
    (hRest : TableWritten ps columns names) :
    TableWritten (p :: ps) (column :: columns) names

/- The piece is a key clause or defines a column. -/
def ReadablePiece (p : List Lexeme) : Prop :=
  (∃ names, KeyClause names p ∨ CommaKeyClause names p) ∨
    ∃ column, columnDefinition p = .ok column

/- Both kinds of key clauses start with their word. -/
theorem startsKeyClause_of_clause
    (hClause :
      KeyClause names piece ∨ CommaKeyClause names piece) :
    startsKeyClause piece = true := by
  rcases hClause with hClause | hClause
  · rcases hClause with ⟨hPrimary, _⟩
    exact isKeyword_iff.mpr hPrimary
  · rcases hClause with ⟨hPrimary, _⟩
    exact isKeyword_iff.mpr hPrimary

theorem tablePieces_eq_ok_iff
    {pieces : List (List Lexeme)}
    {columns : List ColumnDefinition}
    {key : List String} :
    tablePieces pieces = .ok (columns, key) ↔
      TableWritten pieces columns key := by
  induction pieces generalizing columns key with
  | nil =>
      constructor
      · intro hPieces
        cases hPieces
        exact .nil
      · intro hWritten
        cases hWritten
        rfl
  | cons p ps ih =>
      rw [tablePieces_cons_eq_ok_iff]
      constructor
      · rintro
          (⟨hStarts, names, others, hClause, hRest, rfl⟩ |
            ⟨_, first, others, hColumn, hRest, rfl⟩)
        · exact
            .key ((keyClause_eq_ok_iff hStarts).mp hClause)
              (ih.mp hRest)
        · exact .column hColumn (ih.mp hRest)
      · intro hWritten
        cases hWritten with
        | key hClause hRest =>
            have hStarts := startsKeyClause_of_clause hClause
            exact
              .inl
                ⟨hStarts, _, _,
                  (keyClause_eq_ok_iff hStarts).mpr hClause,
                  ih.mpr hRest, rfl⟩
        | column hColumn hRest =>
            exact
              .inr
                ⟨startsKeyClause_of_columnDefinition hColumn, _, _,
                  hColumn, ih.mpr hRest, rfl⟩

/- A piece that cannot be read is named by the error, whatever comes behind it. -/
theorem tablePieces_of_unreadable
    (hPiece : ¬ReadablePiece piece)
    (ps : List (List Lexeme)) :
    tablePieces (piece :: ps) =
      .error (.invalidColumnDefinition (source piece)) := by
  rw [tablePieces]
  by_cases hStarts : startsKeyClause piece = true
  · have hClause :
        keyClause piece =
          .error (.invalidColumnDefinition (source piece)) := by
      cases hNames : keyClause? piece with
      | none => simp [keyClause, hNames]
      | some names =>
          have hOk : keyClause piece = .ok names := by
            simp [keyClause, hNames]
          rw [keyClause_eq_ok_iff hStarts] at hOk
          exact absurd (.inl ⟨names, hOk⟩) hPiece
    rw [if_pos hStarts, hClause]
    rfl
  · have hColumn :
        columnDefinition piece =
          .error (.invalidColumnDefinition (source piece)) := by
      cases hRead : columnDefinition piece with
      | ok column => exact absurd (.inr ⟨column, hRead⟩) hPiece
      | error e =>
          unfold columnDefinition at hRead
          dsimp only at hRead
          split at hRead
          · cases hRead
          · rw [← hRead]
            rfl
    rw [if_neg hStarts, hColumn]
    rfl

/- The pieces in front of the first one that cannot be read do not matter. -/
theorem tablePieces_of_first_unreadable
    {before after : List (List Lexeme)}
    (hBefore : ∀ p ∈ before, ReadablePiece p)
    (hPiece : ¬ReadablePiece piece) :
    tablePieces (before ++ piece :: after) =
      .error (.invalidColumnDefinition (source piece)) := by
  induction before with
  | nil => exact tablePieces_of_unreadable hPiece after
  | cons p before ih =>
      rw [List.forall_mem_cons] at hBefore
      rw [List.cons_append, tablePieces, ih hBefore.2]
      rcases hBefore.1 with ⟨names, hClause⟩ | ⟨column, hColumn⟩
      · have hStarts := startsKeyClause_of_clause hClause
        rw [if_pos hStarts,
          (keyClause_eq_ok_iff hStarts).mpr hClause]
        rfl
      · rw [if_neg (by
            simp [startsKeyClause_of_columnDefinition hColumn]),
          hColumn]
        rfl

/- Of pieces that cannot be read, one is the first. -/
theorem exists_first_unreadable
    {pieces : List (List Lexeme)}
    (hSome : ∃ p ∈ pieces, ¬ReadablePiece p) :
    ∃ before p after,
      pieces = before ++ p :: after ∧
        (∀ b ∈ before, ReadablePiece b) ∧ ¬ReadablePiece p := by
  induction pieces with
  | nil => simp at hSome
  | cons first pieces ih =>
      by_cases hFirst : ReadablePiece first
      · have hRest : ∃ p ∈ pieces, ¬ReadablePiece p := by
          rcases hSome with ⟨p, hMember, hPiece⟩
          rcases List.mem_cons.mp hMember with rfl | hMember
          · exact absurd hFirst hPiece
          · exact ⟨p, hMember, hPiece⟩
        rcases ih hRest with
          ⟨before, p, after, rfl, hBefore, hPiece⟩
        refine ⟨first :: before, p, after, rfl, ?_, hPiece⟩
        rw [List.forall_mem_cons]
        exact ⟨hFirst, hBefore⟩
      · exact ⟨[], first, pieces, rfl, by simp, hFirst⟩

end Reader

end Rowstore

------------------------------------------------------------
-- Texts That Create Tables
------------------------------------------------------------

namespace Rowstore

namespace Statement

open Lexeme

/-
  The text creates a table: two words, the name of the table,
  and parentheses with lexemes between and behind them.
-/
inductive TableText :
    String → String → List Lexeme → List Lexeme → Prop where
| intro
    {text table : String}
    {w k t o q : Lexeme}
    {inner rest : List Lexeme}
    (hText :
      Lexer.lexemes (normalize text.toList) =
        w :: k :: t :: o :: (inner ++ q :: rest))
    (hCreate : w.token = .keyword .create)
    (hKind : k.token = .keyword .table)
    (hTable : t.name? = some table)
    (hOpen : o.token = .mark .openParen)
    (hInner : Closes 0 inner)
    (hClose : q.token = .mark .closeParen) :
    TableText text table inner rest

variable {text table : String} {inner rest : List Lexeme}

/- What is read from such a text: its pieces, and nothing behind them. -/
theorem parse_tableText
    (hText : TableText text table inner rest) :
    parse text =
      match Reader.tablePieces (splitCommas 0 inner) with
      | .error e => .error e
      | .ok (columns, key) =>
        if rest.isEmpty then
          .ok (.command (.createTable table columns key))
        else
          .error
            (Reader.unexpected Reader.createTableUsage rest) := by
  rcases hText with
    @⟨w, k, t, o, q, _, _, hText, hCreate, hKind,
      hTable, hOpen, hInner, hClose⟩
  have hRead :
      Reader.createTable.run (t :: o :: (inner ++ q :: rest)) =
        match Reader.tablePieces (splitCommas 0 inner) with
        | .error e => .error e
        | .ok (columns, key) =>
          .ok (.createTable table columns key, rest) := by
    unfold Reader.createTable
    rw [Reader.run_bind_of_ok
        (Reader.name_eq_ok_iff.mpr ⟨t, rfl, hTable⟩),
      Reader.run_bind_of_ok
        ((@Reader.expect_eq_ok_iff _ _ _ _ ()).mpr
          ⟨o, rfl, hOpen⟩),
      Reader.run_bind_of_ok
        (Reader.enclosed_eq_ok_iff.mpr
          ⟨q, rfl, hInner, hClose⟩)]
    cases Reader.tablePieces (splitCommas 0 inner) <;> rfl
  have hNext :
      Reader.create.run (k :: t :: o :: (inner ++ q :: rest)) =
        Reader.createTable.run
          (t :: o :: (inner ++ q :: rest)) := by
    have hTake :
        Reader.next?.run (k :: t :: o :: (inner ++ q :: rest)) =
          .ok (some k, t :: o :: (inner ++ q :: rest)) := rfl
    unfold Reader.create
    rw [Reader.run_bind_of_ok hTake, Option.map_some, hKind]
  unfold parse
  simp only [hText, ofLexemes, hCreate, Reader.afterFirst?,
    StateT.run_bind, hNext, hRead]
  cases Reader.tablePieces (splitCommas 0 inner) with
  | error e => rfl
  | ok parts =>
      cases rest with
      | nil => rfl
      | cons l rest => rfl

/-
  The pieces between the parentheses of a text that creates a
  table.  Its key has the names of all pieces that are key
  clauses, in order.  A piece that starts with their word is
  accepted exactly if it is written as a key clause, or as one
  with a comma behind the last name; any other such piece makes
  the text fail, and the error names the first piece that
  cannot be read.
-/
theorem key_clauses_are_read
    (hText : TableText text table inner rest) :
    let pieces := splitCommas 0 inner
    (∀ p ∈ pieces, Reader.startsKeyClause p = true →
      (((∃ names, Reader.keyClause p = .ok names) ↔
          ∃ names, KeyClause names p) ↔
        ¬∃ names, CommaKeyClause names p) ∧
        ∀ names,
          Reader.keyClause p = .ok names ↔
            KeyClause names p ∨ CommaKeyClause names p) ∧
      (∀ columns key,
        parse text =
            .ok (.command (.createTable table columns key)) ↔
          rest = [] ∧
            Reader.TableWritten pieces columns key) ∧
        ((∃ p ∈ pieces,
            Reader.startsKeyClause p = true ∧
              ∀ names,
                ¬KeyClause names p ∧
                  ¬CommaKeyClause names p) →
          ∃ before p after,
            pieces = before ++ p :: after ∧
              (∀ b ∈ before, Reader.ReadablePiece b) ∧
                parse text =
                  .error
                    (.invalidColumnDefinition (source p))) := by
  intro pieces
  have hParse := parse_tableText hText
  refine ⟨?_, ?_, ?_⟩
  · intro p _ hStarts
    have hAccepted (names : List String) :=
      @Reader.keyClause_eq_ok_iff names p hStarts
    refine ⟨?_, hAccepted⟩
    simp only [hAccepted]
    constructor
    · rintro hSame ⟨names, hComma⟩
      rcases hSame.mp ⟨names, .inr hComma⟩ with
        ⟨names', hClause⟩
      exact hClause.no_comma hComma
    · intro hNone
      constructor
      · rintro ⟨names, hClause | hComma⟩
        · exact ⟨names, hClause⟩
        · exact absurd ⟨names, hComma⟩ hNone
      · rintro ⟨names, hClause⟩
        exact ⟨names, .inl hClause⟩
  · intro columns key
    rw [hParse, ← Reader.tablePieces_eq_ok_iff]
    cases Reader.tablePieces pieces with
    | error e => simp
    | ok parts =>
        cases rest <;> simp [Prod.ext_iff]
  · rintro ⟨p, hPiece, hStarts, hNone⟩
    have hUnreadable : ¬Reader.ReadablePiece p := by
      rintro (⟨names, hClause | hComma⟩ | ⟨column, hColumn⟩)
      · exact (hNone names).1 hClause
      · exact (hNone names).2 hComma
      · rw [Reader.startsKeyClause_of_columnDefinition hColumn]
          at hStarts
        cases hStarts
    rcases Reader.exists_first_unreadable
        ⟨p, hPiece, hUnreadable⟩ with
      ⟨before, first, after, hSplit, hBefore, hFirst⟩
    refine ⟨before, first, after, hSplit, hBefore, ?_⟩
    have hFails :
        Reader.tablePieces pieces =
          .error (.invalidColumnDefinition (source first)) := by
      rw [hSplit]
      exact
        Reader.tablePieces_of_first_unreadable hBefore hFirst
    rw [hParse, hFails]

/- The lexemes of a column and of a key clause with some lexemes in its parentheses. -/
def keyedColumn (list : List Lexeme) : List Lexeme :=
  [ofWord [] "a", ofWord [' '] "INT", ofMark [] ',',
      ofWord [' '] "PRIMARY", ofWord [' '] "KEY",
      ofMark [' '] '('] ++
    list ++ [ofMark [] ')']

/- A text whose tokens are those of a table with such pieces. -/
theorem tableText_of_keyedColumn
    {list : List Lexeme}
    (hText :
      Lexer.lexemes (normalize text.toList) =
        ofWord [] "CREATE" :: ofWord [' '] "TABLE" ::
          ofWord [' '] "t" :: ofMark [' '] '(' ::
            (keyedColumn list ++ [ofMark [] ')']))
    (hInner : splitAtClose 0
      (keyedColumn list ++ [ofMark [] ')']) =
        some (keyedColumn list, [])) :
    TableText text "t" (keyedColumn list) [] := by
  rcases splitAtClose_eq_some_iff.mp hInner with
    ⟨q, hSplit, hCloses, hClose⟩
  rw [hSplit] at hText
  exact
    .intro hText (by decide) (by decide) (by decide)
      (by decide) hCloses hClose

/- Two names with a comma between them are the key of a table. -/
theorem two_names_are_read :
    let text := "CREATE TABLE t (a INT, PRIMARY KEY (a, b))"
    let list :=
      [ofWord [] "a", ofMark [] ',', ofWord [' '] "b"]
    TableText text "t" (keyedColumn list) [] ∧
      parse text =
        .ok (.command (.createTable "t"
          [{ name := "a"
             typeText := "INT"
             primaryKey := false }] ["a", "b"])) ∧
        Reader.TableWritten (splitCommas 0 (keyedColumn list))
          [{ name := "a"
             typeText := "INT"
             primaryKey := false }] ["a", "b"] := by
  intro text list
  have hText : TableText text "t" (keyedColumn list) [] :=
    tableText_of_keyedColumn (by decide +kernel)
      (by decide +kernel)
  have hParse :
      parse text =
        .ok (.command (.createTable "t"
          [{ name := "a"
             typeText := "INT"
             primaryKey := false }] ["a", "b"])) := by
    decide +kernel
  exact
    ⟨hText, hParse,
      (((key_clauses_are_read hText).2.1 _ _).mp hParse).2⟩

/- A comma behind the last name is no part of a key clause, and the table is created. -/
theorem last_comma_is_accepted :
    let text := "CREATE TABLE t (a INT, PRIMARY KEY (a,))"
    let inner :=
      keyedColumn [ofWord [] "a", ofMark [] ',']
    TableText text "t" inner [] ∧
      (∃ p ∈ splitCommas 0 inner,
        Reader.startsKeyClause p = true ∧
          ∀ names, ¬KeyClause names p) ∧
        parse text =
          .ok (.command (.createTable "t"
            [{ name := "a"
               typeText := "INT"
               primaryKey := false }] ["a"])) := by
  intro text inner
  refine
    ⟨tableText_of_keyedColumn (by decide +kernel)
      (by decide +kernel), ?_, by decide +kernel⟩
  have hNames : NameList ["a"] [ofWord [] "a"] :=
    .intro (by decide) .nil
  have hComma :
      CommaKeyClause ["a"]
        (ofWord [' '] "PRIMARY" :: ofWord [' '] "KEY" ::
          ofMark [' '] '(' ::
            ([ofWord [] "a"] ++ [ofMark [] ','] ++
              [ofMark [] ')'])) :=
    .intro (by decide) (by decide) (by decide) hNames
      (by decide) (by decide)
  refine
    ⟨_, ?_, Reader.startsKeyClause_of_clause (.inr hComma),
      fun names hClause => hClause.no_comma hComma⟩
  decide +kernel

end Statement

end Rowstore
