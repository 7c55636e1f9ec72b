import Mathlib.Control.Monad.Basic
import Rowstore.Proofs.Statement.Breaking
import Rowstore.Proofs.Statement.Columns
import Rowstore.Proofs.Statement.Derivation
import Rowstore.Proofs.Statement.Quoting

/-
  Column definitions in the two commands that take them.

  An added column runs to the end of its text, and words after
  its type are not looked at.  A created table has its column
  definitions between parentheses and commas.  The two read a
  definition alike exactly if it is one piece in front of a
  closing parenthesis, and declares a key there or not as it
  does alone.

  Main declarations:
    * `Reader.tablePieces_eq_single_iff`
    * `IsNameText`
    * `Statement.added_column_is_created_iff`
-/

------------------------------------------------------------
-- Definitions And What Follows Them
------------------------------------------------------------

namespace Rowstore

namespace Lexeme

variable {ls type inner extra : List Lexeme} {q : Lexeme}

/- Words behind a type change nothing, if no parenthesis is opened. -/
theorem TypeWritten.append
    (hType : TypeWritten type ls)
    (hNoOpen : ∀ l ∈ extra, l.token ≠ .mark .openParen) :
    TypeWritten type (ls ++ extra) := by
  cases hType with
  | @word t rest hName hFirst =>
      refine .word hName ?_
      intro p hHead
      cases rest with
      | nil => exact hNoOpen p (List.mem_of_mem_head? hHead)
      | cons l rest => exact hFirst p hHead
  | arguments hName hOpen hInner hClose =>
      rw [List.cons_append, List.cons_append,
        List.append_assoc, List.cons_append]
      exact .arguments hName hOpen hInner hClose

theorem Closes.exists_close
    {n : Nat}
    (hCloses : Closes (n + 1) ls) :
    ∃ l ∈ ls, l.token = .mark .closeParen := by
  generalize hDepth : n + 1 = m at hCloses
  induction hCloses generalizing n with
  | nil => cases hDepth
  | opening _ _ ih =>
      rcases ih rfl with ⟨l, hMember, hMark⟩
      exact ⟨l, List.mem_cons_of_mem _ hMember, hMark⟩
  | closing hClose _ _ =>
      exact ⟨_, List.mem_cons_self, hClose⟩
  | plain _ _ _ ih =>
      rcases ih hDepth with ⟨l, hMember, hMark⟩
      exact ⟨l, List.mem_cons_of_mem _ hMember, hMark⟩

/- The closing parenthesis behind a whole piece is not part of a type in it. -/
theorem TypeWritten.of_append
    (hType : TypeWritten type (ls ++ [q]))
    (hEnd : q.token = .mark .closeParen)
    (hBalanced : Balanced ls) :
    TypeWritten type ls := by
  have hNoName : ¬q.name?.isSome = true := by
    simp [name?, hEnd]
  generalize hAll : ls ++ [q] = all at hType
  cases hType with
  | @word t rest hName hNoOpen =>
      cases ls with
      | nil =>
          cases hAll
          contradiction
      | cons l ls =>
          rw [List.cons_append, List.cons.injEq] at hAll
          rcases hAll with ⟨rfl, rfl⟩
          refine .word hName fun p hHead => hNoOpen p ?_
          rw [List.head?_append, hHead]
          rfl
  | @arguments t p q' inner rest hName hOpen hInner hClose =>
      rcases List.eq_nil_or_concat rest with rfl | ⟨r, d, rfl⟩
      · -- Nothing in the balanced part closes the arguments.
        have hSame : ls = t :: p :: inner := by
          have hInit := congrArg List.dropLast hAll
          simpa [List.dropLast_cons_of_ne_nil] using hInit
        subst hSame
        cases balanced_iff_closes.mp hBalanced with
        | opening hOpen _ => simp [name?, hOpen] at hName
        | plain _ _ hRest =>
            cases hRest with
            | plain hNoOpen _ _ => contradiction
            | opening _ hRest =>
                rcases hRest.exists_close with
                  ⟨l, hMember, hMark⟩
                exact absurd hMark (hInner l hMember)
      · have hSame : ls = t :: p :: (inner ++ q' :: r) := by
          have hInit := congrArg List.dropLast hAll
          simpa [List.dropLast_cons_of_ne_nil] using hInit
        rw [hSame]
        exact .arguments hName hOpen hInner hClose

end Lexeme

namespace Reader

open Lexeme

variable {pieces : List (List Lexeme)} {p : List Lexeme}
variable {column : ColumnDefinition}

/- A key clause has at least one name. -/
theorem names_ne_nil_of_keyClause
    {names : List String}
    (hClause : keyClause p = .ok names) :
    names ≠ [] := by
  unfold keyClause at hClause
  cases hNames : keyClause? p with
  | none =>
      rw [hNames] at hClause
      cases hClause
  | some found =>
      rw [hNames] at hClause
      cases hClause
      unfold keyClause? at hNames
      split at hNames
      · split at hNames
        · rw [Option.filter_eq_some_iff] at hNames
          simpa using hNames.2
        · cases hNames
      · cases hNames

theorem tablePieces_eq_nil
    (hPieces : tablePieces pieces = .ok ([], [])) :
    pieces = [] := by
  cases pieces with
  | nil => rfl
  | cons p pieces =>
      rcases tablePieces_cons_eq_ok_iff.mp hPieces with
        ⟨_, names, others, hClause, _, hNames⟩ |
        ⟨_, first, others, _, _, hColumns⟩
      · rw [eq_comm, List.append_eq_nil_iff] at hNames
        exact
          absurd hNames.1 (names_ne_nil_of_keyClause hClause)
      · cases hColumns

/- A piece that begins with a name is no key clause. -/
theorem startsKeyClause_of_columnDefinition
    (hColumn : columnDefinition p = .ok column) :
    startsKeyClause p = false := by
  rcases columnDefinition_eq_ok_iff.mp hColumn with
    ⟨l, ls, type, rfl, hName, _⟩
  have hOther :=
    not_keyword_of_name hName (k := .primary) rfl
  simpa [startsKeyClause, isKeyword] using hOther

/- A table with one column and no key has one piece, which defines the column. -/
theorem tablePieces_eq_single_iff :
    tablePieces pieces = .ok ([column], []) ↔
      ∃ p, pieces = [p] ∧ columnDefinition p = .ok column := by
  constructor
  · intro hPieces
    cases pieces with
    | nil => cases hPieces
    | cons p pieces =>
        rcases tablePieces_cons_eq_ok_iff.mp hPieces with
          ⟨_, names, others, hClause, _, hNames⟩ |
          ⟨_, first, others, hFirst, hRest, hColumns⟩
        · rw [eq_comm, List.append_eq_nil_iff] at hNames
          exact
            absurd hNames.1
              (names_ne_nil_of_keyClause hClause)
        · cases hColumns
          rw [tablePieces_eq_nil hRest]
          exact ⟨p, rfl, hFirst⟩
  · rintro ⟨p, rfl, hColumn⟩
    rw [tablePieces_cons_eq_ok_iff]
    exact
      .inr
        ⟨startsKeyClause_of_columnDefinition hColumn, column,
          [], hColumn, rfl, rfl⟩

end Reader

end Rowstore

------------------------------------------------------------
-- Texts Of The Two Commands
------------------------------------------------------------

namespace Rowstore

open Lexeme Lexer

/- The text is a word that is no hard keyword, or a name in grave accents. -/
inductive IsNameText : String → String → Prop where
| word
    {text name : String}
    (hStart : startsWith isWordStart text.toList = true)
    (hParts : text.toList.all isWordPart = true)
    (hName : (ofWord [' '] text).name? = some name) :
    IsNameText text name
| accented
    {name : String}
    (hName : Quotable name) :
    IsNameText (accented name) name

theorem IsNameText.lexeme
    {text name : String}
    (hText : IsNameText text name) :
    ∃ l : Lexeme,
      l.gap = [' '] ∧ l.text = text.toList ∧
        l.name? = some name ∧
          ∀ rest, l.StandsBefore (' ' :: rest) := by
  cases hText with
  | word hStart hParts hName =>
      exact
        ⟨ofWord [' '] text, rfl, rfl, hName, fun rest =>
          standsBefore_ofWord isGapBlank_space hStart hParts
            rfl⟩
  | accented hName =>
      exact
        ⟨ofName [' '] name, rfl, (toList_accented name).symm,
          name?_ofName [' '] name, fun rest =>
          standsBefore_ofName isGapBlank_space hName⟩

/- Each lexeme stands before the text of those behind it, and a rest. -/
inductive Lexeme.StandingBefore
    (rest : List Char) : List Lexeme → Prop where
| nil : StandingBefore rest []
| cons
    {l : Lexeme}
    {ls : List Lexeme}
    (hStands : l.StandsBefore (fullText ls ++ rest))
    (hRest : StandingBefore rest ls) :
    StandingBefore rest (l :: ls)

/- A text in front is cut into the lexemes it was made of. -/
theorem Lexer.lexemes_fullText_append
    {rest : List Char}
    {ls : List Lexeme}
    (hStanding : StandingBefore rest ls) :
    lexemes (fullText ls ++ rest) = ls ++ lexemes rest := by
  induction hStanding with
  | nil => rfl
  | @cons l ls hStands _ ih =>
      have hText :
          fullText (l :: ls) ++ rest =
            l.gap ++ (l.text ++ (fullText ls ++ rest)) := by
        simp [fullText]
      rw [hText, lexemes_append hStands, ih]
      rfl

namespace Command

variable {ls : List Lexeme} {table : String}

/- Tables are created by one kind of command only. -/
theorem Written.tableCreation
    {columns : List ColumnDefinition}
    {key : List String}
    (hWritten : (createTable table columns key).Written ls) :
    ∃ w k rest,
      ls = w :: k :: rest ∧
        TableCreation (.createTable table columns key)
          rest := by
  cases hWritten with
  | create _ hRest =>
      cases hRest with
      | table _ hRest => exact ⟨_, _, _, rfl, hRest⟩
      | database _ hRest => cases hRest
  | select _ hRest => cases hRest
  | insert _ hRest => cases hRest
  | update _ hRest => cases hRest
  | delete _ hRest => cases hRest
  | drop _ hRest => cases hRest
  | alter _ hRest => cases hRest
  | permission _ _ hRest => cases hRest
  | listing _ hRest => cases hRest

/- Tables are changed by one kind of command only. -/
theorem Written.alteration
    {action : AlterAction}
    (hWritten : (alterTable table action).Written ls) :
    ∃ w rest,
      ls = w :: rest ∧
        Alteration (.alterTable table action) rest := by
  cases hWritten with
  | alter _ hRest => exact ⟨_, _, rfl, hRest⟩
  | create _ hRest =>
      cases hRest with
      | table _ hRest => cases hRest
      | database _ hRest => cases hRest
  | select _ hRest => cases hRest
  | insert _ hRest => cases hRest
  | update _ hRest => cases hRest
  | delete _ hRest => cases hRest
  | drop _ hRest => cases hRest
  | permission _ _ hRest => cases hRest
  | listing _ hRest => cases hRest

end Command

namespace Statement

/- The text that adds a column to a table. -/
def additionText (table definition : String) : String :=
  "ALTER TABLE " ++ table ++ " ADD COLUMN " ++ definition

/- The text that creates a table. -/
def creationText (table definitions : String) : String :=
  "CREATE TABLE " ++ table ++ " (" ++ definitions ++ ")"

variable {table name definition : String} {l : Lexeme}

theorem lexemes_additionText
    (hGap : l.gap = [' '])
    (hText : l.text = table.toList)
    (hStands : ∀ rest, l.StandsBefore (' ' :: rest))
    (rest : List Char) :
    lexemes ((additionText table definition).toList ++ rest) =
      [ofWord [] "ALTER", ofWord [' '] "TABLE", l,
          ofWord [' '] "ADD", ofWord [' '] "COLUMN"] ++
        prependGap [' ']
          (lexemes (definition.toList ++ rest)) := by
  have hSplit :
      (additionText table definition).toList ++ rest =
        fullText
            [ofWord [] "ALTER", ofWord [' '] "TABLE", l,
              ofWord [' '] "ADD", ofWord [' '] "COLUMN"] ++
          ([' '] ++ (definition.toList ++ rest)) := by
    simp [additionText, fullText, hGap, hText, ofWord]
  rw [hSplit, lexemes_fullText_append,
    lexemes_blanks isGapBlank_space]
  refine .cons (standsBefore_ofWord (by simp) rfl rfl rfl) ?_
  refine .cons
    (standsBefore_ofWord isGapBlank_space rfl rfl ?_) ?_
  · simp [fullText, hGap, startsWith, isWordPart]
  refine .cons (hStands _) ?_
  refine .cons
    (standsBefore_ofWord isGapBlank_space rfl rfl rfl) ?_
  refine .cons
    (standsBefore_ofWord isGapBlank_space rfl rfl rfl) ?_
  exact .nil

theorem lexemes_creationText
    (hGap : l.gap = [' '])
    (hText : l.text = table.toList)
    (hStands : ∀ rest, l.StandsBefore (' ' :: rest)) :
    lexemes (creationText table definition).toList =
      [ofWord [] "CREATE", ofWord [' '] "TABLE", l,
          ofMark [' '] '('] ++
        lexemes (definition.toList ++ [')']) := by
  have hSplit :
      (creationText table definition).toList =
        fullText
            [ofWord [] "CREATE", ofWord [' '] "TABLE", l,
              ofMark [' '] '('] ++
          (definition.toList ++ [')']) := by
    simp [creationText, fullText, hGap, hText, ofWord, ofMark]
  rw [hSplit, lexemes_fullText_append]
  refine .cons (standsBefore_ofWord (by simp) rfl rfl rfl) ?_
  refine .cons
    (standsBefore_ofWord isGapBlank_space rfl rfl ?_) ?_
  · simp [fullText, hGap, startsWith, isWordPart]
  refine .cons (hStands _) ?_
  refine .cons (standsBefore_ofMark isGapBlank_space rfl) ?_
  exact .nil

/-
  A table is created exactly if the definitions end at the
  closing parenthesis behind them, and are pieces of a table.
-/
theorem parse_creationText_iff
    (hTable : IsNameText table name)
    {columns : List ColumnDefinition}
    {key : List String} :
    parse (creationText table definition) =
        .ok (.command (.createTable name columns key)) ↔
      ∃ inner q,
        lexemes (definition.toList ++ [')']) = inner ++ [q] ∧
          q.token = .mark .closeParen ∧ Closes 0 inner ∧
            Reader.tablePieces (splitCommas 0 inner) =
              .ok (columns, key) := by
  rcases hTable.lexeme with
    ⟨l, hGap, hText, hName, hStands⟩
  have hNormal :
      normalize (creationText table definition).toList =
        (creationText table definition).toList := by
    refine normalize_of_ends (c := 'C') (d := ')') ?_ ?_
      (by decide) (by decide)
    · simp [creationText]
    · simp [creationText, List.getLast?_cons]
  rw [parse_eq_ok_iff, hNormal,
    lexemes_creationText hGap hText hStands]
  constructor
  · intro hWritten
    cases hWritten with
    | command hCommand =>
        rcases hCommand.tableCreation with
          ⟨w, k, rest, hSplit, hRest⟩
        rcases hRest with
          @⟨_, _, _, t, o, q, inner, _, _, hInner, hPieces,
            hClose⟩
        simp only [List.cons_append, List.nil_append,
          List.cons.injEq] at hSplit
        exact
          ⟨inner, q, hSplit.2.2.2.2, hClose, hInner, hPieces⟩
  · rintro ⟨inner, q, hSplit, hClose, hInner, hPieces⟩
    rw [hSplit]
    refine .command (.create rfl (.table rfl ?_))
    exact .intro hName rfl hInner hPieces hClose

/- The text that adds a column, without what is dropped at its end, and with a closing parenthesis. -/
theorem takesBreaks_additionText
    (hGap : l.gap = [' '])
    (hText : l.text = table.toList)
    (hStands : ∀ rest, l.StandsBefore (' ' :: rest)) :
    ∃ z,
      TakesBreaks z
        (lexemes
          (normalize (additionText table definition).toList))
        ([ofWord [] "ALTER", ofWord [' '] "TABLE", l,
            ofWord [' '] "ADD", ofWord [' '] "COLUMN"] ++
          prependGap [' ']
            (lexemes (definition.toList ++ [')']))) := by
  rcases normalize_split
      (additionText table definition).toList with
    ⟨y, hSplit, hEnd⟩
  have hStart :
      (additionText table definition).toList.takeWhile
        Text.isBlank = [] := by
    have hLetter : Text.isBlank 'A' = false := by decide
    simp [additionText, hLetter]
  rw [hStart, List.nil_append] at hSplit
  have hBreaks : ∀ d ∈ y ++ [')'], isBreak d = true := by
    intro d hMember
    rw [List.mem_append, List.mem_singleton] at hMember
    rcases hMember with hMember | rfl
    · exact isBreak_of_dropped (hEnd d hMember)
    · rfl
  have hTakes :=
    takesBreaks_append hBreaks
      (normalize (additionText table definition).toList) []
  rw [← List.append_assoc, ← hSplit] at hTakes
  change TakesBreaks _ (lexemes _) (lexemes _) at hTakes
  rw [lexemes_additionText hGap hText hStands] at hTakes
  exact ⟨_, hTakes⟩

/-
  The definition that is added, in front of a closing
  parenthesis: it is what comes first there, or nothing closes
  it.
-/
theorem definition_of_parse_additionText
    (hTable : IsNameText table name)
    {column : ColumnDefinition}
    (hParse :
      parse (additionText table definition) =
        .ok (.command (.alterTable name (.addColumn column)))) :
    (∃ piece extra,
      prependGap [' ']
          (lexemes (definition.toList ++ [')'])) =
        piece ++ extra ∧
        Reader.columnDefinition piece = .ok column ∧
          ∀ l ∈ extra, l.token ≠ .mark .openParen) ∨
      ∀ l ∈ (lexemes (definition.toList ++ [')'])).getLast?,
        l.token = .unknown := by
  rcases hTable.lexeme with ⟨l, hGap, hText, _, hStands⟩
  rcases
    @takesBreaks_additionText _ definition _ hGap hText hStands
    with ⟨z, hTakes⟩
  rw [parse_eq_ok_iff] at hParse
  cases hParse with
  | command hCommand =>
      rcases hCommand.alteration with ⟨w, rest, hAll, hRest⟩
      rw [hAll] at hTakes
      rcases hRest with @⟨_, _, k, t, _, _, _, hAction⟩
      cases hAction with
      | @addColumn _ a word piece hAdd hWord hPiece =>
          rcases hTakes with
            ⟨extra, hExtra, hNew⟩ | ⟨d, hLast, hOpen, _⟩
          · simp only [List.cons_append, List.nil_append,
              List.cons.injEq] at hExtra
            rcases hExtra with ⟨_, _, _, _, hRest⟩
            have hNoOpen :
                ∀ d ∈ extra, d.token ≠ .mark .openParen :=
              fun d hMember => (hNew d hMember).no_open
            refine .inl ⟨piece, extra, ?_, hPiece, hNoOpen⟩
            rcases hWord with hWord | ⟨rfl, hOther⟩
            · rcases spell_singleton_iff.mp hWord with
                ⟨u, rfl, _⟩
              rw [List.singleton_append, List.cons_append,
                List.cons.injEq] at hRest
              exact hRest.2
            · -- A definition does not begin with this word.
              cases piece with
              | nil => cases hPiece
              | cons d piece =>
                  rw [List.nil_append, List.cons_append,
                    List.cons.injEq] at hRest
                  have hToken := hOther d rfl
                  rw [← hRest.1] at hToken
                  exact absurd (by decide) hToken
          · refine .inr fun e hEnd => ?_
            have hTokens := congrArg (Option.map token) hLast
            have hTokens' := congrArg (Option.map token) hEnd
            rw [← List.getLast?_map, List.map_append,
              tokens_prependGap, List.getLast?_append] at hTokens
            rw [← List.getLast?_map] at hTokens'
            rw [hTokens', Option.map_some, Option.map_some,
              hOpen] at hTokens
            exact Option.some.inj hTokens

/-
  A definition in front of further lexemes and a closing
  parenthesis is read alike without them, if what stands
  before the parenthesis is one piece.
-/
theorem columnDefinition_of_append
    {piece extra inner : List Lexeme}
    {q : Lexeme}
    {column : ColumnDefinition}
    (hExtra : prependGap [' '] (inner ++ [q]) = piece ++ extra)
    (hPiece : Reader.columnDefinition piece = .ok column)
    (hNoOpen : ∀ l ∈ extra, l.token ≠ .mark .openParen)
    (hClose : q.token = .mark .closeParen)
    (hWhole : Whole inner)
    (hKey :
      column.primaryKey =
        Reader.declaresKey (sourceText inner)) :
    Reader.columnDefinition inner = .ok column := by
  rcases Reader.columnDefinition_eq_ok_iff.mp hPiece with
    ⟨l, ls, type, rfl, hName, hType, hText, _⟩
  have hAll := hType.append hNoOpen
  cases inner with
  | nil =>
      have hHead := congrArg List.head? hExtra
      cases hHead
      exact absurd hClose (not_mark_of_name hName .closeParen)
  | cons i rest =>
      change
        { i with gap := [' '] ++ i.gap } :: (rest ++ [q]) =
          l :: (ls ++ extra) at hExtra
      rw [List.cons.injEq] at hExtra
      rcases hExtra with ⟨rfl, hRest⟩
      rw [← hRest] at hAll
      have hBalanced : Balanced rest := by
        rw [balanced_iff_closes]
        cases hWhole.balanced.closes with
        | opening hOpen _ =>
            exact
              absurd hOpen (not_mark_of_name hName .openParen)
        | plain _ _ hRest => exact hRest
      rw [Reader.columnDefinition_eq_ok_iff]
      exact
        ⟨i, rest, type, rfl, hName,
          hAll.of_append hClose hBalanced, hText, hKey⟩

/-
  Whenever a definition is added as a column, a table with
  this definition has exactly this column and no key if and
  only if the definition is one piece in front of a closing
  parenthesis, and declares a key there exactly if it did so
  when it was added.
-/
theorem added_column_is_created_iff
    (hTable : IsNameText table name)
    {column : ColumnDefinition}
    (hAdded :
      parse (additionText table definition) =
        .ok (.command (.alterTable name (.addColumn column)))) :
    parse (creationText table definition) =
        .ok (.command (.createTable name [column] [])) ↔
      ∃ inner q,
        lexemes (definition.toList ++ [')']) = inner ++ [q] ∧
          q.token = .mark .closeParen ∧ Whole inner ∧
            column.primaryKey =
              Reader.declaresKey (sourceText inner) := by
  rw [parse_creationText_iff hTable]
  constructor
  · rintro ⟨inner, q, hSplit, hClose, hInner, hPieces⟩
    rcases Reader.tablePieces_eq_single_iff.mp hPieces with
      ⟨p, hPiece, hColumn⟩
    have hWhole := pieceList_iff.mpr ⟨hInner, hPiece⟩
    cases hWhole with
    | single hWhole =>
        rcases Reader.columnDefinition_eq_ok_iff.mp hColumn
          with ⟨_, _, _, _, _, _, _, hKey⟩
        exact ⟨inner, q, hSplit, hClose, hWhole, hKey⟩
    | cons _ _ hRest => cases hRest
  · rintro ⟨inner, q, hSplit, hClose, hWhole, hKey⟩
    refine
      ⟨inner, q, hSplit, hClose,
        hWhole.balanced.closes, ?_⟩
    have hPieces := splitCommas_whole hWhole []
    rw [List.append_nil] at hPieces
    rw [hPieces, Reader.tablePieces_eq_single_iff]
    refine ⟨inner, by simp [splitCommas], ?_⟩
    rcases definition_of_parse_additionText hTable hAdded with
      ⟨piece, extra, hExtra, hPiece, hNoOpen⟩ | hOpen
    · rw [hSplit] at hExtra
      exact
        columnDefinition_of_append hExtra hPiece hNoOpen
          hClose hWhole hKey
    · have hLast := hOpen q (by rw [hSplit]; simp)
      rw [hClose] at hLast
      cases hLast

/- Commas in parentheses divide no definition, and a key is declared in both places. -/
theorem decimal_key_is_created :
    let definition := "a DECIMAL(10, 2) primary  key"
    let column : ColumnDefinition :=
      { name := "a"
        typeText := "DECIMAL(10, 2)"
        primaryKey := true }
    IsNameText "t" "t" ∧
      parse (additionText "t" definition) =
        .ok (.command (.alterTable "t" (.addColumn column))) ∧
      parse (creationText "t" definition) =
        .ok (.command (.createTable "t" [column] [])) ∧
      ∃ inner q,
        lexemes (definition.toList ++ [')']) = inner ++ [q] ∧
          q.token = .mark .closeParen ∧ Whole inner ∧
            column.primaryKey =
              Reader.declaresKey (sourceText inner) := by
  intro definition column
  have hTable : IsNameText "t" "t" :=
    .word (by decide) (by decide) (by decide)
  have hAdded :
      parse (additionText "t" definition) =
        .ok
          (.command (.alterTable "t" (.addColumn column))) := by
    decide +kernel
  have hCreated :
      parse (creationText "t" definition) =
        .ok (.command (.createTable "t" [column] [])) := by
    decide +kernel
  exact
    ⟨hTable, hAdded, hCreated,
      (added_column_is_created_iff hTable hAdded).mp hCreated⟩

/- A second definition is left out when a column is added, and is a column of a table. -/
theorem second_definition_is_dropped :
    parse (additionText "t" "a INT, b INT") =
        .ok (.command (.alterTable "t" (.addColumn
          { name := "a"
            typeText := "INT"
            primaryKey := false }))) ∧
      parse (creationText "t" "a INT, b INT") =
        .ok (.command (.createTable "t"
          [{ name := "a"
             typeText := "INT"
             primaryKey := false },
           { name := "b"
             typeText := "INT"
             primaryKey := false }] [])) := by
  decide +kernel

end Statement

end Rowstore
