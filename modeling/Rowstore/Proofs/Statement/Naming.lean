import Rowstore.Proofs.Statement.Columns
import Rowstore.Proofs.Statement.Grammar
import Rowstore.Proofs.Statement.Lexing

/-
  The names that statements bring in.

  Whatever stands for a name in a text can be written between
  grave accents: it is not empty and holds no such accent.
  So every name under which a statement creates something can
  be written in this way.

  Main declarations:
    * `Quotable`
    * `Lexer.quotable_of_mem_lexemes`
    * `Command.newNames`
    * `Command.quotable_of_parse`
-/

------------------------------------------------------------
-- Names In Lexemes
------------------------------------------------------------

namespace Rowstore

/- A name can be written between grave accents. -/
def Quotable (name : String) : Prop :=
  name.toList ≠ [] ∧ '\x60' ∉ name.toList

namespace Lexer

variable {c : Char} {s : List Char} {name : String}

theorem not_accent_of_isWordPart
    (hPart : isWordPart c = true) :
    c ≠ '\x60' := by
  rintro rfl
  revert hPart
  decide

/- A word holds no grave accent. -/
theorem quotable_word
    (hStart : isWordStart c = true) :
    Quotable
      (String.ofList
        (c :: s.take (runLength isWordPart s))) := by
  rw [Quotable, String.toList_ofList, take_runLength]
  refine ⟨by simp, ?_⟩
  intro hAccent
  rcases List.mem_cons.mp hAccent with rfl | hLater
  · exact
      not_accent_of_isWordPart
        (isWordPart_of_isWordStart hStart) rfl
  · exact
      not_accent_of_isWordPart
        (List.all_eq_true.mp List.all_takeWhile _ hLater) rfl

/- A quoted name is not empty and ends before the next grave accent. -/
theorem quotable_quotedName (s : List Char) :
    (scanQuotedName s).1 = .unknown ∨
      ∃ text,
        (scanQuotedName s).1 = .quotedName text ∧
          Quotable (String.ofList text) := by
  unfold scanQuotedName
  dsimp only
  split
  · rename_i hFound
    rw [Bool.and_eq_true, decide_eq_true_eq] at hFound
    refine .inr ⟨_, rfl, ?_⟩
    rw [Quotable, String.toList_ofList, take_runLength]
    constructor
    · intro hEmpty
      exact hFound.1 (congrArg List.length hEmpty)
    · intro hAccent
      have hInside :=
        List.all_eq_true.mp List.all_takeWhile _ hAccent
      simp at hInside
  · exact .inl rfl

theorem scanMark_no_name
    (gap text : List Char) :
    Lexeme.name?
        { gap := gap
          text := text
          token := (scanMark c s).1 } = none := by
  unfold scanMark
  split <;> rfl

/- The lexeme of one token stands for a name that can be quoted, if for any. -/
theorem quotable_of_scanToken
    {gap : List Char}
    (hName :
      Lexeme.name?
        { gap := gap
          text := c :: s.take (scanToken c s).2
          token := (scanToken c s).1 } = some name) :
    Quotable name := by
  unfold scanToken at hName
  split at hName
  · rename_i hStart
    dsimp only at hName
    unfold wordToken at hName
    split at hName
    · simp only [Lexeme.name?] at hName
      split at hName
      · cases hName
        exact quotable_word hStart
      · cases hName
    · cases hName
      exact quotable_word hStart
  split at hName
  · unfold scanString at hName
    dsimp only at hName
    split at hName
    · cases hName
    · cases hName
  split at hName
  · unfold scanString at hName
    dsimp only at hName
    split at hName
    · cases hName
    · cases hName
  split at hName
  · rcases quotable_quotedName s with
      hUnknown | ⟨text, hQuoted, hQuotable⟩
    · rw [hUnknown] at hName
      cases hName
    · rw [hQuoted] at hName
      cases hName
      exact hQuotable
  · dsimp only at hName
    split at hName
    · rw [scanMark_no_name] at hName
      cases hName
    · simp only [numberToken] at hName
      split at hName <;> cases hName

/- A piece is a gap, an unfinished comment, or one token. -/
theorem scan_cases
    (c : Char)
    (s : List Char) :
    (scan c s).1 = none ∨ (scan c s).1 = some .unknown ∨
      scan c s =
        (some (scanToken c s).1, (scanToken c s).2) := by
  unfold scan
  split
  · exact .inl rfl
  split
  · exact .inl rfl
  · dsimp only
    split
    · exact .inl rfl
    · exact .inr (.inl rfl)
  · exact .inr (.inr rfl)

theorem quotable_of_scan
    {gap : List Char}
    {t : Token}
    (hToken : (scan c s).1 = some t)
    (hName :
      Lexeme.name?
        { gap := gap
          text := c :: s.take (scan c s).2
          token := t } = some name) :
    Quotable name := by
  rcases scan_cases c s with hNone | hUnknown | hScan
  · rw [hNone] at hToken
    cases hToken
  · rw [hUnknown] at hToken
    cases hToken
    cases hName
  · rw [hScan] at hToken hName
    cases hToken
    exact quotable_of_scanToken hName

/- Every lexeme of pieces is made of one of them. -/
theorem mem_lexemesFrom
    {gap : List Char}
    {ps : List Piece}
    {l : Lexeme}
    (hMember : l ∈ lexemesFrom gap ps) :
    ∃ p ∈ ps, p.token? = some l.token ∧ p.text = l.text := by
  induction ps generalizing gap with
  | nil => cases hMember
  | cons p ps ih =>
      cases hToken : p.token? with
      | none =>
          rw [lexemesFrom, hToken] at hMember
          rcases ih hMember with ⟨q, hPiece, hMade⟩
          exact ⟨q, List.mem_cons_of_mem _ hPiece, hMade⟩
      | some t =>
          rw [lexemesFrom, hToken] at hMember
          rcases List.mem_cons.mp hMember with rfl | hMember
          · exact ⟨p, List.mem_cons_self, hToken, rfl⟩
          · rcases ih hMember with ⟨q, hPiece, hMade⟩
            exact ⟨q, List.mem_cons_of_mem _ hPiece, hMade⟩

/- Every piece of a text starts with one of its characters. -/
theorem mem_pieces
    {p : Piece}
    (hMember : p ∈ pieces s) :
    ∃ c rest,
      p.token? = (scan c rest).1 ∧
        p.text = c :: rest.take (scan c rest).2 := by
  fun_induction pieces s with
  | case1 => cases hMember
  | case2 c rest token? n hScan ih =>
      rcases List.mem_cons.mp hMember with rfl | hMember
      · exact ⟨c, rest, by rw [hScan], by rw [hScan]⟩
      · exact ih hMember

/- What stands for a name in a text can be quoted. -/
theorem quotable_of_mem_lexemes
    {l : Lexeme}
    (hMember : l ∈ lexemes s)
    (hName : l.name? = some name) :
    Quotable name := by
  rcases mem_lexemesFrom hMember with
    ⟨p, hPiece, hToken, hText⟩
  rcases mem_pieces hPiece with ⟨c, rest, hScan, hStart⟩
  rw [hScan] at hToken
  rw [hStart] at hText
  have hFirst :
      Lexeme.name?
          { gap := l.gap
            text := c :: rest.take (scan c rest).2
            token := l.token } = some name := by
    rw [hText]
    exact hName
  exact quotable_of_scan hToken hFirst

end Lexer

end Rowstore

------------------------------------------------------------
-- Names In Statements
------------------------------------------------------------

namespace Rowstore

namespace Command

open Lexeme

/- The names under which a command creates something. -/
def newNames : Command → List String
| createTable name columns _ =>
  name :: columns.map ColumnDefinition.name
| createDatabase name _ => [name]
| alterTable _ (.addColumn definition) => [definition.name]
| alterTable _ (.renameTo name) => [name]
| _ => []

/- The name of a column is written in its definition. -/
theorem name_of_columnDefinition
    {ls : List Lexeme}
    {column : ColumnDefinition}
    (hColumn : Reader.columnDefinition ls = .ok column) :
    ∃ l ∈ ls, l.name? = some column.name := by
  rcases Reader.columnDefinition_eq_ok_iff.mp hColumn with
    ⟨l, ls, type, rfl, hName, _⟩
  exact ⟨l, List.mem_cons_self, hName⟩

/- The names of the columns of a table are written in its definition. -/
theorem names_of_tablePieces
    {pieces : List (List Lexeme)}
    {columns : List ColumnDefinition}
    {key : List String}
    (hPieces :
      Reader.tablePieces pieces = .ok (columns, key)) :
    ∀ column ∈ columns, ∃ piece ∈ pieces, ∃ l ∈ piece,
      l.name? = some column.name := by
  induction pieces generalizing columns key with
  | nil =>
      cases hPieces
      intro column hMember
      cases hMember
  | cons piece pieces ih =>
      intro column hMember
      have hLater
          {others : List ColumnDefinition}
          {key : List String}
          (hRest : Reader.tablePieces pieces = .ok (others, key))
          (hOther : column ∈ others) :
          ∃ p ∈ piece :: pieces, ∃ l ∈ p,
            l.name? = some column.name := by
        rcases ih hRest column hOther with
          ⟨p, hPiece, hWritten⟩
        exact ⟨p, List.mem_cons_of_mem _ hPiece, hWritten⟩
      rcases Reader.tablePieces_cons_eq_ok_iff.mp hPieces with
        ⟨_, _, _, _, hRest, _⟩ |
        ⟨_, first, others, hFirst, hRest, rfl⟩
      · exact hLater hRest hMember
      · rcases List.mem_cons.mp hMember with rfl | hMember
        · exact
            ⟨piece, List.mem_cons_self,
              name_of_columnDefinition hFirst⟩
        · exact hLater hRest hMember

/- Every new name of a written command is written, too. -/
theorem Written.names
    {c : Command}
    {ls : List Lexeme}
    (hWritten : c.Written ls) :
    ∀ name ∈ c.newNames, ∃ l ∈ ls, l.name? = some name := by
  intro name hName
  cases hWritten with
  | create _ hRest =>
      cases hRest with
      | table _ hRest =>
          rcases hRest with
            @⟨table, columns, key, t, o, q, inner, hTable, _,
              _, hPieces, _⟩
          rcases List.mem_cons.mp hName with rfl | hName
          · exact ⟨t, by simp, hTable⟩
          · rcases List.mem_map.mp hName with
              ⟨column, hColumn, rfl⟩
            rcases names_of_tablePieces hPieces column hColumn
              with ⟨piece, hPiece, l, hMember, hWritten⟩
            have hInner :=
              (infix_of_mem_splitCommas hPiece).subset hMember
            exact ⟨l, by simp [hInner], hWritten⟩
      | database _ hRest =>
          cases hRest with
          | always hDatabase =>
              rw [List.mem_singleton.mp hName]
              exact ⟨_, by simp, hDatabase⟩
          | ifMissing _ _ _ hDatabase =>
              rw [List.mem_singleton.mp hName]
              exact ⟨_, by simp, hDatabase⟩
  | alter _ hRest =>
      rcases hRest with ⟨_, _, hAction⟩
      cases hAction with
      | addColumn _ _ hDefinition =>
          rw [List.mem_singleton.mp hName]
          rcases name_of_columnDefinition hDefinition with
            ⟨l, hMember, hWritten⟩
          exact ⟨l, by simp [hMember], hWritten⟩
      | dropColumn => cases hName
      | renameTo _ _ hNew =>
          rw [List.mem_singleton.mp hName]
          exact ⟨_, by simp, hNew⟩
  | select _ hRest =>
      cases hRest
      cases hName
  | insert _ hRest =>
      cases hRest
      cases hName
  | update _ hRest =>
      cases hRest
      cases hName
  | delete _ hRest =>
      cases hRest
      cases hName
  | drop _ hRest => cases hRest <;> cases hName
  | permission _ _ hRest =>
      cases hRest
      cases hName
  | listing _ hRest => cases hRest <;> cases hName
  | use => cases hName
  | describe => cases hName

/- A text brings in only names that can be quoted. -/
theorem quotable_of_parse
    {text : String}
    {c : Command}
    (hParse : Statement.parse text = .ok (.command c)) :
    ∀ name ∈ c.newNames, Quotable name := by
  intro name hName
  rw [Statement.parse_eq_ok_iff] at hParse
  cases hParse with
  | command hWritten =>
      rcases hWritten.names name hName with
        ⟨l, hMember, hWord⟩
      exact Lexer.quotable_of_mem_lexemes hMember hWord

end Command

end Rowstore
