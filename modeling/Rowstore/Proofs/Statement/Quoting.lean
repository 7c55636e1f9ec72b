import Rowstore.Condition
import Rowstore.Proofs.Statement.Naming
import Rowstore.Proofs.Value.Quoting

/-
  Statements with quoted names and one quoted text.

  A text in single quotes, with every single quote in it
  doubled, is one string wherever no further quote follows,
  and a name in grave accents is one name.  So a statement
  that is put together from such parts is read as it was
  meant, whatever the text holds.

  Main declarations:
    * `Lexer.scan_quoted` and `Lexer.scan_accented`
    * `Condition.parse_equationText`
    * `Statement.parse_insertionText`,
      `Statement.parse_updateText` and
      `Statement.parse_searchText`
-/

------------------------------------------------------------
-- Quoted Tokens
------------------------------------------------------------

namespace Rowstore

namespace Lexer

/- A string with doubled quotes ends at the quote that stands alone. -/
theorem stringLength_doubled
    {q : Char}
    (s : List Char)
    {rest : List Char}
    (hEnd : startsWith (fun c => c == q) rest = false) :
    stringLength q (Value.doubled q s ++ q :: rest) =
      ((Value.doubled q s).length + 1, true) := by
  induction s with
  | nil => exact stringLength_end hEnd
  | cons c s ih =>
      unfold Value.doubled
      split
      · simp [stringLength, ih]
      · rename_i hOther
        have hMore :
            Value.doubled q s ++ q :: rest ≠ [] := by
          simp
        rw [List.cons_append,
          stringLength_cons_of_ne hOther hMore, ih]
        rfl

theorem scan_quote
    (q : Quote)
    (s : List Char) :
    scan q.char s =
      (some (scanString q s).1, (scanString q s).2) := by
  cases q <;> rfl

/- A quoted text is one string, if no further quote follows. -/
theorem scan_quoted
    (q : Quote)
    (s : List Char)
    {rest : List Char}
    (hEnd : startsWith (fun c => c == q.char) rest = false) :
    scan q.char (Value.doubled q.char s ++ q.char :: rest) =
      (some (.string q s),
        (Value.doubled q.char s).length + 1) := by
  have hLength := stringLength_doubled s hEnd
  rw [scan_quote]
  unfold scanString
  simp only [hLength, if_true, Nat.add_sub_cancel,
    List.take_left, Value.undouble_doubled]

theorem scan_accent (s : List Char) :
    scan '\x60' s =
      (some (scanQuotedName s).1,
        (scanQuotedName s).2) := rfl

/- A name that can be quoted is one name in grave accents. -/
theorem scan_accented
    {name : String}
    (hName : Quotable name)
    (rest : List Char) :
    scan '\x60' (name.toList ++ '\x60' :: rest) =
      (some (.quotedName name.toList),
        name.toList.length + 1) := by
  have hInside :
      ∀ c ∈ name.toList, (c != '\x60') = true := by
    intro c hMember
    rw [bne_iff_ne]
    rintro rfl
    exact hName.2 hMember
  have hLength :
      runLength (fun c => c != '\x60')
          (name.toList ++ '\x60' :: rest) =
        name.toList.length :=
    runLength_append hInside rfl
  have hFound : name.toList.length ≠ 0 := by
    rw [Ne, List.length_eq_zero_iff]
    exact hName.1
  rw [scan_accent]
  unfold scanQuotedName
  simp [hLength, hFound, startsWith]

/- A word is a keyword or a name, if no further letter follows. -/
theorem scan_word
    {c : Char}
    {s rest : List Char}
    (hStart : isWordStart c = true)
    (hParts : ∀ d ∈ s, isWordPart d = true)
    (hEnd : startsWith isWordPart rest = false) :
    scan c (s ++ rest) =
      (some (wordToken (c :: s)), s.length) := by
  have hToken :
      scanToken c (s ++ rest) =
        (wordToken (c :: s), s.length) := by
    unfold scanToken
    rw [if_pos hStart, runLength_append hParts hEnd]
    simp only [List.take_left]
  have hBlank : isGapBlank c = false := by
    rw [Bool.eq_false_iff]
    intro hBlank
    simp only [isGapBlank, Bool.or_eq_true, beq_iff_eq]
      at hBlank
    rcases hBlank with (((rfl | rfl) | rfl) | rfl) | rfl <;>
      exact absurd hStart (by decide)
  unfold scan
  rw [hBlank]
  split
  · contradiction
  split
  · exact absurd hStart (by decide)
  · exact absurd hStart (by decide)
  · rw [hToken]

end Lexer

end Rowstore

------------------------------------------------------------
-- Lexemes Of Known Text
------------------------------------------------------------

namespace Rowstore

/- A name in grave accents. -/
def accented (name : String) : String :=
  "`" ++ name ++ "`"

/- A text as a literal: its quotes doubled, between quotes. -/
def quotedText (payload : String) : String :=
  String.ofList (Value.quoted payload.toList)

@[simp] theorem toList_accented (name : String) :
    (accented name).toList =
      '\x60' :: (name.toList ++ ['\x60']) := by
  simp [accented]

theorem toList_quotedText (payload : String) :
    (quotedText payload).toList =
      Value.quoted payload.toList :=
  String.toList_ofList

@[simp] theorem Value.ofLiteral_quotedText
    (payload : String) :
    ofLiteral (quotedText payload).toList =
      .text payload := by
  rw [toList_quotedText, ofLiteral_quoted,
    String.ofList_toList]

namespace Lexeme

open Lexer

/- The lexeme of a word. -/
def ofWord
    (gap : List Char)
    (word : String) : Lexeme :=
  { gap := gap
    text := word.toList
    token := wordToken word.toList }

/- The lexeme of a mark or of a comparison with one character. -/
def ofMark
    (gap : List Char)
    (c : Char) : Lexeme :=
  { gap := gap
    text := [c]
    token := (scanMark c []).1 }

/- The lexeme of a name in grave accents. -/
def ofName
    (gap : List Char)
    (name : String) : Lexeme :=
  { gap := gap
    text := '\x60' :: (name.toList ++ ['\x60'])
    token := .quotedName name.toList }

/- The lexeme of a quoted text. -/
def ofText
    (gap : List Char)
    (payload : String) : Lexeme :=
  { gap := gap
    text := Value.quoted payload.toList
    token := .string .single payload.toList }

@[simp] theorem fullText_nil : fullText [] = [] := rfl

variable (gap : List Char) (ls : List Lexeme)

@[simp] theorem fullText_ofWord (word : String) :
    fullText (ofWord gap word :: ls) =
      gap ++ (word.toList ++ fullText ls) :=
  List.append_assoc _ _ _

@[simp] theorem fullText_ofMark (c : Char) :
    fullText (ofMark gap c :: ls) =
      gap ++ c :: fullText ls :=
  List.append_assoc _ _ _

@[simp] theorem fullText_ofName (name : String) :
    fullText (ofName gap name :: ls) =
      gap ++ ((accented name).toList ++ fullText ls) := by
  rw [toList_accented]
  exact List.append_assoc _ _ _

@[simp] theorem fullText_ofText (payload : String) :
    fullText (ofText gap payload :: ls) =
      gap ++ ((quotedText payload).toList ++ fullText ls) := by
  rw [toList_quotedText]
  exact List.append_assoc _ _ _

@[simp] theorem source_ofText (payload : String) :
    source [ofText gap payload] = quotedText payload :=
  congrArg String.ofList (List.append_nil _)

@[simp] theorem name?_ofName (name : String) :
    (ofName gap name).name? = some name :=
  congrArg some String.ofList_toList

theorem isGapBlank_space :
    ∀ c ∈ [' '], isGapBlank c = true := by
  simp [isGapBlank]

variable {gap} {rest : List Char}
variable (hGap : ∀ c ∈ gap, isGapBlank c = true)

include hGap

theorem standsBefore_ofWord
    {word : String}
    (hStart : startsWith isWordStart word.toList = true)
    (hParts : word.toList.all isWordPart = true)
    (hEnd : startsWith isWordPart rest = false) :
    (ofWord gap word).StandsBefore rest where
  gap := hGap
  text := by
    unfold ofWord
    cases hWord : word.toList with
    | nil =>
        rw [hWord] at hStart
        cases hStart
    | cons c s =>
        rw [hWord] at hStart hParts
        rw [List.all_cons, Bool.and_eq_true,
          List.all_eq_true] at hParts
        exact
          ⟨c, s, rfl, scan_word hStart hParts.2 hEnd⟩

theorem standsBefore_ofMark
    {c : Char}
    (hScan : scan c rest = (some (scanMark c []).1, 0)) :
    (ofMark gap c).StandsBefore rest where
  gap := hGap
  text := ⟨c, [], rfl, hScan⟩

theorem standsBefore_ofName
    {name : String}
    (hName : Quotable name) :
    (ofName gap name).StandsBefore rest where
  gap := hGap
  text := by
    refine ⟨_, _, rfl, ?_⟩
    have hScan := scan_accented hName rest
    simpa [ofName] using hScan

theorem standsBefore_ofText
    (payload : String)
    (hEnd : startsWith (fun c => c == '\'') rest = false) :
    (ofText gap payload).StandsBefore rest where
  gap := hGap
  text := by
    refine ⟨_, _, rfl, ?_⟩
    have hScan := scan_quoted .single payload.toList hEnd
    simpa [ofText, Quote.char] using hScan

end Lexeme

end Rowstore

------------------------------------------------------------
-- Conditions With A Quoted Text
------------------------------------------------------------

namespace Rowstore

namespace Condition

open Lexeme

variable {gap : List Char} {column : String}

/- The condition that a column equals a quoted text. -/
def equationText (column payload : String) : String :=
  accented column ++ " = " ++ quotedText payload

/- The lexemes of an equation, after a gap. -/
def equationLexemes
    (gap : List Char)
    (column payload : String) : List Lexeme :=
  [ofName gap column, ofMark [' '] '=',
    ofText [' '] payload]

theorem fullText_equationLexemes
    (gap : List Char)
    (column payload : String) :
    fullText (equationLexemes gap column payload) =
      gap ++ (equationText column payload).toList := by
  unfold equationText
  simp [equationLexemes]

theorem source_equationLexemes
    (gap : List Char)
    (column payload : String) :
    source (equationLexemes gap column payload) =
      equationText column payload := by
  have hText :
      sourceText (equationLexemes gap column payload) =
        fullText (equationLexemes [] column payload) := rfl
  unfold source
  rw [hText, fullText_equationLexemes, List.nil_append,
    String.ofList_toList]

/- An equation is written like the assignment of its text. -/
theorem assignment?_equationLexemes
    (gap : List Char)
    (column payload : String) :
    Reader.assignment? (equationLexemes gap column payload) =
      some
        { column := column
          value := quotedText payload } := by
  have hEqual :
      (ofMark [' '] '=').token = .comparison .eq := rfl
  simp [equationLexemes, Reader.assignment?, hEqual]

theorem standing_equationLexemes
    (hGap : ∀ c ∈ gap, Lexer.isGapBlank c = true)
    (hColumn : Quotable column)
    (payload : String) :
    Standing (equationLexemes gap column payload) := by
  refine .cons (standsBefore_ofName hGap hColumn) ?_
  refine .cons (standsBefore_ofMark isGapBlank_space rfl) ?_
  refine .cons
    (standsBefore_ofText isGapBlank_space payload rfl) ?_
  exact .nil

theorem getLast?_equationText (column payload : String) :
    (equationText column payload).toList.getLast? =
      some '\'' := by
  unfold equationText
  rw [String.toList_append, toList_quotedText,
    List.getLast?_append, Value.getLast?_quoted]
  rfl

theorem tight_equationText (column payload : String) :
    Text.Tight (equationText column payload).toList :=
  Text.tight_of_ends (by unfold equationText; simp; rfl)
    (getLast?_equationText column payload) (by decide)
    (by decide)

/- An equation with a quoted text compares with that text. -/
theorem parse_equationText
    (hColumn : Quotable column)
    (payload : String) :
    parse (equationText column payload) =
      .ok
        { column := column
          op := .eq
          literal := .text payload } := by
  have hLexemes :
      Lexer.lexemes (equationText column payload).toList =
        equationLexemes [] column payload := by
    rw [← List.nil_append (equationText _ _).toList,
      ← fullText_equationLexemes]
    exact
      Lexer.lexemes_fullText
        (standing_equationLexemes (by simp) hColumn payload)
  have hText :
      sourceText [ofText [' '] payload] =
        (quotedText payload).toList := by
    rw [toList_quotedText]
    exact List.append_nil _
  have hLiteral :
      literalOf (equationText column payload).toList .eq
          [ofText [' '] payload] =
        .ok (.text payload) := by
    rw [← Value.ofLiteral_quotedText payload, ← hText]
    rfl
  unfold parse
  simp only [Text.trim_of_tight (tight_equationText _ _),
    hLexemes]
  simp [ofLexemes, equationLexemes, ofMark, Lexer.scanMark,
    comparison?, hLiteral, bind, Except.bind, pure, Except.pure]

end Condition

end Rowstore

------------------------------------------------------------
-- Statements With A Quoted Text
------------------------------------------------------------

namespace Rowstore

namespace Statement

open Lexeme

variable {table column : String}

/- A text that neither starts nor ends with a blank, nor ends with a semicolon, is normal. -/
theorem normalize_of_ends
    {s : List Char}
    {c d : Char}
    (hFirst : s.head? = some c)
    (hLast : s.getLast? = some d)
    (hStart : Text.isBlank c = false)
    (hEnd : Text.isBlank d = false ∧ d ≠ ';') :
    normalize s = s := by
  have hTight := Text.tight_of_ends hFirst hLast hStart hEnd.1
  have hNoMark :
      Text.dropEndWhile (fun c => c == ';') s = s := by
    apply Text.dropEndWhile_of_getLast?
    simpa [hLast] using hEnd.2
  unfold normalize
  rw [Text.trim_of_tight hTight, hNoMark]
  exact Text.dropEndWhile_of_getLast? hTight.last

/- A text that is made of lexemes is read as what they write. -/
theorem parse_of_written
    {text : String}
    {ls : List Lexeme}
    {st : Statement}
    {c d : Char}
    (hText : text.toList = fullText ls)
    (hStanding : Standing ls)
    (hFirst : text.toList.head? = some c)
    (hLast : text.toList.getLast? = some d)
    (hStart : Text.isBlank c = false)
    (hEnd : Text.isBlank d = false ∧ d ≠ ';')
    (hWritten : st.Written ls) :
    parse text = .ok st := by
  rw [parse_eq_ok_iff,
    normalize_of_ends hFirst hLast hStart hEnd, hText,
    Lexer.lexemes_fullText hStanding]
  exact hWritten

------------------------------------------------------------
-- Insertions
------------------------------------------------------------

/- The insertion of a row with a quoted text under one column. -/
def insertionText (table column payload : String) : String :=
  "INSERT INTO " ++ accented table ++ " (" ++
    accented column ++ ") VALUES (" ++ quotedText payload ++
      ")"

/- The lexemes of such an insertion. -/
def insertionLexemes
    (table column payload : String) : List Lexeme :=
  [ofWord [] "INSERT", ofWord [' '] "INTO",
    ofName [' '] table, ofMark [' '] '(', ofName [] column,
    ofMark [] ')', ofWord [' '] "VALUES", ofMark [' '] '(',
    ofText [] payload, ofMark [] ')']

theorem toList_insertionText
    (table column payload : String) :
    (insertionText table column payload).toList =
      fullText (insertionLexemes table column payload) := by
  unfold insertionText
  simp [insertionLexemes]

theorem standing_insertionLexemes
    (hTable : Quotable table)
    (hColumn : Quotable column)
    (payload : String) :
    Standing (insertionLexemes table column payload) := by
  refine .cons (standsBefore_ofWord (by simp) rfl rfl rfl) ?_
  refine .cons
    (standsBefore_ofWord isGapBlank_space rfl rfl rfl) ?_
  refine .cons (standsBefore_ofName isGapBlank_space hTable) ?_
  refine .cons (standsBefore_ofMark isGapBlank_space rfl) ?_
  refine .cons (standsBefore_ofName (by simp) hColumn) ?_
  refine .cons (standsBefore_ofMark (by simp) rfl) ?_
  refine .cons
    (standsBefore_ofWord isGapBlank_space rfl rfl rfl) ?_
  refine .cons (standsBefore_ofMark isGapBlank_space rfl) ?_
  refine .cons (standsBefore_ofText (by simp) payload rfl) ?_
  refine .cons (standsBefore_ofMark (by simp) rfl) ?_
  exact .nil

/- The inserted value is the whole quoted text. -/
theorem parse_insertionText
    (hTable : Quotable table)
    (hColumn : Quotable column)
    (payload : String) :
    parse (insertionText table column payload) =
      .ok (.command
        (.insert table [column] [quotedText payload])) := by
  have hText := toList_insertionText table column payload
  have hFirst :
      (insertionText table column payload).toList.head? =
        some 'I' := by
    rw [hText]
    rfl
  have hLast :
      (insertionText table column payload).toList.getLast? =
        some ')' := by
    unfold insertionText
    rw [String.toList_append, List.getLast?_append]
    rfl
  have hListed : NameList [column] [ofName [] column] :=
    .intro (name?_ofName _ _) .nil
  have hPlain : Closes 0 [ofText [] payload] :=
    .plain nofun nofun .nil
  have hPieces :
      [] ∉ splitCommas 0 [ofText [] payload] := by
    change [] ∉ [[ofText [] payload]]
    simp
  have hValues :
      (splitCommas 0 [ofText [] payload]).map source =
        [quotedText payload] :=
    congrArg (fun text => [text]) (source_ofText [] payload)
  have hRest :
      Command.Insertion
        (.insert table [column] [quotedText payload])
        (insertionLexemes table column payload).tail := by
    rw [← hValues]
    exact
      .intro rfl (name?_ofName _ _) rfl hListed rfl rfl rfl
        hPlain hPieces rfl
  exact
    parse_of_written hText
      (standing_insertionLexemes hTable hColumn payload)
      hFirst hLast (by decide) (by decide)
      (.command (.insert rfl hRest))

------------------------------------------------------------
-- Updates
------------------------------------------------------------

/- The update that stores a quoted text under a column of every row. -/
def updateText (table column payload : String) : String :=
  "UPDATE " ++ accented table ++ " SET " ++
    Condition.equationText column payload

/- The lexemes of such an update. -/
def updateLexemes
    (table column payload : String) : List Lexeme :=
  ofWord [] "UPDATE" :: ofName [' '] table ::
    ofWord [' '] "SET" ::
      Condition.equationLexemes [' '] column payload

theorem toList_updateText
    (table column payload : String) :
    (updateText table column payload).toList =
      fullText (updateLexemes table column payload) := by
  unfold updateText
  simp [updateLexemes, Condition.fullText_equationLexemes]

theorem standing_updateLexemes
    (hTable : Quotable table)
    (hColumn : Quotable column)
    (payload : String) :
    Standing (updateLexemes table column payload) := by
  refine .cons (standsBefore_ofWord (by simp) rfl rfl rfl) ?_
  refine .cons (standsBefore_ofName isGapBlank_space hTable) ?_
  refine .cons
    (standsBefore_ofWord isGapBlank_space rfl rfl rfl) ?_
  exact
    Condition.standing_equationLexemes isGapBlank_space
      hColumn payload

/- The assigned value is the whole quoted text. -/
theorem parse_updateText
    (hTable : Quotable table)
    (hColumn : Quotable column)
    (payload : String) :
    parse (updateText table column payload) =
      .ok (.command
        (.update table
          [{ column := column
             value := quotedText payload }]
          none)) := by
  have hText := toList_updateText table column payload
  have hFirst :
      (updateText table column payload).toList.head? =
        some 'U' := by
    rw [hText]
    rfl
  have hLast :
      (updateText table column payload).toList.getLast? =
        some '\'' := by
    unfold updateText
    rw [String.toList_append, List.getLast?_append,
      Condition.getLast?_equationText]
    rfl
  have hNone :
      NoneAtTop .«where» 0
        (Condition.equationLexemes [' '] column payload) := by
    apply noneAtTop_of_forall
    simp [Condition.equationLexemes, ofName, ofMark, ofText,
      Lexer.scanMark]
  have hChanges :
      (splitCommas 0
          (Condition.equationLexemes [' '] column
            payload)).map Reader.assignment? =
        [{ column := column
           value := quotedText payload }].map some :=
    congrArg (fun change => [change])
      (Condition.assignment?_equationLexemes [' '] column
        payload)
  have hRest :
      Command.Update
        (.update table
          [{ column := column
             value := quotedText payload }]
          none)
        (updateLexemes table column payload).tail :=
    .intro (name?_ofName _ _) rfl hNone (.inl rfl) hChanges
      .absent
  exact
    parse_of_written hText
      (standing_updateLexemes hTable hColumn payload)
      hFirst hLast (by decide) (by decide)
      (.command (.update rfl hRest))

------------------------------------------------------------
-- Searches
------------------------------------------------------------

/- The selection of a column where it equals a quoted text. -/
def searchText (table column payload : String) : String :=
  "SELECT " ++ accented column ++ " FROM " ++
    accented table ++ " WHERE " ++
      Condition.equationText column payload

/- The lexemes of such a selection. -/
def searchLexemes
    (table column payload : String) : List Lexeme :=
  ofWord [] "SELECT" :: ofName [' '] column ::
    ofWord [' '] "FROM" :: ofName [' '] table ::
      ofWord [' '] "WHERE" ::
        Condition.equationLexemes [' '] column payload

theorem toList_searchText
    (table column payload : String) :
    (searchText table column payload).toList =
      fullText (searchLexemes table column payload) := by
  unfold searchText
  simp [searchLexemes, Condition.fullText_equationLexemes]

theorem standing_searchLexemes
    (hTable : Quotable table)
    (hColumn : Quotable column)
    (payload : String) :
    Standing (searchLexemes table column payload) := by
  refine .cons (standsBefore_ofWord (by simp) rfl rfl rfl) ?_
  refine .cons (standsBefore_ofName isGapBlank_space hColumn) ?_
  refine .cons
    (standsBefore_ofWord isGapBlank_space rfl rfl rfl) ?_
  refine .cons (standsBefore_ofName isGapBlank_space hTable) ?_
  refine .cons
    (standsBefore_ofWord isGapBlank_space rfl rfl rfl) ?_
  exact
    Condition.standing_equationLexemes isGapBlank_space
      hColumn payload

/- The condition is the whole equation. -/
theorem parse_searchText
    (hTable : Quotable table)
    (hColumn : Quotable column)
    (payload : String) :
    parse (searchText table column payload) =
      .ok (.command
        (.select (.columns [column]) table
          (some
            (Condition.equationText column payload)))) := by
  have hText := toList_searchText table column payload
  have hFirst :
      (searchText table column payload).toList.head? =
        some 'S' := by
    rw [hText]
    rfl
  have hLast :
      (searchText table column payload).toList.getLast? =
        some '\'' := by
    unfold searchText
    rw [String.toList_append, List.getLast?_append,
      Condition.getLast?_equationText]
    rfl
  have hShown :
      Projected (.columns [column])
        [ofName [' '] column] :=
    .columns (.intro (name?_ofName _ _) .nil)
  have hClause :
      Clause (some (Condition.equationText column payload))
        (ofWord [' '] "WHERE" ::
          Condition.equationLexemes [' '] column payload) := by
    rw [← Condition.source_equationLexemes [' ']]
    exact .present rfl
  have hRest :
      Command.Selection
        (.select (.columns [column]) table
          (some (Condition.equationText column payload)))
        (searchLexemes table column payload).tail :=
    .intro hShown rfl (name?_ofName _ _) hClause
  exact
    parse_of_written hText
      (standing_searchLexemes hTable hColumn payload)
      hFirst hLast (by decide) (by decide)
      (.command (.select rfl hRest))

end Statement

end Rowstore
