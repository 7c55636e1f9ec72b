import Rowstore.Condition
import Rowstore.Proofs.Statement.Slicing

/-
  The reading of statements by positions.

  A reader of lexemes takes its input apart and cannot look
  beside it.  Here statements are read the way a program with
  arrays does it: it keeps the text, all tokens with their
  ranges of bytes, and the index of the next token, and it
  computes the indices and ranges that it looks at.  Each of
  these accesses is checked, and one outside of the data is an
  overrun, which is not an error of the statement.

  Key definitions include:
    * `Overrun`, `Checked` and `Cursor`
    * `Overrun.tokenAt`, `Overrun.tokensBetween` and
      `Overrun.textBetween`
    * `Scan` and `Scan.ofText`
    * `Scan.matchingParen`, `Scan.findTopLevel` and
      `Scan.splitTopLevel`
    * `Cursor.parse` and `Cursor.parseCondition`
-/

namespace Rowstore

------------------------------------------------------------
-- Checked Accesses
------------------------------------------------------------

/-
  An access outside of the data: of tokens at an index, of
  tokens over a range, or of a text over a range of bytes.
-/
inductive Overrun where
| index (i : Nat)
| range (start finish : Nat)
| bytes (start finish : Nat)
deriving DecidableEq, Repr

/- A token with its range of bytes. -/
abbrev Spanned := Token × (Nat × Nat)

/- What can overrun its data, and otherwise be an error of the statement. -/
abbrev Checked (α : Type) :=
  ExceptT Error (Except Overrun) α

/- What further depends on the index of the next token, and can move it. -/
abbrev Cursor (α : Type) :=
  StateT Nat Checked α

namespace Overrun

/- The token at an index, which must lie inside the list. -/
def tokenAt
    (i : Nat)
    (ts : List Spanned) : Except Overrun Spanned :=
  match ts[i]? with
  | some t => .ok t
  | none => .error (.index i)

/- The tokens of a range, which must have its ends in order and inside the list. -/
def tokensBetween
    (start finish : Nat)
    (ts : List Spanned) : Except Overrun (List Spanned) :=
  if start ≤ finish ∧ finish ≤ ts.length then
    .ok ((ts.take finish).drop start)
  else .error (.range start finish)

/-
  The text of a range of bytes, which must have its ends in
  order, inside the text and between characters.
-/
def textBetween
    (start finish : Nat)
    (s : List Char) : Except Overrun (List Char) :=
  match Text.slice? start finish s with
  | some t => .ok t
  | none => .error (.bytes start finish)

theorem tokenAt_eq_ok_iff
    {i : Nat}
    {ts : List Spanned}
    {t : Spanned} :
    tokenAt i ts = .ok t ↔ ts[i]? = some t := by
  unfold tokenAt
  cases ts[i]? <;> simp

theorem tokensBetween_eq_ok_iff
    {start finish : Nat}
    {ts us : List Spanned} :
    tokensBetween start finish ts = .ok us ↔
      start ≤ finish ∧ finish ≤ ts.length ∧
        (ts.take finish).drop start = us := by
  unfold tokensBetween
  split
  · rename_i hRange
    rw [Except.ok.injEq, ← and_assoc]
    exact (and_iff_right hRange).symm
  · rename_i hRange
    refine iff_of_false (by simp) ?_
    rintro ⟨hOrder, hWithin, _⟩
    exact hRange ⟨hOrder, hWithin⟩

/- A range of bytes gives a stretch of the text between two characters. -/
theorem textBetween_eq_ok_iff
    {start finish : Nat}
    {s t : List Char} :
    textBetween start finish s = .ok t ↔
      ∃ u v,
        s = u ++ (t ++ v) ∧ Lexeme.byteSize u = start ∧
          Lexeme.byteSize (u ++ t) = finish := by
  rw [← Text.slice?_eq_some_iff]
  unfold textBetween
  cases Text.slice? start finish s <;> simp

/- A text without its first and its last byte. -/
def textInside (s : List Char) : Except Overrun (List Char) :=
  textBetween 1 (Lexeme.byteSize s - 1) s

end Overrun

open Overrun

------------------------------------------------------------
-- Tokens In Their Text
------------------------------------------------------------

/- A text and all of its tokens. -/
structure Scan where
  text : List Char
  tokens : List Spanned

namespace Scan

/- The token of a lexeme; what stands between quotes is cut out of its text. -/
def contentOf (l : Lexeme) : Except Overrun Token :=
  match l.token with
  | .string q _ => do
    let inner ← textInside l.text
    pure (.string q (Value.undouble q.char inner))
  | .quotedName _ => do
    let inner ← textInside l.text
    pure (.quotedName inner)
  | t => pure t

/- The scan of a text. -/
def ofText (s : List Char) : Except Overrun Scan := do
  let ls := Lexer.lexemes s
  let tokens ← ls.mapM contentOf
  pure { text := s, tokens := tokens.zip (Lexeme.byteSpans ls) }

/- The name that a token stands for, if it may stand for one. -/
def name?
    (scan : Scan)
    (t : Spanned) : Option String :=
  match t.1 with
  | .name s => some (String.ofList s)
  | .quotedName s => some (String.ofList s)
  | u =>
    if u.isSoft then
      (Text.slice? t.2.1 t.2.2 scan.text).map String.ofList
    else none

/- The source text of the tokens from one index up to another. -/
def raw
    (scan : Scan)
    (start finish : Nat) : Except Overrun (List Char) :=
  if finish ≤ start then pure []
  else do
    let first ← tokenAt start scan.tokens
    let last ← tokenAt (finish - 1) scan.tokens
    textBetween first.2.1 last.2.2 scan.text

/- The place of a token in words. -/
def place
    (scan : Scan)
    (i : Nat) : Except Overrun String :=
  match scan.tokens[i]? with
  | none => pure " at end of statement"
  | some t => do
    let near ← textBetween t.2.1 t.2.2 scan.text
    pure (" near '" ++ String.ofList near ++ "'")

/- The failure to find a shape at a token. -/
def unexpected
    (scan : Scan)
    (usage : String)
    (i : Nat) : Except Overrun Error := do
  let near ← scan.place i
  if usage.isEmpty then
    pure (.invalidSyntax ("Unexpected input" ++ near))
  else
    pure (.invalidSyntax ("Expected " ++ usage ++ near))

/- Fail with a shape that is not found at a token. -/
def fail
    {α : Type}
    (scan : Scan)
    (usage : String)
    (i : Nat) : Checked α := do
  let e ← scan.unexpected usage i
  throw e

/- The source text of tokens that must not be none; `here` is where an error points. -/
def slice
    (scan : Scan)
    (usage : String)
    (here start finish : Nat) : Checked String :=
  if finish ≤ start then scan.fail usage here
  else do
    let s ← scan.raw start finish
    pure (String.ofList s)

------------------------------------------------------------
-- Parentheses And Commas
------------------------------------------------------------

/- The depth after a token; a closing parenthesis too many is ignored. -/
def depthAfter
    (depth : Nat) : Token → Nat
| .mark .openParen => depth + 1
| .mark .closeParen => depth - 1
| _ => depth

/- The index of the parenthesis that closes the ones open before tokens. -/
def closeFrom
    (depth i : Nat) : List Spanned → Option Nat
| [] => none
| t :: ts =>
  match t.1, depth with
  | .mark .openParen, d => closeFrom (d + 1) (i + 1) ts
  | .mark .closeParen, 0 => some i
  | .mark .closeParen, d + 1 => closeFrom d (i + 1) ts
  | _, d => closeFrom d (i + 1) ts

/- The index of the parenthesis that closes the one just before an index. -/
def matchingParen
    (scan : Scan)
    (i : Nat) : Option Nat :=
  closeFrom 0 i (scan.tokens.drop i)

/- The index of the first given keyword outside parentheses. -/
def topLevelFrom
    (k : Keyword)
    (depth i : Nat) : List Spanned → Option Nat
| [] => none
| t :: ts =>
  if depth = 0 ∧ t.1 = .keyword k then some i
  else topLevelFrom k (depthAfter depth t.1) (i + 1) ts

/- The index of the first given keyword outside parentheses, from an index on. -/
def findTopLevel
    (scan : Scan)
    (k : Keyword)
    (i : Nat) : Option Nat :=
  topLevelFrom k 0 i (scan.tokens.drop i)

/-
  The ranges between commas outside parentheses, for a number
  of tokens from an index on.  The first range starts at
  `start` and the last one ends at `finish`.
-/
def splitFrom
    (scan : Scan)
    (finish start depth i : Nat) :
    Nat → Except Overrun (List (Nat × Nat))
| 0 => pure [(start, finish)]
| n + 1 => do
  let t ← tokenAt i scan.tokens
  if depth = 0 ∧ t.1 = .mark .comma then
    let ranges ← splitFrom scan finish (i + 1) depth (i + 1) n
    pure ((start, i) :: ranges)
  else
    splitFrom scan finish start (depthAfter depth t.1) (i + 1) n

/- The ranges between commas outside parentheses; empty ranges are kept. -/
def splitTopLevel
    (scan : Scan)
    (start finish : Nat) : Except Overrun (List (Nat × Nat)) :=
  splitFrom scan finish start 0 start (finish - start)

------------------------------------------------------------
-- Pieces
------------------------------------------------------------

/- One assignment between indices: a name, an equals sign, and a text that is not empty. -/
def assignment
    (scan : Scan)
    (here start finish : Nat) : Checked Assignment :=
  if finish ≤ start then scan.fail Reader.updateUsage here
  else do
    let c ← tokenAt start scan.tokens
    match scan.name? c with
    | none => scan.fail Reader.updateUsage here
    | some column =>
      if finish < start + 2 then
        scan.fail Reader.updateUsage here
      else do
        let e ← tokenAt (start + 1) scan.tokens
        if e.1 = .comparison .eq then
          let value ←
            scan.slice Reader.updateUsage here (start + 2) finish
          pure { column := column, value := value }
        else scan.fail Reader.updateUsage here

/- Names at the even places from a place on, and commas at the odd ones. -/
def alternatingNames?
    (scan : Scan)
    (i : Nat) : List Spanned → Option (List String)
| [] => some []
| t :: ts =>
  if i % 2 = 1 then
    if t.1 = .mark .comma then alternatingNames? scan (i + 1) ts
    else none
  else
    match scan.name? t with
    | none => none
    | some name =>
      (alternatingNames? scan (i + 1) ts).map (name :: ·)

/- The names of a key clause between indices, if it is one. -/
def keyClause?
    (scan : Scan)
    (start finish : Nat) :
    Except Overrun (Option (List String)) := do
  let ts ← tokensBetween start finish scan.tokens
  if ts.length < 4 then pure none
  else do
    let k ← tokenAt 1 ts
    if k.1 ≠ .keyword .key then pure none
    else do
      let p ← tokenAt 2 ts
      if p.1 ≠ .mark .openParen then pure none
      else do
        let q ← tokenAt (ts.length - 1) ts
        if q.1 ≠ .mark .closeParen then pure none
        else do
          let inner ← tokensBetween 3 (ts.length - 1) ts
          pure ((scan.alternatingNames? 0 inner).filter
            fun names => !names.isEmpty)

/- The key clause between indices. -/
def keyClause
    (scan : Scan)
    (start finish : Nat) : Checked (List String) := do
  match ← scan.keyClause? start finish with
  | some names => pure names
  | none => do
    let definition ← scan.raw start finish
    throw (.invalidColumnDefinition (String.ofList definition))

/- The first closing parenthesis among a number of tokens from an index on. -/
def firstCloseFrom
    (scan : Scan)
    (i : Nat) : Nat → Except Overrun (Option Nat)
| 0 => pure none
| n + 1 => do
  let t ← tokenAt i scan.tokens
  if t.1 = .mark .closeParen then pure (some i)
  else firstCloseFrom scan (i + 1) n

/- The end of a declared type whose word ends at an index, if its parenthesis is closed. -/
def typeEnd?
    (scan : Scan)
    (i finish : Nat) : Except Overrun (Option Nat) :=
  if i < finish then do
    let p ← tokenAt i scan.tokens
    if p.1 = .mark .openParen then
      let close ← scan.firstCloseFrom i (finish - i)
      pure (close.map (· + 1))
    else pure (some i)
  else pure (some i)

/- The definition of one column between indices. -/
def columnDefinition
    (scan : Scan)
    (start finish : Nat) : Checked ColumnDefinition := do
  let definition ← scan.raw start finish
  let invalid :=
    Error.invalidColumnDefinition (String.ofList definition)
  if finish ≤ start then throw invalid
  else do
    let n ← tokenAt start scan.tokens
    match scan.name? n with
    | none => throw invalid
    | some name =>
      if finish ≤ start + 1 then throw invalid
      else do
        let t ← tokenAt (start + 1) scan.tokens
        if (scan.name? t).isNone then throw invalid
        else do
          match ← scan.typeEnd? (start + 2) finish with
          | none => throw invalid
          | some typeEnd => do
            let type ← scan.raw (start + 1) typeEnd
            pure
              { name := name
                typeText := String.ofList type
                primaryKey := Reader.declaresKey definition }

/- The columns and key names between pairs of indices, in order. -/
def tablePieces
    (scan : Scan) :
    List (Nat × Nat) →
      Checked (List ColumnDefinition × List String)
| [] => pure ([], [])
| (start, finish) :: ranges => do
  let t ← tokenAt start scan.tokens
  if t.1 = .keyword .primary then
    let names ← scan.keyClause start finish
    let (columns, key) ← tablePieces scan ranges
    pure (columns, names ++ key)
  else
    let column ← scan.columnDefinition start finish
    let (columns, key) ← tablePieces scan ranges
    pure (column :: columns, key)

end Scan

------------------------------------------------------------
-- Moving The Cursor
------------------------------------------------------------

namespace Cursor

/- Fail where the cursor stands. -/
def fail
    {α : Type}
    (scan : Scan)
    (usage : String) : Cursor α := do
  let here ← get
  (scan.fail usage here : Checked α)

/- The token where the cursor stands, if it is not at the end. -/
def peek (scan : Scan) : Cursor (Option Spanned) := do
  let here ← get
  pure scan.tokens[here]?

/- Take the next token, if there is one. -/
def next? (scan : Scan) : Cursor (Option Spanned) := do
  match ← peek scan with
  | none => pure none
  | some t => do
    modify (· + 1)
    pure (some t)

/- Take a given token if it comes next. -/
def accept
    (scan : Scan)
    (t : Token) : Cursor Bool := do
  match ← peek scan with
  | none => pure false
  | some u =>
    if u.1 = t then do
      modify (· + 1)
      pure true
    else pure false

/- Take a given token, which must come next. -/
def expect
    (scan : Scan)
    (usage : String)
    (t : Token) : Cursor Unit := do
  if ← accept scan t then pure () else fail scan usage

/- Take a name. -/
def name
    (scan : Scan)
    (usage : String) : Cursor String := do
  match (← peek scan).bind scan.name? with
  | none => fail scan usage
  | some s => do
    modify (· + 1)
    pure s

/- Take further names, each after a comma, up to a number of them. -/
def moreNames
    (scan : Scan)
    (usage : String) : Nat → Cursor (List String)
| 0 => pure []
| n + 1 => do
  if ← accept scan (.mark .comma) then
    let first ← name scan usage
    let others ← moreNames scan usage n
    pure (first :: others)
  else pure []

/- Take names separated by commas; there are no more of them than tokens. -/
def names
    (scan : Scan)
    (usage : String) : Cursor (List String) := do
  let first ← name scan usage
  let others ← moreNames scan usage scan.tokens.length
  pure (first :: others)

/-
  Read the ranges between commas up to the matching closing
  parenthesis, and move behind that parenthesis.
-/
def enclosed
    {α : Type}
    (scan : Scan)
    (usage : String)
    (read : Nat → List (Nat × Nat) → Checked α) :
    Cursor α := do
  let here ← get
  match scan.matchingParen here with
  | none => fail scan usage
  | some close => do
    let ranges ← scan.splitTopLevel here close
    let a ← (read here ranges : Checked α)
    set (close + 1)
    pure a

/- Take an optional condition, which runs to the end. -/
def condition
    (scan : Scan)
    (usage : String) : Cursor (Option String) := do
  if ← accept scan (.keyword .«where») then
    let here ← get
    let text ← scan.slice usage here here scan.tokens.length
    set scan.tokens.length
    pure (some text)
  else pure none

/- Nothing is left. -/
def finish
    (scan : Scan)
    (usage : String) : Cursor Unit := do
  match ← peek scan with
  | none => pure ()
  | some _ => fail scan usage

------------------------------------------------------------
-- Commands
------------------------------------------------------------

open Reader (selectUsage insertUsage updateUsage deleteUsage
  createUsage createTableUsage createDatabaseUsage dropUsage
  alterUsage permissionUsage userKeyword showUsage useUsage
  describeUsage)

/- Read a selection after its first word. -/
def select (scan : Scan) : Cursor Command := do
  let projection ←
    if ← accept scan (.mark .star) then pure Projection.all
    else pure (Projection.columns (← names scan selectUsage))
  expect scan selectUsage (.keyword .«from»)
  let table ← name scan selectUsage
  pure
    (.select projection table (← condition scan selectUsage))

/- Read an insertion after its first word. -/
def insert (scan : Scan) : Cursor Command := do
  expect scan insertUsage (.keyword .into)
  let table ← name scan insertUsage
  expect scan insertUsage (.mark .openParen)
  let columns ← names scan insertUsage
  expect scan insertUsage (.mark .closeParen)
  expect scan insertUsage (.keyword .values)
  expect scan insertUsage (.mark .openParen)
  let values ← enclosed scan insertUsage fun here ranges =>
    ranges.mapM fun r => scan.slice insertUsage here r.1 r.2
  pure (.insert table columns values)

/- Read the assignments of an update, up to its condition. -/
def assignments (scan : Scan) : Cursor (List Assignment) := do
  let here ← get
  let finish :=
    (scan.findTopLevel .«where» here).getD scan.tokens.length
  let ranges ← scan.splitTopLevel here finish
  let changes ←
    (ranges.mapM fun r => scan.assignment here r.1 r.2 :
      Checked (List Assignment))
  set finish
  pure changes

/- Read an update after its first word. -/
def update (scan : Scan) : Cursor Command := do
  let table ← name scan updateUsage
  expect scan updateUsage (.keyword .set)
  let changes ← assignments scan
  pure (.update table changes (← condition scan updateUsage))

/- Read a deletion after its first word. -/
def delete (scan : Scan) : Cursor Command := do
  expect scan deleteUsage (.keyword .«from»)
  let table ← name scan deleteUsage
  pure (.delete table (← condition scan deleteUsage))

/- Read a table creation after its first two words. -/
def createTable (scan : Scan) : Cursor Command := do
  let table ← name scan createTableUsage
  expect scan createTableUsage (.mark .openParen)
  let (columns, key) ← enclosed scan createTableUsage
    fun _ ranges => scan.tablePieces ranges
  pure (.createTable table columns key)

/- Read a database creation after its first two words. -/
def createDatabase (scan : Scan) : Cursor Command := do
  let ifNotExists ← accept scan (.keyword .«if»)
  if ifNotExists then
    expect scan createDatabaseUsage (.keyword .not)
    expect scan createDatabaseUsage (.keyword .«exists»)
  pure
    (.createDatabase (← name scan createDatabaseUsage)
      ifNotExists)

/- Read a creating command after its first word. -/
def create (scan : Scan) : Cursor Command := do
  match (← next? scan).map Prod.fst with
  | some (.keyword .table) => createTable scan
  | some (.keyword .database) => createDatabase scan
  | _ => fail scan createUsage

/- Read a dropping command after its first word. -/
def drop (scan : Scan) : Cursor Command := do
  match (← next? scan).map Prod.fst with
  | some (.keyword .table) =>
    pure (.dropTable (← name scan dropUsage))
  | some (.keyword .database) =>
    pure (.dropDatabase (← name scan dropUsage))
  | _ => fail scan dropUsage

/- Read a column definition that runs to the end. -/
def addedColumn (scan : Scan) : Cursor ColumnDefinition := do
  let start ← get
  if scan.tokens.length ≤ start then fail scan alterUsage
  else do
    let column ←
      scan.columnDefinition start scan.tokens.length
    set scan.tokens.length
    pure column

/- Read the action of a table change. -/
def alterAction (scan : Scan) : Cursor AlterAction := do
  match (← next? scan).map Prod.fst with
  | some (.keyword .add) =>
    let _ ← accept scan (.keyword .column)
    pure (.addColumn (← addedColumn scan))
  | some (.keyword .drop) =>
    let _ ← accept scan (.keyword .column)
    pure (.dropColumn (← name scan alterUsage))
  | some (.keyword .rename) =>
    expect scan alterUsage (.keyword .«to»)
    pure (.renameTo (← name scan alterUsage))
  | _ => fail scan alterUsage

/- Read a table change after its first word. -/
def alter (scan : Scan) : Cursor Command := do
  expect scan alterUsage (.keyword .table)
  let table ← name scan alterUsage
  pure (.alterTable table (← alterAction scan))

/- Read the user of a permission: a string or a name. -/
def user
    (scan : Scan)
    (usage : String) : Cursor String := do
  match ← next? scan with
  | none => fail scan usage
  | some t =>
    match t.1 with
    | .string _ s => pure (String.ofList s)
    | _ =>
      match scan.name? t with
      | some s => pure s
      | none => fail scan usage

/- Read the scope of a permission. -/
def scope
    (scan : Scan)
    (usage : String) : Cursor Scope := do
  match (← next? scan).map Prod.fst with
  | some (.keyword .table) => pure .table
  | some (.keyword .database) => pure .database
  | _ => fail scan usage

/- Read the privilege of a permission, and take the word after it. -/
def privilege
    (scan : Scan)
    (usage : String) : Cursor String := do
  let here ← get
  match scan.findTopLevel .on here with
  | none => fail scan usage
  | some on => do
    let text ← scan.slice usage here here on
    set (on + 1)
    pure text

/- Read a permission command after its first word. -/
def permission
    (scan : Scan)
    (action : PermissionAction) : Cursor Command := do
  let usage := permissionUsage action
  let privilege ← privilege scan usage
  let scope ← scope scan usage
  let object ← name scan usage
  expect scan usage (.keyword (userKeyword action))
  let user ← user scan usage
  pure (.permission action
    { privilege := privilege
      scope := scope
      name := object
      user := user })

/- Read a listing command after its first word. -/
def listing (scan : Scan) : Cursor Command := do
  match (← next? scan).map Prod.fst with
  | some (.keyword .databases) => pure .showDatabases
  | some (.keyword .tables) => pure .showTables
  | _ => fail scan showUsage

/- Read transaction control after its first word. -/
def control
    (scan : Scan)
    (c : Control) : Cursor (Statement × String) := do
  let _ ← accept scan (.keyword .transaction)
  pure (.control c, "")

/- A command with the shape that a later error names. -/
def shaped
    (usage : String)
    (c : Cursor Command) : Cursor (Statement × String) := do
  pure (.command (← c), usage)

/- Read what follows the first word of a statement, if it begins one. -/
def afterFirst?
    (scan : Scan) :
    Token → Option (Cursor (Statement × String))
| .keyword .select => some (shaped selectUsage (select scan))
| .keyword .insert => some (shaped insertUsage (insert scan))
| .keyword .update => some (shaped updateUsage (update scan))
| .keyword .delete => some (shaped deleteUsage (delete scan))
| .keyword .create =>
  some do
    let c ← create scan
    match c with
    | .createTable _ _ _ => pure (.command c, createTableUsage)
    | _ => pure (.command c, createDatabaseUsage)
| .keyword .drop => some (shaped dropUsage (drop scan))
| .keyword .alter => some (shaped alterUsage (alter scan))
| .keyword .use =>
  some (shaped useUsage
    (do pure (.use (← name scan useUsage))))
| .keyword .grant =>
  some (shaped (permissionUsage .grant)
    (permission scan .grant))
| .keyword .revoke =>
  some (shaped (permissionUsage .revoke)
    (permission scan .revoke))
| .keyword .«show» => some (shaped showUsage (listing scan))
| .keyword .describe =>
  some (shaped describeUsage
    (do pure (.describe (← name scan describeUsage))))
| .keyword .begin => some (control scan .begin)
| .keyword .commit => some (control scan .commit)
| .keyword .rollback => some (control scan .rollback)
| _ => none

/- Read a statement and the end of its text. -/
def statement (scan : Scan) : Cursor Statement := do
  match ← next? scan with
  | none => throw .emptyStatement
  | some first =>
    match afterFirst? scan first.1 with
    | none => throw (Statement.unsupported scan.text)
    | some rest => do
      let (statement, usage) ← rest
      finish scan usage
      pure statement

/- Read the one statement that a text holds. -/
def parse
    (text : String) : Except Overrun (Except Error Statement) :=
  let s := Statement.normalize text.toList
  if s.isEmpty then .ok (.error .emptyStatement)
  else do
    let scan ← Scan.ofText s
    ((statement scan).run' 0).run

------------------------------------------------------------
-- Conditions
------------------------------------------------------------

/- The text inside matching quotes of a text with at least two bytes. -/
def unquote :
    List Char → Except Overrun (Option (List Char))
| [] => pure none
| q :: s =>
  if !Value.isQuote q || Lexeme.byteSize (q :: s) < 2 ||
      (q :: s).getLast? != some q then pure none
  else do
    let inner ← textInside (q :: s)
    pure (some (Value.undouble q inner))

/- The value of a literal; only quoted text is cut. -/
def literal (s : List Char) : Except Overrun Value := do
  match ← unquote (Text.trim s) with
  | some u => pure (.text (String.ofList u))
  | none => pure (Value.ofLiteral s)

/- The literal of a condition: the text from the first to the last of its tokens. -/
def literalOf
    (scan : Scan)
    (op : Comparison)
    (ts : List Spanned) : Checked Value :=
  match ts.head?, ts.getLast? with
  | some first, some last =>
    if ts.any fun t => Condition.breaksLiteral t.1 then
      throw (Condition.compound scan.text)
    else do
      let s ← textBetween first.2.1 last.2.2 scan.text
      let value ← literal s
      pure value
  | _, _ =>
    throw (Condition.missing
      ("a value after '" ++ op.sign ++ "'") scan.text)

/- The condition that all tokens of a text form. -/
def conditionOf (scan : Scan) : Checked Condition :=
  match scan.tokens.head?.bind scan.name? with
  | none =>
    throw (Condition.missing "a column name" scan.text)
  | some column =>
    match scan.tokens[1]?.bind fun t =>
        Condition.comparison? t.1 with
    | none =>
      throw
        (Condition.missing "a comparison operator" scan.text)
    | some op => do
      let ts ←
        tokensBetween 2 scan.tokens.length scan.tokens
      let value ← literalOf scan op ts
      pure { column := column, op := op, literal := value }

/- Read a condition that takes up a whole text. -/
def parseCondition
    (text : String) : Except Overrun (Except Error Condition) :=
  do
    let scan ← Scan.ofText (Text.trim text.toList)
    (conditionOf scan).run

end Cursor

end Rowstore
