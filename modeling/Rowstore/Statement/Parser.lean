import Rowstore.Error
import Rowstore.Statement.Basic
import Rowstore.Statement.Lexer

/-
  This file defines how a statement is read from its text.

  A reader works on the lexemes that are left.  When the
  statement does not have the expected shape, the error names
  that shape and the lexeme where the reader stands.

  Key definitions include:
    * `Statement.normalize`
    * `Reader`
    * `Lexeme.splitAtClose`
    * `Lexeme.splitAtTop`
    * `Lexeme.splitCommas`
    * `Statement.parse`
-/

namespace Rowstore

------------------------------------------------------------
-- Normalised Text
------------------------------------------------------------

namespace Statement

/- Drop surrounding blanks and the semicolons that end a text. -/
def normalize (s : List Char) : List Char :=
  Text.trimEnd
    (Text.dropEndWhile (fun c => c == ';') (Text.trim s))

end Statement

------------------------------------------------------------
-- Runs of Lexemes
------------------------------------------------------------

namespace Lexeme

/-
  Split after an opening parenthesis: the lexemes before the
  matching closing one, and those after it.  The depth counts
  the parentheses opened meanwhile.
-/
def splitAtClose
    (depth : Nat) :
    List Lexeme → Option (List Lexeme × List Lexeme)
| [] => none
| l :: ls =>
  match l.token, depth with
  | .mark .openParen, d =>
    (splitAtClose (d + 1) ls).map fun (a, b) => (l :: a, b)
  | .mark .closeParen, 0 => some ([], ls)
  | .mark .closeParen, d + 1 =>
    (splitAtClose d ls).map fun (a, b) => (l :: a, b)
  | _, d => (splitAtClose d ls).map fun (a, b) => (l :: a, b)

/- The depth after a lexeme; a closing parenthesis too many is ignored. -/
def depthAfter
    (depth : Nat)
    (l : Lexeme) : Nat :=
  match l.token with
  | .mark .openParen => depth + 1
  | .mark .closeParen => depth - 1
  | _ => depth

/- Split before the first given keyword outside parentheses. -/
def splitAtTop
    (k : Keyword)
    (depth : Nat) :
    List Lexeme → Option (List Lexeme × List Lexeme)
| [] => none
| l :: ls =>
  if depth = 0 ∧ l.isKeyword k then some ([], l :: ls)
  else
    (splitAtTop k (l.depthAfter depth) ls).map
      fun (a, b) => (l :: a, b)

/- Split at the commas outside parentheses; empty pieces are kept. -/
def splitCommas
    (depth : Nat) : List Lexeme → List (List Lexeme)
| [] => [[]]
| l :: ls =>
  if depth = 0 ∧ l.isMark .comma then
    [] :: splitCommas depth ls
  else
    match splitCommas (l.depthAfter depth) ls with
    | [] => [[l]]
    | p :: ps => (l :: p) :: ps

/- The source text of lexemes as a string. -/
def source (ls : List Lexeme) : String :=
  String.ofList (sourceText ls)

end Lexeme

------------------------------------------------------------
-- Readers
------------------------------------------------------------

/- A reader consumes lexemes, or fails. -/
abbrev Reader (α : Type) :=
  StateT (List Lexeme) (Except Error) α

namespace Reader

/- The place where a reader stands, in words. -/
def place : List Lexeme → String
| [] => " at end of statement"
| l :: _ => " near '" ++ String.ofList l.text ++ "'"

/- The failure to find a shape at a place; without a shape, there is too much input. -/
def unexpected
    (usage : String)
    (ls : List Lexeme) : Error :=
  if usage.isEmpty then
    .invalidSyntax ("Unexpected input" ++ place ls)
  else
    .invalidSyntax ("Expected " ++ usage ++ place ls)

/- Fail where the reader stands. -/
def fail
    {α : Type}
    (usage : String) : Reader α :=
  fun ls => .error (unexpected usage ls)

/- Take the next lexeme, if there is one. -/
def next? : Reader (Option Lexeme)
| [] => .ok (none, [])
| l :: ls => .ok (some l, ls)

/- Take the lexemes that are left. -/
def rest : Reader (List Lexeme) :=
  fun ls => .ok (ls, [])

/- Take a given token if it comes next. -/
def accept (t : Token) : Reader Bool
| [] => .ok (false, [])
| l :: ls =>
  if l.token = t then .ok (true, ls) else .ok (false, l :: ls)

/- Take a given token, which must come next. -/
def expect
    (usage : String)
    (t : Token) : Reader Unit := do
  if ← accept t then pure () else fail usage

/- Take a name. -/
def name (usage : String) : Reader String
| [] => .error (unexpected usage [])
| l :: ls =>
  match l.name? with
  | some s => .ok (s, ls)
  | none => .error (unexpected usage (l :: ls))

/- Take further names, each after a comma. -/
def moreNames (usage : String) : Reader (List String)
| c :: l :: ls =>
  if c.isMark .comma then
    match l.name? with
    | some s =>
      match moreNames usage ls with
      | .ok (names, r) => .ok (s :: names, r)
      | .error e => .error e
    | none => .error (unexpected usage (l :: ls))
  else .ok ([], c :: l :: ls)
| [c] =>
  if c.isMark .comma then .error (unexpected usage [])
  else .ok ([], [c])
| [] => .ok ([], [])

/- Take names separated by commas, at least one. -/
def names (usage : String) : Reader (List String) := do
  let first ← name usage
  let others ← moreNames usage
  pure (first :: others)

/- Take the lexemes up to the matching closing parenthesis, and that parenthesis. -/
def enclosed (usage : String) : Reader (List Lexeme) :=
  fun ls =>
    match Lexeme.splitAtClose 0 ls with
    | some r => .ok r
    | none => .error (unexpected usage ls)

/- The source text of a run of lexemes, which must not be empty. -/
def nonempty
    (usage : String)
    (piece : List Lexeme) : Reader String :=
  if piece.isEmpty then fail usage
  else pure (Lexeme.source piece)

/- Take an optional condition, which runs to the end. -/
def condition (usage : String) : Reader (Option String) := do
  if ← accept (.keyword .«where») then
    match ← get with
    | [] => fail usage
    | ls =>
      set ([] : List Lexeme)
      pure (some (Lexeme.source ls))
  else pure none

/- Nothing is left. -/
def finish (usage : String) : Reader Unit := do
  match ← get with
  | [] => pure ()
  | _ => fail usage

------------------------------------------------------------
-- Column Definitions
------------------------------------------------------------

/- The text `part` occurs in a text. -/
def occursIn (part : List Char) : List Char → Bool
| [] => part.isEmpty
| c :: s => part.isPrefixOf (c :: s) || occursIn part s

/- A text with each run of blanks as one space and none at the ends, in capitals. -/
def capitalWords (s : List Char) : List Char :=
  Text.upper ([' '].intercalate (Text.words s))

/- A definition declares a primary key when these words occur anywhere in it. -/
def declaresKey (definition : List Char) : Bool :=
  occursIn "PRIMARY KEY".toList (capitalWords definition)

/- The lexemes of a declared type: its word, and arguments up to the first closing parenthesis. -/
def typeLexemes? : List Lexeme → Option (List Lexeme)
| [] => none
| t :: ls =>
  if t.name?.isNone then none
  else
    match ls with
    | p :: _ =>
      if p.isMark .openParen then
        let arguments := ls.takeWhile fun l => !l.isMark .closeParen
        (ls[arguments.length]?).map fun close =>
          t :: arguments ++ [close]
      else some [t]
    | [] => some [t]

/- The definition of one column: a name, a declared type, and further words. -/
def columnDefinition
    (piece : List Lexeme) : Except Error ColumnDefinition :=
  let text := Lexeme.sourceText piece
  let parts : Option (String × List Lexeme) :=
    match piece with
    | [] => none
    | l :: ls =>
      match l.name?, typeLexemes? ls with
      | some name, some type => some (name, type)
      | _, _ => none
  match parts with
  | some (name, type) =>
    .ok
      { name := name
        typeText := Lexeme.source type
        primaryKey := declaresKey text }
  | none => .error (.invalidColumnDefinition (String.ofList text))

/- Names at every other place and commas between them; a last comma is allowed. -/
def alternatingNames? : List Lexeme → Option (List String)
| [] => some []
| [n] => n.name?.map fun name => [name]
| n :: c :: ls =>
  match n.name? with
  | none => none
  | some name =>
    if c.isMark .comma then (alternatingNames? ls).map (name :: ·)
    else none

/- The names of a key clause: its two words and names in parentheses. -/
def keyClause? : List Lexeme → Option (List String)
| _ :: k :: p :: inner =>
  if k.isKeyword .key && p.isMark .openParen &&
      inner.getLast?.any (Lexeme.isMark .closeParen) then
    (alternatingNames? inner.dropLast).filter fun names =>
      !names.isEmpty
  else none
| _ => none

/- The key clause of a table definition. -/
def keyClause
    (piece : List Lexeme) : Except Error (List String) :=
  match keyClause? piece with
  | some names => .ok names
  | none =>
    .error (.invalidColumnDefinition (Lexeme.source piece))

/- A piece of a table definition is a key clause when its first word says so. -/
def startsKeyClause : List Lexeme → Bool
| [] => false
| l :: _ => l.isKeyword .primary

/- The columns and key names that the pieces of a table definition give, in order. -/
def tablePieces :
    List (List Lexeme) →
      Except Error (List ColumnDefinition × List String)
| [] => .ok ([], [])
| p :: ps => do
  if startsKeyClause p then
    let names ← keyClause p
    let (columns, key) ← tablePieces ps
    pure (columns, names ++ key)
  else
    let column ← columnDefinition p
    let (columns, key) ← tablePieces ps
    pure (column :: columns, key)

------------------------------------------------------------
-- Data Commands
------------------------------------------------------------

/- The shape of a selection. -/
def selectUsage : String :=
  "SELECT <columns>|* FROM <table> [WHERE <condition>]"

/- Read a selection after its first word. -/
def select : Reader Command := do
  let projection ←
    if ← accept (.mark .star) then pure Projection.all
    else pure (Projection.columns (← names selectUsage))
  expect selectUsage (.keyword .«from»)
  let table ← name selectUsage
  pure (.select projection table (← condition selectUsage))

/- The shape of an insertion. -/
def insertUsage : String :=
  "INSERT INTO <table> (<columns>) VALUES (<values>)"

/- The source texts of pieces, none of which may be empty; `ls` is where an error points. -/
def pieceTexts
    (usage : String)
    (ls : List Lexeme) :
    List (List Lexeme) → Except Error (List String)
| [] => .ok []
| p :: ps =>
  if p.isEmpty then .error (unexpected usage ls)
  else (pieceTexts usage ls ps).map (Lexeme.source p :: ·)

/- Read an insertion after its first word. -/
def insert : Reader Command := do
  expect insertUsage (.keyword .into)
  let table ← name insertUsage
  expect insertUsage (.mark .openParen)
  let columns ← names insertUsage
  expect insertUsage (.mark .closeParen)
  expect insertUsage (.keyword .values)
  expect insertUsage (.mark .openParen)
  let here ← get
  let inner ← enclosed insertUsage
  let values ←
    (pieceTexts insertUsage here (Lexeme.splitCommas 0 inner) :
      Except Error (List String))
  pure (.insert table columns values)

/- The shape of an update. -/
def updateUsage : String :=
  "UPDATE <table> SET <column> = <value>[, ...] [WHERE <condition>]"

/- One assignment: a name, an equals sign, and a text that is not empty. -/
def assignment? : List Lexeme → Option Assignment
| c :: e :: v :: vs =>
  match c.name? with
  | some column =>
    if e.token = .comparison .eq then
      some { column := column, value := Lexeme.source (v :: vs) }
    else none
  | none => none
| _ => none

/- The assignments of pieces; `ls` is where an error points. -/
def assignments
    (ls : List Lexeme) :
    List (List Lexeme) → Except Error (List Assignment)
| [] => .ok []
| p :: ps =>
  match assignment? p with
  | some a => (assignments ls ps).map (a :: ·)
  | none => .error (unexpected updateUsage ls)

/- Read an update after its first word. -/
def update : Reader Command := do
  let table ← name updateUsage
  expect updateUsage (.keyword .set)
  let here ← get
  let (before, after) :=
    (Lexeme.splitAtTop .«where» 0 here).getD (here, [])
  let changes ←
    (assignments here (Lexeme.splitCommas 0 before) :
      Except Error (List Assignment))
  set after
  pure (.update table changes (← condition updateUsage))

/- The shape of a deletion. -/
def deleteUsage : String :=
  "DELETE FROM <table> [WHERE <condition>]"

/- Read a deletion after its first word. -/
def delete : Reader Command := do
  expect deleteUsage (.keyword .«from»)
  let table ← name deleteUsage
  pure (.delete table (← condition deleteUsage))

------------------------------------------------------------
-- Schema Commands
------------------------------------------------------------

/- The shapes of the creating commands. -/
def createUsage : String :=
  "CREATE TABLE <name> (<column definitions>) | CREATE DATABASE [IF NOT EXISTS] <name>"

/- The shape of a table creation. -/
def createTableUsage : String :=
  "CREATE TABLE <name> (<column> <type> [PRIMARY KEY], ...)"

/- The shape of a database creation. -/
def createDatabaseUsage : String :=
  "CREATE DATABASE [IF NOT EXISTS] <name>"

/- Read a table creation after its first two words. -/
def createTable : Reader Command := do
  let table ← name createTableUsage
  expect createTableUsage (.mark .openParen)
  let inner ← enclosed createTableUsage
  let (columns, key) ←
    (tablePieces (Lexeme.splitCommas 0 inner) :
      Except Error (List ColumnDefinition × List String))
  pure (.createTable table columns key)

/- Read a database creation after its first two words. -/
def createDatabase : Reader Command := do
  let ifNotExists ← accept (.keyword .«if»)
  if ifNotExists then
    expect createDatabaseUsage (.keyword .not)
    expect createDatabaseUsage (.keyword .«exists»)
  pure (.createDatabase (← name createDatabaseUsage) ifNotExists)

/- Read a creating command after its first word. -/
def create : Reader Command := do
  match (← next?).map Lexeme.token with
  | some (.keyword .table) => createTable
  | some (.keyword .database) => createDatabase
  | _ => fail createUsage

/- The shapes of the dropping commands. -/
def dropUsage : String :=
  "DROP TABLE <name> | DROP DATABASE <name>"

/- Read a dropping command after its first word. -/
def drop : Reader Command := do
  match (← next?).map Lexeme.token with
  | some (.keyword .table) => pure (.dropTable (← name dropUsage))
  | some (.keyword .database) =>
    pure (.dropDatabase (← name dropUsage))
  | _ => fail dropUsage

/- The shapes of a table change. -/
def alterUsage : String :=
  "ALTER TABLE <name> ADD [COLUMN] <definition> | DROP [COLUMN] <column> | RENAME TO <new name>"

/- Read a column definition that runs to the end. -/
def addedColumn : Reader ColumnDefinition := do
  match ← get with
  | [] => fail alterUsage
  | ls =>
    let column ← (columnDefinition ls : Except Error ColumnDefinition)
    set ([] : List Lexeme)
    pure column

/- Read the action of a table change. -/
def alterAction : Reader AlterAction := do
  match (← next?).map Lexeme.token with
  | some (.keyword .add) =>
    let _ ← accept (.keyword .column)
    pure (.addColumn (← addedColumn))
  | some (.keyword .drop) =>
    let _ ← accept (.keyword .column)
    pure (.dropColumn (← name alterUsage))
  | some (.keyword .rename) =>
    expect alterUsage (.keyword .«to»)
    pure (.renameTo (← name alterUsage))
  | _ => fail alterUsage

/- Read a table change after its first word. -/
def alter : Reader Command := do
  expect alterUsage (.keyword .table)
  let table ← name alterUsage
  pure (.alterTable table (← alterAction))

------------------------------------------------------------
-- Permission Commands
------------------------------------------------------------

/- The shape of a permission command. -/
def permissionUsage : PermissionAction → String
| .grant => "GRANT <privilege> ON TABLE|DATABASE <name> TO <user>"
| .revoke => "REVOKE <privilege> ON TABLE|DATABASE <name> FROM <user>"

/- The word between what a permission applies to and its user. -/
def userKeyword : PermissionAction → Keyword
| .grant => .«to»
| .revoke => .«from»

/- Read the user of a permission: a string or a name. -/
def user (usage : String) : Reader String := do
  match ← next? with
  | none => fail usage
  | some l =>
    match l.token with
    | .string _ s => pure (String.ofList s)
    | _ =>
      match l.name? with
      | some s => pure s
      | none => fail usage

/- Read the scope of a permission. -/
def scope (usage : String) : Reader Scope := do
  match (← next?).map Lexeme.token with
  | some (.keyword .table) => pure .table
  | some (.keyword .database) => pure .database
  | _ => fail usage

/- Read a permission command after its first word. -/
def permission (action : PermissionAction) : Reader Command := do
  let usage := permissionUsage action
  match Lexeme.splitAtTop .on 0 (← get) with
  | none => fail usage
  | some (before, after) =>
    let privilege ← nonempty usage before
    set (after.drop 1)
    let scope ← scope usage
    let object ← name usage
    expect usage (.keyword (userKeyword action))
    let user ← user usage
    pure (.permission action
      { privilege := privilege
        scope := scope
        name := object
        user := user })

------------------------------------------------------------
-- Other Commands
------------------------------------------------------------

/- The shapes of the listing commands. -/
def showUsage : String :=
  "SHOW DATABASES | SHOW TABLES"

/- Read a listing command after its first word. -/
def listing : Reader Command := do
  match (← next?).map Lexeme.token with
  | some (.keyword .databases) => pure .showDatabases
  | some (.keyword .tables) => pure .showTables
  | _ => fail showUsage

/- The shape of a selection of a database. -/
def useUsage : String :=
  "USE <database>"

/- The shape of a table description. -/
def describeUsage : String :=
  "DESCRIBE <table>"

/- Read transaction control after its first word; its shape allows no further words. -/
def control (c : Control) : Reader (Statement × String) := do
  let _ ← accept (.keyword .transaction)
  pure (.control c, "")

/- A command with the shape that a later error names. -/
def shaped
    (usage : String)
    (r : Reader Command) : Reader (Statement × String) := do
  pure (.command (← r), usage)

/-
  Read what follows the first word of a statement, together
  with the shape named when input is left after it.  Without
  a result the first word begins no statement.
-/
def afterFirst? : Token → Option (Reader (Statement × String))
| .keyword .select => some (shaped selectUsage select)
| .keyword .insert => some (shaped insertUsage insert)
| .keyword .update => some (shaped updateUsage update)
| .keyword .delete => some (shaped deleteUsage delete)
| .keyword .create =>
  some do
    let c ← create
    match c with
    | .createTable _ _ _ => pure (.command c, createTableUsage)
    | _ => pure (.command c, createDatabaseUsage)
| .keyword .drop => some (shaped dropUsage drop)
| .keyword .alter => some (shaped alterUsage alter)
| .keyword .use =>
  some (shaped useUsage (do pure (.use (← name useUsage))))
| .keyword .grant =>
  some (shaped (permissionUsage .grant) (permission .grant))
| .keyword .revoke =>
  some (shaped (permissionUsage .revoke) (permission .revoke))
| .keyword .«show» => some (shaped showUsage listing)
| .keyword .describe =>
  some (shaped describeUsage
    (do pure (.describe (← name describeUsage))))
| .keyword .begin => some (control .begin)
| .keyword .commit => some (control .commit)
| .keyword .rollback => some (control .rollback)
| _ => none

end Reader

------------------------------------------------------------
-- Statements
------------------------------------------------------------

namespace Statement

/- The statements that exist, as errors list them. -/
def supported : List String :=
  ["SELECT", "INSERT", "UPDATE", "DELETE", "CREATE TABLE",
   "CREATE DATABASE", "DROP TABLE", "DROP DATABASE",
   "ALTER TABLE", "USE", "GRANT", "REVOKE",
   "SHOW DATABASES", "SHOW TABLES", "DESCRIBE", "BEGIN",
   "COMMIT", "ROLLBACK"]

/- The failure for a text whose first word begins no statement. -/
def unsupported (s : List Char) : Error :=
  .unsupportedStatement
    (String.ofList (Text.upper ((Text.words s).headD [])))
    (", ".intercalate supported)

/- Read a statement and the end of input from lexemes that are not empty. -/
def ofLexemes
    (s : List Char)
    (first : Lexeme)
    (ls : List Lexeme) : Except Error Statement :=
  match Reader.afterFirst? first.token with
  | none => .error (unsupported s)
  | some reader => do
    let ((statement, usage), left) ← reader.run ls
    let _ ← (Reader.finish usage).run left
    pure statement

/- Read the one statement that a text holds. -/
def parse (text : String) : Except Error Statement :=
  let s := normalize text.toList
  match Lexer.lexemes s with
  | [] => .error .emptyStatement
  | first :: ls => ofLexemes s first ls

end Statement

end Rowstore
