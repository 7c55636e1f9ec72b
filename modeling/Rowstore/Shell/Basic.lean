import Rowstore.Session.Execute
import Rowstore.Shell.Buffer
import Rowstore.Shell.Config
import Rowstore.Shell.Layout
import Rowstore.Storage.Depot

/-
  This file defines the shell, which takes lines and gives
  the texts of results.

  Key definitions include:
    * `Shell`
    * `Shell.start`
    * `Shell.prompt`
    * `Step`
    * `Shell.handleLine`
    * `Shell.finish`
-/

namespace Rowstore

/- A configuration, a session, and the lines that are pending. -/
structure Shell where
  config : Config
  session : Session Depot
  buffer : Buffer

/- What a line of input leads to. -/
inductive Step where
| pending
| output (text : String)
| quit
deriving DecidableEq, Repr

namespace Shell

------------------------------------------------------------
-- Opening
------------------------------------------------------------

/- The backend of a configuration. -/
def depot
    (config : Config)
    (place : Place) : Except Error Depot :=
  match config.backend with
  | .memory => .ok (.memory (.new .empty config.snapshotLimit))
  | .json => do
    let options := config.storageOptions
    let d ← Directory.prepare options place
    let f ← Folder.ofDirectory options d
    pure (.folder f)
  | .rocks =>
    .error (.configuration
      "RocksDB backend not compiled in; rebuild with --features rocksdb")

/- Select the initial database if it can be found. -/
def chooseInitial
    (config : Config)
    (s : Session Depot) : Session Depot :=
  match config.initialDatabase with
  | none => s
  | some name => ((Session.choose name).run.run s).2

/- Open the backend of a configuration, and start a session. -/
def start
    (config : Config)
    (place : Place) : Except Error Shell := do
  let d ← depot config place
  pure
    { config := config
      session := chooseInitial config (Session.new d config.mode)
      buffer := .empty }

------------------------------------------------------------
-- Prompts
------------------------------------------------------------

/- The end of a prompt. -/
def promptEnd : String :=
  "> "

/-
  The prompt: dots while lines are pending, and otherwise the
  name of the selected database.
-/
def prompt (sh : Shell) : String :=
  let word := sh.config.prompt
  if sh.buffer.isEmpty then
    match (Session.activeName.run.run sh.session).1 with
    | .ok (some name) => word ++ "(" ++ name ++ ")" ++ promptEnd
    | _ => word ++ promptEnd
  else
    Layout.repeated ' ' word.utf8ByteSize ++ "..." ++ promptEnd

------------------------------------------------------------
-- Statements
------------------------------------------------------------

/- What a shell does with its session. -/
abbrev Turn :=
  ExceptT Error (StateM Shell)

/- Act in the session. -/
def inSession
    {α : Type}
    (action : Action Depot α) : Turn α := do
  let sh ← get
  let (answer, s) := action.run.run sh.session
  set { sh with session := s }
  answer

/- Execute a statement, and render its result. -/
def run
    (stamp : Stamp)
    (statement : String) : Turn String := do
  let r ← inSession (Session.execute stamp statement)
  pure r.render

------------------------------------------------------------
-- Meta Commands
------------------------------------------------------------

/- The text of the help command. -/
def help : String :=
  "\n".intercalate
    ["Statements end with ';' or a blank line.",
     "",
     "Meta commands:",
     "  .help                         Show this text",
     "  .quit                         Leave the shell",
     "  .databases                    List databases",
     "  .tables                       List tables in the active database",
     "  .insert <table> col=value ... Insert a row with type coercion"]

/- The column and the value of a word with an equals sign. -/
def pair (word : List Char) : Except Error (String × String) :=
  match word.dropWhile fun c => c != '=' with
  | _ :: value =>
    .ok
      (String.ofList (word.takeWhile fun c => c != '='),
        String.ofList value)
  | [] =>
    .error (.invalidSyntax
      ("Expected col=value, got '" ++ String.ofList word ++ "'"))

/- The columns and the values of words. -/
def pairs
    (words : List (List Char)) : Except Error (List (String × String)) :=
  words.mapM pair

/- Insert a row of entered texts. -/
def insertWords : List (List Char) → Turn Step
| [] =>
  throw (.invalidSyntax "Expected .insert <table> col=value ...")
| table :: words => do
  let entries ← pairs words
  let id ←
    inSession (Session.insertRow (String.ofList table) entries)
  pure (.output s!"1 row inserted (id {id.value})")

/- Run a meta command, a word in any letter case with arguments. -/
def runMeta
    (stamp : Stamp)
    (word : List Char)
    (arguments : List (List Char)) : Turn Step := do
  let command := String.ofList (Text.lowerBasic word)
  match command with
  | ".help" => pure (.output help)
  | ".quit" => pure .quit
  | ".exit" => pure .quit
  | ".databases" => pure (.output (← run stamp "SHOW DATABASES"))
  | ".tables" => pure (.output (← run stamp "SHOW TABLES"))
  | ".insert" => insertWords arguments
  | _ =>
    throw (.invalidSyntax
      ("Unknown command '" ++ command ++ "'. Try .help"))

------------------------------------------------------------
-- Lines
------------------------------------------------------------

/- The line is a meta command: it starts with a dot, blanks apart. -/
def isMeta (line : String) : Bool :=
  (Text.trim line.toList).head? == some '.'

/- Take a line. -/
def handleLine
    (stamp : Stamp)
    (line : String) : Turn Step := do
  let sh ← get
  if sh.buffer.isEmpty && isMeta line then
    match Text.words line.toList with
    | [] => pure .pending
    | word :: arguments => runMeta stamp word arguments
  else
    let (statement, b) := sh.buffer.push line
    set { sh with buffer := b }
    match statement with
    | some text => pure (.output (← run stamp text))
    | none => pure .pending

/- Execute what is pending at the end of input. -/
def finish (stamp : Stamp) : Turn (Option String) := do
  let sh ← get
  let (statement, b) := sh.buffer.flush
  set { sh with buffer := b }
  match statement with
  | some text => pure (some (← run stamp text))
  | none => pure none

end Shell

end Rowstore
