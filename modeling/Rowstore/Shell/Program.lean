import Rowstore.Shell.Basic

/-
  This file defines the program around the shell: its
  arguments, and a run over given lines of input.

  Key definitions include:
    * `Request`
    * `Request.ofArguments`
    * `Setup.config`
    * `Ending`
    * `Shell.feed`
    * `runProgram`
-/

namespace Rowstore

------------------------------------------------------------
-- Arguments
------------------------------------------------------------

/- The arguments of a run. -/
structure Setup where
  configFile : Option String
  inMemory : Bool
  dataDir : Option String
deriving DecidableEq, Repr

/- What arguments ask for. -/
inductive Request where
| help
| version
| start (setup : Setup)
deriving DecidableEq, Repr

/- Why arguments cannot be followed. -/
inductive ArgumentError where
| missingValue (option : String)
| unexpected (argument : String)
| config (e : Error)
deriving DecidableEq, Repr

namespace ArgumentError

/- The text shown for an argument error. -/
def message : ArgumentError → String
| missingValue option => option ++ " needs a value"
| unexpected argument => "unexpected argument '" ++ argument ++ "'"
| config e => e.message

end ArgumentError

namespace Request

/- An argument is written as an option. -/
def isOption (argument : String) : Bool :=
  argument.toList.head? == some '-'

/- Read arguments in order, after some that were read. -/
def readArguments
    (setup : Setup) : List String → Except ArgumentError Request
| [] => .ok (.start setup)
| argument :: rest =>
  if argument = "-h" ∨ argument = "--help" then .ok .help
  else if argument = "-V" ∨ argument = "--version" then .ok .version
  else if argument = "--config" then
    match rest with
    | [] => .error (.missingValue "--config")
    | path :: rest' =>
      readArguments { setup with configFile := some path } rest'
  else if argument = "--memory" then
    readArguments { setup with inMemory := true } rest
  else if isOption argument || setup.dataDir.isSome then
    .error (.unexpected argument)
  else readArguments { setup with dataDir := some argument } rest

/- Read arguments; of several configuration files the last one counts. -/
def ofArguments
    (arguments : List String) : Except ArgumentError Request :=
  readArguments
    { configFile := none
      inMemory := false
      dataDir := none }
    arguments

end Request

------------------------------------------------------------
-- Configurations
------------------------------------------------------------

namespace Setup

/- The configuration of a file, or the standard one. -/
def fileConfig
    (readFile : String → Except Error String)
    (setup : Setup) : Except Error Config :=
  match setup.configFile with
  | none => .ok .standard
  | some path => do
    Config.read path (← readFile path)

/- A configuration with what the arguments say. -/
def apply
    (setup : Setup)
    (c : Config) : Config :=
  { c with
    dataDir := setup.dataDir.getD c.dataDir
    backend := if setup.inMemory then .memory else c.backend }

/- The configuration of a run. -/
def config
    (readFile : String → Except Error String)
    (setup : Setup) : Except ArgumentError Config :=
  match setup.fileConfig readFile with
  | .ok c => .ok (setup.apply c)
  | .error e => .error (.config e)

end Setup

------------------------------------------------------------
-- Runs
------------------------------------------------------------

/- A line that is written, to the one or the other stream. -/
inductive Written where
| out (line : String)
| err (line : String)
deriving DecidableEq, Repr

/- How a program ends: what it writes, and its exit code. -/
structure Ending where
  written : List Written
  code : Nat
deriving DecidableEq, Repr

/- The name and the version of the program. -/
def versionText : String :=
  "tabula-shell 0.1.0"

/- The line that greets at a terminal. -/
def bannerText : String :=
  "Tabula 0.1.0. Type .help for help."

/- The line that says how the program is called. -/
def usage : String :=
  "Usage: tabula-shell [--config <file.json>] [--memory] [data_dir]"

namespace Ending

/- The end of a program that only writes a line. -/
def line (text : String) : Ending :=
  { written := [.out text]
    code := 0 }

/- The end of a program whose arguments cannot be followed. -/
def refused (e : ArgumentError) : Ending :=
  { written := [.err e.message, .err usage]
    code := 2 }

/- The end of a program whose backend cannot be opened. -/
def unopened : Ending :=
  { written := []
    code := 1 }

end Ending

namespace Shell

/- The line for a failure. -/
def failureLine (e : Error) : Written :=
  .err ("Error: " ++ e.message)

/- What the answer to a line writes. -/
def writtenFor : Except Error Step → List Written
| .ok (.output text) => [.out text]
| .ok _ => []
| .error e => [failureLine e]

/- What the answer at the end of input writes. -/
def writtenAtEnd : Except Error (Option String) → List Written
| .ok (some text) => [.out text]
| .ok none => []
| .error e => [failureLine e]

/- The answer asks to leave. -/
def leaves : Except Error Step → Bool
| .ok .quit => true
| _ => false

/- Finish a shell. -/
def close
    (stamp : Stamp)
    (sh : Shell) : List Written :=
  writtenAtEnd ((finish stamp).run.run sh).1

/-
  Take lines with their stamps until one asks to leave or
  there are no more, and finish with a stamp of its own.
-/
def feed
    (last : Stamp)
    (lines : List (Stamp × String))
    (sh : Shell) : List Written :=
  match lines with
  | [] => close last sh
  | (stamp, line) :: rest =>
    let (answer, sh') := (handleLine stamp line).run.run sh
    writtenFor answer ++
      (if leaves answer then close last sh' else feed last rest sh')

end Shell

/- Run the program on arguments and lines of input. -/
def runProgram
    (readFile : String → Except Error String)
    (placeAt : String → Place)
    (last : Stamp)
    (arguments : List String)
    (lines : List (Stamp × String)) : Ending :=
  match Request.ofArguments arguments with
  | .error e => .refused e
  | .ok .help => .line usage
  | .ok .version => .line versionText
  | .ok (.start setup) =>
    match setup.config readFile with
    | .error e => .refused e
    | .ok config =>
      match Shell.start config (placeAt config.dataDir) with
      | .error _ => .unopened
      | .ok sh =>
        { written := sh.feed last lines
          code := 0 }

end Rowstore
