import Rowstore.Shell.Program
import Rowstore.Storage.Key
import Std.Time.DateTime.Timestamp

/-
  This file defines the program: it reads arguments, files
  and lines, lets the shell answer, and brings its data
  directory up to date on the disk.

  Key definitions include:
    * `main`
-/

namespace Rowstore.Terminal

------------------------------------------------------------
-- Stamps
------------------------------------------------------------

/- The current time. -/
def now : IO Moment := do
  let time ← Std.Time.Timestamp.now
  let nanos := time.toNanosecondsSinceUnixEpoch.val.toNat
  pure (Moment.ofEpoch (nanos / 1000000000) (nanos % 1000000000))

/- A fresh identifier. -/
def freshUuid : IO Uuid := do
  let bytes ← IO.getRandomBytes 16
  pure (Uuid.ofRandom
    (BitVec.ofNat 128 (Key.ofBigEndian bytes.toList)))

/- A fresh identifier and the current time. -/
def freshStamp : IO Stamp := do
  pure
    { uuid := ← freshUuid
      time := ← now }

------------------------------------------------------------
-- Files
------------------------------------------------------------

/- The text of a file; bytes that are no text are taken for one that is no document. -/
def textAt (path : String) : IO String := do
  let bytes ← IO.FS.readBinFile path
  pure ((String.fromUTF8? bytes).getD "?")

/- The text of a file, if it can be read. -/
def textAt? (path : String) : IO (Option String) := do
  try
    pure (some (← textAt path))
  catch _ =>
    pure none

/- The text of a file, or the failure to read it. -/
def configText (path : String) : IO (Except Error String) := do
  try
    pure (.ok (← textAt path))
  catch
  | .noFileOrDirectory .. =>
    pure (.error (.io "No such file or directory (os error 2)"))
  | e => pure (.error (.io (toString e)))

/- The files of a data directory. -/
def dataFiles : List String :=
  [Folder.databasesFile, Folder.snapshotsFile]

/- The path of a file in a directory. -/
def inside (dir name : String) : String :=
  if dir.isEmpty then name else dir ++ "/" ++ name

/- The data directory at a path as it is on the disk. -/
def readDirectory (dir : String) : IO Directory := do
  let mut d := Directory.empty
  for name in dataFiles do
    if let some text ← textAt? (inside dir name) then
      d := d.put name text
  pure d

/- Find or create the data directory of a configuration. -/
def placeOf (config : Config) : IO Place := do
  if config.backend ≠ .json then
    pure .nothing
  else
    try
      unless config.dataDir.isEmpty do
        IO.FS.createDirAll config.dataDir
      pure (.directory (← readDirectory config.dataDir))
    catch _ =>
      pure .file

/- Take a step of replacing a file, and answer what keeps it from being taken. -/
def faultOf
    (step : WriteStep)
    (action : IO Unit) : IO (Option Fault) := do
  try
    action
    pure none
  catch e =>
    pure
      (some
        { step := step
          detail := toString e })

/- Replace a file by way of a temporary one; a step that fails is answered. -/
def replaceFile
    (dir name text : String) : IO (Option Fault) := do
  let temporary := inside dir (Directory.temporary name)
  match ← faultOf .create (IO.FS.writeFile temporary text) with
  | some fault => pure (some fault)
  | none => faultOf .rename (IO.FS.rename temporary (inside dir name))

------------------------------------------------------------
-- Turns
------------------------------------------------------------

/- Take in the collection as it is on the disk. -/
def refreshed (sh : Shell) : IO Shell := do
  let dir := sh.config.dataDir
  match sh.session.backend.directory? with
  | none => pure sh
  | some _ =>
    let d ← readDirectory dir
    pure
      { sh with
        session :=
          { sh.session with
            backend := sh.session.backend.mapDirectory fun _ => d } }

/- The text of a file in the data directory that a shell has. -/
def fileAt?
    (sh : Shell)
    (name : String) : Option String :=
  sh.session.backend.directory?.bind fun d => d.file? name

/- A shell in which a file cannot be replaced. -/
def withFault
    (sh : Shell)
    (name : String)
    (fault : Fault) : Shell :=
  { sh with
    session :=
      { sh.session with
        backend :=
          sh.session.backend.mapDirectory fun d =>
            d.setFault name (some fault) } }

/- A fault that leaves an empty temporary file behind. -/
def halted : Fault :=
  { step := .write
    detail := "" }

/-
  The file that a turn replaces next, after some that it has
  replaced.  A turn ends with the first file that it cannot
  replace, so where it can replace no other file, it leaves the
  temporary file of that one.
-/
def nextFile?
    {α : Type}
    (turn : Shell.Turn α)
    (sh : Shell)
    (replaced : List String) : Option String :=
  let others := dataFiles.filter fun name => name ∉ replaced
  let blocked :=
    others.foldl (fun sh name => withFault sh name halted) sh
  let (_, left) := turn.run.run blocked
  others.find? fun name =>
    (fileAt? left (Directory.temporary name)).isSome

/-
  Replace the files that a turn replaces, in the order of the
  turn; the first one that cannot be replaced is answered.
-/
def persist
    {α : Type}
    (turn : Shell.Turn α)
    (old new : Shell) : IO (Option (String × Fault)) := do
  let mut replaced := []
  for _ in dataFiles do
    if let some name := nextFile? turn old replaced then
      let text := (fileAt? new name).getD ""
      if let some fault ←
          replaceFile new.config.dataDir name text then
        return some (name, fault)
      replaced := name :: replaced
  pure none

/-
  Take a turn and bring the disk up to date.  If a file
  cannot be replaced the turn is taken again knowing that; it
  replaces no file after that one.
-/
def take
    {α : Type}
    (turn : Shell.Turn α)
    (sh : Shell) : IO (Except Error α × Shell) := do
  let old ← refreshed sh
  let (answer, new) := turn.run.run old
  match ← persist turn old new with
  | none => pure (answer, new)
  | some (name, fault) =>
    pure (turn.run.run (withFault old name fault))

------------------------------------------------------------
-- Lines
------------------------------------------------------------

/- Write lines to their streams. -/
def write (lines : List Written) : IO Unit := do
  for l in lines do
    match l with
    | .out text => IO.println text
    | .err text => IO.eprintln text

/- A line without its line break. -/
def chomped (line : String) : String :=
  let s := line.toList
  let s := if s.getLast? = some '\n' then s.dropLast else s
  String.ofList (if s.getLast? = some '\r' then s.dropLast else s)

/- Take lines until one asks to leave or there are no more. -/
partial def loop
    (input : IO.FS.Stream)
    (interactive : Bool)
    (sh : Shell) : IO Shell := do
  if interactive then
    IO.print sh.prompt
    (← IO.getStdout).flush
  let line ← input.getLine
  if line.isEmpty then
    pure sh
  else
    let stamp ← freshStamp
    let (answer, sh') ←
      take (Shell.handleLine stamp (chomped line)) sh
    write (Shell.writtenFor answer)
    if Shell.leaves answer then pure sh'
    else loop input interactive sh'

/- Run a shell to its end. -/
def runShell (sh : Shell) : IO Unit := do
  let input ← IO.getStdin
  let interactive ← input.isTty
  if interactive then
    IO.println bannerText
  let last ← loop input interactive sh
  let stamp ← freshStamp
  let (answer, _) ← take (Shell.finish stamp) last
  write (Shell.writtenAtEnd answer)

/- Write what an ending says, and answer its code. -/
def finish (e : Ending) : IO UInt32 := do
  write e.written
  pure (UInt32.ofNat e.code)

/- Run with the arguments of a run. -/
def start (setup : Setup) : IO UInt32 := do
  let text? ← setup.configFile.mapM configText
  let read := fun _ => text?.getD (.ok "")
  match setup.config read with
  | .error e => finish (.refused e)
  | .ok config =>
    match Shell.start config (← placeOf config) with
    | .error _ => finish .unopened
    | .ok sh =>
      runShell sh
      pure 0

/- Run with arguments. -/
def run (args : List String) : IO UInt32 :=
  match Request.ofArguments args with
  | .error e => finish (.refused e)
  | .ok .help => finish (.line usage)
  | .ok .version => finish (.line versionText)
  | .ok (.start setup) => start setup

end Rowstore.Terminal

/- Run the program. -/
def main (args : List String) : IO UInt32 :=
  Rowstore.Terminal.run args
