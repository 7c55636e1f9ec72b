import Rowstore.Database.Document
import Rowstore.Storage.Backend
import Rowstore.Storage.Directory

/-
  This file defines the backend that keeps documents in a
  directory: the collection in one file, and the snapshots in
  another one, which is also held in memory and written whole
  on every change.

  Key definitions include:
    * `Folder`
    * `Folder.ofDirectory`
-/

namespace Rowstore

/- A directory, its options, and its snapshots with the newest one first. -/
structure Folder where
  directory : Directory
  options : StorageOptions
  stack : List Collection

namespace Folder

/- The file of the collection. -/
def databasesFile : String :=
  "databases.json"

/- The file of the snapshots. -/
def snapshotsFile : String :=
  "snapshots.json"

/- The failure of a text that is no document of its kind. -/
def unreadable (name : String) : Error :=
  .deserialization (name ++ " does not hold a document of its kind")

/- Read the document of a file; a file that is missing or empty counts as a default. -/
def readFile
    {α : Type}
    (decode : Json → Option α)
    (default : α)
    (name : String)
    (d : Directory) : Except Error α :=
  match d.file? name with
  | none => .ok default
  | some text =>
    if text.isEmpty then .ok default
    else
      match (Json.read? text.toList).bind decode with
      | some a => .ok a
      | none => .error (unreadable name)

/- The text of a document. -/
def textOf
    (options : StorageOptions)
    (j : Json) : String :=
  String.ofList (if options.pretty then j.indented else j.compact)

/- Replace the document of a file. -/
def writeFile
    (name : String)
    (j : Json) : Call Folder Unit := do
  let f ← get
  let (answer, d) :=
    (Directory.replace f.options.syncOnWrite name
      (textOf f.options j)).run.run f.directory
  set { f with directory := d }
  answer

/- The document of a stack: its snapshots, the oldest one first. -/
def stackToJson (stack : List Collection) : Json :=
  .array (stack.reverse.map Collection.toJson)

/- Read a stack. -/
def stackOfJson? (j : Json) : Option (List Collection) :=
  (Json.list? Collection.ofJson? j).map List.reverse

/- The backend in a directory, with the snapshots that are there. -/
def ofDirectory
    (options : StorageOptions)
    (d : Directory) : Except Error Folder := do
  let stack ← readFile stackOfJson? [] snapshotsFile d
  pure
    { directory := d
      options := options
      stack := stack }

/- Read the collection. -/
def load : Call Folder Collection := do
  readFile Collection.ofJson? .empty databasesFile (← get).directory

/- Store a collection. -/
def save (s : Collection) : Call Folder Unit :=
  writeFile databasesFile s.toJson

/- Change the stack; the one in memory only follows the one that was written. -/
def setStack (stack : List Collection) : Call Folder Unit := do
  writeFile snapshotsFile (stackToJson stack)
  modify fun f => { f with stack := stack }

/- Put a snapshot on the stack. -/
def push (s : Collection) : Call Folder Unit := do
  let f ← get
  setStack (pushWithin f.options.snapshotLimit s f.stack)

/- Take the newest snapshot off the stack. -/
def pop : Call Folder (Option Collection) := do
  let f ← get
  setStack f.stack.tail
  pure f.stack.head?

/- Discard all snapshots. -/
def clear : Call Folder Unit :=
  setStack []

instance : Backend Folder where
  load := load
  save := save
  push := push
  pop := pop
  clear := clear
  depth := fun f => f.stack.length

end Folder

end Rowstore
