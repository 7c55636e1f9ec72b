import Rowstore.Error
import Rowstore.Storage.Options

/-
  This file defines data directories: named files, and the
  replacement of a file by way of a temporary one, which may
  fail at each of its steps.

  Key definitions include:
    * `Directory`
    * `Directory.put`
    * `WriteStep`
    * `Fault`
    * `Directory.replace`
    * `Place`
    * `Directory.prepare`
-/

namespace Rowstore

/- The steps of replacing a file. -/
inductive WriteStep where
| create
| write
| sync
| rename
deriving DecidableEq, Repr

/- A step that cannot be taken, and why. -/
structure Fault where
  step : WriteStep
  detail : String
deriving DecidableEq, Repr

/- The texts of the files of a directory, and what keeps a file from being replaced. -/
structure Directory where
  file? : String → Option String
  fault? : String → Option Fault

namespace Directory

/- A directory without files. -/
def empty : Directory :=
  { file? := fun _ => none
    fault? := fun _ => none }

/- Give a file a text. -/
def put
    (d : Directory)
    (name text : String) : Directory :=
  { d with file? := fun n => if n = name then some text else d.file? n }

/- Take a file away. -/
def remove
    (d : Directory)
    (name : String) : Directory :=
  { d with file? := fun n => if n = name then none else d.file? n }

/- Set or lift what keeps a file from being replaced. -/
def setFault
    (d : Directory)
    (name : String)
    (fault : Option Fault) : Directory :=
  { d with fault? := fun n => if n = name then fault else d.fault? n }

/- The name of the temporary file for a file. -/
def temporary (name : String) : String :=
  name ++ ".tmp"

/- What a failed replacement leaves behind. -/
def leftover
    (d : Directory)
    (name text : String) : WriteStep → Directory
| .create => d
| .write => d.put (temporary name) ""
| .sync => d.put (temporary name) text
| .rename => d.put (temporary name) text

/- What a replacement that succeeds leaves behind. -/
def replaced
    (d : Directory)
    (name text : String) : Directory :=
  (d.remove (temporary name)).put name text

/- The fault that a replacement meets; writing is only forced out on demand. -/
def faultOf
    (d : Directory)
    (sync : Bool)
    (name : String) : Option Fault :=
  (d.fault? name).filter fun f => sync || f.step != .sync

/-
  Replace the text of a file: write a temporary file, and
  rename it.  If a step fails the file keeps its text.
-/
def replace
    (sync : Bool)
    (name text : String) : ExceptT Error (StateM Directory) Unit := do
  let d ← get
  match d.faultOf sync name with
  | none => set (d.replaced name text)
  | some f =>
    set (d.leftover name text f.step)
    throw (.io f.detail)

end Directory

------------------------------------------------------------
-- Places
------------------------------------------------------------

/- What is found at the path of a data directory. -/
inductive Place where
| nothing
| file
| directory (d : Directory)

namespace Directory

/- The directory at a path, which is created if it may be. -/
def prepare
    (options : StorageOptions) : Place → Except Error Directory
| .directory d => .ok d
| .nothing =>
  if options.createIfMissing then .ok empty
  else
    .error (.storage ("Data directory does not exist: " ++ options.path))
| .file =>
  if options.createIfMissing then
    .error (.io "File exists (os error 17)")
  else
    .error (.storage ("Data directory does not exist: " ++ options.path))

end Directory

end Rowstore
