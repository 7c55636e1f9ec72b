import Rowstore.Error
import Rowstore.Json.Reader
import Rowstore.Json.Record
import Rowstore.Session.Basic
import Rowstore.Storage.Options

/-
  This file defines the configuration of the shell and its
  documents.

  Key definitions include:
    * `BackendKind`
    * `Config`
    * `Config.standard`
    * `Config.toJson`
    * `Config.ofJson?`
    * `Config.read`
    * `Config.storageOptions`
-/

namespace Rowstore

------------------------------------------------------------
-- Vocabulary
------------------------------------------------------------

/- Where the shell keeps its data. -/
inductive BackendKind where
| memory
| json
| rocks
deriving DecidableEq, Repr

namespace BackendKind

/- The word for a backend. -/
def word : BackendKind → String
| memory => "memory"
| json => "json"
| rocks => "rocksdb"

/- The words for backends. -/
def words : List (String × BackendKind) :=
  [memory, json, rocks].map fun b => (b.word, b)

end BackendKind

namespace Mode

/- The word for a transaction mode. -/
def word : Mode → String
| .literal => "literal"
| .scoped => "scoped"

/- The words for transaction modes. -/
def words : List (String × Mode) :=
  [Mode.literal, .scoped].map fun m => (m.word, m)

end Mode

------------------------------------------------------------
-- Configurations
------------------------------------------------------------

/- The configuration of a shell. -/
structure Config where
  dataDir : String
  backend : BackendKind
  mode : Mode
  snapshotLimit : Option Nat
  pretty : Bool
  syncOnWrite : Bool
  logLevel : String
  prompt : String
  initialDatabase : Option String
deriving DecidableEq, Repr

namespace Config

/- The configuration that is used when none is given. -/
def standard : Config :=
  { dataDir := StorageOptions.standardPath
    backend := .json
    mode := .literal
    snapshotLimit := none
    pretty := false
    syncOnWrite := true
    logLevel := "info"
    prompt := "tabula"
    initialDatabase := none }

/- The configuration for a session in memory. -/
def inMemory : Config :=
  { standard with backend := .memory }

/- The configuration for development. -/
def development (dataDir : String) : Config :=
  { standard with
    dataDir := dataDir
    logLevel := "debug"
    pretty := true
    syncOnWrite := false }

/- The options of the data directory. -/
def storageOptions (c : Config) : StorageOptions :=
  { StorageOptions.standard c.dataDir with
    pretty := c.pretty
    syncOnWrite := c.syncOnWrite
    snapshotLimit := c.snapshotLimit }

------------------------------------------------------------
-- Documents
------------------------------------------------------------

/- The fields of a configuration. -/
def fieldNames : List String :=
  ["data_dir", "backend", "transaction_mode", "snapshot_limit",
   "pretty", "sync_on_write", "log_level", "prompt",
   "initial_database"]

/- The document of a configuration. -/
def toJson (c : Config) : Json :=
  .ofMembers
    [("data_dir", .ofText c.dataDir),
     ("backend", .ofText c.backend.word),
     ("transaction_mode", .ofText c.mode.word),
     ("snapshot_limit", (c.snapshotLimit.map Json.ofNat).getD .null),
     ("pretty", .boolean c.pretty),
     ("sync_on_write", .boolean c.syncOnWrite),
     ("log_level", .ofText c.logLevel),
     ("prompt", .ofText c.prompt),
     ("initial_database",
       (c.initialDatabase.map Json.ofText).getD .null)]

/- Read a configuration; missing fields are as in the standard one. -/
def ofJson? (j : Json) : Option Config := do
  let fields ← Json.fields? fieldNames j
  let dataDir ←
    Json.withDefault? Json.text? standard.dataDir
      (Json.place fields 0)
  let backend ←
    Json.withDefault? (Json.word? BackendKind.words) standard.backend
      (Json.place fields 1)
  let mode ←
    Json.withDefault? (Json.word? Mode.words) standard.mode
      (Json.place fields 2)
  let snapshotLimit ←
    Json.withDefault? (Json.nullable? (Json.natUpTo? Json.maxId))
      standard.snapshotLimit (Json.place fields 3)
  let pretty ←
    Json.withDefault? Json.boolean? standard.pretty
      (Json.place fields 4)
  let syncOnWrite ←
    Json.withDefault? Json.boolean? standard.syncOnWrite
      (Json.place fields 5)
  let logLevel ←
    Json.withDefault? Json.text? standard.logLevel
      (Json.place fields 6)
  let prompt ←
    Json.withDefault? Json.text? standard.prompt (Json.place fields 7)
  let initialDatabase ←
    Json.withDefault? (Json.nullable? Json.text?)
      standard.initialDatabase (Json.place fields 8)
  pure
    { dataDir := dataDir
      backend := backend
      mode := mode
      snapshotLimit := snapshotLimit
      pretty := pretty
      syncOnWrite := syncOnWrite
      logLevel := logLevel
      prompt := prompt
      initialDatabase := initialDatabase }

/- Read the text of a configuration file. -/
def read
    (path text : String) : Except Error Config :=
  match (Json.read? text.toList).bind ofJson? with
  | some c => .ok c
  | none => .error (.configuration (path ++ ": not a configuration"))

end Config

end Rowstore
