/-
  This file defines the options of a data directory.

  Key definitions include:
    * `StorageOptions`
    * `StorageOptions.standard`
    * `StorageOptions.testing`
    * `StorageOptions.production`
-/

namespace Rowstore

/- How a data directory is opened and written. -/
structure StorageOptions where
  path : String
  createIfMissing : Bool
  pretty : Bool
  syncOnWrite : Bool
  snapshotLimit : Option Nat
deriving DecidableEq, Repr

namespace StorageOptions

/- The directory that is used when none is named. -/
def standardPath : String :=
  "./data"

/- Indented documents, no limit, no forced writing. -/
def standard (path : String) : StorageOptions :=
  { path := path
    createIfMissing := true
    pretty := true
    syncOnWrite := false
    snapshotLimit := none }

/- Short documents and fast writing. -/
def testing (path : String) : StorageOptions :=
  { path := path
    createIfMissing := true
    pretty := false
    syncOnWrite := false
    snapshotLimit := none }

/- Short documents, forced writing, and a bounded history. -/
def production (path : String) : StorageOptions :=
  { path := path
    createIfMissing := true
    pretty := false
    syncOnWrite := true
    snapshotLimit := some 256 }

end StorageOptions

end Rowstore
