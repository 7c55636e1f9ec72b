/-
  This file defines the ways in which a statement, a row edit
  or a backend call can fail, and their wording.

  Key definitions include:
    * `Error`
    * `Error.kindName`
    * `Error.message`
    * `Error.isSyntax`
    * `Error.isNotFound`
    * `Error.isStorage`
-/

namespace Rowstore

/- The causes of failure. -/
inductive Error where
| emptyStatement
| invalidSyntax (detail : String)
| unsupportedStatement (statement supported : String)
| invalidCondition (detail : String)
| databaseNotFound (name : String)
| tableNotFound (name : String)
| columnNotFound (name : String)
| databaseAlreadyExists (name : String)
| tableAlreadyExists (name : String)
| duplicateColumnName (name : String)
| invalidColumnDefinition (definition : String)
| invalidType (text : String)
| noActiveDatabase
| rowNotFound (id : Nat)
| storage (detail : String)
| serialization (detail : String)
| deserialization (detail : String)
| io (detail : String)
| configuration (detail : String)
| internal (detail : String)
deriving DecidableEq, Repr

namespace Error

/- The stable name of a kind of failure. -/
def kindName : Error → String
| emptyStatement => "EmptyStatement"
| invalidSyntax _ => "InvalidSyntax"
| unsupportedStatement _ _ => "UnsupportedStatement"
| invalidCondition _ => "InvalidCondition"
| databaseNotFound _ => "DatabaseNotFound"
| tableNotFound _ => "TableNotFound"
| columnNotFound _ => "ColumnNotFound"
| databaseAlreadyExists _ => "DatabaseAlreadyExists"
| tableAlreadyExists _ => "TableAlreadyExists"
| duplicateColumnName _ => "DuplicateColumnName"
| invalidColumnDefinition _ => "InvalidColumnDefinition"
| invalidType _ => "InvalidType"
| noActiveDatabase => "NoActiveDatabase"
| rowNotFound _ => "RowNotFound"
| storage _ => "Storage"
| serialization _ => "Serialization"
| deserialization _ => "Deserialization"
| io _ => "Io"
| configuration _ => "Configuration"
| internal _ => "Internal"

/- The text shown for a failure. -/
def message : Error → String
| emptyStatement => "Empty statement"
| invalidSyntax d => "Invalid syntax: " ++ d
| unsupportedStatement s names =>
  "Unsupported statement '" ++ s ++ "'. Supported: " ++ names
| invalidCondition d => "Invalid condition: " ++ d
| databaseNotFound n => "Database not found: " ++ n
| tableNotFound n => "Table not found: " ++ n
| columnNotFound n => "Column not found: " ++ n
| databaseAlreadyExists n => "Database already exists: " ++ n
| tableAlreadyExists n => "Table already exists: " ++ n
| duplicateColumnName n => "Duplicate column name: " ++ n
| invalidColumnDefinition d => "Invalid column definition: " ++ d
| invalidType t => "Invalid type: " ++ t
| noActiveDatabase => "No active database selected"
| rowNotFound n => "Row not found: " ++ toString n
| storage d => "Storage error: " ++ d
| serialization d => "Serialization error: " ++ d
| deserialization d => "Deserialization error: " ++ d
| io d => "IO error: " ++ d
| configuration d => "Configuration error: " ++ d
| internal d => "Internal error: " ++ d

/- The statement text itself was rejected. -/
def isSyntax : Error → Bool
| emptyStatement => true
| invalidSyntax _ => true
| unsupportedStatement _ _ => true
| invalidCondition _ => true
| _ => false

/- Something that was named does not exist. -/
def isNotFound : Error → Bool
| databaseNotFound _ => true
| tableNotFound _ => true
| columnNotFound _ => true
| rowNotFound _ => true
| _ => false

/- The failure came from the backend. -/
def isStorage : Error → Bool
| storage _ => true
| serialization _ => true
| deserialization _ => true
| io _ => true
| _ => false

end Error

end Rowstore
