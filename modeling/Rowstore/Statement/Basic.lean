/-
  This file defines statements: transaction control, and the
  commands that read or change the stored collection.

  Literal positions (the values of an insertion, the right
  sides of assignments, conditions and declared types) keep
  their source text.

  Key definitions include:
    * `Projection`
    * `Assignment`
    * `ColumnDefinition`
    * `AlterAction`
    * `Scope`
    * `PermissionClause`
    * `Command`
    * `Command.isMutating`
    * `Control`
    * `Statement`
-/

namespace Rowstore

------------------------------------------------------------
-- Parts of Commands
------------------------------------------------------------

/- The columns that a selection shows. -/
inductive Projection where
| all
| columns (names : List String)
deriving DecidableEq, Repr

/- An assignment of a literal to a column. -/
structure Assignment where
  column : String
  value : String
deriving DecidableEq, Repr

/- The definition of one column. -/
structure ColumnDefinition where
  name : String
  typeText : String
  primaryKey : Bool
deriving DecidableEq, Repr

/- A change to a table's definition. -/
inductive AlterAction where
| addColumn (definition : ColumnDefinition)
| dropColumn (name : String)
| renameTo (name : String)
deriving DecidableEq, Repr

/- What a permission applies to. -/
inductive Scope where
| table
| database
deriving DecidableEq, Repr

namespace Scope

/- The word for a scope. -/
def word : Scope → String
| table => "TABLE"
| database => "DATABASE"

end Scope

/- Whether a permission is given or taken away. -/
inductive PermissionAction where
| grant
| revoke
deriving DecidableEq, Repr

namespace PermissionAction

/- The word for a permission action. -/
def word : PermissionAction → String
| grant => "GRANT"
| revoke => "REVOKE"

end PermissionAction

/- The body that granting and revoking share. -/
structure PermissionClause where
  privilege : String
  scope : Scope
  name : String
  user : String
deriving DecidableEq, Repr

------------------------------------------------------------
-- Commands
------------------------------------------------------------

/- Statements that read or change the collection. -/
inductive Command where
| select
    (projection : Projection)
    (table : String)
    (condition : Option String)
| insert
    (table : String)
    (columns : List String)
    (values : List String)
| update
    (table : String)
    (assignments : List Assignment)
    (condition : Option String)
| delete
    (table : String)
    (condition : Option String)
| createTable
    (name : String)
    (columns : List ColumnDefinition)
    (primaryKey : List String)
| createDatabase
    (name : String)
    (ifNotExists : Bool)
| dropTable (name : String)
| dropDatabase (name : String)
| alterTable
    (table : String)
    (action : AlterAction)
| use (name : String)
| permission
    (action : PermissionAction)
    (clause : PermissionClause)
| showDatabases
| showTables
| describe (table : String)
deriving DecidableEq, Repr

namespace Command

/- The command can change the collection. -/
def isMutating : Command → Bool
| insert _ _ _ => true
| update _ _ _ => true
| delete _ _ => true
| createTable _ _ _ => true
| createDatabase _ _ => true
| dropTable _ => true
| dropDatabase _ => true
| alterTable _ _ => true
| permission _ _ => true
| select _ _ _ => false
| use _ => false
| showDatabases => false
| showTables => false
| describe _ => false

/- The words that begin a command. -/
def keyword : Command → String
| select _ _ _ => "SELECT"
| insert _ _ _ => "INSERT"
| update _ _ _ => "UPDATE"
| delete _ _ => "DELETE"
| createTable _ _ _ => "CREATE TABLE"
| createDatabase _ _ => "CREATE DATABASE"
| dropTable _ => "DROP TABLE"
| dropDatabase _ => "DROP DATABASE"
| alterTable _ _ => "ALTER TABLE"
| use _ => "USE"
| permission a _ => a.word
| showDatabases => "SHOW DATABASES"
| showTables => "SHOW TABLES"
| describe _ => "DESCRIBE"

end Command

------------------------------------------------------------
-- Statements
------------------------------------------------------------

/- Transaction control. -/
inductive Control where
| begin
| commit
| rollback
deriving DecidableEq, Repr

/- A statement is transaction control or a command. -/
inductive Statement where
| control (c : Control)
| command (c : Command)
deriving DecidableEq, Repr

end Rowstore
