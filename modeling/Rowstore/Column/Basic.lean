import Rowstore.Decimal.Basic
import Rowstore.Text.Blank
import Rowstore.Text.Letters

/-
  This file defines base types, declared types, and columns.

  Key definitions include:
    * `BaseType`
    * `BaseType.ofKeyword`
    * `DeclaredType`
    * `DeclaredType.parse`
    * `ColumnId`
    * `Column`
-/

namespace Rowstore

------------------------------------------------------------
-- Base Types
------------------------------------------------------------

/- The kinds of content that columns are declared for. -/
inductive BaseType where
| number
| text
| boolean
| date
| datetime
deriving DecidableEq, Repr

namespace BaseType

/- The name of a base type. -/
def name : BaseType → String
| number => "number"
| text => "text"
| boolean => "boolean"
| date => "date"
| datetime => "datetime"

/- The type words that do not stand for text, in capitals. -/
def keywords : List (String × BaseType) :=
  [("INT", number), ("INTEGER", number), ("BIGINT", number),
   ("SMALLINT", number), ("TINYINT", number), ("DECIMAL", number),
   ("NUMERIC", number), ("FLOAT", number), ("DOUBLE", number),
   ("REAL", number), ("CHAR", text), ("NCHAR", text),
   ("VARCHAR", text), ("NVARCHAR", text), ("TEXT", text),
   ("STRING", text), ("BOOL", boolean), ("BOOLEAN", boolean),
   ("DATE", date), ("DATETIME", datetime), ("TIMESTAMP", datetime)]

/- The base type of a type word in any letter case; other words stand for text. -/
def ofKeyword (word : List Char) : BaseType :=
  (keywords.lookup (String.ofList (Text.upperBasic word))).getD text

end BaseType

------------------------------------------------------------
-- Declared Types
------------------------------------------------------------

/- A type declaration: its text, its base type, and its arguments by meaning. -/
structure DeclaredType where
  spelling : String
  base : BaseType
  length : Option Nat
  precision : Option Nat
  scale : Option Nat
deriving DecidableEq, Repr

namespace DeclaredType

/- The largest argument of a declaration. -/
def maxArgument : Nat :=
  4294967295

/- A type word starts with a letter or underscore and goes on with these and digits. -/
def isWord : List Char → Bool
| [] => false
| c :: s =>
  (c.isAlpha || c == '_') && s.all fun d => d.isAlphanum || d == '_'

/- One argument: digits with an optional plus sign, blanks at its ends apart. -/
def argument? (s : List Char) : Option Nat :=
  let t := Text.trim s
  let digits :=
    match t with
    | '+' :: u => u
    | _ => t
  let n := Decimal.digitsValue digits
  if digits.isEmpty || !digits.all Decimal.isDigit || maxArgument < n then
    none
  else some n

/- The pieces of a text between commas. -/
def splitCommas : List Char → List (List Char)
| [] => [[]]
| c :: s =>
  if c = ',' then [] :: splitCommas s
  else
    match splitCommas s with
    | [] => [[c]]
    | p :: ps => (c :: p) :: ps

/- The word of a declaration and its arguments, which stand in parentheses. -/
def parts?
    (s : List Char) : Option (List Char × List Nat) :=
  let word := s.takeWhile fun c => c != '('
  match s.dropWhile fun c => c != '(' with
  | [] => some (word, [])
  | _ :: inner =>
    if inner.getLast? = some ')' then do
      let arguments ← (splitCommas inner.dropLast).mapM argument?
      pure (Text.trimEnd word, arguments)
    else none

/-
  The type with given arguments.  One argument is a length
  for text and a precision otherwise; two are a precision and
  a scale, which text ignores.
-/
def ofArguments?
    (spelling : String)
    (base : BaseType) : List Nat → Option DeclaredType
| [] =>
  some
    { spelling := spelling
      base := base
      length := none
      precision := none
      scale := none }
| [n] =>
  if base = .text then
    some
      { spelling := spelling
        base := base
        length := some n
        precision := none
        scale := none }
  else
    some
      { spelling := spelling
        base := base
        length := none
        precision := some n
        scale := none }
| [p, s] =>
  if base = .text then
    some
      { spelling := spelling
        base := base
        length := none
        precision := none
        scale := none }
  else
    some
      { spelling := spelling
        base := base
        length := none
        precision := some p
        scale := some s }
| _ => none

/- Read a type declaration: a word, with one or two arguments or without. -/
def parse (text : String) : Option DeclaredType := do
  let s := Text.trim text.toList
  let (word, arguments) ← parts? s
  if isWord word then
    ofArguments? (String.ofList s) (BaseType.ofKeyword word) arguments
  else none

end DeclaredType

------------------------------------------------------------
-- Columns
------------------------------------------------------------

/- The identifier of a column within its table. -/
structure ColumnId where
  value : Nat
deriving DecidableEq, Repr

/- A column of a table. -/
structure Column where
  id : ColumnId
  name : String
  base : BaseType
  declaredType : String
  length : Option Nat
  precision : Option Nat
  scale : Option Nat
  isPrimaryKey : Bool
deriving DecidableEq, Repr

namespace Column

/- The column of a declared type. -/
def ofType
    (id : ColumnId)
    (name : String)
    (type : DeclaredType)
    (isPrimaryKey : Bool) : Column :=
  { id := id
    name := name
    base := type.base
    declaredType := type.spelling
    length := type.length
    precision := type.precision
    scale := type.scale
    isPrimaryKey := isPrimaryKey }

/- The column has a name, up to letter case. -/
def isNamed
    (c : Column)
    (name : String) : Bool :=
  Text.sameName c.name name

end Column

end Rowstore
