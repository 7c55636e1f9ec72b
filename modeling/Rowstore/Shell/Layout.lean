import Rowstore.Outcome
import Rowstore.Text.Blank

/-
  This file defines the layout of results as text: a header
  line, a rule and a line for each row, in columns as wide as
  their widest text.

  Key definitions include:
    * `Layout.widths`
    * `Layout.line`
    * `Layout.table`
    * `QueryResult.render`
-/

namespace Rowstore

namespace Layout

/- The text between columns. -/
def separator : String :=
  " | "

/- The text between columns in the rule under the header. -/
def ruleSeparator : String :=
  "-+-"

/- A number of equal characters. -/
def repeated
    (c : Char)
    (n : Nat) : String :=
  String.ofList (List.replicate n c)

/- Widen columns for the texts of a line. -/
def widen : List Nat → List String → List Nat
| w :: ws, cell :: cells => max w cell.length :: widen ws cells
| ws, _ => ws

/- The widths of columns: as many characters as their longest text has. -/
def widths
    (headers : List String)
    (rows : List (List String)) : List Nat :=
  rows.foldl widen (headers.map String.length)

/- A text filled up with spaces to a width. -/
def padded
    (width : Nat)
    (cell : String) : String :=
  cell ++ repeated ' ' (width - cell.length)

/- The cells of a line, filled up to the widths; missing ones are empty. -/
def paddedCells : List Nat → List String → List String
| [], _ => []
| w :: ws, [] => padded w "" :: paddedCells ws []
| w :: ws, cell :: cells => padded w cell :: paddedCells ws cells

/- The text of a line, without blanks at its end. -/
def line
    (widths : List Nat)
    (cells : List String) : String :=
  String.ofList
    (Text.trimEnd
      (separator.intercalate (paddedCells widths cells)).toList)

/- The rule under the header. -/
def rule (widths : List Nat) : String :=
  ruleSeparator.intercalate (widths.map (repeated '-'))

/- The lines of a table, each closed by a line break; a table without columns has none. -/
def table
    (headers : List String)
    (rows : List (List String)) : String :=
  if headers.isEmpty then ""
  else
    let ws := widths headers rows
    String.join
      ((line ws headers :: rule ws :: rows.map (line ws)).map
        fun l => l ++ "\n")

end Layout

/- The text of a result: its message, after the table of its rows if it has rows. -/
def QueryResult.render : QueryResult → String
| .message text => text
| .rows columns rs text =>
  Layout.table (columns.map Column.name)
    ((QueryResult.rows columns rs text).values.map fun vs =>
      vs.map Value.display)
    ++ text

end Rowstore
