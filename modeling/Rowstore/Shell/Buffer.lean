import Rowstore.Text.Blank

/-
  This file defines the buffer that gathers lines to
  statements.  A statement ends with a line whose last
  character is a semicolon, or before a blank line.

  Key definitions include:
    * `Buffer`
    * `Buffer.push`
    * `Buffer.flush`
-/

namespace Rowstore

/- The lines of a statement that is not complete, in order. -/
structure Buffer where
  lines : List String
deriving DecidableEq, Repr

namespace Buffer

/- No lines. -/
def empty : Buffer :=
  ⟨[]⟩

/- Nothing is pending. -/
def isEmpty (b : Buffer) : Bool :=
  b.lines.isEmpty

/- Take the pending lines, one below the other, if there are any. -/
def flush (b : Buffer) : Option String × Buffer :=
  if b.isEmpty then (none, b)
  else (some ("\n".intercalate b.lines), empty)

/- Add a line; if it completes a statement, take the statement. -/
def push
    (b : Buffer)
    (line : String) : Option String × Buffer :=
  let s := Text.trimEnd line.toList
  if s.isEmpty then b.flush
  else
    let b' : Buffer := ⟨b.lines ++ [String.ofList s]⟩
    if s.getLast? = some ';' then b'.flush else (none, b')

end Buffer

end Rowstore
