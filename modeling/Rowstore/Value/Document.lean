import Rowstore.Json.Number
import Rowstore.Value.Basic

/-
  This file defines the documents of values: null, truth
  values, numbers and strings, each for a kind of its own.

  Key definitions include:
    * `Value.toJson`
    * `Value.ofJson?`
-/

namespace Rowstore.Value

/- The document of a value.  A number that is not finite has none and leaves null. -/
def toJson : Value → Json
| null => .null
| boolean b => .boolean b
| number x => .ofFloat x
| text s => .ofText s

/- Read a value from a document; lists and records are no values. -/
def ofJson? : Json → Option Value
| .null => some null
| .boolean b => some (boolean b)
| .number n => (Json.float? (.number n)).map number
| .string body => (Json.text? (.string body)).map text
| .array _ => none
| .object _ => none

end Rowstore.Value
