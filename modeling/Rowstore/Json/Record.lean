import Rowstore.Json.Basic

/-
  This file defines how records, words and lists are taken
  from documents.

  A record is an object with its fields as members in any
  order, or an array with the fields in their order.  Members
  with other keys are ignored, and no field may come twice.

  Key definitions include:
    * `Json.fields?`
    * `Json.required?`
    * `Json.withDefault?`
    * `Json.word?`
    * `Json.list?`
-/

namespace Rowstore.Json

/- The members of an object with their keys resolved. -/
def keyed? : List (List Char × Json) → Option (List (String × Json))
| [] => some []
| (k, v) :: ms => do
  let key ← unescape k
  let rest ← keyed? ms
  pure ((String.ofList key, v) :: rest)

/- The values of a key among members. -/
def valuesOf
    (name : String)
    (members : List (String × Json)) : List Json :=
  members.filterMap fun (k, v) => if k = name then some v else none

/- The only value of a key, if there is one; two are a fault. -/
def single? : List Json → Option (Option Json)
| [] => some none
| [v] => some (some v)
| _ => none

/- The fields of a record, one place for each name. -/
def fields?
    (names : List String) : Json → Option (List (Option Json))
| object members => do
  let ms ← keyed? members
  names.mapM fun name => single? (valuesOf name ms)
| array items =>
  if names.length < items.length then none
  else
    some (items.map some ++
      List.replicate (names.length - items.length) none)
| _ => none

/- The field at a place. -/
def place
    (fields : List (Option Json))
    (i : Nat) : Option Json :=
  (fields[i]?).join

/- A field that must be there. -/
def required?
    {α : Type}
    (decode : Json → Option α)
    (field : Option Json) : Option α :=
  field.bind decode

/- A field that may be left out. -/
def withDefault?
    {α : Type}
    (decode : Json → Option α)
    (value : α)
    (field : Option Json) : Option α :=
  match field with
  | none => some value
  | some j => decode j

/- A value that may be null. -/
def nullable?
    {α : Type}
    (decode : Json → Option α) : Json → Option (Option α)
| null => some none
| j => (decode j).map some

/- A list of values. -/
def list?
    {α : Type}
    (decode : Json → Option α)
    (j : Json) : Option (List α) := do
  (← j.items?).mapM decode

/-
  A word of a fixed vocabulary: a string, or an object with
  the word as its only key and null as its value.
-/
def word?
    {α : Type}
    (words : List (String × α)) : Json → Option α
| string body => do
  words.lookup (String.ofList (← unescape body))
| object [(k, null)] => do
  words.lookup (String.ofList (← unescape k))
| _ => none

end Rowstore.Json
