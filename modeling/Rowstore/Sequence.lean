/-
  This file defines a change to the first item of a list that
  has a property.

  Key definitions include:
    * `updateFirst`
-/

namespace Rowstore

/- Change the first item with a property and leave all others. -/
def updateFirst
    {α : Type}
    (p : α → Bool)
    (f : α → α) : List α → List α
| [] => []
| a :: as => if p a then f a :: as else a :: updateFirst p f as

end Rowstore
