import Rowstore.Proofs.Execution
import Rowstore.Storage.Directory

/-
  What replacing a file does to the files of a directory:
  the file has its new text, or the one it had, and no other
  file changes but the temporary one.

  Main declarations:
    * `Directory.run_replace`
    * `Directory.file?_replaced`
    * `Directory.file?_leftover`
-/

namespace Rowstore

namespace Directory

open Execution

variable {d : Directory} {name text n : String}

/- A replacement succeeds just if it meets no fault. -/
theorem run_replace
    (sync : Bool)
    (name text : String)
    (d : Directory) :
    (replace sync name text).run.run d =
      match d.faultOf sync name with
      | none => (.ok (), d.replaced name text)
      | some f =>
          (.error (.io f.detail),
            d.leftover name text f.step) := by
  simp only [replace, run_bind, run_get]
  cases d.faultOf sync name with
  | none => rfl
  | some f => rfl

theorem file?_put_of_ne (hOther : n ≠ name) :
    (d.put name text).file? n = d.file? n :=
  if_neg hOther

theorem file?_replaced :
    (d.replaced name text).file? name = some text :=
  if_pos rfl

theorem file?_replaced_of_ne
    (hName : n ≠ name)
    (hTemporary : n ≠ temporary name) :
    (d.replaced name text).file? n = d.file? n := by
  unfold replaced
  rw [file?_put_of_ne hName]
  exact if_neg hTemporary

/- A failed replacement leaves nothing but a temporary file. -/
theorem file?_leftover
    (step : WriteStep)
    (hTemporary : n ≠ temporary name) :
    (d.leftover name text step).file? n = d.file? n := by
  cases step with
  | create => rfl
  | write => exact file?_put_of_ne hTemporary
  | sync => exact file?_put_of_ne hTemporary
  | rename => exact file?_put_of_ne hTemporary

end Directory

end Rowstore
