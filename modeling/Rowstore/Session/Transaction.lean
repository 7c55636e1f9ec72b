import Rowstore.Session.Basic

/-
  This file defines transactions, which rest on snapshots of
  the whole collection.

  Key definitions include:
    * `Session.needsPrevious`
    * `Session.beforeChange`
    * `Session.afterChange`
    * `Session.begin`
    * `Session.commit`
    * `Session.takeBack`
-/

namespace Rowstore.Session

variable {β : Type} [Backend β]

/- A change has to keep the collection that it starts from. -/
def needsPrevious (s : Session β) : Bool :=
  s.mode == .scoped && s.depth == 0

/- Take the snapshot that literal mode takes before a change. -/
def beforeChange (current : Collection) : Action β Unit := do
  if (← get).mode == .literal then
    onBackend (Backend.push current)

/- Take the snapshot that scoped mode takes after a change outside of transactions. -/
def afterChange (previous : Collection) : Action β Unit := do
  if (← get).needsPrevious then
    onBackend (Backend.push previous)

/- The message after the transaction of a level is opened. -/
def begunText (level : Nat) : String :=
  if level = 1 then "Transaction started"
  else s!"Transaction started (nested level {level})"

/- Open a transaction, and answer with a message. -/
def begin (current : Collection) : Action β String := do
  onBackend (Backend.push current)
  let n := (← get).depth + 1
  setDepth n
  pure (begunText n)

/- The message after a transaction is closed. -/
def committedText : String :=
  "Transaction committed"

/- Close transactions, and answer with a message. -/
def commit : Action β String := do
  let s ← get
  match s.mode with
  | .literal =>
    onBackend Backend.clear
    setDepth 0
    pure committedText
  | .scoped =>
    if s.depth = 0 then
      pure "No transaction in progress"
    else
      let _ ← onBackend Backend.pop
      setDepth (s.depth - 1)
      pure committedText

/- Take the newest snapshot, to which the collection is to go back. -/
def takeBack : Action β (Option Collection) := do
  match ← onBackend Backend.pop with
  | some snapshot =>
    setDepth ((← get).depth - 1)
    pure (some snapshot)
  | none =>
    setDepth 0
    pure none

end Rowstore.Session
