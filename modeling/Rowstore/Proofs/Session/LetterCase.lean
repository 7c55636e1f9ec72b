import Rowstore.Proofs.Session.Calls
import Rowstore.Proofs.Workspace.LetterCase

/-
  Statements that select, insert, update or delete rows do the
  same in any letter case: two texts that are the same up to
  letter case, and whose literals have the same values, leave
  each session as the same one and are answered the same, or
  with failures of the same kind.

  Main declarations:
    * `Statement.literals`
    * `Statement.sameKind_parse`
    * `Session.resembles_execute`
    * `Session.statements_ignore_letterCase`
-/

------------------------------------------------------------
-- Texts Of Statements
------------------------------------------------------------

namespace Rowstore

open Execution Text

namespace Statement

/- The values of the literals of a text, if it is a command. -/
def literals (text : String) : List Value :=
  match parse text with
  | .ok (.command c) => c.literals
  | _ => []

/- Both statements are commands, and these are alike. -/
def Alike (a b : Statement) : Prop :=
  ∃ c d : Command, a = .command c ∧ b = .command d ∧ c.Alike d

/- Texts that are the same up to letter case are read as commands that are alike. -/
theorem sameKind_parse
    {text text' : String}
    (hData : IsData text)
    (hSame : sameName text text' = true)
    (hLiterals : literals text = literals text') :
    SameKind Alike (parse text) (parse text') := by
  rw [sameName_iff_lowerName] at hSame
  have hData' : IsData text' := by
    rw [← isData_lowerName_iff, ← hSame, isData_lowerName_iff]
    exact hData
  have hLeft := parse_lowerName hData
  have hRight := parse_lowerName hData'
  rw [← hSame] at hRight
  have hBoth := hLeft.join hRight
  unfold literals at hLiterals
  generalize parse text = a, parse text' = b at *
  cases hBoth with
  | error hKind => exact .error hKind
  | ok hValues =>
      rcases hValues with
        ⟨_, ⟨c, rfl, rfl⟩, ⟨d, rfl, hLowered⟩⟩
      rw [command.injEq] at hLowered
      exact .ok ⟨c, d, rfl, rfl, ⟨hLowered, hLiterals⟩⟩

end Statement

theorem Command.isMutating_lowered (c : Command) :
    c.lowered.isMutating = c.isMutating := by
  cases c <;> rfl

end Rowstore

------------------------------------------------------------
-- Sessions
------------------------------------------------------------

namespace Rowstore

open Execution Text

namespace Session

variable {β : Type} [Backend β] {c d : Command}

/- Pieces of work that resemble each other make changes that do so. -/
theorem resembles_change
    {α : Type}
    {work work' : Work (α × Option Notice)}
    (hWork : Resembles (· = ·) work work') :
    Resembles (· = ·) (change work : Action β α)
      (change work') := by
  apply (Resembles.refl (fun _ => rfl) _).bind
  rintro current _ rfl
  apply (Resembles.refl (fun _ => rfl) _).bind
  intro _ _ _
  apply (Resembles.refl (fun _ => rfl) get).bind
  rintro s _ rfl
  rcases hWork.runs
      { collection := current
        selection := s.selection } with
    ⟨answer, answer', w, hLeft, hRight, hAnswers⟩
  rw [hLeft, hRight]
  dsimp only
  apply (Resembles.of_lift hAnswers).bind
  rintro answer _ rfl
  exact .refl (fun _ => rfl) _

theorem resembles_mutate
    (stamp : Stamp)
    (hAlike : c.Alike d) :
    Resembles (· = ·)
      (mutate stamp c : Action β QueryResult)
      (mutate stamp d) := by
  apply resembles_change
  apply (Work.resembles_execute stamp hAlike).bind
  rintro o _ rfl
  exact .of_pure rfl

theorem resembles_read
    (stamp : Stamp)
    (hAlike : c.Alike d) :
    Resembles (· = ·)
      (read stamp c : Action β QueryResult)
      (read stamp d) := by
  apply (Resembles.refl (fun _ => rfl) _).bind
  rintro current _ rfl
  apply (Resembles.refl (fun _ => rfl) get).bind
  rintro s _ rfl
  rcases (Work.resembles_execute stamp hAlike).runs
      { collection := current
        selection := s.selection } with
    ⟨answer, answer', w, hLeft, hRight, hAnswers⟩
  rw [hLeft, hRight]
  dsimp only
  apply (Resembles.refl (fun _ => rfl) _).bind
  intro _ _ _
  apply (Resembles.of_lift hAnswers).bind
  rintro o _ rfl
  exact .of_pure rfl

theorem resembles_run
    (stamp : Stamp)
    {a b : Statement}
    (hAlike : a.Alike b) :
    Resembles (· = ·) (run stamp a : Action β QueryResult)
      (run stamp b) := by
  rcases hAlike with ⟨c, d, rfl, rfl, hAlike⟩
  have hMutating : c.isMutating = d.isMutating := by
    rw [← c.isMutating_lowered, hAlike.lowered,
      d.isMutating_lowered]
  unfold run
  dsimp only
  rw [hMutating]
  split
  · exact resembles_mutate stamp hAlike
  · exact resembles_read stamp hAlike

theorem resembles_execute
    (stamp : Stamp)
    {text text' : String}
    (hData : Statement.IsData text)
    (hSame : sameName text text' = true)
    (hLiterals :
      Statement.literals text = Statement.literals text') :
    Resembles (· = ·)
      (execute stamp text : Action β QueryResult)
      (execute stamp text') := by
  have hParse :=
    Statement.sameKind_parse hData hSame hLiterals
  apply (Resembles.of_lift hParse).bind
  intro a b hAlike
  exact resembles_run stamp hAlike

/-
  A text that selects, inserts, updates or deletes rows does
  the same in any letter case of its keywords and names.  From
  no session can the stored collection, the selection or the
  notices tell the two texts apart, and nor can the answer,
  but for the words of a failure.
-/
theorem statements_ignore_letterCase
    (s : Session β)
    (stamp : Stamp)
    {text text' : String}
    (hData : Statement.IsData text)
    (hSame : sameName text text' = true)
    (hLiterals :
      Statement.literals text = Statement.literals text') :
    s.after (.statement stamp text) =
        s.after (.statement stamp text') ∧
      SameKind (· = ·) (s.handle (.statement stamp text)).1
        (s.handle (.statement stamp text')).1 := by
  have hExecute :
      Resembles (· = ·)
        (execute stamp text : Action β QueryResult)
        (execute stamp text') :=
    resembles_execute stamp hData hSame hLiterals
  have hServe :
      Resembles (· = ·)
        (serve (.statement stamp text) : Action β Answer)
        (serve (.statement stamp text')) := by
    apply hExecute.bind
    rintro r _ rfl
    exact .of_pure rfl
  exact hServe s

/- The column has a name that is a soft keyword. -/
theorem update_ignores_letterCase :
    let s :=
      (inMemory .literal none []).afterAll
        [.statement epoch "CREATE DATABASE d",
          .statement epoch "CREATE TABLE t (key TEXT)",
          .statement epoch "INSERT INTO t (key) VALUES ('X')"]
    let text := "UPDATE t SET key = 'Y' WHERE key = 'X'"
    let text' := "update T set KEY = 'Y' where Key = 'X'"
    s.after (.statement epoch text) =
        s.after (.statement epoch text') ∧
      (s.handle (.statement epoch text')).1 =
        .ok (.result (.message "1 row(s) updated")) := by
  intro s text text'
  have hData : Statement.IsData text :=
    ⟨.update, by simp, by decide +kernel⟩
  have hSame : sameName text text' = true := by
    decide +kernel
  have hLiterals :
      Statement.literals text = Statement.literals text' := by
    decide +kernel
  have hUpdated :
      (s.handle (.statement epoch text)).1 =
        .ok (.result (.message "1 row(s) updated")) := by
    decide +kernel
  have hBoth :=
    statements_ignore_letterCase s epoch hData hSame hLiterals
  rcases hBoth with ⟨hAfter, hAnswers⟩
  refine ⟨hAfter, ?_⟩
  rw [hUpdated] at hAnswers
  generalize
    (s.handle (.statement epoch text')).1 = answer at *
  cases hAnswers with
  | ok hValues => rw [hValues]

end Session

end Rowstore
