import Rowstore.Proofs.Statement.Commands

/-
  The grammar of statements.

  A text is read as a statement exactly if the statement is
  written in its lexemes.

  Main declarations:
    * `Command.Written` and `Statement.Written`
    * `Statement.parse_eq_ok_iff`
-/

------------------------------------------------------------
-- Statements
------------------------------------------------------------

namespace Rowstore

/- The first word of a permission command. -/
def PermissionAction.keyword : PermissionAction → Keyword
| grant => .grant
| revoke => .revoke

/- The first word of transaction control. -/
def Control.keyword : Control → Keyword
| begin => .begin
| commit => .commit
| rollback => .rollback

/- A command with its first word. -/
inductive Command.Written :
    Command → List Lexeme → Prop where
| select
    {c : Command}
    {w : Lexeme}
    {ls : List Lexeme}
    (hWord : w.token = .keyword .select)
    (hRest : Selection c ls) :
    Written c (w :: ls)
| insert
    {c : Command}
    {w : Lexeme}
    {ls : List Lexeme}
    (hWord : w.token = .keyword .insert)
    (hRest : Insertion c ls) :
    Written c (w :: ls)
| update
    {c : Command}
    {w : Lexeme}
    {ls : List Lexeme}
    (hWord : w.token = .keyword .update)
    (hRest : Update c ls) :
    Written c (w :: ls)
| delete
    {c : Command}
    {w : Lexeme}
    {ls : List Lexeme}
    (hWord : w.token = .keyword .delete)
    (hRest : Deletion c ls) :
    Written c (w :: ls)
| create
    {c : Command}
    {w : Lexeme}
    {ls : List Lexeme}
    (hWord : w.token = .keyword .create)
    (hRest : Creation c ls) :
    Written c (w :: ls)
| drop
    {c : Command}
    {w : Lexeme}
    {ls : List Lexeme}
    (hWord : w.token = .keyword .drop)
    (hRest : Removal c ls) :
    Written c (w :: ls)
| alter
    {c : Command}
    {w : Lexeme}
    {ls : List Lexeme}
    (hWord : w.token = .keyword .alter)
    (hRest : Alteration c ls) :
    Written c (w :: ls)
| permission
    {c : Command}
    (action : PermissionAction)
    {w : Lexeme}
    {ls : List Lexeme}
    (hWord : w.token = .keyword action.keyword)
    (hRest : Permission action c ls) :
    Written c (w :: ls)
| use
    {database : String}
    {w d : Lexeme}
    (hWord : w.token = .keyword .use)
    (hDatabase : d.name? = some database) :
    Written (.use database) [w, d]
| listing
    {c : Command}
    {w : Lexeme}
    {ls : List Lexeme}
    (hWord : w.token = .keyword .«show»)
    (hRest : Listing c ls) :
    Written c (w :: ls)
| describe
    {table : String}
    {w t : Lexeme}
    (hWord : w.token = .keyword .describe)
    (hTable : t.name? = some table) :
    Written (.describe table) [w, t]

/- A statement with its first word. -/
inductive Statement.Written :
    Statement → List Lexeme → Prop where
| command
    {c : Command}
    {ls : List Lexeme}
    (hCommand : c.Written ls) :
    Written (.command c) ls
| control
    {c : Control}
    {w : Lexeme}
    {ls : List Lexeme}
    (hWord : w.token = .keyword c.keyword)
    (hRest :
      Lexeme.Optionally (.keyword .transaction) ls []) :
    Written (.control c) (w :: ls)

namespace Reader

open Lexeme

variable {ls : List Lexeme} {c : Command}
variable {st : Statement} {usage : String}

theorem shaped_eq_ok_iff
    {r : Reader Command}
    {shape : String} :
    (shaped shape r).run ls = .ok ((st, usage), []) ↔
      ∃ c,
        r.run ls = .ok (c, []) ∧ st = .command c ∧
          usage = shape := by
  unfold shaped
  simp only [bind_eq_ok_iff, pure_eq_ok_iff,
    Prod.mk.injEq]
  constructor
  · rintro ⟨c, _, hRun, ⟨rfl, rfl⟩, rfl⟩
    exact ⟨c, hRun, rfl, rfl⟩
  · rintro ⟨c, hRun, rfl, rfl⟩
    exact ⟨c, [], hRun, ⟨rfl, rfl⟩, rfl⟩

theorem control_eq_ok_iff {kind : Control} :
    (control kind).run ls = .ok ((st, usage), []) ↔
      Optionally (.keyword .transaction) ls [] ∧
        st = .control kind ∧ usage = "" := by
  unfold control
  simp only [bind_eq_ok_iff, accept_eq_ok_iff,
    pure_eq_ok_iff, Prod.mk.injEq]
  constructor
  · rintro ⟨_, _, ⟨word, rfl, hWord, _⟩, ⟨rfl, rfl⟩, rfl⟩
    rw [List.append_nil]
    exact ⟨hWord, rfl, rfl⟩
  · rintro ⟨hWord, rfl, rfl⟩
    exact
      ⟨_, [], ⟨ls, (List.append_nil ls).symm, hWord, rfl⟩,
        ⟨rfl, rfl⟩, rfl⟩

/- The reader after `CREATE`, which names the shape of what was created. -/
theorem create_shaped_eq_ok_iff :
    (do
      let c ← create
      match c with
      | .createTable _ _ _ =>
        pure (Statement.command c, createTableUsage)
      | _ => pure (Statement.command c, createDatabaseUsage) :
      Reader (Statement × String)).run ls =
        .ok ((st, usage), []) ↔
      ∃ c,
        create.run ls = .ok (c, []) ∧ st = .command c ∧
          usage =
            (match c with
              | .createTable _ _ _ => createTableUsage
              | _ => createDatabaseUsage) := by
  rw [bind_eq_ok_iff]
  constructor
  · rintro ⟨c, mid, hRun, hRest⟩
    cases c <;>
      (rw [pure_eq_ok_iff, Prod.mk.injEq] at hRest
       rcases hRest with ⟨⟨rfl, rfl⟩, rfl⟩
       exact ⟨_, hRun, rfl, rfl⟩)
  · rintro ⟨c, hRun, rfl, rfl⟩
    refine ⟨c, [], hRun, ?_⟩
    cases c <;> rfl

theorem written_of_shaped
    {first : Lexeme}
    {r : Reader Command}
    {shape : String}
    (hRun : (shaped shape r).run ls = .ok ((st, usage), []))
    (hWritten :
      ∀ c, r.run ls = .ok (c, []) →
        c.Written (first :: ls)) :
    st.Written (first :: ls) := by
  rw [shaped_eq_ok_iff] at hRun
  rcases hRun with ⟨c, hCommand, rfl, _⟩
  exact .command (hWritten c hCommand)

theorem written_of_control
    (kind : Control)
    {first : Lexeme}
    (hWord : first.token = .keyword kind.keyword)
    (hRun :
      (control kind).run ls = .ok ((st, usage), [])) :
    st.Written (first :: ls) := by
  rw [control_eq_ok_iff] at hRun
  rcases hRun with ⟨hRest, rfl, _⟩
  exact .control hWord hRest

/- The reader that a first word selects reads what is written. -/
theorem written_of_afterFirst
    {first : Lexeme}
    {reader : Reader (Statement × String)}
    (hReader : afterFirst? first.token = some reader)
    (hRun : reader.run ls = .ok ((st, usage), [])) :
    st.Written (first :: ls) := by
  unfold afterFirst? at hReader
  split at hReader
  case h_1 hWord =>
    cases hReader
    refine written_of_shaped hRun fun c hRead => ?_
    exact .select hWord (select_eq_ok_iff.mp hRead)
  case h_2 hWord =>
    cases hReader
    refine written_of_shaped hRun fun c hRead => ?_
    exact .insert hWord (insert_eq_ok_iff.mp hRead)
  case h_3 hWord =>
    cases hReader
    refine written_of_shaped hRun fun c hRead => ?_
    exact .update hWord (update_eq_ok_iff.mp hRead)
  case h_4 hWord =>
    cases hReader
    refine written_of_shaped hRun fun c hRead => ?_
    exact .delete hWord (delete_eq_ok_iff.mp hRead)
  case h_5 hWord =>
    cases hReader
    have hShaped := create_shaped_eq_ok_iff.mp hRun
    rcases hShaped with ⟨c, hRead, rfl, _⟩
    exact
      .command (.create hWord (create_eq_ok_iff.mp hRead))
  case h_6 hWord =>
    cases hReader
    refine written_of_shaped hRun fun c hRead => ?_
    exact .drop hWord (drop_eq_ok_iff.mp hRead)
  case h_7 hWord =>
    cases hReader
    refine written_of_shaped hRun fun c hRead => ?_
    exact .alter hWord (alter_eq_ok_iff.mp hRead)
  case h_8 hWord =>
    cases hReader
    refine written_of_shaped hRun fun c hRead => ?_
    rw [named_eq_ok_iff] at hRead
    rcases hRead with ⟨database, d, rfl, rfl, hDatabase⟩
    exact .use hWord hDatabase
  case h_9 hWord =>
    cases hReader
    refine written_of_shaped hRun fun c hRead => ?_
    rw [permission_eq_ok_iff] at hRead
    exact .permission .grant hWord hRead
  case h_10 hWord =>
    cases hReader
    refine written_of_shaped hRun fun c hRead => ?_
    rw [permission_eq_ok_iff] at hRead
    exact .permission .revoke hWord hRead
  case h_11 hWord =>
    cases hReader
    refine written_of_shaped hRun fun c hRead => ?_
    exact .listing hWord (listing_eq_ok_iff.mp hRead)
  case h_12 hWord =>
    cases hReader
    refine written_of_shaped hRun fun c hRead => ?_
    rw [named_eq_ok_iff] at hRead
    rcases hRead with ⟨table, t, rfl, rfl, hTable⟩
    exact .describe hWord hTable
  case h_13 hWord =>
    cases hReader
    exact written_of_control .begin hWord hRun
  case h_14 hWord =>
    cases hReader
    exact written_of_control .commit hWord hRun
  case h_15 hWord =>
    cases hReader
    exact written_of_control .rollback hWord hRun
  case h_16 => cases hReader

theorem afterFirst_of_shaped
    {first : Lexeme}
    {k : Keyword}
    {r : Reader Command}
    {shape : String}
    (hReader : afterFirst? (.keyword k) = some (shaped shape r))
    (hWord : first.token = .keyword k)
    (hRun : r.run ls = .ok (c, [])) :
    ∃ reader usage,
      afterFirst? first.token = some reader ∧
        reader.run ls = .ok ((.command c, usage), []) := by
  rw [hWord]
  refine ⟨_, shape, hReader, ?_⟩
  rw [shaped_eq_ok_iff]
  exact ⟨c, hRun, rfl, rfl⟩

theorem afterFirst_of_control
    {first : Lexeme}
    {kind : Control}
    (hReader :
      afterFirst? (.keyword kind.keyword) =
        some (control kind))
    (hWord : first.token = .keyword kind.keyword)
    (hRest : Optionally (.keyword .transaction) ls []) :
    ∃ reader usage,
      afterFirst? first.token = some reader ∧
        reader.run ls = .ok ((.control kind, usage), []) := by
  rw [hWord]
  refine ⟨_, "", hReader, ?_⟩
  rw [control_eq_ok_iff]
  exact ⟨hRest, rfl, rfl⟩

/- What is written is read by the reader that its first word selects. -/
theorem afterFirst_of_written
    {first : Lexeme}
    (hWritten : st.Written (first :: ls)) :
    ∃ reader usage,
      afterFirst? first.token = some reader ∧
        reader.run ls = .ok ((st, usage), []) := by
  cases hWritten with
  | command hCommand =>
      cases hCommand with
      | select hWord hRest =>
          rw [← select_eq_ok_iff] at hRest
          exact afterFirst_of_shaped rfl hWord hRest
      | insert hWord hRest =>
          rw [← insert_eq_ok_iff] at hRest
          exact afterFirst_of_shaped rfl hWord hRest
      | update hWord hRest =>
          rw [← update_eq_ok_iff] at hRest
          exact afterFirst_of_shaped rfl hWord hRest
      | delete hWord hRest =>
          rw [← delete_eq_ok_iff] at hRest
          exact afterFirst_of_shaped rfl hWord hRest
      | create hWord hRest =>
          rw [← create_eq_ok_iff] at hRest
          rw [hWord]
          exact
            ⟨_, _, rfl,
              create_shaped_eq_ok_iff.mpr
                ⟨_, hRest, rfl, rfl⟩⟩
      | drop hWord hRest =>
          rw [← drop_eq_ok_iff] at hRest
          exact afterFirst_of_shaped rfl hWord hRest
      | alter hWord hRest =>
          rw [← alter_eq_ok_iff] at hRest
          exact afterFirst_of_shaped rfl hWord hRest
      | permission action hWord hRest =>
          rw [← permission_eq_ok_iff] at hRest
          cases action with
          | grant => exact afterFirst_of_shaped rfl hWord hRest
          | revoke =>
              exact afterFirst_of_shaped rfl hWord hRest
      | use hWord hDatabase =>
          apply afterFirst_of_shaped rfl hWord
          rw [named_eq_ok_iff]
          exact ⟨_, _, rfl, rfl, hDatabase⟩
      | listing hWord hRest =>
          rw [← listing_eq_ok_iff] at hRest
          exact afterFirst_of_shaped rfl hWord hRest
      | describe hWord hTable =>
          apply afterFirst_of_shaped rfl hWord
          rw [named_eq_ok_iff]
          exact ⟨_, _, rfl, rfl, hTable⟩
  | @control kind _ _ hWord hRest =>
      cases kind with
      | begin => exact afterFirst_of_control rfl hWord hRest
      | commit => exact afterFirst_of_control rfl hWord hRest
      | rollback =>
          exact afterFirst_of_control rfl hWord hRest

end Reader

namespace Statement

open Lexeme

variable {st : Statement}

theorem ofLexemes_eq_ok_iff
    {s : List Char}
    {first : Lexeme}
    {ls : List Lexeme} :
    ofLexemes s first ls = .ok st ↔
      st.Written (first :: ls) := by
  unfold ofLexemes
  constructor
  · intro hRead
    split at hRead
    · cases hRead
    · rename_i reader hReader
      cases hRun : reader.run ls with
      | error e =>
          rw [hRun] at hRead
          cases hRead
      | ok p =>
          rcases p with ⟨⟨st', usage⟩, left⟩
          rw [hRun] at hRead
          cases left with
          | cons l left => cases hRead
          | nil =>
              cases hRead
              exact Reader.written_of_afterFirst hReader hRun
  · intro hWritten
    rcases Reader.afterFirst_of_written hWritten with
      ⟨reader, usage, hReader, hRun⟩
    rw [hReader]
    simp only [hRun]
    rfl

/- A text is read as the statement that its lexemes write. -/
theorem parse_eq_ok_iff {text : String} :
    parse text = .ok st ↔
      st.Written
        (Lexer.lexemes (normalize text.toList)) := by
  unfold parse
  dsimp only
  split
  · rename_i hNone
    rw [hNone]
    constructor
    · intro hRead
      cases hRead
    · intro hWritten
      cases hWritten with
      | command hCommand => cases hCommand
  · rename_i first ls hSome
    rw [hSome]
    exact ofLexemes_eq_ok_iff

end Statement

end Rowstore
