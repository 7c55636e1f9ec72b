import Rowstore.Proofs.Statement.Reading

/-
  How commands are written after their first words.

  Every reader of a kind of command has its own relation
  between what is read and the lexemes that are left, and
  succeeds at their end exactly if they are related.

  Main declarations:
    * `Command.Selection`, `Command.Insertion`,
      `Command.Update` and `Command.Deletion`
    * `Command.Creation`, `Command.Removal` and
      `Command.Alteration`
    * `Command.Permission` and `Command.Listing`
    * `Reader.select_eq_ok_iff` and its siblings
-/

------------------------------------------------------------
-- Names And Keywords
------------------------------------------------------------

namespace Rowstore

namespace Lexeme

variable {l : Lexeme} {name : String}

/- No punctuation mark stands for a name. -/
theorem not_mark_of_name
    (hName : l.name? = some name)
    (m : Mark) :
    l.token ≠ .mark m := by
  intro hToken
  simp [name?, hToken] at hName

/- No hard keyword stands for a name. -/
theorem not_keyword_of_name
    (hName : l.name? = some name)
    {k : Keyword}
    (hHard : k.isSoft = false) :
    l.token ≠ .keyword k := by
  intro hToken
  simp [name?, hToken, hHard] at hName

end Lexeme

end Rowstore

------------------------------------------------------------
-- Data Commands
------------------------------------------------------------

namespace Rowstore

namespace Lexeme

/- A star, or names. -/
inductive Projected :
    Projection → List Lexeme → Prop where
| all
    {l : Lexeme}
    (hStar : l.token = .mark .star) :
    Projected .all [l]
| columns
    {names : List String}
    {ls : List Lexeme}
    (hNames : NameList names ls) :
    Projected (.columns names) ls

/- What a selection shows is written with names, commas and stars. -/
theorem Projected.mem
    {projection : Projection}
    {l : Lexeme}
    {ls : List Lexeme}
    (hShown : Projected projection ls)
    (hMember : l ∈ ls) :
    l.token = .mark .star ∨ l.token = .mark .comma ∨
      ∃ name, l.name? = some name := by
  cases hShown with
  | all hStar =>
      rw [List.mem_singleton] at hMember
      subst hMember
      exact .inl hStar
  | columns hNames => exact .inr (hNames.mem hMember)

end Lexeme

namespace Command

open Lexeme

/- A selection after its first word. -/
inductive Selection : Command → List Lexeme → Prop where
| intro
    {projection : Projection}
    {table : String}
    {condition : Option String}
    {f t : Lexeme}
    {shown clause : List Lexeme}
    (hShown : Projected projection shown)
    (hFrom : f.token = .keyword .«from»)
    (hTable : t.name? = some table)
    (hClause : Clause condition clause) :
    Selection (.select projection table condition)
      (shown ++ f :: t :: clause)

/- An insertion after its first word. -/
inductive Insertion : Command → List Lexeme → Prop where
| intro
    {table : String}
    {columns : List String}
    {i t o c v p q : Lexeme}
    {listed inner : List Lexeme}
    (hInto : i.token = .keyword .into)
    (hTable : t.name? = some table)
    (hOpen : o.token = .mark .openParen)
    (hColumns : NameList columns listed)
    (hClose : c.token = .mark .closeParen)
    (hValues : v.token = .keyword .values)
    (hBegin : p.token = .mark .openParen)
    (hInner : Closes 0 inner)
    (hPieces : [] ∉ splitCommas 0 inner)
    (hEnd : q.token = .mark .closeParen) :
    Insertion
      (.insert table columns
        ((splitCommas 0 inner).map source))
      (i :: t :: o :: (listed ++
        c :: v :: p :: (inner ++ [q])))

/- An update after its first word. -/
inductive Update : Command → List Lexeme → Prop where
| intro
    {table : String}
    {changes : List Assignment}
    {condition : Option String}
    {t s : Lexeme}
    {body clause : List Lexeme}
    (hTable : t.name? = some table)
    (hSet : s.token = .keyword .set)
    (hBody : NoneAtTop .«where» 0 body)
    (hTop : clause = [] ∨ depthFrom 0 body = 0)
    (hChanges :
      (splitCommas 0 body).map Reader.assignment? =
        changes.map some)
    (hClause : Clause condition clause) :
    Update (.update table changes condition)
      (t :: s :: (body ++ clause))

/- A deletion after its first word. -/
inductive Deletion : Command → List Lexeme → Prop where
| intro
    {table : String}
    {condition : Option String}
    {f t : Lexeme}
    {clause : List Lexeme}
    (hFrom : f.token = .keyword .«from»)
    (hTable : t.name? = some table)
    (hClause : Clause condition clause) :
    Deletion (.delete table condition) (f :: t :: clause)

end Command

namespace Reader

open Lexeme

variable {ls rest : List Lexeme} {c : Command}

/- The part of a selection that follows what it shows. -/
theorem selectFrom_eq_ok_iff {projection : Projection} :
    (do
      expect selectUsage (.keyword .«from»)
      let table ← Reader.name selectUsage
      let condition ← Reader.condition selectUsage
      pure (Command.select projection table condition) :
      Reader Command).run ls = .ok (c, []) ↔
      ∃ table condition f t clause,
        c = .select projection table condition ∧
          ls = f :: t :: clause ∧
          f.token = .keyword .«from» ∧
          t.name? = some table ∧
          Clause condition clause := by
  simp only [bind_eq_ok_iff, expect_eq_ok_iff,
    name_eq_ok_iff, pure_eq_ok_iff]
  constructor
  · rintro ⟨_, _, ⟨f, rfl, hFrom⟩, table, clause,
      ⟨t, rfl, hTable⟩, condition, _, hClause, rfl, rfl⟩
    rw [condition_eq_ok_iff] at hClause
    exact
      ⟨table, condition, f, t, clause, rfl, rfl, hFrom,
        hTable, hClause⟩
  · rintro ⟨table, condition, f, t, clause, rfl, rfl, hFrom,
      hTable, hClause⟩
    rw [← condition_eq_ok_iff] at hClause
    exact
      ⟨(), _, ⟨f, rfl, hFrom⟩, table, clause,
        ⟨t, rfl, hTable⟩, condition, _, hClause, rfl, rfl⟩

theorem select_eq_ok_iff :
    select.run ls = .ok (c, []) ↔
      Command.Selection c ls := by
  unfold select
  rw [bind_eq_ok_iff]
  constructor
  · rintro ⟨star, mid, hStar, hRest⟩
    rw [accept_eq_ok_iff] at hStar
    rcases hStar with
      ⟨word, rfl, hWord | ⟨rfl, hOther⟩, rfl⟩
    · rw [spell_singleton_iff] at hWord
      rcases hWord with ⟨l, rfl, hToken⟩
      have hFrom := selectFrom_eq_ok_iff.mp hRest
      rcases hFrom with
        ⟨table, condition, f, t, clause, rfl, rfl, hFrom,
          hTable, hClause⟩
      exact .intro (.all hToken) hFrom hTable hClause
    · rw [if_neg (by simp), bind_eq_ok_iff] at hRest
      rcases hRest with ⟨names, rest, hNames, hRest⟩
      rw [names_eq_ok_iff] at hNames
      rcases hNames with ⟨list, rfl, hList, _⟩
      have hFrom := selectFrom_eq_ok_iff.mp hRest
      rcases hFrom with
        ⟨table, condition, f, t, clause, rfl, rfl, hFrom,
          hTable, hClause⟩
      exact .intro (.columns hList) hFrom hTable hClause
  · rintro @⟨projection, table, condition, f, t, shown,
      clause, hShown, hFrom, hTable, hClause⟩
    have hRest :=
      (@selectFrom_eq_ok_iff _ _ projection).mpr
        ⟨table, condition, f, t, clause, rfl, rfl, hFrom,
          hTable, hClause⟩
    cases hShown with
    | all hStar => exact ⟨true, _, if_pos hStar, hRest⟩
    | columns hNames =>
        have hEnd :
            ∀ l ∈ (f :: t :: clause).head?,
              l.token ≠ .mark .comma := by
          simp [hFrom]
        have hRun :=
          (@names_eq_ok_iff _ _ selectUsage _).mpr
            ⟨shown, rfl, hNames, hEnd⟩
        rcases hNames with ⟨hName, _⟩
        have hOther := not_mark_of_name hName .star
        refine ⟨false, _, if_neg hOther, ?_⟩
        rw [if_neg (by simp), bind_eq_ok_iff]
        exact ⟨_, _, hRun, hRest⟩

theorem pieceTexts_eq_ok_iff
    {usage : String}
    {pieces : List (List Lexeme)}
    {texts : List String} :
    pieceTexts usage ls pieces = .ok texts ↔
      [] ∉ pieces ∧ texts = pieces.map source := by
  induction pieces generalizing texts with
  | nil => simp [pieceTexts, eq_comm]
  | cons p ps ih =>
      cases p with
      | nil => simp [pieceTexts]
      | cons l p =>
          simp only [pieceTexts, List.isEmpty_cons,
            Bool.false_eq_true, if_false, map_eq_ok_iff, ih]
          constructor
          · rintro ⟨_, ⟨hPieces, rfl⟩, rfl⟩
            exact ⟨by simpa using hPieces, rfl⟩
          · rintro ⟨hPieces, rfl⟩
            exact ⟨_, ⟨by simpa using hPieces, rfl⟩, rfl⟩

theorem insert_eq_ok_iff :
    insert.run ls = .ok (c, []) ↔
      Command.Insertion c ls := by
  unfold insert
  simp only [bind_eq_ok_iff, expect_eq_ok_iff,
    name_eq_ok_iff, names_eq_ok_iff, get_eq_ok_iff,
    enclosed_eq_ok_iff, lift_eq_ok_iff,
    pieceTexts_eq_ok_iff, pure_eq_ok_iff]
  constructor
  · rintro ⟨_, _, ⟨i, rfl, hInto⟩, table, _,
      ⟨t, rfl, hTable⟩, _, _, ⟨o, rfl, hOpen⟩, columns, _,
      ⟨listed, rfl, hColumns, _⟩, _, _, ⟨p, rfl, hClose⟩,
      _, _, ⟨v, rfl, hValues⟩, _, _, ⟨b, rfl, hBegin⟩,
      here, _, ⟨rfl, rfl⟩, inner, _,
      ⟨q, rfl, hInner, hEnd⟩, values, _,
      ⟨⟨hPieces, rfl⟩, rfl⟩, rfl, rfl⟩
    exact
      .intro hInto hTable hOpen hColumns hClose hValues
        hBegin hInner hPieces hEnd
  · rintro ⟨hInto, hTable, hOpen, hColumns, hClose, hValues,
      hBegin, hInner, hPieces, hEnd⟩
    exact
      ⟨(), _, ⟨_, rfl, hInto⟩, _, _, ⟨_, rfl, hTable⟩,
        (), _, ⟨_, rfl, hOpen⟩, _, _,
        ⟨_, rfl, hColumns, by simp [hClose]⟩, (), _,
        ⟨_, rfl, hClose⟩, (), _, ⟨_, rfl, hValues⟩, (), _,
        ⟨_, rfl, hBegin⟩, _, _, ⟨rfl, rfl⟩, _, [],
        ⟨_, rfl, hInner, hEnd⟩, _, _,
        ⟨⟨hPieces, rfl⟩, rfl⟩, rfl, rfl⟩

theorem assignments_eq_ok_iff
    {pieces : List (List Lexeme)}
    {changes : List Assignment} :
    assignments ls pieces = .ok changes ↔
      pieces.map assignment? = changes.map some := by
  induction pieces generalizing changes with
  | nil => cases changes <;> simp [assignments]
  | cons p ps ih =>
      rw [assignments, List.map_cons]
      cases assignment? p with
      | none => cases changes <;> simp
      | some a =>
          simp only [map_eq_ok_iff, ih]
          constructor
          · rintro ⟨others, hOthers, rfl⟩
            rw [List.map_cons, hOthers]
          · intro hChanges
            cases changes with
            | nil => cases hChanges
            | cons a' others =>
                rw [List.map_cons, List.cons.injEq,
                  Option.some.injEq] at hChanges
                rcases hChanges with ⟨rfl, hOthers⟩
                exact ⟨others, hOthers, rfl⟩

/- One assignment is a column, an equals sign and a text. -/
theorem assignment?_eq_some_iff {a : Assignment} :
    assignment? ls = some a ↔
      ∃ c e v vs,
        ls = c :: e :: v :: vs ∧ c.name? = some a.column ∧
          e.token = .comparison .eq ∧
          a.value = source (v :: vs) := by
  constructor
  · intro hSome
    rcases ls with _ | ⟨c, _ | ⟨e, _ | ⟨v, vs⟩⟩⟩
    · cases hSome
    · cases hSome
    · cases hSome
    · cases hName : c.name? with
      | none => simp [assignment?, hName] at hSome
      | some column =>
          by_cases hEqual : e.token = .comparison .eq
          · simp only [assignment?, hName, hEqual,
              if_true, Option.some.injEq] at hSome
            subst hSome
            exact ⟨c, e, v, vs, rfl, hName, hEqual, rfl⟩
          · simp [assignment?, hName, hEqual] at hSome
  · rintro ⟨c, e, v, vs, rfl, hName, hEqual, hValue⟩
    simp only [assignment?, hName, hEqual, if_true,
      ← hValue]

theorem update_eq_ok_iff :
    update.run ls = .ok (c, []) ↔
      Command.Update c ls := by
  unfold update
  simp only [bind_eq_ok_iff, expect_eq_ok_iff,
    name_eq_ok_iff, get_eq_ok_iff, lift_eq_ok_iff,
    set_eq_ok_iff, assignments_eq_ok_iff, pure_eq_ok_iff]
  constructor
  · rintro ⟨table, _, ⟨t, rfl, hTable⟩, _, here,
      ⟨s, rfl, hSet⟩, _, _, ⟨rfl, rfl⟩, changes, _,
      ⟨hChanges, rfl⟩, _, _, rfl, condition, _, hClause,
      rfl, rfl⟩
    rw [condition_eq_ok_iff] at hClause
    rcases hSplit :
      (splitAtTop .«where» 0 here).getD (here, []) with
      ⟨body, clause⟩
    rw [hSplit] at hChanges hClause
    rw [getD_splitAtTop_eq_iff] at hSplit
    rcases hSplit with ⟨rfl, hBody, hTop⟩
    exact
      .intro hTable hSet hBody (hTop.imp_right And.left)
        hChanges hClause
  · rintro @⟨table, changes, condition, t, s, body, clause,
      hTable, hSet, hBody, hTop, hChanges, hClause⟩
    have hSplit :
        (splitAtTop .«where» 0 (body ++ clause)).getD
            (body ++ clause, []) =
          (body, clause) := by
      rw [getD_splitAtTop_eq_iff]
      refine ⟨rfl, hBody, ?_⟩
      cases hClause with
      | absent => exact .inl rfl
      | present hWord =>
          exact
            .inr ⟨hTop.resolve_left (by simp), _, rfl, hWord⟩
    rw [← condition_eq_ok_iff] at hClause
    refine
      ⟨table, _, ⟨t, rfl, hTable⟩, (), body ++ clause,
        ⟨s, rfl, hSet⟩, _, _, ⟨rfl, rfl⟩, changes, _,
        ⟨?_, rfl⟩, ⟨⟩, clause, ?_, condition, [], hClause,
        rfl, rfl⟩
    · rw [hSplit]
      exact hChanges
    · rw [hSplit]

theorem delete_eq_ok_iff :
    delete.run ls = .ok (c, []) ↔
      Command.Deletion c ls := by
  unfold delete
  simp only [bind_eq_ok_iff, expect_eq_ok_iff,
    name_eq_ok_iff, pure_eq_ok_iff]
  constructor
  · rintro ⟨_, _, ⟨f, rfl, hFrom⟩, table, clause,
      ⟨t, rfl, hTable⟩, condition, _, hClause, rfl, rfl⟩
    rw [condition_eq_ok_iff] at hClause
    exact .intro hFrom hTable hClause
  · rintro ⟨hFrom, hTable, hClause⟩
    rw [← condition_eq_ok_iff] at hClause
    exact
      ⟨(), _, ⟨_, rfl, hFrom⟩, _, _, ⟨_, rfl, hTable⟩, _, _,
        hClause, rfl, rfl⟩

end Reader

end Rowstore

------------------------------------------------------------
-- Schema Commands
------------------------------------------------------------

namespace Rowstore

namespace Command

open Lexeme

/- A table creation after its first two words. -/
inductive TableCreation : Command → List Lexeme → Prop where
| intro
    {table : String}
    {columns : List ColumnDefinition}
    {key : List String}
    {t o q : Lexeme}
    {inner : List Lexeme}
    (hTable : t.name? = some table)
    (hOpen : o.token = .mark .openParen)
    (hInner : Closes 0 inner)
    (hPieces :
      Reader.tablePieces (splitCommas 0 inner) =
        .ok (columns, key))
    (hEnd : q.token = .mark .closeParen) :
    TableCreation (.createTable table columns key)
      (t :: o :: (inner ++ [q]))

/- A database creation after its first two words. -/
inductive DatabaseCreation :
    Command → List Lexeme → Prop where
| always
    {database : String}
    {d : Lexeme}
    (hDatabase : d.name? = some database) :
    DatabaseCreation (.createDatabase database false) [d]
| ifMissing
    {database : String}
    {i n e d : Lexeme}
    (hIf : i.token = .keyword .«if»)
    (hNot : n.token = .keyword .not)
    (hExists : e.token = .keyword .«exists»)
    (hDatabase : d.name? = some database) :
    DatabaseCreation (.createDatabase database true)
      [i, n, e, d]

/- What is created, after the word for its kind. -/
inductive Creation : Command → List Lexeme → Prop where
| table
    {c : Command}
    {k : Lexeme}
    {ls : List Lexeme}
    (hKind : k.token = .keyword .table)
    (hRest : TableCreation c ls) :
    Creation c (k :: ls)
| database
    {c : Command}
    {k : Lexeme}
    {ls : List Lexeme}
    (hKind : k.token = .keyword .database)
    (hRest : DatabaseCreation c ls) :
    Creation c (k :: ls)

/- What is dropped, with the word for its kind. -/
inductive Removal : Command → List Lexeme → Prop where
| table
    {table : String}
    {k t : Lexeme}
    (hKind : k.token = .keyword .table)
    (hTable : t.name? = some table) :
    Removal (.dropTable table) [k, t]
| database
    {database : String}
    {k d : Lexeme}
    (hKind : k.token = .keyword .database)
    (hDatabase : d.name? = some database) :
    Removal (.dropDatabase database) [k, d]

end Command

/- A change to a table's definition. -/
inductive AlterAction.Written :
    AlterAction → List Lexeme → Prop where
| addColumn
    {column : ColumnDefinition}
    {a : Lexeme}
    {word definition : List Lexeme}
    (hAdd : a.token = .keyword .add)
    (hWord :
      Lexeme.Optionally (.keyword .column) word definition)
    (hDefinition :
      Reader.columnDefinition definition = .ok column) :
    Written (.addColumn column) (a :: (word ++ definition))
| dropColumn
    {column : String}
    {d c : Lexeme}
    {word : List Lexeme}
    (hDrop : d.token = .keyword .drop)
    (hWord : Lexeme.Optionally (.keyword .column) word [c])
    (hColumn : c.name? = some column) :
    Written (.dropColumn column) (d :: (word ++ [c]))
| renameTo
    {name : String}
    {r t n : Lexeme}
    (hRename : r.token = .keyword .rename)
    (hTo : t.token = .keyword .«to»)
    (hName : n.name? = some name) :
    Written (.renameTo name) [r, t, n]

/- A table change after its first word. -/
inductive Command.Alteration :
    Command → List Lexeme → Prop where
| intro
    {table : String}
    {action : AlterAction}
    {k t : Lexeme}
    {ls : List Lexeme}
    (hKind : k.token = .keyword .table)
    (hTable : t.name? = some table)
    (hAction : action.Written ls) :
    Alteration (.alterTable table action) (k :: t :: ls)

namespace Reader

open Lexeme

variable {ls rest : List Lexeme} {c : Command}

theorem createTable_eq_ok_iff :
    createTable.run ls = .ok (c, []) ↔
      Command.TableCreation c ls := by
  unfold createTable
  simp only [bind_eq_ok_iff, expect_eq_ok_iff,
    name_eq_ok_iff, enclosed_eq_ok_iff, lift_eq_ok_iff,
    pure_eq_ok_iff]
  constructor
  · rintro ⟨table, _, ⟨t, rfl, hTable⟩, _, _,
      ⟨o, rfl, hOpen⟩, inner, _, ⟨q, rfl, hInner, hEnd⟩,
      ⟨columns, key⟩, _, ⟨hPieces, rfl⟩, rfl, rfl⟩
    exact .intro hTable hOpen hInner hPieces hEnd
  · rintro ⟨hTable, hOpen, hInner, hPieces, hEnd⟩
    exact
      ⟨_, _, ⟨_, rfl, hTable⟩, (), _, ⟨_, rfl, hOpen⟩, _, [],
        ⟨_, rfl, hInner, hEnd⟩, (_, _), _, ⟨hPieces, rfl⟩,
        rfl, rfl⟩

theorem createDatabase_eq_ok_iff :
    createDatabase.run ls = .ok (c, []) ↔
      Command.DatabaseCreation c ls := by
  unfold createDatabase
  rw [bind_eq_ok_iff]
  constructor
  · rintro ⟨ifMissing, mid, hIf, hRest⟩
    rw [accept_eq_ok_iff] at hIf
    rcases hIf with ⟨word, rfl, hWord | ⟨rfl, _⟩, rfl⟩
    · rw [spell_singleton_iff] at hWord
      rcases hWord with ⟨i, rfl, hIf⟩
      rw [if_pos (by simp)] at hRest
      simp only [bind_eq_ok_iff, expect_eq_ok_iff,
        name_eq_ok_iff, pure_eq_ok_iff] at hRest
      rcases hRest with
        ⟨_, _, ⟨n, rfl, hNot⟩, _, _, ⟨e, rfl, hExists⟩,
          database, _, ⟨d, rfl, hDatabase⟩, rfl, rfl⟩
      exact .ifMissing hIf hNot hExists hDatabase
    · rw [if_neg (by simp)] at hRest
      simp only [bind_eq_ok_iff, name_eq_ok_iff,
        pure_eq_ok_iff] at hRest
      rcases hRest with
        ⟨database, _, ⟨d, rfl, hDatabase⟩, rfl, rfl⟩
      exact .always hDatabase
  · intro hWritten
    cases hWritten with
    | always hDatabase =>
        have hOther :=
          not_keyword_of_name hDatabase (k := .«if») rfl
        refine ⟨false, _, if_neg hOther, ?_⟩
        rw [if_neg (by simp)]
        simp only [bind_eq_ok_iff, name_eq_ok_iff,
          pure_eq_ok_iff]
        exact ⟨_, [], ⟨_, rfl, hDatabase⟩, rfl, rfl⟩
    | ifMissing hIf hNot hExists hDatabase =>
        refine ⟨true, _, if_pos hIf, ?_⟩
        rw [if_pos rfl]
        simp only [bind_eq_ok_iff, expect_eq_ok_iff,
          name_eq_ok_iff, pure_eq_ok_iff]
        exact
          ⟨(), _, ⟨_, rfl, hNot⟩, (), _, ⟨_, rfl, hExists⟩,
            _, [], ⟨_, rfl, hDatabase⟩, rfl, rfl⟩

theorem create_eq_ok_iff :
    create.run ls = .ok (c, []) ↔
      Command.Creation c ls := by
  unfold create
  rw [next?_bind_eq_ok_iff (by exact fail_ne_ok)]
  constructor
  · rintro ⟨k, ls, rfl, hRest⟩
    simp only [Option.map_some] at hRest
    split at hRest
    · rename_i hKind
      rw [Option.some.injEq] at hKind
      rw [createTable_eq_ok_iff] at hRest
      exact .table hKind hRest
    · rename_i hKind
      rw [Option.some.injEq] at hKind
      rw [createDatabase_eq_ok_iff] at hRest
      exact .database hKind hRest
    · cases hRest
  · intro hWritten
    cases hWritten with
    | table hKind hRest =>
        refine ⟨_, _, rfl, ?_⟩
        rw [← createTable_eq_ok_iff] at hRest
        simpa [hKind] using hRest
    | database hKind hRest =>
        refine ⟨_, _, rfl, ?_⟩
        rw [← createDatabase_eq_ok_iff] at hRest
        simpa [hKind] using hRest

theorem drop_eq_ok_iff :
    drop.run ls = .ok (c, []) ↔
      Command.Removal c ls := by
  unfold drop
  rw [next?_bind_eq_ok_iff (by exact fail_ne_ok)]
  constructor
  · rintro ⟨k, ls, rfl, hRest⟩
    simp only [Option.map_some] at hRest
    split at hRest
    · rename_i hKind
      rw [Option.some.injEq] at hKind
      rw [named_eq_ok_iff] at hRest
      rcases hRest with ⟨table, t, rfl, rfl, hTable⟩
      exact .table hKind hTable
    · rename_i hKind
      rw [Option.some.injEq] at hKind
      rw [named_eq_ok_iff] at hRest
      rcases hRest with ⟨database, d, rfl, rfl, hDatabase⟩
      exact .database hKind hDatabase
    · cases hRest
  · intro hWritten
    cases hWritten with
    | table hKind hTable =>
        refine ⟨_, _, rfl, ?_⟩
        simp only [Option.map_some, hKind]
        rw [named_eq_ok_iff]
        exact ⟨_, _, rfl, rfl, hTable⟩
    | database hKind hDatabase =>
        refine ⟨_, _, rfl, ?_⟩
        simp only [Option.map_some, hKind]
        rw [named_eq_ok_iff]
        exact ⟨_, _, rfl, rfl, hDatabase⟩

theorem addedColumn_eq_ok_iff {column : ColumnDefinition} :
    addedColumn.run ls = .ok (column, []) ↔
      columnDefinition ls = .ok column := by
  unfold addedColumn
  rw [bind_eq_ok_iff]
  constructor
  · rintro ⟨here, _, hHere, hRest⟩
    rw [get_eq_ok_iff] at hHere
    rcases hHere with ⟨rfl, rfl⟩
    cases ls with
    | nil => cases hRest
    | cons l ls =>
        simp only [bind_eq_ok_iff, lift_eq_ok_iff,
          set_eq_ok_iff, pure_eq_ok_iff] at hRest
        rcases hRest with
          ⟨_, _, ⟨hColumn, rfl⟩, _, _, rfl, rfl, _⟩
        exact hColumn
  · intro hColumn
    refine ⟨ls, ls, get_eq_ok_iff.mpr ⟨rfl, rfl⟩, ?_⟩
    cases ls with
    | nil => cases hColumn
    | cons l ls =>
        simp only [bind_eq_ok_iff, lift_eq_ok_iff,
          set_eq_ok_iff, pure_eq_ok_iff]
        exact
          ⟨_, _, ⟨hColumn, rfl⟩, ⟨⟩, [], rfl, rfl, rfl⟩

theorem alterAction_eq_ok_iff {action : AlterAction} :
    alterAction.run ls = .ok (action, []) ↔
      action.Written ls := by
  unfold alterAction
  rw [next?_bind_eq_ok_iff (by exact fail_ne_ok)]
  constructor
  · rintro ⟨k, ls, rfl, hRest⟩
    simp only [Option.map_some] at hRest
    split at hRest
    · rename_i hAdd
      rw [Option.some.injEq] at hAdd
      simp only [bind_eq_ok_iff, accept_eq_ok_iff,
        pure_eq_ok_iff] at hRest
      rcases hRest with
        ⟨_, _, ⟨word, rfl, hWord, _⟩, column, _,
          hColumn, rfl, rfl⟩
      rw [addedColumn_eq_ok_iff] at hColumn
      exact .addColumn hAdd hWord hColumn
    · rename_i hDrop
      rw [Option.some.injEq] at hDrop
      rw [bind_eq_ok_iff] at hRest
      rcases hRest with ⟨_, _, hWord, hName⟩
      rw [accept_eq_ok_iff] at hWord
      rw [named_eq_ok_iff] at hName
      rcases hWord with ⟨word, rfl, hWord, _⟩
      rcases hName with ⟨column, c, rfl, rfl, hName⟩
      exact .dropColumn hDrop hWord hName
    · rename_i hRename
      rw [Option.some.injEq] at hRename
      rw [bind_eq_ok_iff] at hRest
      rcases hRest with ⟨_, _, hTo, hName⟩
      rw [expect_eq_ok_iff] at hTo
      rw [named_eq_ok_iff] at hName
      rcases hTo with ⟨t, rfl, hTo⟩
      rcases hName with ⟨name, n, rfl, rfl, hName⟩
      exact .renameTo hRename hTo hName
    · cases hRest
  · intro hWritten
    cases hWritten with
    | addColumn hAdd hWord hColumn =>
        refine ⟨_, _, rfl, ?_⟩
        rw [← addedColumn_eq_ok_iff] at hColumn
        simp only [Option.map_some, hAdd, bind_eq_ok_iff,
          accept_eq_ok_iff, pure_eq_ok_iff]
        exact
          ⟨_, _, ⟨_, rfl, hWord, rfl⟩, _, _, hColumn, rfl,
            rfl⟩
    | dropColumn hDrop hWord hName =>
        refine ⟨_, _, rfl, ?_⟩
        simp only [Option.map_some, hDrop]
        rw [bind_eq_ok_iff]
        exact
          ⟨_, _, accept_eq_ok_iff.mpr ⟨_, rfl, hWord, rfl⟩,
            named_eq_ok_iff.mpr ⟨_, _, rfl, rfl, hName⟩⟩
    | renameTo hRename hTo hName =>
        refine ⟨_, _, rfl, ?_⟩
        simp only [Option.map_some, hRename]
        rw [bind_eq_ok_iff]
        exact
          ⟨(), _, expect_eq_ok_iff.mpr ⟨_, rfl, hTo⟩,
            named_eq_ok_iff.mpr ⟨_, _, rfl, rfl, hName⟩⟩

theorem alter_eq_ok_iff :
    alter.run ls = .ok (c, []) ↔
      Command.Alteration c ls := by
  unfold alter
  simp only [bind_eq_ok_iff, expect_eq_ok_iff,
    name_eq_ok_iff, pure_eq_ok_iff]
  constructor
  · rintro ⟨_, _, ⟨k, rfl, hKind⟩, table, _,
      ⟨t, rfl, hTable⟩, action, _, hAction, rfl, rfl⟩
    rw [alterAction_eq_ok_iff] at hAction
    exact .intro hKind hTable hAction
  · rintro ⟨hKind, hTable, hAction⟩
    rw [← alterAction_eq_ok_iff] at hAction
    exact
      ⟨(), _, ⟨_, rfl, hKind⟩, _, _, ⟨_, rfl, hTable⟩, _, _,
        hAction, rfl, rfl⟩

end Reader

end Rowstore

------------------------------------------------------------
-- Permission Commands
------------------------------------------------------------

namespace Rowstore

/- The word for a scope. -/
def Scope.keyword : Scope → Keyword
| table => .table
| database => .database

namespace Lexeme

/- The user that a lexeme stands for: a string or a name. -/
def user? (l : Lexeme) : Option String :=
  match l.token with
  | .string _ s => some (String.ofList s)
  | _ => l.name?

end Lexeme

/- A permission command after its first word. -/
inductive Command.Permission
    (action : PermissionAction) :
    Command → List Lexeme → Prop where
| intro
    {scope : Scope}
    {name user : String}
    {o s n t u : Lexeme}
    {privilege : List Lexeme}
    (hPrivilege : privilege ≠ [])
    (hNoOn : Lexeme.NoneAtTop .on 0 privilege)
    (hTop : Lexeme.depthFrom 0 privilege = 0)
    (hOn : o.token = .keyword .on)
    (hScope : s.token = .keyword scope.keyword)
    (hName : n.name? = some name)
    (hTo : t.token = .keyword (Reader.userKeyword action))
    (hUser : u.user? = some user) :
    Permission action
      (.permission action
        { privilege := Lexeme.source privilege
          scope := scope
          name := name
          user := user })
      (privilege ++ [o, s, n, t, u])

namespace Reader

open Lexeme

variable {ls rest : List Lexeme} {c : Command}
variable {usage : String}

theorem user_eq_ok_iff {name : String} :
    (user usage).run ls = .ok (name, rest) ↔
      ∃ l, ls = l :: rest ∧ l.user? = some name := by
  unfold user
  rw [next?_bind_eq_ok_iff (by exact fail_ne_ok)]
  constructor
  · rintro ⟨l, more, rfl, hRest⟩
    dsimp only at hRest
    unfold user?
    split at hRest
    · rename_i q s hToken
      rw [pure_eq_ok_iff] at hRest
      rcases hRest with ⟨rfl, rfl⟩
      exact ⟨l, rfl, by rw [hToken]⟩
    · split at hRest
      · rename_i s hName
        rw [pure_eq_ok_iff] at hRest
        rcases hRest with ⟨rfl, rfl⟩
        exact ⟨l, rfl, by simpa using hName⟩
      · cases hRest
  · rintro ⟨l, rfl, hName⟩
    refine ⟨l, rest, rfl, ?_⟩
    dsimp only
    unfold user? at hName
    split
    · rename_i q s hToken
      simp only [hToken, Option.some.injEq] at hName
      rw [hName]
      rfl
    · have hWord : l.name? = some name := by
        simpa using hName
      rw [hWord]
      rfl

theorem scope_eq_ok_iff {scope : Scope} :
    (Reader.scope usage).run ls = .ok (scope, rest) ↔
      ∃ l,
        ls = l :: rest ∧
          l.token = .keyword scope.keyword := by
  unfold Reader.scope
  rw [next?_bind_eq_ok_iff (by exact fail_ne_ok)]
  constructor
  · rintro ⟨l, ls, rfl, hRest⟩
    simp only [Option.map_some] at hRest
    split at hRest
    · rename_i hKind
      rw [Option.some.injEq] at hKind
      cases hRest
      exact ⟨l, rfl, hKind⟩
    · rename_i hKind
      rw [Option.some.injEq] at hKind
      cases hRest
      exact ⟨l, rfl, hKind⟩
    · cases hRest
  · rintro ⟨l, rfl, hKind⟩
    refine ⟨l, rest, rfl, ?_⟩
    simp only [Option.map_some, hKind]
    cases scope with
    | table => rfl
    | database => rfl

theorem nonempty_eq_ok_iff
    {piece : List Lexeme}
    {text : String} :
    (nonempty usage piece).run ls = .ok (text, rest) ↔
      piece ≠ [] ∧ text = source piece ∧ ls = rest := by
  cases piece with
  | nil =>
      constructor
      · intro hRun
        cases hRun
      · rintro ⟨hNil, _⟩
        contradiction
  | cons l piece =>
      change
        (pure (source (l :: piece)) : Reader String).run ls =
          .ok (text, rest) ↔ _
      rw [pure_eq_ok_iff, eq_comm]
      simp

theorem permission_eq_ok_iff {action : PermissionAction} :
    (permission action).run ls = .ok (c, []) ↔
      Command.Permission action c ls := by
  unfold permission
  simp only [bind_eq_ok_iff, get_eq_ok_iff]
  constructor
  · rintro ⟨_, _, ⟨rfl, rfl⟩, hRest⟩
    split at hRest
    · cases hRest
    · rename_i before after hSplit
      rw [splitAtTop_eq_some_iff] at hSplit
      rcases hSplit with ⟨rfl, hNoOn, hTop, o, hFirst, hOn⟩
      simp only [bind_eq_ok_iff, nonempty_eq_ok_iff,
        set_eq_ok_iff, scope_eq_ok_iff, name_eq_ok_iff,
        expect_eq_ok_iff, user_eq_ok_iff,
        pure_eq_ok_iff] at hRest
      rcases hRest with
        ⟨_, _, ⟨hPrivilege, rfl, _⟩, _, _, hAfter, scope, _,
          ⟨s, rfl, hScope⟩, name, _, ⟨n, rfl, hName⟩, _, _,
          ⟨t, rfl, hTo⟩, user, _, ⟨u, rfl, hUser⟩, rfl, rfl⟩
      cases after with
      | nil => cases hFirst
      | cons o after =>
          cases hFirst
          rw [List.drop_one, List.tail_cons] at hAfter
          subst hAfter
          exact
            .intro hPrivilege hNoOn hTop hOn hScope hName
              hTo hUser
  · rintro @⟨scope, name, user, o, s, n, t, u, privilege,
      hPrivilege, hNoOn, hTop, hOn, hScope, hName, hTo,
      hUser⟩
    have hSplit :
        splitAtTop .on 0 (privilege ++ [o, s, n, t, u]) =
          some (privilege, [o, s, n, t, u]) := by
      rw [splitAtTop_eq_some_iff]
      exact ⟨rfl, hNoOn, hTop, o, rfl, hOn⟩
    refine ⟨_, _, ⟨rfl, rfl⟩, ?_⟩
    rw [hSplit]
    simp only [bind_eq_ok_iff, nonempty_eq_ok_iff,
      set_eq_ok_iff, scope_eq_ok_iff, name_eq_ok_iff,
      expect_eq_ok_iff, user_eq_ok_iff, pure_eq_ok_iff]
    exact
      ⟨_, _, ⟨hPrivilege, rfl, rfl⟩, ⟨⟩, _, rfl, scope, _,
        ⟨s, rfl, hScope⟩, name, _, ⟨n, rfl, hName⟩, (), _,
        ⟨t, rfl, hTo⟩, user, _, ⟨u, rfl, hUser⟩, rfl, rfl⟩

end Reader

end Rowstore

------------------------------------------------------------
-- Listing Commands
------------------------------------------------------------

namespace Rowstore

/- What is listed. -/
inductive Command.Listing :
    Command → List Lexeme → Prop where
| databases
    {k : Lexeme}
    (hKind : k.token = .keyword .databases) :
    Listing .showDatabases [k]
| tables
    {k : Lexeme}
    (hKind : k.token = .keyword .tables) :
    Listing .showTables [k]

theorem Reader.listing_eq_ok_iff
    {ls : List Lexeme}
    {c : Command} :
    listing.run ls = .ok (c, []) ↔
      Command.Listing c ls := by
  unfold listing
  rw [next?_bind_eq_ok_iff (by exact fail_ne_ok)]
  constructor
  · rintro ⟨k, ls, rfl, hRest⟩
    simp only [Option.map_some] at hRest
    split at hRest
    · rename_i hKind
      rw [Option.some.injEq] at hKind
      cases hRest
      exact .databases hKind
    · rename_i hKind
      rw [Option.some.injEq] at hKind
      cases hRest
      exact .tables hKind
    · cases hRest
  · intro hWritten
    cases hWritten with
    | databases hKind =>
        refine ⟨_, _, rfl, ?_⟩
        simp only [Option.map_some, hKind]
        rfl
    | tables hKind =>
        refine ⟨_, _, rfl, ?_⟩
        simp only [Option.map_some, hKind]
        rfl

end Rowstore
