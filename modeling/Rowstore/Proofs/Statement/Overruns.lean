import Rowstore.Proofs.Statement.Following

/-
  Reading by positions never leaves the data.

  Every command is read by a cursor that follows its reader,
  whatever the tokens are and however their parentheses stand.
  So the parsers that look at tokens and bytes by their
  positions never overrun them, and answer what is read from
  the lexemes.

  Main declarations:
    * `Cursor.follows_afterFirst?`
    * `Cursor.parse_eq`
    * `Cursor.conditionOf_eq` and `Cursor.parseCondition_eq`
    * `Cursor.parsing_never_overruns`
-/

------------------------------------------------------------
-- Commands
------------------------------------------------------------

namespace Rowstore

namespace Cursor

open Scan Lexeme Checked

variable {α β : Type} {ls : List Lexeme} {scan : Scan}
variable {R : α → β → Prop}
variable {p : Nat} {rest : List Lexeme}

theorem follows_select
    (hScan : scan.Holds ls) :
    Follows ls Eq (select scan) Reader.select := by
  have hSource
      (projection : Projection) :
      Follows ls Eq
        (do
          expect scan Reader.selectUsage (.keyword .«from»)
          let table ← name scan Reader.selectUsage
          pure (.select projection table
            (← condition scan Reader.selectUsage)))
        (do
          Reader.expect Reader.selectUsage (.keyword .«from»)
          let table ← Reader.name Reader.selectUsage
          pure (Command.select projection table
            (← Reader.condition Reader.selectUsage))) := by
    refine (follows_expect hScan _ _).bind_eq fun _ => ?_
    refine (follows_name hScan _).bind_eq fun table => ?_
    exact
      (follows_condition hScan _).bind_eq fun condition =>
        follows_pure rfl
  refine (follows_accept hScan _).bind_eq fun star => ?_
  cases star with
  | true => exact hSource .all
  | false =>
      exact
        (follows_names hScan _).bind_eq fun columns =>
          hSource (.columns columns)

theorem follows_insert
    (hScan : scan.Holds ls) :
    Follows ls Eq (insert scan) Reader.insert := by
  refine (follows_expect hScan _ _).bind_eq fun _ => ?_
  refine (follows_name hScan _).bind_eq fun table => ?_
  refine (follows_expect hScan _ _).bind_eq fun _ => ?_
  refine (follows_names hScan _).bind_eq fun columns => ?_
  refine (follows_expect hScan _ _).bind_eq fun _ => ?_
  refine (follows_expect hScan _ _).bind_eq fun _ => ?_
  refine (follows_expect hScan _ _).bind_eq fun _ => ?_
  intro p hPlace
  refine
    agrees_enclosed_bind hScan
      (fun ranges close q hAt _ hFits => ?_)
      (fun values => follows_pure rfl) _
  have hInside := (List.getElem?_eq_some_iff.mp hAt).1
  exact
    mapM_slice_eq hScan
      (fun r hMember =>
        Nat.le_trans (hFits r hMember).within
          (Nat.le_of_lt hInside)) _ p

theorem follows_update
    (hScan : scan.Holds ls) :
    Follows ls Eq (update scan) Reader.update := by
  refine (follows_name hScan _).bind_eq fun table => ?_
  refine (follows_expect hScan _ _).bind_eq fun _ => ?_
  refine follows_assignments_bind hScan fun changes => ?_
  exact
    (follows_condition hScan _).bind_eq fun condition =>
      follows_pure rfl

theorem follows_delete
    (hScan : scan.Holds ls) :
    Follows ls Eq (delete scan) Reader.delete := by
  refine (follows_expect hScan _ _).bind_eq fun _ => ?_
  refine (follows_name hScan _).bind_eq fun table => ?_
  exact
    (follows_condition hScan _).bind_eq fun condition =>
      follows_pure rfl

theorem follows_createTable
    (hScan : scan.Holds ls) :
    Follows ls Eq (createTable scan) Reader.createTable := by
  refine (follows_name hScan _).bind_eq fun table => ?_
  refine (follows_expect hScan _ _).bind_eq fun _ => ?_
  intro p hPlace
  exact
    agrees_enclosed_bind hScan
      (fun _ _ _ hAt hClose hFits =>
        tablePieces_eq hScan hFits hAt hClose)
      (fun columns => follows_pure rfl) _

theorem follows_createDatabase
    (hScan : scan.Holds ls) :
    Follows ls Eq (createDatabase scan)
      Reader.createDatabase := by
  have hName
      (given : Bool) :
      Follows ls Eq
        (do
          pure (.createDatabase
            (← name scan Reader.createDatabaseUsage) given))
        (do
          pure (Command.createDatabase
            (← Reader.name Reader.createDatabaseUsage)
            given)) :=
    (follows_name hScan _).bind_eq fun _ => follows_pure rfl
  refine (follows_accept hScan _).bind_eq fun given => ?_
  cases given with
  | false => exact hName false
  | true =>
      refine (follows_expect hScan _ _).bind_eq fun _ => ?_
      exact
        (follows_expect hScan _ _).bind_eq fun _ => hName true

theorem map_fst_of_rel
    {t : Option Spanned}
    {l : Option Lexeme}
    (hRel : Option.Rel (Stands scan) t l) :
    t.map Prod.fst = l.map Lexeme.token := by
  cases hRel with
  | none => rfl
  | some hStands => exact congrArg some hStands.token_eq

/- A word that says what is meant, a table or a database, decides what comes next. -/
theorem follows_kind
    {onTable onDatabase other : Cursor α}
    {onTable' onDatabase' other' : Reader β}
    (hScan : scan.Holds ls)
    (hTable : Follows ls R onTable onTable')
    (hDatabase : Follows ls R onDatabase onDatabase')
    (hOther : Follows ls R other other') :
    Follows ls R
      (do
        match (← next? scan).map Prod.fst with
        | some (.keyword .table) => onTable
        | some (.keyword .database) => onDatabase
        | _ => other)
      (do
        match (← Reader.next?).map Lexeme.token with
        | some (.keyword .table) => onTable'
        | some (.keyword .database) => onDatabase'
        | _ => other') := by
  refine (follows_next? hScan).bind fun t l hRel => ?_
  rw [map_fst_of_rel hRel]
  generalize l.map Lexeme.token = w
  split
  · exact hTable
  · exact hDatabase
  · exact hOther

theorem follows_create
    (hScan : scan.Holds ls) :
    Follows ls Eq (create scan) Reader.create :=
  follows_kind hScan (follows_createTable hScan)
    (follows_createDatabase hScan) (follows_fail hScan _)

theorem follows_drop
    (hScan : scan.Holds ls) :
    Follows ls Eq (drop scan) Reader.drop :=
  follows_kind hScan
    ((follows_name hScan _).bind_eq fun _ => follows_pure rfl)
    ((follows_name hScan _).bind_eq fun _ => follows_pure rfl)
    (follows_fail hScan _)

/- The two readings agree on the word that names the change of a table. -/
theorem follows_change
    {add drop rename other : Cursor α}
    {add' drop' rename' other' : Reader β}
    (hScan : scan.Holds ls)
    (hAdd : Follows ls R add add')
    (hDrop : Follows ls R drop drop')
    (hRename : Follows ls R rename rename')
    (hOther : Follows ls R other other') :
    Follows ls R
      (do
        match (← next? scan).map Prod.fst with
        | some (.keyword .add) => add
        | some (.keyword .drop) => drop
        | some (.keyword .rename) => rename
        | _ => other)
      (do
        match (← Reader.next?).map Lexeme.token with
        | some (.keyword .add) => add'
        | some (.keyword .drop) => drop'
        | some (.keyword .rename) => rename'
        | _ => other') := by
  refine (follows_next? hScan).bind fun t l hRel => ?_
  rw [map_fst_of_rel hRel]
  generalize l.map Lexeme.token = w
  split
  · exact hAdd
  · exact hDrop
  · exact hRename
  · exact hOther

theorem follows_alterAction
    (hScan : scan.Holds ls) :
    Follows ls Eq (alterAction scan) Reader.alterAction := by
  have hName
      (f : String → AlterAction) :
      Follows ls Eq
        (do pure (f (← name scan Reader.alterUsage)))
        (do pure (f (← Reader.name Reader.alterUsage))) :=
    (follows_name hScan _).bind_eq fun _ => follows_pure rfl
  refine
    follows_change hScan
      ((follows_accept hScan _).bind_eq fun _ => ?_)
      ((follows_accept hScan _).bind_eq fun _ =>
        hName .dropColumn)
      ((follows_expect hScan _ _).bind_eq fun _ =>
        hName .renameTo)
      (follows_fail hScan _)
  exact
    (follows_addedColumn hScan).bind_eq fun _ =>
      follows_pure rfl

theorem follows_alter
    (hScan : scan.Holds ls) :
    Follows ls Eq (alter scan) Reader.alter := by
  refine (follows_expect hScan _ _).bind_eq fun _ => ?_
  refine (follows_name hScan _).bind_eq fun table => ?_
  exact
    (follows_alterAction hScan).bind_eq fun action =>
      follows_pure rfl

theorem follows_user
    (hScan : scan.Holds ls)
    (usage : String) :
    Follows ls Eq (user scan usage) (Reader.user usage) := by
  refine (follows_next? hScan).bind fun t l hRel => ?_
  cases hRel with
  | none => exact follows_fail hScan usage
  | @some t l hStands =>
      dsimp only
      rw [hStands.token_eq, hStands.name?_eq]
      cases l.token with
      | string q s => exact follows_pure rfl
      | keyword | comparison | mark | number | unknown =>
          cases l.name? with
          | none => exact follows_fail hScan usage
          | some s => exact follows_pure rfl
      | name | quotedName =>
          cases l.name? with
          | none => exact follows_fail hScan usage
          | some s => exact follows_pure rfl

theorem follows_scope
    (hScan : scan.Holds ls)
    (usage : String) :
    Follows ls Eq (scope scan usage) (Reader.scope usage) :=
  follows_kind hScan (follows_pure rfl) (follows_pure rfl)
    (follows_fail hScan _)

theorem follows_permission
    (hScan : scan.Holds ls)
    (action : PermissionAction) :
    Follows ls Eq (permission scan action)
      (Reader.permission action) := by
  refine follows_privilege_bind hScan _ fun privilege => ?_
  refine (follows_scope hScan _).bind_eq fun scope => ?_
  refine (follows_name hScan _).bind_eq fun object => ?_
  refine (follows_expect hScan _ _).bind_eq fun _ => ?_
  exact
    (follows_user hScan _).bind_eq fun user =>
      follows_pure rfl

/- The two readings agree on the word that names what is listed. -/
theorem follows_listed
    {databases tables other : Cursor α}
    {databases' tables' other' : Reader β}
    (hScan : scan.Holds ls)
    (hDatabases : Follows ls R databases databases')
    (hTables : Follows ls R tables tables')
    (hOther : Follows ls R other other') :
    Follows ls R
      (do
        match (← next? scan).map Prod.fst with
        | some (.keyword .databases) => databases
        | some (.keyword .tables) => tables
        | _ => other)
      (do
        match (← Reader.next?).map Lexeme.token with
        | some (.keyword .databases) => databases'
        | some (.keyword .tables) => tables'
        | _ => other') := by
  refine (follows_next? hScan).bind fun t l hRel => ?_
  rw [map_fst_of_rel hRel]
  generalize l.map Lexeme.token = w
  split
  · exact hDatabases
  · exact hTables
  · exact hOther

theorem follows_listing
    (hScan : scan.Holds ls) :
    Follows ls Eq (listing scan) Reader.listing :=
  follows_listed hScan (follows_pure rfl) (follows_pure rfl)
    (follows_fail hScan _)

theorem follows_control
    (hScan : scan.Holds ls)
    (c : Control) :
    Follows ls Eq (control scan c) (Reader.control c) :=
  (follows_accept hScan _).bind_eq fun _ => follows_pure rfl

theorem follows_shaped
    {c : Cursor Command}
    {r : Reader Command}
    (usage : String)
    (hCommand : Follows ls Eq c r) :
    Follows ls Eq (shaped usage c) (Reader.shaped usage r) :=
  hCommand.bind_eq fun _ => follows_pure rfl

------------------------------------------------------------
-- Statements
------------------------------------------------------------

/- What comes after each first word is read alike, and the first words are the same. -/
theorem follows_afterFirst?
    (hScan : scan.Holds ls)
    (t : Token) :
    Option.Rel (Follows ls Eq) (afterFirst? scan t)
      (Reader.afterFirst? t) := by
  have hName
      (usage : String)
      (f : String → Command) :
      Follows ls Eq
        (shaped usage do pure (f (← name scan usage)))
        (Reader.shaped usage do
          pure (f (← Reader.name usage))) :=
    follows_shaped usage
      ((follows_name hScan usage).bind_eq fun _ =>
        follows_pure rfl)
  cases t with
  | keyword k =>
      cases k with
      | select =>
          exact .some (follows_shaped _ (follows_select hScan))
      | insert =>
          exact .some (follows_shaped _ (follows_insert hScan))
      | update =>
          exact .some (follows_shaped _ (follows_update hScan))
      | delete =>
          exact .some (follows_shaped _ (follows_delete hScan))
      | create =>
          refine
            .some ((follows_create hScan).bind_eq fun c => ?_)
          cases c <;> exact follows_pure rfl
      | drop =>
          exact .some (follows_shaped _ (follows_drop hScan))
      | alter =>
          exact .some (follows_shaped _ (follows_alter hScan))
      | use => exact .some (hName _ .use)
      | grant =>
          exact
            .some (follows_shaped _
              (follows_permission hScan .grant))
      | revoke =>
          exact
            .some (follows_shaped _
              (follows_permission hScan .revoke))
      | «show» =>
          exact .some (follows_shaped _ (follows_listing hScan))
      | describe => exact .some (hName _ .describe)
      | begin => exact .some (follows_control hScan .begin)
      | commit => exact .some (follows_control hScan .commit)
      | rollback =>
          exact .some (follows_control hScan .rollback)
      | «from» | «where» | into | values | set => exact .none
      | table | database | on | «to» | «if» => exact .none
      | «exists» | primary | transaction | key => exact .none
      | tables | databases | add | column => exact .none
      | rename | and | or | not | «in» | like => exact .none
      | is | between => exact .none
  | comparison | mark | number | string => exact .none
  | name | quotedName | unknown => exact .none

theorem Agrees.run'_eq
    {c : Cursor α}
    {r : Reader α}
    (hAgrees : Agrees ls Eq (c.run p) (r.run rest)) :
    (c.run' p).run = .ok ((r.run rest).map Prod.fst) := by
  change (Prod.fst <$> c.run p).run = _
  generalize c.run p = x at hAgrees
  generalize r.run rest = y at hAgrees
  cases hAgrees with
  | failed e => rfl
  | moved _ hResult =>
      rw [hResult]
      rfl

theorem run_next?_bind
    {t : Spanned}
    {f : Option Spanned → Cursor γ}
    (hToken : scan.tokens[p]? = some t) :
    (next? scan >>= f).run p = (f (some t)).run (p + 1) := by
  rw [next?, bind_assoc, run_peek_bind, hToken]
  rfl

/- A statement is read from a scan as it is from the lexemes. -/
theorem run_statement
    {first : Lexeme}
    {rest : List Lexeme}
    (hScan : scan.Holds (first :: rest)) :
    ((statement scan).run' 0).run =
      .ok (Statement.ofLexemes scan.text first rest) := by
  rcases exists_token hScan (i := 0) rfl with
    ⟨t, hToken, hStands⟩
  have hRest := follows_afterFirst? hScan first.token
  change (Prod.fst <$> (statement scan).run 0).run = _
  rw [statement, run_next?_bind hToken]
  dsimp only
  rw [hStands.token_eq]
  unfold Statement.ofLexemes
  generalize afterFirst? scan first.token = c? at hRest
  generalize Reader.afterFirst? first.token = r? at hRest
  cases hRest with
  | none => rfl
  | @some c r hFollows =>
      have hWhole :=
        hFollows.bind_eq fun answer =>
          (follows_finish hScan answer.2).bind_eq fun _ =>
            follows_pure (Eq.refl answer.1)
      refine (hWhole 1 (by simp)).run'_eq.trans ?_
      rw [StateT.run_bind]
      change
        Except.ok (Except.map _ (r.run rest >>= _)) =
          Except.ok (r.run rest >>= _)
      cases r.run rest with
      | error e => rfl
      | ok answer =>
          rcases answer with ⟨⟨statement, usage⟩, left⟩
          cases left <;> rfl

/- No text makes the reading of a statement leave its data. -/
theorem parse_eq (text : String) :
    parse text = .ok (Statement.parse text) := by
  unfold parse Statement.parse
  dsimp only
  rcases exists_ofText (Statement.normalize text.toList) with
    ⟨scan, hScan, hText, hHolds⟩
  rw [hScan, Overrun.ok_bind]
  cases hLexemes :
    Lexer.lexemes (Statement.normalize text.toList) with
  | nil =>
      have hNone : scan.tokens[0]? = none := by
        rw [hLexemes] at hHolds
        rw [List.getElem?_eq_none_iff, length_tokens hHolds]
        exact Nat.le_refl 0
      split
      · rfl
      · change (Prod.fst <$> (statement scan).run 0).run = _
        rw [statement, next?, bind_assoc, run_peek_bind, hNone]
        rfl
  | cons first rest =>
      split
      · rename_i hEmpty
        rw [List.isEmpty_iff.mp hEmpty, Lexer.lexemes_nil]
          at hLexemes
        cases hLexemes
      · rw [hLexemes] at hHolds
        rw [← hText]
        exact run_statement hHolds

------------------------------------------------------------
-- Conditions
------------------------------------------------------------

/- A text that ends in the quote that it starts with has two of them, or has one byte. -/
theorem unquote_eq (s : List Char) :
    unquote s = .ok (Value.unquote s) := by
  rcases s with _ | ⟨q, s⟩
  · rfl
  unfold unquote Value.unquote
  by_cases hQuote : Value.isQuote q = true
  · have hSize : q.utf8Size = 1 := by
      rw [Value.isQuote, Bool.or_eq_true, beq_iff_eq,
        beq_iff_eq] at hQuote
      rcases hQuote with rfl | rfl <;> rfl
    rcases List.eq_nil_or_concat s with rfl | ⟨inner, c, rfl⟩
    · simp [hQuote, hSize, Lexeme.byteSize]
      rfl
    · have hLong :
          ¬Lexeme.byteSize (q :: (inner ++ [c])) < 2 := by
        have hPos := c.utf8Size_pos
        simp only [Lexeme.byteSize, Lexeme.byteSize_append]
        omega
      have hWhole :
          (q :: (inner ++ [c])).getLast? = some c :=
        @List.getLast?_concat _ (q :: inner) c
      rw [List.concat_eq_append]
      dsimp only
      rw [hWhole, List.getLast?_concat, List.dropLast_concat]
      by_cases hEnd : c = q
      · rw [hEnd] at hLong ⊢
        simp [hQuote, hLong, Overrun.textInside_eq hSize]
      · simp [hQuote, hLong, hEnd]
        rfl
  · simp [hQuote]
    rfl

theorem literal_eq (s : List Char) :
    literal s = .ok (Value.ofLiteral s) := by
  rw [literal, unquote_eq, Overrun.ok_bind]
  unfold Value.ofLiteral
  dsimp only
  cases Value.unquote (Text.trim s) <;> rfl

theorem any_breaksLiteral
    {ts : List Spanned}
    (hStands : List.Forall₂ (Stands scan) ts ls) :
    (ts.any fun t => Condition.breaksLiteral t.1) =
      ls.any fun l => Condition.breaksLiteral l.token := by
  induction hStands with
  | nil => rfl
  | cons hFirst _ ih =>
      rw [List.any_cons, List.any_cons, hFirst.token_eq, ih]

/- The tokens of a literal are the third and all that follow. -/
theorem literalOf_eq
    (hScan : scan.Holds ls)
    (op : Comparison) :
    literalOf scan op (scan.tokens.drop 2) =
      .of (Condition.literalOf scan.text op (ls.drop 2)) := by
  have hLength := length_tokens hScan
  by_cases hNone : ls.length ≤ 2
  · have hTokens : scan.tokens.drop 2 = [] :=
      List.drop_eq_nil_of_le (by omega)
    rw [hTokens, List.drop_eq_nil_of_le hNone]
    rfl
  have hFirst : (scan.tokens.drop 2).head? = scan.tokens[2]? :=
    List.head?_drop
  have hLast :
      (scan.tokens.drop 2).getLast? =
        scan.tokens[ls.length - 1]? := by
    rw [List.getLast?_drop, if_neg (by omega),
      List.getLast?_eq_getElem?, hLength]
  have hSome : ¬(ls.drop 2).isEmpty = true := by
    simp only [List.isEmpty_iff, List.drop_eq_nil_iff]
    omega
  have hTwo :=
    List.getElem?_eq_getElem (by omega : 2 < scan.tokens.length)
  have hEnd :=
    List.getElem?_eq_getElem
      (by omega : ls.length - 1 < scan.tokens.length)
  have hSlice :=
    hScan.slice?_eq 2 ls.length _ _ (by omega) hTwo hEnd
  unfold literalOf Condition.literalOf
  rw [hFirst, hLast, hTwo, hEnd, if_neg hSome,
    any_breaksLiteral (List.forall₂_drop 2 hScan.stands)]
  dsimp only
  split
  · rfl
  · rw [Overrun.textBetween, hSlice, stretch_length]
    dsimp only
    rw [lift_ok_bind, literal_eq]
    rfl

theorem conditionOf_eq
    (hScan : scan.Holds ls) :
    conditionOf scan =
      .of (Condition.ofLexemes scan.text ls) := by
  have hName :
      scan.tokens.head?.bind scan.name? =
        ls.head?.bind Lexeme.name? := by
    have hStands := hScan.stands
    generalize scan.tokens = ts at hStands
    cases hStands with
    | nil => rfl
    | cons hFirst _ => exact hFirst.name?_eq
  have hComparison :
      (scan.tokens[1]?.bind fun t =>
          Condition.comparison? t.1) =
        (ls[1]?).bind fun l =>
          Condition.comparison? l.token := by
    cases hAt : ls[1]? with
    | none =>
        have hNone : scan.tokens[1]? = none := by
          rw [List.getElem?_eq_none_iff] at hAt ⊢
          rwa [length_tokens hScan]
        rw [hNone]
        rfl
    | some l =>
        rcases exists_token hScan hAt with
          ⟨t, hToken, hStands⟩
        rw [hToken, Option.bind_some, Option.bind_some,
          hStands.token_eq]
  unfold conditionOf Condition.ofLexemes
  rw [hName, hComparison]
  cases ls.head?.bind Lexeme.name? with
  | none => rfl
  | some column =>
      dsimp only
      cases hOp :
        (ls[1]?).bind fun l =>
          Condition.comparison? l.token with
      | none => rfl
      | some op =>
          rw [Option.bind_eq_some_iff] at hOp
          rcases hOp with ⟨l, hAt, _⟩
          have hMany := (List.getElem?_eq_some_iff.mp hAt).1
          have hRange :
              Overrun.tokensBetween 2 scan.tokens.length
                  scan.tokens =
                .ok (scan.tokens.drop 2) := by
            rw [Overrun.tokensBetween_eq_ok_iff,
              List.take_length, length_tokens hScan]
            exact ⟨hMany, Nat.le_refl _, rfl⟩
          dsimp only
          rw [hRange, lift_ok_bind, literalOf_eq hScan]
          cases Condition.literalOf scan.text op
            (ls.drop 2) <;> rfl

/- No text makes the reading of a condition leave its data. -/
theorem parseCondition_eq (text : String) :
    parseCondition text = .ok (Condition.parse text) := by
  unfold parseCondition Condition.parse
  dsimp only
  rcases exists_ofText (Text.trim text.toList) with
    ⟨scan, hScan, hText, hHolds⟩
  rw [hScan, Overrun.ok_bind, conditionOf_eq hHolds, hText]
  rfl

/-
  No text makes the parser of statements or that of conditions
  use an index outside of the tokens or a range outside of the
  text, in the wrong order or inside of a character.  Each
  gives the answer that is read from the lexemes: a statement
  or a condition, or an error.
-/
theorem parsing_never_overruns (text : String) :
    parse text = .ok (Statement.parse text) ∧
      parseCondition text = .ok (Condition.parse text) :=
  ⟨parse_eq text, parseCondition_eq text⟩

end Cursor

end Rowstore
