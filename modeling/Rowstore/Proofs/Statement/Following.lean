import Rowstore.Proofs.Statement.Ranges
import Rowstore.Proofs.Statement.Reading

/-
  Cursors that follow readers.

  A cursor follows a reader if at every token it gives the
  answer that the reader gives on the lexemes from there, and
  stops where the reader stops.  So it never overruns, because
  a reader cannot.  Cursors that are put in sequence follow
  their readers in sequence.

  Main declarations:
    * `Cursor.Agrees` and `Cursor.Follows`
    * `Cursor.Follows.bind`
    * `Cursor.follows_accept` and `Cursor.follows_names`
    * `Cursor.agrees_enclosed_bind`
    * `Cursor.follows_assignments_bind`
-/

------------------------------------------------------------
-- Cursors And Readers
------------------------------------------------------------

namespace Rowstore

namespace Cursor

open Scan Lexeme Checked

variable {α β γ δ : Type} {ls : List Lexeme}

/-
  A cursor and a reader agree if they fail with the same error,
  or have results in a relation and leave the same lexemes.
-/
inductive Agrees
    (ls : List Lexeme)
    (R : α → β → Prop) :
    Checked (α × Nat) →
      Except Error (β × List Lexeme) → Prop where
| failed
    (e : Error) :
    Agrees ls R (throw e) (.error e)
| moved
    {a : α}
    {b : β}
    {q : Nat}
    (hWithin : q ≤ ls.length)
    (hResult : R a b) :
    Agrees ls R (pure (a, q)) (.ok (b, ls.drop q))

/- A cursor follows a reader if they agree at every token and at the end. -/
def Follows
    (ls : List Lexeme)
    (R : α → β → Prop)
    (c : Cursor α)
    (r : Reader β) : Prop :=
  ∀ p ≤ ls.length,
    Agrees ls R (c.run p) (r.run (ls.drop p))

variable {R : α → β → Prop} {S : γ → δ → Prop}
variable {c : Cursor α} {r : Reader β}
variable {f : α → Cursor γ} {g : β → Reader δ}
variable {p : Nat} {rest : List Lexeme}

theorem Agrees.of_error
    {x : Checked (α × Nat)}
    {y : Except Error (β × List Lexeme)}
    {e : Error}
    (hCursor : x = throw e)
    (hReader : y = .error e) :
    Agrees ls R x y := by
  rw [hCursor, hReader]
  exact .failed e

theorem Agrees.of_ok
    {x : Checked (α × Nat)}
    {y : Except Error (β × List Lexeme)}
    {a : α}
    {b : β}
    {q : Nat}
    (hCursor : x = pure (a, q))
    (hReader : y = .ok (b, ls.drop q))
    (hWithin : q ≤ ls.length)
    (hResult : R a b) :
    Agrees ls R x y := by
  rw [hCursor, hReader]
  exact .moved hWithin hResult

theorem Agrees.bind
    (hFirst : Agrees ls R (c.run p) (r.run rest))
    (hNext :
      ∀ a b q,
        R a b → q ≤ ls.length →
        r.run rest = .ok (b, ls.drop q) →
        Agrees ls S ((f a).run q) ((g b).run (ls.drop q))) :
    Agrees ls S ((c >>= f).run p) ((r >>= g).run rest) := by
  rw [StateT.run_bind, StateT.run_bind]
  generalize c.run p = x at hFirst
  generalize r.run rest = y at hFirst hNext
  cases hFirst with
  | failed e => exact .failed e
  | moved hWithin hResult =>
      exact hNext _ _ _ hResult hWithin rfl

/- Parts that follow each other's readers do so in sequence. -/
theorem Follows.bind
    (hFirst : Follows ls R c r)
    (hNext : ∀ a b, R a b → Follows ls S (f a) (g b)) :
    Follows ls S (c >>= f) (r >>= g) :=
  fun p hPlace =>
    (hFirst p hPlace).bind fun a b q hResult hWithin _ =>
      hNext a b hResult q hWithin

/- In a sequence, equal results can be named alike. -/
theorem Follows.bind_eq
    {c : Cursor α}
    {r : Reader α}
    {g : α → Reader δ}
    (hFirst : Follows ls Eq c r)
    (hNext : ∀ a, Follows ls S (f a) (g a)) :
    Follows ls S (c >>= f) (r >>= g) := by
  refine hFirst.bind fun a b hSame => ?_
  rw [hSame]
  exact hNext b

theorem follows_pure
    {a : α}
    {b : β}
    (hResult : R a b) :
    Follows ls R (pure a) (pure b) :=
  fun _ hPlace => .moved hPlace hResult

------------------------------------------------------------
-- Single Tokens
------------------------------------------------------------

variable {scan : Scan}

/- The cursor stands at the end, or at the token of a lexeme. -/
theorem here_cases
    (hScan : scan.Holds ls)
    (hPlace : p ≤ ls.length) :
    (scan.tokens[p]? = none ∧ ls.drop p = []) ∨
      ∃ t l,
        scan.tokens[p]? = some t ∧ scan.Stands t l ∧
          ls.drop p = l :: ls.drop (p + 1) ∧
          p + 1 ≤ ls.length := by
  rcases Nat.lt_or_eq_of_le hPlace with hSome | hEnd
  · have hAt := List.getElem?_eq_getElem hSome
    rcases exists_token hScan hAt with ⟨t, hToken, hStands⟩
    exact
      .inr
        ⟨t, _, hToken, hStands, List.drop_eq_getElem_cons hSome,
          hSome⟩
  · refine .inl ⟨?_, List.drop_eq_nil_of_le hEnd.ge⟩
    rw [List.getElem?_eq_none_iff, length_tokens hScan]
    exact hEnd.ge

theorem run_peek_bind
    (f : Option Spanned → Cursor α)
    (p : Nat) :
    (peek scan >>= f).run p = (f scan.tokens[p]?).run p := rfl

/-
  To look at the next token is to be at the end, or to see the
  token of the lexeme that comes next.
-/
theorem follows_peek_bind
    {f : Option Spanned → Cursor α}
    (hScan : scan.Holds ls)
    (hEnd :
      ∀ p ≤ ls.length,
        ls.drop p = [] →
        Agrees ls R ((f none).run p) (r.run (ls.drop p)))
    (hToken :
      ∀ p t l,
        p + 1 ≤ ls.length →
        scan.Stands t l →
        ls.drop p = l :: ls.drop (p + 1) →
        Agrees ls R ((f (some t)).run p)
          (r.run (ls.drop p))) :
    Follows ls R (peek scan >>= f) r := by
  intro p hPlace
  rw [run_peek_bind]
  rcases here_cases hScan hPlace with
    ⟨hNone, hDrop⟩ | ⟨t, l, hSome, hStands, hDrop, hNext⟩
  · rw [hNone]
    exact hEnd p hPlace hDrop
  · rw [hSome]
    exact hToken p t l hNext hStands hDrop

theorem run_fail
    (hScan : scan.Holds ls)
    (usage : String)
    (p : Nat) :
    (fail scan usage : Cursor α).run p =
      throw (Reader.unexpected usage (ls.drop p)) := by
  change ((scan.fail usage p : Checked α) >>= fun a =>
    pure (a, p)) = _
  rw [fail_eq hScan]
  rfl

theorem follows_fail
    (hScan : scan.Holds ls)
    (usage : String) :
    Follows ls R (fail scan usage) (Reader.fail usage) :=
  fun p _ => .of_error (run_fail hScan usage p) rfl

theorem follows_next?
    (hScan : scan.Holds ls) :
    Follows ls (Option.Rel (Stands scan)) (next? scan)
      Reader.next? := by
  refine follows_peek_bind hScan ?_ ?_
  · intro p hPlace hDrop
    refine .of_ok rfl ?_ hPlace .none
    rw [hDrop]
    rfl
  · intro p t l hNext hStands hDrop
    refine .of_ok rfl ?_ hNext (.some hStands)
    rw [hDrop]
    rfl

theorem follows_accept
    (hScan : scan.Holds ls)
    (t : Token) :
    Follows ls Eq (accept scan t) (Reader.accept t) := by
  refine follows_peek_bind hScan ?_ ?_
  · intro p hPlace hDrop
    refine .of_ok rfl ?_ hPlace rfl
    rw [hDrop]
    rfl
  · intro p u l hNext hStands hDrop
    dsimp only
    rw [hStands.token_eq]
    by_cases hSame : l.token = t
    · rw [if_pos hSame]
      refine .of_ok rfl ?_ hNext rfl
      rw [hDrop]
      exact if_pos hSame
    · rw [if_neg hSame]
      refine .of_ok rfl ?_ (Nat.le_of_succ_le hNext) rfl
      rw [hDrop]
      exact if_neg hSame

theorem follows_expect
    (hScan : scan.Holds ls)
    (usage : String)
    (t : Token) :
    Follows ls Eq (expect scan usage t)
      (Reader.expect usage t) := by
  refine (follows_accept hScan t).bind_eq fun taken => ?_
  cases taken with
  | false => exact follows_fail hScan usage
  | true => exact follows_pure rfl

theorem follows_name
    (hScan : scan.Holds ls)
    (usage : String) :
    Follows ls Eq (name scan usage) (Reader.name usage) := by
  refine follows_peek_bind hScan ?_ ?_
  · intro p _ hDrop
    refine .of_error (run_fail hScan usage p) ?_
    rw [hDrop]
    rfl
  · intro p t l hNext hStands hDrop
    rw [Option.bind_some, hStands.name?_eq]
    cases hName : l.name? with
    | none =>
        refine .of_error (run_fail hScan usage p) ?_
        rw [hDrop]
        simp only [StateT.run, Reader.name, hName]
    | some s =>
        refine .of_ok rfl ?_ hNext rfl
        rw [hDrop]
        simp only [StateT.run, Reader.name, hName]

theorem follows_finish
    (hScan : scan.Holds ls)
    (usage : String) :
    Follows ls Eq (finish scan usage)
      (Reader.finish usage) := by
  refine follows_peek_bind hScan ?_ ?_
  · intro p hPlace hDrop
    refine .of_ok rfl ?_ hPlace rfl
    rw [hDrop]
    rfl
  · intro p t l _ _ hDrop
    refine .of_error (run_fail hScan usage p) ?_
    rw [hDrop]
    rfl

------------------------------------------------------------
-- Names
------------------------------------------------------------

/- Further names are a comma, a name and further names, or none. -/
theorem run_moreNames
    (usage : String)
    (rest : List Lexeme) :
    (Reader.moreNames usage).run rest =
      (do
        if ← Reader.accept (.mark .comma) then
          let first ← Reader.name usage
          let others ← Reader.moreNames usage
          pure (first :: others)
        else pure [] : Reader (List String)).run rest := by
  rcases rest with _ | ⟨c, rest⟩
  · rfl
  by_cases hComma : c.token = .mark .comma
  · have hMark : c.isMark .comma = true :=
      beq_iff_eq.mpr hComma
    have hTaken :
        (Reader.accept (.mark .comma)).run (c :: rest) =
          .ok (true, rest) :=
      if_pos hComma
    rw [Reader.run_bind_of_ok hTaken]
    change _ =
      (Reader.name usage >>= fun first =>
        Reader.moreNames usage >>= fun others =>
          pure (first :: others)).run rest
    rw [StateT.run_bind]
    cases rest with
    | nil => exact if_pos hMark
    | cons l rest =>
        change Reader.moreNames usage (c :: l :: rest) =
          Reader.name usage (l :: rest) >>= _
        rw [Reader.moreNames, if_pos hMark, Reader.name]
        cases l.name? with
        | none => rfl
        | some s =>
            change _ =
              Reader.moreNames usage rest >>= fun q =>
                .ok (s :: q.1, q.2)
            cases Reader.moreNames usage rest <;> rfl
  · have hMark : ¬c.isMark .comma = true := fun h =>
      hComma (beq_iff_eq.mp h)
    have hLeft :
        (Reader.accept (.mark .comma)).run (c :: rest) =
          .ok (false, c :: rest) :=
      if_neg hComma
    rw [Reader.run_bind_of_ok hLeft]
    cases rest <;> exact if_neg hMark

/- Each further name takes two tokens, so there are fewer of them than tokens. -/
theorem agrees_moreNames
    (hScan : scan.Holds ls)
    (usage : String)
    (n : Nat)
    (hPlace : p ≤ ls.length)
    (hLeft : ls.length - p ≤ n) :
    Agrees ls Eq ((moreNames scan usage n).run p)
      ((Reader.moreNames usage).run (ls.drop p)) := by
  induction n generalizing p with
  | zero =>
      have hEnd := List.drop_eq_nil_of_le
        (Nat.le_of_sub_eq_zero (Nat.le_zero.mp hLeft))
      refine .of_ok rfl ?_ hPlace rfl
      rw [hEnd]
      rfl
  | succ n ih =>
      rw [moreNames, run_moreNames]
      refine (follows_accept hScan _ p hPlace).bind ?_
      rintro taken _ q rfl hWithin hAccept
      cases taken with
      | false => exact .moved hWithin rfl
      | true =>
          refine (follows_name hScan usage q hWithin).bind ?_
          rintro s _ q' rfl hWithin' hName
          -- The comma and the name leave two tokens less.
          have hFewer : ls.length - q' ≤ n := by
            rw [Reader.accept_eq_ok_iff] at hAccept
            rw [Reader.name_eq_ok_iff] at hName
            rcases hAccept with ⟨word, hWord, _, _⟩
            rcases hName with ⟨l, hLexeme, _⟩
            have hFirst := congrArg List.length hWord
            have hSecond := congrArg List.length hLexeme
            simp only [List.length_append, List.length_drop,
              List.length_cons] at hFirst hSecond
            omega
          refine (ih hWithin' hFewer).bind ?_
          rintro others _ q'' rfl hWithin'' _
          exact .moved hWithin'' rfl

theorem follows_names
    (hScan : scan.Holds ls)
    (usage : String) :
    Follows ls Eq (names scan usage)
      (Reader.names usage) := by
  refine (follows_name hScan usage).bind_eq fun first => ?_
  have hOthers :
      Follows ls Eq (moreNames scan usage scan.tokens.length)
        (Reader.moreNames usage) := by
    intro p hPlace
    refine agrees_moreNames hScan usage _ hPlace ?_
    rw [length_tokens hScan]
    exact Nat.sub_le _ _
  exact hOthers.bind_eq fun others => follows_pure rfl

------------------------------------------------------------
-- Ranges Of Tokens
------------------------------------------------------------

theorem run_get_bind
    (f : Nat → Cursor α)
    (p : Nat) :
    ((get : Cursor Nat) >>= f).run p = (f p).run p := rfl

theorem run_access_bind
    (a : α)
    (f : α → Cursor γ)
    (p : Nat) :
    ((liftM (.ok a : Except Overrun α) : Cursor α) >>= f).run p =
      (f a).run p := rfl

theorem run_enclosed_bind
    (usage : String)
    (g : List Lexeme → Reader δ)
    (rest : List Lexeme) :
    (Reader.enclosed usage >>= g).run rest =
      match splitAtClose 0 rest with
      | some parts => (g parts.1).run parts.2
      | none => .error (Reader.unexpected usage rest) := by
  rw [StateT.run_bind, StateT.run, Reader.enclosed]
  cases splitAtClose 0 rest <;> rfl

/-
  What is read from the ranges inside of parentheses is what
  is read from the pieces between their commas.
-/
theorem agrees_enclosed_bind
    {read : Nat → List (Nat × Nat) → Checked α}
    {answer : List (List Lexeme) → Except Error α}
    {f : α → Cursor γ}
    {g : α → Reader δ}
    (hScan : scan.Holds ls)
    (hRead :
      ∀ ranges close q,
        ls[close]? = some q →
        q.token = .mark .closeParen →
        (∀ r ∈ ranges, Fits ls close r) →
        read p ranges =
          .of (answer (ranges.map fun r =>
            stretch r.1 r.2 ls)))
    (hNext : ∀ a, Follows ls S (f a) (g a))
    (usage : String) :
    Agrees ls S ((enclosed scan usage read >>= f).run p)
      ((Reader.enclosed usage >>= fun inner =>
        (liftM (answer (splitCommas 0 inner)) : Reader α) >>=
          g).run (ls.drop p)) := by
  rw [enclosed, bind_assoc, run_get_bind,
    matchingParen_eq hScan, run_enclosed_bind]
  cases hSplit : splitAtClose 0 (ls.drop p) with
  | none =>
      refine .of_error ?_ rfl
      rw [Option.map_none]
      dsimp only
      rw [StateT.run_bind, run_fail hScan]
      rfl
  | some parts =>
      rcases parts with ⟨inner, after⟩
      rcases splitAtClose_eq_some_iff.mp hSplit with
        ⟨c, hDrop, _, hClose⟩
      rcases stretch_of_drop hDrop with ⟨hInner, hEnd⟩
      have hAt : ls[p + inner.length]? = some c := by
        rw [← List.head?_drop, hEnd]
        rfl
      have hInside := (List.getElem?_eq_some_iff.mp hAt).1
      have hAfter :
          after = ls.drop (p + inner.length + 1) := by
        rw [← List.drop_drop, hEnd]
        rfl
      rcases
        splitTopLevel_eq hScan (Nat.le_add_right p _)
          (Nat.le_of_lt hInside) with
        ⟨ranges, hRanges, hFits, hPieces⟩
      rw [Option.map_some]
      dsimp only
      rw [bind_assoc, hRanges, run_access_bind, bind_assoc,
        hRead ranges _ c hAt hClose hFits, hPieces, hInner,
        hAfter]
      cases answer (splitCommas 0 inner) with
      | error e => exact .of_error rfl rfl
      | ok a => exact hNext a _ hInside

/-
  What is read from the ranges in front of a condition is what
  is read from the pieces between their commas.
-/
theorem follows_assignments_bind
    {f : List Assignment → Cursor γ}
    {g : List Assignment → Reader δ}
    (hScan : scan.Holds ls)
    (hNext : ∀ changes, Follows ls S (f changes) (g changes)) :
    Follows ls S (assignments scan >>= f)
      (do
        let here ← get
        let (before, after) :=
          (splitAtTop .«where» 0 here).getD (here, [])
        let changes ←
          (Reader.assignments here (splitCommas 0 before) :
            Except Error (List Assignment))
        set after
        g changes) := by
  intro p hPlace
  change
    Agrees ls S _
      ((let (before, after) :=
          (splitAtTop .«where» 0 (ls.drop p)).getD
            (ls.drop p, [])
        (do
          let changes ←
            (Reader.assignments (ls.drop p)
              (splitCommas 0 before) :
              Except Error (List Assignment))
          set after
          g changes : Reader δ)).run (ls.drop p))
  cases hParts :
    (splitAtTop .«where» 0 (ls.drop p)).getD
      (ls.drop p, []) with
  | mk before after =>
      rcases getD_splitAtTop_eq_iff.mp hParts with
        ⟨hDrop, _, _⟩
      rcases stretch_of_drop hDrop with ⟨hBefore, hAfter⟩
      have hFinish :
          (scan.findTopLevel .«where» p).getD
              scan.tokens.length =
            p + before.length := by
        rw [findTopLevel_eq hScan, length_tokens hScan]
        cases hSplit : splitAtTop .«where» 0 (ls.drop p) with
        | none =>
            rw [hSplit] at hParts
            cases hParts
            rw [Option.map_none, Option.getD_none,
              List.length_drop]
            omega
        | some parts =>
            rw [hSplit] at hParts
            cases hParts
            rfl
      have hWithin : p + before.length ≤ ls.length := by
        have hLength := congrArg List.length hDrop
        rw [List.length_drop, List.length_append] at hLength
        omega
      rcases
        splitTopLevel_eq hScan (Nat.le_add_right p _) hWithin
        with ⟨ranges, hRanges, hFits, hPieces⟩
      have hInside : ∀ r ∈ ranges, r.2 ≤ ls.length :=
        fun r hMember =>
          Nat.le_trans (hFits r hMember).within hWithin
      rw [assignments, bind_assoc, run_get_bind]
      dsimp only
      rw [hFinish, bind_assoc, hRanges, run_access_bind,
        mapM_assignment_eq hScan hInside, hPieces, hBefore,
        ← hAfter]
      cases hAnswer :
        Reader.assignments (ls.drop p)
          (splitCommas 0 before) with
      | error e => exact .of_error rfl rfl
      | ok changes => exact hNext changes _ hWithin

theorem follows_condition
    (hScan : scan.Holds ls)
    (usage : String) :
    Follows ls Eq (condition scan usage)
      (Reader.condition usage) := by
  refine (follows_accept hScan _).bind_eq fun taken => ?_
  cases taken with
  | false => exact follows_pure rfl
  | true =>
      intro p hPlace
      rw [if_pos rfl, run_get_bind, length_tokens hScan,
        slice_eq hScan (Nat.le_refl _), stretch_length]
      cases hDrop : ls.drop p with
      | nil => exact .of_error rfl rfl
      | cons l rest =>
          refine .of_ok rfl ?_ (Nat.le_refl _) rfl
          rw [List.drop_length]
          rfl

theorem run_addedColumn
    {l : Lexeme} :
    Reader.addedColumn.run (l :: rest) =
      (Reader.columnDefinition (l :: rest)).map
        fun column => (column, []) := by
  unfold Reader.addedColumn
  change Except.bind (Except.bind _ _) _ = _
  cases Reader.columnDefinition (l :: rest) <;> rfl

theorem follows_addedColumn
    (hScan : scan.Holds ls) :
    Follows ls Eq (addedColumn scan) Reader.addedColumn := by
  intro p hPlace
  rw [addedColumn, run_get_bind, length_tokens hScan,
    columnDefinition_eq hScan (Nat.le_refl _), stretch_length]
  rcases here_cases hScan hPlace with
    ⟨_, hDrop⟩ | ⟨_, l, _, _, hDrop, hNext⟩
  · have hEnd := List.drop_eq_nil_iff.mp hDrop
    rw [if_pos hEnd]
    refine .of_error (run_fail hScan _ p) ?_
    rw [hDrop]
    rfl
  · rw [if_neg (by omega), hDrop, run_addedColumn]
    cases Reader.columnDefinition (l :: ls.drop (p + 1)) with
    | error e => exact .of_error rfl rfl
    | ok column =>
        refine .of_ok rfl ?_ (Nat.le_refl _) rfl
        rw [List.drop_length]
        rfl

/- The privilege is the text before a word, which is taken with it. -/
theorem follows_privilege_bind
    {f : String → Cursor γ}
    {g : String → Reader δ}
    (hScan : scan.Holds ls)
    (usage : String)
    (hNext : ∀ text, Follows ls S (f text) (g text)) :
    Follows ls S (privilege scan usage >>= f)
      (do
        match splitAtTop .on 0 (← get) with
        | none => Reader.fail usage
        | some (before, after) =>
          let text ← Reader.nonempty usage before
          set (after.drop 1)
          g text) := by
  intro p hPlace
  change
    Agrees ls S _
      ((match splitAtTop .on 0 (ls.drop p) with
      | none => Reader.fail usage
      | some (before, after) => do
        let text ← Reader.nonempty usage before
        set (after.drop 1)
        g text : Reader δ).run (ls.drop p))
  rw [privilege, bind_assoc, run_get_bind,
    findTopLevel_eq hScan]
  cases hSplit : splitAtTop .on 0 (ls.drop p) with
  | none =>
      refine .of_error ?_ rfl
      rw [Option.map_none]
      dsimp only
      rw [StateT.run_bind, run_fail hScan]
      rfl
  | some parts =>
      rcases parts with ⟨before, after⟩
      rcases splitAtTop_eq_some_iff.mp hSplit with
        ⟨hDrop, _, _, w, hWord, _⟩
      rcases stretch_of_drop hDrop with ⟨hBefore, hAfter⟩
      have hAt : ls[p + before.length]? = some w := by
        rw [← List.head?_drop, hAfter]
        exact hWord
      have hInside := (List.getElem?_eq_some_iff.mp hAt).1
      rw [Option.map_some]
      dsimp only
      rw [bind_assoc, slice_eq hScan (Nat.le_of_lt hInside),
        hBefore, ← hAfter, List.drop_drop]
      cases before with
      | nil => exact .of_error rfl rfl
      | cons l before => exact hNext _ _ hInside

end Cursor

end Rowstore
