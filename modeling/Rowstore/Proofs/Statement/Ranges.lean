import Rowstore.Proofs.Statement.Bounds
import Rowstore.Proofs.Statement.Columns

/-
  Pieces of statements, read over ranges of tokens.

  An assignment, a key clause and a column definition each
  look at tokens by indices that they compute from the ends of
  their range, and test the range before each of them.  So over
  every range inside the tokens they read what is read from
  the lexemes there.  A piece of a table may be empty: then the
  token at its start is the comma or the parenthesis behind it.

  Main declarations:
    * `Scan.mapM_slice_eq` and `Scan.mapM_assignment_eq`
    * `Scan.keyClause_eq`
    * `Scan.columnDefinition_eq`
    * `Scan.tablePieces_eq`
-/

------------------------------------------------------------
-- Assignments
------------------------------------------------------------

namespace Rowstore

namespace Scan

open Lexeme Overrun Checked

variable {scan : Scan} {ls : List Lexeme} {l : Lexeme}
variable {i start finish : Nat} {ts : List Spanned} {n : Nat}

/- The texts of pieces are those of the ranges. -/
theorem mapM_slice_eq
    {ranges : List (Nat × Nat)}
    (hScan : scan.Holds ls)
    (hFits : ∀ r ∈ ranges, r.2 ≤ ls.length)
    (usage : String)
    (here : Nat) :
    ranges.mapM (fun r => scan.slice usage here r.1 r.2) =
      .of
        (Reader.pieceTexts usage (ls.drop here)
          (ranges.map fun r => stretch r.1 r.2 ls)) := by
  induction ranges with
  | nil => rfl
  | cons r ranges ih =>
      rw [List.forall_mem_cons] at hFits
      rw [List.mapM_cons, slice_eq hScan hFits.1,
        ih hFits.2, List.map_cons, Reader.pieceTexts]
      split
      · rfl
      · cases Reader.pieceTexts usage (ls.drop here)
          (ranges.map fun r => stretch r.1 r.2 ls) <;> rfl

theorem assignment_eq
    (hScan : scan.Holds ls)
    (hWithin : finish ≤ ls.length)
    (here : Nat) :
    scan.assignment here start finish =
      .of
        (match Reader.assignment? (stretch start finish ls) with
        | some a => .ok a
        | none =>
          .error (Reader.unexpected Reader.updateUsage
            (ls.drop here))) := by
  unfold assignment
  simp only [fail_eq hScan]
  by_cases hNone : finish ≤ start
  · rw [if_pos hNone, stretch_eq_nil hNone]
    rfl
  rcases exists_tokenAt hScan (by omega : start < ls.length)
    with ⟨c, t, hFirst, hToken, hStands⟩
  rw [if_neg hNone, hToken, lift_ok_bind, hStands.name?_eq,
    stretch_eq_cons (by omega) hFirst]
  cases hName : c.name? with
  | none =>
      have hNoAssignment
          (rest : List Lexeme) :
          Reader.assignment? (c :: rest) = none := by
        rcases rest with _ | ⟨e, _ | ⟨v, vs⟩⟩
        · rfl
        · rfl
        · rw [Reader.assignment?, hName]
      rw [hNoAssignment]
      rfl
  | some column =>
      dsimp only
      by_cases hShort : finish < start + 2
      · rw [if_pos hShort,
          stretch_eq_nil (by omega : finish ≤ start + 1)]
        rfl
      rcases
        exists_tokenAt hScan (by omega : start + 1 < ls.length)
        with ⟨e, u, hSecond, hToken, hStands⟩
      rw [if_neg hShort, hToken, lift_ok_bind,
        hStands.token_eq, slice_eq hScan hWithin,
        stretch_eq_cons (by omega) hSecond]
      cases stretch (start + 1 + 1) finish ls with
      | nil => split <;> rfl
      | cons v vs =>
          rw [Reader.assignment?, hName]
          dsimp only
          split <;> rfl

theorem mapM_assignment_eq
    {ranges : List (Nat × Nat)}
    (hScan : scan.Holds ls)
    (hFits : ∀ r ∈ ranges, r.2 ≤ ls.length)
    (here : Nat) :
    ranges.mapM (fun r => scan.assignment here r.1 r.2) =
      .of
        (Reader.assignments (ls.drop here)
          (ranges.map fun r => stretch r.1 r.2 ls)) := by
  induction ranges with
  | nil => rfl
  | cons r ranges ih =>
      rw [List.forall_mem_cons] at hFits
      rw [List.mapM_cons, assignment_eq hScan hFits.1,
        ih hFits.2, List.map_cons, Reader.assignments]
      cases Reader.assignment? (stretch r.1 r.2 ls) with
      | none => rfl
      | some a =>
          cases Reader.assignments (ls.drop here)
            (ranges.map fun r => stretch r.1 r.2 ls) <;> rfl

------------------------------------------------------------
-- Key Clauses
------------------------------------------------------------

/- A name at an even place and a comma at the odd one after it are read together. -/
theorem alternatingNames?_eq
    (hStands : List.Forall₂ (Stands scan) ts ls)
    (hEven : i % 2 = 0) :
    scan.alternatingNames? i ts =
      Reader.alternatingNames? ls := by
  have hName : ¬i % 2 = 1 := by omega
  have hComma : (i + 1) % 2 = 1 := by omega
  have hNext : (i + 1 + 1) % 2 = 0 := by omega
  fun_induction Reader.alternatingNames? ls
    generalizing i ts with
  | case1 =>
      cases hStands
      rfl
  | case2 n =>
      rcases hStands with _ | ⟨hFirst, _ | _⟩
      rw [alternatingNames?, if_neg hName, hFirst.name?_eq]
      cases n.name? <;> rfl
  | case3 n c ls hNone =>
      rcases hStands with _ | ⟨hFirst, hRest⟩
      rw [alternatingNames?, if_neg hName, hFirst.name?_eq,
        hNone]
  | case4 n c ls name hSome hMark ih =>
      rcases hStands with _ | ⟨hFirst, _ | ⟨hSecond, hRest⟩⟩
      have hToken :=
        hSecond.token_eq.trans (beq_iff_eq.mp hMark)
      rw [alternatingNames?, if_neg hName, hFirst.name?_eq,
        hSome]
      dsimp only
      rw [alternatingNames?, if_pos hComma, if_pos hToken,
        ih hRest hNext (by omega) (by omega) (by omega)]
  | case5 n c ls name hSome hMark =>
      rcases hStands with _ | ⟨hFirst, _ | ⟨hSecond, hRest⟩⟩
      have hToken : ¬_ = Token.mark .comma := fun hComma =>
        hMark
          (beq_iff_eq.mpr (hSecond.token_eq.symm.trans hComma))
      rw [alternatingNames?, if_neg hName, hFirst.name?_eq,
        hSome]
      dsimp only
      rw [alternatingNames?, if_pos hComma, if_neg hToken]
      rfl

theorem exists_concat
    {q : Lexeme}
    (hStands : List.Forall₂ (Stands scan) ts (ls ++ [q])) :
    ∃ front z,
      ts = front ++ [z] ∧
        List.Forall₂ (Stands scan) front ls ∧
          scan.Stands z q := by
  have hFront := List.forall₂_take_append ts ls [q] hStands
  have hBack := List.forall₂_drop_append ts ls [q] hStands
  have hSplit := List.take_append_drop ls.length ts
  generalize ts.take ls.length = front at hFront hSplit
  generalize ts.drop ls.length = back at hBack hSplit
  rcases hBack with _ | @⟨z, _, _, _, hLast, _ | _⟩
  exact ⟨front, z, hSplit.symm, hFront, hLast⟩

/-
  The indices of a key clause are those of its first three
  tokens and of its last one, and there are at least four.
-/
theorem keyClause?_eq
    (hScan : scan.Holds ls)
    (hOrder : start ≤ finish)
    (hWithin : finish ≤ ls.length) :
    scan.keyClause? start finish =
      .ok (Reader.keyClause? (stretch start finish ls)) := by
  have hRange :
      tokensBetween start finish scan.tokens =
        .ok ((scan.tokens.take finish).drop start) := by
    rw [← length_tokens hScan] at hWithin
    exact
      tokensBetween_eq_ok_iff.mpr ⟨hOrder, hWithin, rfl⟩
  have hStands :
      List.Forall₂ (Stands scan)
        ((scan.tokens.take finish).drop start)
        (stretch start finish ls) :=
    List.forall₂_drop start
      (List.forall₂_take finish hScan.stands)
  rw [keyClause?, hRange, ok_bind]
  generalize (scan.tokens.take finish).drop start = ts
    at hStands
  generalize stretch start finish ls = piece at hStands
  rcases hStands with _ |
    @⟨t, w, _, _, hFirst, _ |
      @⟨u, k, _, _, hSecond, _ |
        @⟨v, p, ts, inner, hThird, hRest⟩⟩⟩
  · rfl
  · rfl
  · rfl
  rcases List.eq_nil_or_concat inner with
    rfl | ⟨names, q, rfl⟩
  · cases hRest
    simp [Reader.keyClause?]
    rfl
  rw [List.concat_eq_append] at hRest ⊢
  rcases exists_concat hRest with
    ⟨front, z, rfl, hFront, hLast⟩
  have hMany :
      ¬(t :: u :: v :: (front ++ [z])).length < 4 := by simp
  have hEnd :
      (t :: u :: v :: (front ++ [z])).length - 1 =
        front.length + 3 := by simp
  have hClose :
      tokenAt (front.length + 3)
          (t :: u :: v :: (front ++ [z])) = .ok z := by
    simp [tokenAt_eq_ok_iff]
  have hInner :
      tokensBetween 3 (front.length + 3)
          (t :: u :: v :: (front ++ [z])) = .ok front := by
    simp [tokensBetween_eq_ok_iff]
  have hNames :=
    @alternatingNames?_eq _ _ 0 _ hFront (Nat.zero_mod 2)
  rw [if_neg hMany, hEnd, hClose, hInner]
  simp only [tokenAt, List.getElem?_cons_succ,
    List.getElem?_cons_zero, ok_bind, hSecond.token_eq,
    hThird.token_eq, hLast.token_eq, hNames]
  simp only [Reader.keyClause?, List.getLast?_concat,
    List.dropLast_concat, Option.any_some, isKeyword, isMark]
  by_cases hKey : k.token = .keyword .key
  · by_cases hOpen : p.token = .mark .openParen
    · by_cases hClosed : q.token = .mark .closeParen
      · simp [hKey, hOpen, hClosed]
        rfl
      · simp [hKey, hOpen, hClosed]
        rfl
    · simp [hKey, hOpen]
      rfl
  · simp [hKey]
    rfl

theorem keyClause_eq
    (hScan : scan.Holds ls)
    (hOrder : start ≤ finish)
    (hWithin : finish ≤ ls.length) :
    scan.keyClause start finish =
      .of (Reader.keyClause (stretch start finish ls)) := by
  unfold keyClause Reader.keyClause
  rw [keyClause?_eq hScan hOrder hWithin, lift_ok_bind]
  cases Reader.keyClause? (stretch start finish ls) with
  | some names => rfl
  | none =>
      dsimp only
      rw [raw_eq hScan hWithin]
      rfl

------------------------------------------------------------
-- Columns
------------------------------------------------------------

theorem firstCloseFrom_eq
    (hScan : scan.Holds ls)
    (hWithin : finish ≤ ls.length)
    (hCount : i + n = finish) :
    ∃ close?,
      scan.firstCloseFrom i n = .ok close? ∧
        (∀ c ∈ close?, i ≤ c ∧ c < finish) ∧
        close?.map (fun c => stretch i (c + 1) ls) =
          ((stretch i finish ls).dropWhile
              fun l => !l.isMark .closeParen).head?.map
            fun q =>
              ((stretch i finish ls).takeWhile
                fun l => !l.isMark .closeParen) ++ [q] := by
  induction n generalizing i with
  | zero =>
      refine ⟨none, rfl, by simp, ?_⟩
      rw [stretch_eq_nil (by omega)]
      rfl
  | succ n ih =>
      rcases exists_tokenAt hScan (by omega : i < ls.length)
        with ⟨l, t, hAt, hToken, hStands⟩
      rw [firstCloseFrom, hToken, ok_bind, hStands.token_eq,
        stretch_eq_cons (by omega) hAt]
      by_cases hClose : l.token = .mark .closeParen
      · have hLast : (!l.isMark .closeParen) = false := by
          simp [isMark, hClose]
        refine ⟨some i, if_pos hClose, ?_, ?_⟩
        · rintro c ⟨⟩
          omega
        · rw [List.dropWhile_cons, List.takeWhile_cons,
            hLast, Option.map_some,
            stretch_eq_cons (Nat.lt_succ_self i) hAt,
            stretch_eq_nil (Nat.le_refl _)]
          rfl
      · have hOther : (!l.isMark .closeParen) = true := by
          simpa [isMark] using hClose
        rcases @ih (i + 1) (by omega) with
          ⟨close?, hFound, hBetween, hArguments⟩
        refine
          ⟨close?, (if_neg hClose).trans hFound, ?_, ?_⟩
        · intro c hMember
          have hAfter := hBetween c hMember
          omega
        · have hGrown :
              close?.map (fun c => stretch i (c + 1) ls) =
                (close?.map fun c =>
                  stretch (i + 1) (c + 1) ls).map (l :: ·) := by
            rw [Option.map_map]
            apply Option.map_congr
            intro c hMember
            have hAfter := (hBetween c hMember).1
            exact stretch_eq_cons (by omega) hAt
          rw [List.dropWhile_cons, List.takeWhile_cons,
            hOther, hGrown, hArguments, Option.map_map]
          rfl

/- A declared type ends behind its word, or behind the first closing parenthesis. -/
theorem typeEnd?_eq
    {t : Lexeme}
    (hScan : scan.Holds ls)
    (hOrder : i ≤ finish)
    (hWithin : finish ≤ ls.length)
    (hName : ¬t.name?.isNone = true) :
    ∃ stop?,
      scan.typeEnd? i finish = .ok stop? ∧
        (∀ e ∈ stop?, i ≤ e ∧ e ≤ ls.length) ∧
        stop?.map (fun e => t :: stretch i e ls) =
          Reader.typeLexemes? (t :: stretch i finish ls) := by
  unfold typeEnd? Reader.typeLexemes?
  dsimp only
  rw [if_neg hName]
  by_cases hSome : i < finish
  · rcases exists_tokenAt hScan (by omega : i < ls.length)
      with ⟨p, u, hAt, hToken, hStands⟩
    rw [if_pos hSome, hToken, ok_bind, hStands.token_eq,
      stretch_eq_cons hSome hAt]
    by_cases hOpen : p.token = .mark .openParen
    · have hMark : p.isMark .openParen = true :=
        beq_iff_eq.mpr hOpen
      rcases
        @firstCloseFrom_eq _ _ i _ (finish - i) hScan hWithin
          (by omega) with
        ⟨close?, hFound, hBetween, hArguments⟩
      rw [if_pos hOpen, hFound, ok_bind]
      dsimp only
      rw [if_pos hMark, Reader.getElem?_length_takeWhile,
        ← stretch_eq_cons hSome hAt]
      refine ⟨close?.map (· + 1), rfl, ?_, ?_⟩
      · intro e hMember
        rw [Option.mem_map] at hMember
        rcases hMember with ⟨c, hClose, rfl⟩
        have hAfter := hBetween c hClose
        omega
      · have hWhole :=
          congrArg (Option.map (t :: ·)) hArguments
        rw [Option.map_map, Option.map_map] at hWhole
        rw [Option.map_map]
        exact hWhole
    · have hMark : ¬p.isMark .openParen = true := fun h =>
        hOpen (beq_iff_eq.mp h)
      dsimp only
      rw [if_neg hOpen, if_neg hMark]
      refine ⟨some i, rfl, ?_, ?_⟩
      · rintro e ⟨⟩
        omega
      · rw [Option.map_some, stretch_eq_nil (Nat.le_refl i)]
  · rw [if_neg hSome, stretch_eq_nil (by omega)]
    refine ⟨some i, rfl, ?_, ?_⟩
    · rintro e ⟨⟩
      omega
    · rw [Option.map_some, stretch_eq_nil (Nat.le_refl i)]

theorem columnDefinition_eq
    (hScan : scan.Holds ls)
    (hWithin : finish ≤ ls.length) :
    scan.columnDefinition start finish =
      .of
        (Reader.columnDefinition
          (stretch start finish ls)) := by
  unfold columnDefinition
  rw [raw_eq hScan hWithin, lift_ok_bind]
  dsimp only
  by_cases hNone : finish ≤ start
  · rw [if_pos hNone, stretch_eq_nil hNone]
    rfl
  rcases exists_tokenAt hScan (by omega : start < ls.length)
    with ⟨c, u, hFirst, hToken, hStands⟩
  rw [if_neg hNone, hToken, lift_ok_bind, hStands.name?_eq,
    stretch_eq_cons (by omega) hFirst]
  unfold Reader.columnDefinition
  dsimp only
  cases hName : c.name? with
  | none => rfl
  | some name =>
      dsimp only
      by_cases hShort : finish ≤ start + 1
      · rw [if_pos hShort, stretch_eq_nil hShort]
        rfl
      rcases
        exists_tokenAt hScan (by omega : start + 1 < ls.length)
        with ⟨t, u, hSecond, hToken, hStands⟩
      rw [if_neg hShort, hToken, lift_ok_bind,
        hStands.name?_eq, stretch_eq_cons (by omega) hSecond]
      by_cases hNoName : t.name?.isNone = true
      · have hNoType
            (rest : List Lexeme) :
            Reader.typeLexemes? (t :: rest) = none :=
          if_pos hNoName
        rw [if_pos hNoName, hNoType]
        rfl
      rcases
        @typeEnd?_eq _ _ (start + 2) finish t hScan (by omega)
          hWithin hNoName with
        ⟨stop?, hFound, hBetween, hType⟩
      rw [if_neg hNoName, hFound, lift_ok_bind, ← hType]
      cases hEnd : stop? with
      | none => rfl
      | some e =>
          rcases hBetween e hEnd with ⟨hAfter, hInside⟩
          dsimp only
          rw [raw_eq hScan hInside, lift_ok_bind,
            stretch_eq_cons (by omega) hSecond]
          rfl

------------------------------------------------------------
-- Pieces Of A Table
------------------------------------------------------------

/-
  An empty range starts at the comma or the parenthesis where
  it stops, so there is a token to look at, and it is no word.
-/
theorem startsKeyClause_iff
    {r : Nat × Nat}
    {q : Lexeme}
    (hFits : Fits ls finish r)
    (hEnd : ls[finish]? = some q)
    (hClose : q.token = .mark .closeParen)
    (hAt : ls[r.1]? = some l) :
    Reader.startsKeyClause (stretch r.1 r.2 ls) = true ↔
      l.token = .keyword .primary := by
  rcases Nat.lt_or_eq_of_le hFits.ordered with
    hSome | hEmpty
  · rw [stretch_eq_cons hSome hAt]
    exact isKeyword_iff
  · rw [stretch_eq_nil hEmpty.ge]
    refine iff_of_false Bool.false_ne_true ?_
    rw [hEmpty] at hAt
    rcases hFits.stops with hLast | ⟨c, hComma, hToken⟩
    · rw [hLast, hEnd, Option.some.injEq] at hAt
      rw [← hAt, hClose]
      exact Token.noConfusion
    · rw [hComma, Option.some.injEq] at hAt
      rw [← hAt, hToken]
      exact Token.noConfusion

theorem tablePieces_eq
    {ranges : List (Nat × Nat)}
    {q : Lexeme}
    (hScan : scan.Holds ls)
    (hFits : ∀ r ∈ ranges, Fits ls finish r)
    (hEnd : ls[finish]? = some q)
    (hClose : q.token = .mark .closeParen) :
    scan.tablePieces ranges =
      .of
        (Reader.tablePieces
          (ranges.map fun r => stretch r.1 r.2 ls)) := by
  have hInside := (List.getElem?_eq_some_iff.mp hEnd).1
  induction ranges with
  | nil => rfl
  | cons r ranges ih =>
      rw [List.forall_mem_cons] at hFits
      rcases hFits with ⟨hHere, hFits⟩
      have hOrder := hHere.ordered
      have hWithin := hHere.within
      rcases
        exists_tokenAt hScan (by omega : r.1 < ls.length)
        with ⟨l, t, hAt, hToken, hStands⟩
      have hWord :=
        startsKeyClause_iff hHere hEnd hClose hAt
      rw [List.map_cons, tablePieces, Reader.tablePieces,
        hToken, lift_ok_bind, hStands.token_eq,
        keyClause_eq hScan hOrder (by omega),
        columnDefinition_eq hScan (by omega), ih hFits]
      by_cases hKey : l.token = .keyword .primary
      · rw [if_pos hKey, if_pos (hWord.mpr hKey)]
        cases Reader.keyClause (stretch r.1 r.2 ls) with
        | error e => rfl
        | ok names =>
            cases Reader.tablePieces
              (ranges.map fun r => stretch r.1 r.2 ls) <;> rfl
      · rw [if_neg hKey, if_neg fun h => hKey (hWord.mp h)]
        cases Reader.columnDefinition
          (stretch r.1 r.2 ls) with
        | error e => rfl
        | ok column =>
            cases Reader.tablePieces
              (ranges.map fun r => stretch r.1 r.2 ls) <;> rfl

end Scan

end Rowstore
