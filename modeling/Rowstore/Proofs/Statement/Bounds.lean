import Mathlib.Data.List.Forall2
import Rowstore.Proofs.Statement.Nesting
import Rowstore.Proofs.Statement.Payloads
import Rowstore.Proofs.Statement.Positions

/-
  Every range of tokens that is looked at lies inside of them.

  A scan holds lexemes: its tokens are theirs, and each range
  of its tokens covers their source text.  Then the source
  text, the matching parentheses and the commas that are found
  by indices are those of the lexemes, and nothing overruns.

  Main declarations:
    * `Lexeme.stretch`
    * `Scan.Holds` and `Scan.exists_ofText`
    * `Scan.raw_eq` and `Scan.slice_eq`
    * `Scan.matchingParen_eq` and `Scan.findTopLevel_eq`
    * `Scan.Fits` and `Scan.splitTopLevel_eq`
-/

------------------------------------------------------------
-- Stretches Of Lexemes
------------------------------------------------------------

namespace Rowstore

namespace Lexeme

variable {ls inner after : List Lexeme} {l : Lexeme}
variable {start finish i : Nat}

/- The lexemes from one index up to another. -/
def stretch
    (start finish : Nat)
    (ls : List Lexeme) : List Lexeme :=
  (ls.take finish).drop start

theorem stretch_eq_nil
    (hEmpty : finish ≤ start) :
    stretch start finish ls = [] := by
  apply List.drop_eq_nil_of_le
  rw [List.length_take]
  omega

theorem length_stretch
    (hWithin : finish ≤ ls.length) :
    (stretch start finish ls).length = finish - start := by
  rw [stretch, List.length_drop,
    List.length_take_of_le hWithin]

theorem stretch_length :
    stretch start ls.length ls = ls.drop start := by
  rw [stretch, List.take_length]

/- The lexeme at the start of a stretch comes first in it. -/
theorem stretch_eq_cons
    (hSome : start < finish)
    (hAt : ls[start]? = some l) :
    stretch start finish ls =
      l :: stretch (start + 1) finish ls := by
  have hTaken : (ls.take finish)[start]? = some l := by
    rw [List.getElem?_take, if_pos hSome, hAt]
  rcases List.getElem?_eq_some_iff.mp hTaken with
    ⟨hBound, rfl⟩
  exact List.drop_eq_getElem_cons hBound

/- A stretch grows by the lexeme where it ends. -/
theorem stretch_concat
    (hOrder : start ≤ i)
    (hAt : ls[i]? = some l) :
    stretch start (i + 1) ls = stretch start i ls ++ [l] := by
  rcases List.getElem?_eq_some_iff.mp hAt with ⟨hBound, rfl⟩
  have hTaken : start ≤ (ls.take i).length := by
    rw [List.length_take]
    omega
  rw [stretch, List.take_succ_eq_append_getElem hBound,
    List.drop_append_of_le_length hTaken]
  rfl

/- What comes first after an index is a stretch. -/
theorem stretch_of_drop
    (hSplit : ls.drop i = inner ++ after) :
    stretch i (i + inner.length) ls = inner ∧
      ls.drop (i + inner.length) = after := by
  rw [stretch, List.drop_take, ← List.drop_drop, hSplit,
    Nat.add_sub_cancel_left, List.take_left, List.drop_left]
  exact ⟨rfl, rfl⟩

end Lexeme

end Rowstore

------------------------------------------------------------
-- Scans Of Lexemes
------------------------------------------------------------

namespace Rowstore

namespace Checked

variable {α β : Type}

/- An answer without an overrun. -/
def of (answer : Except Error α) : Checked α :=
  ExceptT.mk (.ok answer)

theorem lift_ok_bind
    (a : α)
    (f : α → Checked β) :
    ((liftM (.ok a : Except Overrun α) : Checked α) >>= f) =
      f a := rfl

end Checked

namespace Overrun

theorem ok_bind
    {α β : Type}
    (a : α)
    (f : α → Except Overrun β) :
    ((.ok a : Except Overrun α) >>= f) = f a := rfl

/- Between two characters of one byte, the first and the last byte can be left out. -/
theorem textInside_eq
    {c : Char}
    (hSize : c.utf8Size = 1)
    (s : List Char) :
    textInside (c :: (s ++ [c])) = .ok s := by
  rw [textInside, textBetween_eq_ok_iff]
  refine ⟨[c], [c], rfl, hSize, ?_⟩
  simp only [List.singleton_append, Lexeme.byteSize,
    Lexeme.byteSize_append, hSize]
  omega

end Overrun

namespace Scan

open Lexeme Overrun

variable {scan : Scan} {ls : List Lexeme}

/- A token of a scan is that of a lexeme, and covers its text. -/
structure Stands
    (scan : Scan)
    (t : Spanned)
    (l : Lexeme) : Prop where
  token_eq : t.1 = l.token
  text_eq : Text.slice? t.2.1 t.2.2 scan.text = some l.text

/-
  The tokens of a scan are those of lexemes, and from the
  first byte of one token to the last byte of another its
  text is the source text of the lexemes from one to the
  other.
-/
structure Holds
    (scan : Scan)
    (ls : List Lexeme) : Prop where
  stands : List.Forall₂ (Stands scan) scan.tokens ls
  slice?_eq :
    ∀ i j first last,
      i < j →
      scan.tokens[i]? = some first →
      scan.tokens[j - 1]? = some last →
      Text.slice? first.2.1 last.2.2 scan.text =
        some (Lexeme.sourceText (stretch i j ls))

theorem Stands.name?_eq
    {t : Spanned}
    {l : Lexeme}
    (hStands : Stands scan t l) :
    scan.name? t = l.name? := by
  unfold name? Lexeme.name?
  rw [hStands.token_eq, hStands.text_eq]
  cases l.token <;> rfl

/- Source text between two tokens is that of the lexemes between them. -/
theorem slice?_spannedTokens
    {s : List Char}
    {i j : Nat}
    {first last : Spanned}
    (hRange : i < j)
    (hFirst : (Lexer.spannedTokens s)[i]? = some first)
    (hLast : (Lexer.spannedTokens s)[j - 1]? = some last) :
    Text.slice? first.2.1 last.2.2 s =
      some (Lexeme.sourceText
        (stretch i j (Lexer.lexemes s))) := by
  rcases
      Lexer.exists_split_of_tokens hRange hFirst hLast with
    ⟨before, l, taken, after, hSplit, hBefore, hTaken, _,
      hStart, hFinish⟩
  have hStretch :
      stretch i j (Lexer.lexemes s) = l :: taken := by
    rw [stretch, hSplit, List.take_left' hTaken,
      List.drop_left' hBefore]
  rw [hStart, hFinish, hStretch]
  exact (Lexer.spannedTokens_sourceText hSplit rfl).1

theorem holds_spannedTokens (s : List Char) :
    Holds { text := s, tokens := Lexer.spannedTokens s }
      (Lexer.lexemes s) where
  stands := by
    have hTokens := Lexer.map_fst_spannedTokens s
    have hLength := congrArg List.length hTokens
    rw [List.length_map, List.length_map] at hLength
    rw [List.forall₂_iff_get]
    refine ⟨hLength, fun i hToken hLexeme => ?_⟩
    have hAt := List.getElem?_eq_getElem hToken
    have hSlice :=
      slice?_spannedTokens (Nat.lt_succ_self i) hAt hAt
    have hOne := List.getElem?_eq_getElem hLexeme
    rw [stretch_eq_cons (Nat.lt_succ_self i) hOne,
      stretch_eq_nil (Nat.le_refl _), Lexeme.sourceText]
      at hSlice
    constructor
    · have hSame := congrArg (·[i]?) hTokens
      simpa [hAt, hOne] using hSame
    · simpa [Lexeme.fullText] using hSlice
  slice?_eq _ _ _ _ hRange hFirst hLast :=
    slice?_spannedTokens hRange hFirst hLast

theorem contentOf_eq
    {l : Lexeme}
    (hWritten : l.token.WrittenAs l.text) :
    contentOf l = .ok l.token := by
  unfold contentOf
  cases hToken : l.token with
  | string q content =>
      have hSize : q.char.utf8Size = 1 := by
        cases q <;> rfl
      rw [hToken] at hWritten
      change l.text = _ at hWritten
      simp only [hWritten, textInside_eq hSize]
      change Except.ok (Token.string q _) = _
      rw [Value.undouble_doubled]
  | quotedName word =>
      have hSize : Char.utf8Size '\x60' = 1 := rfl
      rw [hToken] at hWritten
      change l.text = _ at hWritten
      simp only [hWritten, textInside_eq hSize]
      rfl
  | keyword | comparison | mark | number | name | unknown =>
      rfl

/- The scan of a text is no overrun and holds its lexemes. -/
theorem exists_ofText (s : List Char) :
    ∃ scan,
      ofText s = .ok scan ∧ scan.text = s ∧
        scan.Holds (Lexer.lexemes s) := by
  have hTokens
      (ls : List Lexeme)
      (hWritten : ∀ l ∈ ls, l.token.WrittenAs l.text) :
      ls.mapM contentOf = .ok (ls.map Lexeme.token) := by
    induction ls with
    | nil => rfl
    | cons l ls ih =>
        rw [List.forall_mem_cons] at hWritten
        rw [List.mapM_cons, contentOf_eq hWritten.1,
          ih hWritten.2]
        rfl
  refine ⟨_, ?_, rfl, holds_spannedTokens s⟩
  unfold ofText
  dsimp only
  rw [hTokens _ fun l => Lexer.writtenAs_of_mem_lexemes]
  rfl

------------------------------------------------------------
-- Single Accesses
------------------------------------------------------------

variable {l : Lexeme} {i start finish : Nat}

theorem length_tokens (hScan : scan.Holds ls) :
    scan.tokens.length = ls.length :=
  hScan.stands.length_eq

theorem exists_token
    (hScan : scan.Holds ls)
    (hAt : ls[i]? = some l) :
    ∃ t, scan.tokens[i]? = some t ∧ scan.Stands t l := by
  rcases List.getElem?_eq_some_iff.mp hAt with ⟨hBound, rfl⟩
  have hToken : i < scan.tokens.length := by
    rwa [length_tokens hScan]
  exact
    ⟨_, List.getElem?_eq_getElem hToken,
      hScan.stands.get hToken hBound⟩

theorem exists_tokenAt
    (hScan : scan.Holds ls)
    (hBound : i < ls.length) :
    ∃ l t,
      ls[i]? = some l ∧ tokenAt i scan.tokens = .ok t ∧
        scan.Stands t l := by
  have hAt := List.getElem?_eq_getElem hBound
  rcases exists_token hScan hAt with ⟨t, hToken, hStands⟩
  exact ⟨_, t, hAt, tokenAt_eq_ok_iff.mpr hToken, hStands⟩

/- Source text that is cut out at tokens is that of their lexemes. -/
theorem raw_eq
    (hScan : scan.Holds ls)
    (hWithin : finish ≤ ls.length) :
    scan.raw start finish =
      .ok (Lexeme.sourceText (stretch start finish ls)) := by
  unfold raw
  split
  · rename_i hEmpty
    rw [stretch_eq_nil hEmpty]
    rfl
  · rename_i hSome
    rw [Nat.not_le] at hSome
    have hFirst : start < scan.tokens.length := by
      rw [length_tokens hScan]
      omega
    have hLast : finish - 1 < scan.tokens.length := by
      rw [length_tokens hScan]
      omega
    have hStart := List.getElem?_eq_getElem hFirst
    have hEnd := List.getElem?_eq_getElem hLast
    rw [tokenAt_eq_ok_iff.mpr hStart, ok_bind,
      tokenAt_eq_ok_iff.mpr hEnd, ok_bind, textBetween,
      hScan.slice?_eq start finish _ _ hSome hStart hEnd]

theorem place_eq
    (hScan : scan.Holds ls)
    (i : Nat) :
    scan.place i = .ok (Reader.place (ls.drop i)) := by
  unfold place
  cases hAt : ls[i]? with
  | none =>
      rw [List.getElem?_eq_none_iff] at hAt
      have hNone : scan.tokens[i]? = none := by
        rw [List.getElem?_eq_none_iff, length_tokens hScan]
        exact hAt
      rw [hNone, List.drop_eq_nil_of_le hAt]
      rfl
  | some l =>
      rcases exists_token hScan hAt with ⟨t, hToken, hStands⟩
      rcases List.getElem?_eq_some_iff.mp hAt with
        ⟨hBound, rfl⟩
      rw [hToken, List.drop_eq_getElem_cons hBound]
      simp only [textBetween, hStands.text_eq]
      rfl

theorem unexpected_eq
    (hScan : scan.Holds ls)
    (usage : String)
    (i : Nat) :
    scan.unexpected usage i =
      .ok (Reader.unexpected usage (ls.drop i)) := by
  unfold unexpected Reader.unexpected
  rw [place_eq hScan]
  change (if _ then _ else _) = _
  split <;> rfl

theorem fail_eq
    {α : Type}
    (hScan : scan.Holds ls)
    (usage : String)
    (i : Nat) :
    (scan.fail usage i : Checked α) =
      throw (Reader.unexpected usage (ls.drop i)) := by
  unfold fail
  rw [unexpected_eq hScan]
  rfl

theorem slice_eq
    (hScan : scan.Holds ls)
    (hWithin : finish ≤ ls.length)
    (usage : String)
    (here : Nat) :
    scan.slice usage here start finish =
      .of
        (if (stretch start finish ls).isEmpty then
          .error (Reader.unexpected usage (ls.drop here))
        else .ok (source (stretch start finish ls))) := by
  have hEmpty :
      (stretch start finish ls).isEmpty = true ↔
        finish ≤ start := by
    rw [List.isEmpty_iff_length_eq_zero,
      length_stretch hWithin]
    omega
  unfold slice
  rw [raw_eq hScan hWithin, fail_eq hScan]
  simp only [hEmpty]
  split <;> rfl

------------------------------------------------------------
-- Parentheses And Commas
------------------------------------------------------------

variable {ts : List Spanned} {depth n : Nat} {k : Keyword}

theorem depthAfter_eq
    {t : Spanned}
    (hStands : scan.Stands t l)
    (depth : Nat) :
    depthAfter depth t.1 = l.depthAfter depth := by
  rw [hStands.token_eq]
  unfold depthAfter Lexeme.depthAfter
  rfl

theorem closeFrom_eq
    (hStands : List.Forall₂ (Stands scan) ts ls)
    (depth i : Nat) :
    closeFrom depth i ts =
      (splitAtClose depth ls).map fun parts =>
        i + parts.1.length := by
  induction hStands generalizing depth i with
  | nil => rfl
  | @cons t l ts ls hFirst hRest ih =>
      have hNext
          (d : Nat) :
          closeFrom d (i + 1) ts =
            ((splitAtClose d ls).map fun parts =>
              (l :: parts.1, parts.2)).map fun parts =>
                i + parts.1.length := by
        simp only [ih, Option.map_map, Function.comp_def,
          List.length_cons, Nat.add_assoc, Nat.add_comm 1]
      unfold closeFrom splitAtClose
      rw [hFirst.token_eq]
      cases l.token with
      | mark m =>
          cases m with
          | openParen => exact hNext (depth + 1)
          | closeParen =>
              cases depth with
              | zero => rfl
              | succ depth => exact hNext depth
          | comma | semicolon | star | dot =>
              exact hNext depth
      | keyword | comparison | number | string | name =>
          exact hNext depth
      | quotedName | unknown => exact hNext depth

theorem topLevelFrom_eq
    (hStands : List.Forall₂ (Stands scan) ts ls)
    (k : Keyword)
    (depth i : Nat) :
    topLevelFrom k depth i ts =
      (splitAtTop k depth ls).map fun parts =>
        i + parts.1.length := by
  induction hStands generalizing depth i with
  | nil => rfl
  | @cons t l ts ls hFirst hRest ih =>
      have hHere :
          (depth = 0 ∧ t.1 = .keyword k) ↔
            (depth = 0 ∧ l.isKeyword k = true) := by
        rw [hFirst.token_eq, isKeyword_iff]
      unfold topLevelFrom splitAtTop
      simp only [hHere, ih, depthAfter_eq hFirst]
      split
      · rfl
      · simp only [Option.map_map, Function.comp_def,
          List.length_cons, Nat.add_assoc, Nat.add_comm 1]

/- The parenthesis that is found closes the lexemes before it. -/
theorem matchingParen_eq
    (hScan : scan.Holds ls)
    (i : Nat) :
    scan.matchingParen i =
      (splitAtClose 0 (ls.drop i)).map fun parts =>
        i + parts.1.length :=
  closeFrom_eq (List.forall₂_drop i hScan.stands) 0 i

theorem findTopLevel_eq
    (hScan : scan.Holds ls)
    (k : Keyword)
    (i : Nat) :
    scan.findTopLevel k i =
      (splitAtTop k 0 (ls.drop i)).map fun parts =>
        i + parts.1.length :=
  topLevelFrom_eq (List.forall₂_drop i hScan.stands) k 0 i

/-
  A range lies in front of an end.  Where it stops there is a
  comma, if it is not the end itself.
-/
structure Fits
    (ls : List Lexeme)
    (finish : Nat)
    (r : Nat × Nat) : Prop where
  ordered : r.1 ≤ r.2
  within : r.2 ≤ finish
  stops :
    r.2 = finish ∨
      ∃ l, ls[r.2]? = some l ∧ l.token = .mark .comma

theorem modifyHead_nil_append
    (pieces : List (List Lexeme)) :
    pieces.modifyHead ([] ++ ·) = pieces := by
  cases pieces <;> rfl

/-
  The induction is on the number of indices that are left.
  The lexemes from `start` up to `i` are the front of the
  piece that is being read.
-/
theorem splitFrom_eq
    (hScan : scan.Holds ls)
    (hWithin : finish ≤ ls.length)
    (hOrder : start ≤ i)
    (hCount : i + n = finish) :
    ∃ ranges,
      scan.splitFrom finish start depth i n = .ok ranges ∧
        (∀ r ∈ ranges, Fits ls finish r) ∧
        ranges.map (fun r => stretch r.1 r.2 ls) =
          (splitCommas depth (stretch i finish ls)).modifyHead
            (stretch start i ls ++ ·) := by
  induction n generalizing start depth i with
  | zero =>
      rw [Nat.add_zero] at hCount
      subst hCount
      refine ⟨[(start, i)], rfl, ?_, ?_⟩
      · rw [List.forall_mem_singleton]
        exact ⟨hOrder, Nat.le_refl _, .inl rfl⟩
      · rw [stretch_eq_nil (Nat.le_refl i), splitCommas]
        simp
  | succ n ih =>
      have hBound : i < ls.length := by omega
      rcases exists_tokenAt hScan hBound with
        ⟨l, t, hAt, hToken, hStands⟩
      rw [stretch_eq_cons (by omega) hAt, splitFrom, hToken]
      change
        ∃ ranges,
          (if depth = 0 ∧ t.1 = .mark .comma then _
            else _) = Except.ok ranges ∧ _
      rw [depthAfter_eq hStands, hStands.token_eq]
      by_cases hCut : depth = 0 ∧ l.token = .mark .comma
      · rcases hCut with ⟨rfl, hComma⟩
        rcases
            @ih (i + 1) (i + 1) 0 (Nat.le_refl _)
              (by omega) with
          ⟨ranges, hRanges, hFits, hPieces⟩
        rw [if_pos ⟨rfl, hComma⟩, hRanges,
          splitCommas_comma hComma]
        refine ⟨(start, i) :: ranges, rfl, ?_, ?_⟩
        · rw [List.forall_mem_cons]
          exact
            ⟨⟨hOrder, by omega, .inr ⟨l, hAt, hComma⟩⟩,
              hFits⟩
        · rw [List.map_cons, hPieces,
            stretch_eq_nil (Nat.le_refl (i + 1)),
            modifyHead_nil_append, List.modifyHead_cons,
            List.append_nil]
      · rcases
            @ih (i + 1) start (l.depthAfter depth)
              (by omega) (by omega) with
          ⟨ranges, hRanges, hFits, hPieces⟩
        rw [if_neg hCut, splitCommas_cons hCut]
        refine ⟨ranges, hRanges, hFits, ?_⟩
        rw [hPieces, stretch_concat hOrder hAt,
          List.modifyHead_modifyHead]
        congr 1
        funext piece
        simp

/- The ranges between commas are those of the pieces of the lexemes, in order. -/
theorem splitTopLevel_eq
    (hScan : scan.Holds ls)
    (hOrder : start ≤ finish)
    (hWithin : finish ≤ ls.length) :
    ∃ ranges,
      scan.splitTopLevel start finish = .ok ranges ∧
        (∀ r ∈ ranges, Fits ls finish r) ∧
        ranges.map (fun r => stretch r.1 r.2 ls) =
          splitCommas 0 (stretch start finish ls) := by
  rcases
      @splitFrom_eq _ _ start start finish 0 (finish - start)
        hScan hWithin (Nat.le_refl start) (by omega) with
    ⟨ranges, hRanges, hFits, hPieces⟩
  refine ⟨ranges, hRanges, hFits, ?_⟩
  rw [hPieces, stretch_eq_nil (Nat.le_refl start),
    modifyHead_nil_append]

end Scan

end Rowstore
