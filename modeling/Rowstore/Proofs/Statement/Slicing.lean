import Mathlib.Data.List.Basic
import Rowstore.Proofs.Statement.Conditions
import Rowstore.Proofs.Statement.Cutting
import Rowstore.Proofs.Statement.Derivation
import Rowstore.Proofs.Statement.Naming

/-
  Stretches of a text that are cut into lexemes once more.

  A piece does not change when the text behind it is cut off,
  and the text in front of it plays no part.  So the stretch
  from the start of one token to the end of another holds the
  tokens in between, at the same distances.

  Main declarations:
    * `Text.slice?` and `Text.slice?_eq_some_iff`
    * `Lexer.lexemes_sourceText`
    * `Lexer.spannedFrom` and `Lexer.spannedTokens_sourceText`
    * `Lexer.exists_split_of_tokens` and
      `Lexer.spannedTokens_slice`
-/

------------------------------------------------------------
-- Bytes Of A Text
------------------------------------------------------------

namespace Rowstore

namespace Text

open Lexeme

variable {s t r : List Char} {n start finish : Nat}

/- The first bytes of a text and what follows them, if they end with a character. -/
def splitBytes? :
    Nat → List Char → Option (List Char × List Char)
| 0, s => some ([], s)
| _ + 1, [] => none
| n + 1, c :: s =>
  if c.utf8Size ≤ n + 1 then
    (splitBytes? (n + 1 - c.utf8Size) s).map fun parts =>
      (c :: parts.1, parts.2)
  else none

/-
  The stretch of a text between two byte offsets.  There is
  none if they are in the wrong order, beyond the text or
  inside of a character.
-/
def slice?
    (start finish : Nat)
    (s : List Char) : Option (List Char) :=
  if start ≤ finish then
    (splitBytes? start s).bind fun parts =>
      (splitBytes? (finish - start) parts.2).map Prod.fst
  else none

theorem byteSize_eq_zero_iff :
    byteSize s = 0 ↔ s = [] := by
  cases s with
  | nil => exact iff_of_true rfl rfl
  | cons c s =>
      have hPos := c.utf8Size_pos
      simp only [byteSize, reduceCtorEq, iff_false]
      omega

theorem splitBytes?_eq_some_iff :
    splitBytes? n s = some (t, r) ↔
      s = t ++ r ∧ byteSize t = n := by
  induction s generalizing n t with
  | nil =>
      cases n with
      | zero =>
          simp only [splitBytes?, Option.some.injEq,
            Prod.mk.injEq, byteSize_eq_zero_iff]
          constructor
          · rintro ⟨rfl, rfl⟩
            exact ⟨rfl, rfl⟩
          · rintro ⟨hText, rfl⟩
            exact ⟨rfl, hText⟩
      | succ n =>
          simp only [splitBytes?, reduceCtorEq, false_iff]
          rintro ⟨hText, hSize⟩
          have hNone : t = [] :=
            (List.append_eq_nil_iff.mp hText.symm).1
          rw [hNone] at hSize
          cases hSize
  | cons c s ih =>
      cases n with
      | zero =>
          simp only [splitBytes?, Option.some.injEq,
            Prod.mk.injEq, byteSize_eq_zero_iff]
          constructor
          · rintro ⟨rfl, rfl⟩
            exact ⟨rfl, rfl⟩
          · rintro ⟨hText, rfl⟩
            exact ⟨rfl, hText⟩
      | succ n =>
          have hPos := c.utf8Size_pos
          unfold splitBytes?
          constructor
          · intro hSplit
            split at hSplit
            · rename_i hFits
              rw [Option.map_eq_some_iff] at hSplit
              rcases hSplit with ⟨⟨u, v⟩, hRest, hParts⟩
              cases hParts
              rcases ih.mp hRest with ⟨rfl, hSize⟩
              refine ⟨rfl, ?_⟩
              simp only [byteSize, hSize]
              omega
            · cases hSplit
          · rintro ⟨hText, hSize⟩
            cases t with
            | nil => cases hSize
            | cons d t =>
                rw [List.cons_append, List.cons.injEq]
                  at hText
                rcases hText with ⟨rfl, hRest⟩
                simp only [byteSize] at hSize
                rw [if_pos (by omega),
                  ih.mpr ⟨hRest, by omega⟩]
                rfl

/- A stretch between two offsets is what is left of a text when both ends are cut off. -/
theorem slice?_eq_some_iff :
    slice? start finish s = some t ↔
      ∃ u v,
        s = u ++ (t ++ v) ∧ byteSize u = start ∧
          byteSize (u ++ t) = finish := by
  unfold slice?
  constructor
  · intro hSlice
    split at hSlice
    · rename_i hOrder
      rw [Option.bind_eq_some_iff] at hSlice
      rcases hSlice with ⟨⟨u, r⟩, hFirst, hSecond⟩
      rw [Option.map_eq_some_iff] at hSecond
      rcases hSecond with ⟨⟨t', v⟩, hSecond, rfl⟩
      rcases splitBytes?_eq_some_iff.mp hFirst with
        ⟨rfl, hStart⟩
      rcases splitBytes?_eq_some_iff.mp hSecond with
        ⟨rfl, hFinish⟩
      refine ⟨u, v, rfl, hStart, ?_⟩
      rw [byteSize_append, hStart, hFinish,
        Nat.add_sub_cancel' hOrder]
    · cases hSlice
  · rintro ⟨u, v, rfl, rfl, rfl⟩
    have hSize := byteSize_append u t
    have hRest :
        splitBytes? (byteSize (u ++ t) - byteSize u)
            (t ++ v) = some (t, v) :=
      splitBytes?_eq_some_iff.mpr ⟨rfl, by omega⟩
    rw [if_pos (by omega),
      splitBytes?_eq_some_iff.mpr ⟨rfl, rfl⟩,
      Option.bind_some, hRest]
    rfl

/- A stretch that is not empty ends behind its start. -/
theorem lt_of_slice?
    (hSlice : slice? start finish s = some t)
    (hSome : t ≠ []) :
    start < finish := by
  rcases slice?_eq_some_iff.mp hSlice with
    ⟨u, v, _, rfl, rfl⟩
  have hSize : byteSize t ≠ 0 := by
    rwa [Ne, byteSize_eq_zero_iff]
  rw [byteSize_append]
  omega

end Text

end Rowstore

------------------------------------------------------------
-- Pieces And Their Lexemes
------------------------------------------------------------

namespace Rowstore

namespace Lexer

variable {s gap : List Char} {ps qs : List Piece}
variable {l : Lexeme} {ls before taken after : List Lexeme}

/- The last pieces of a text are those of a text of their own. -/
theorem pieces_of_suffix
    (hPieces : pieces s = ps ++ qs) :
    pieces (qs.flatMap Piece.text) = qs := by
  induction ps generalizing s with
  | nil =>
      rw [List.nil_append] at hPieces
      rw [← hPieces, flatMap_text_pieces]
  | cons p ps ih =>
      rcases pieces_eq_cons_iff.mp hPieces with
        ⟨_, _, rest, _, _, _, hRest⟩
      exact ih hRest

theorem text_ne_nil_of_mem_lexemes
    (hMember : l ∈ lexemes s) :
    l.text ≠ [] := by
  rcases mem_lexemesFrom hMember with
    ⟨p, hPiece, _, hText⟩
  rcases mem_pieces hPiece with ⟨c, rest, _, hStart⟩
  rw [← hText, hStart]
  exact List.cons_ne_nil c _

/- A lexeme comes from a piece, and those behind it from the pieces behind that. -/
theorem lexemesFrom_split
    (hSplit : lexemesFrom gap ps = before ++ l :: taken) :
    ∃ front back,
      ps =
        front ++
          { token? := some l.token
            text := l.text } :: back ∧
        lexemesFrom [] back = taken := by
  induction ps generalizing gap before with
  | nil =>
      cases before with
      | nil => cases hSplit
      | cons => cases hSplit
  | cons p ps ih =>
      cases hToken : p.token? with
      | none =>
          simp only [lexemesFrom, hToken] at hSplit
          rcases ih hSplit with ⟨front, back, rfl, hBack⟩
          exact ⟨p :: front, back, rfl, hBack⟩
      | some t =>
          simp only [lexemesFrom, hToken] at hSplit
          cases before with
          | nil =>
              rw [List.nil_append, List.cons.injEq] at hSplit
              rcases hSplit with ⟨rfl, hRest⟩
              exact ⟨[], ps, by simp [← hToken], hRest⟩
          | cons b before =>
              rw [List.cons_append, List.cons.injEq] at hSplit
              rcases ih hSplit.2 with
                ⟨front, back, rfl, hBack⟩
              exact ⟨p :: front, back, rfl, hBack⟩

/- The first lexemes come from the pieces up to the last of their tokens. -/
theorem lexemesFrom_front
    (hSplit : lexemesFrom gap ps = ls ++ after) :
    ∃ front back,
      ps = front ++ back ∧ lexemesFrom gap front = ls ∧
        (front = [] ∨ trailingFrom gap front = []) := by
  induction ps generalizing gap ls with
  | nil =>
      have hNone : ls = [] :=
        (List.append_eq_nil_iff.mp hSplit.symm).1
      exact ⟨[], [], rfl, hNone.symm, .inl rfl⟩
  | cons p ps ih =>
      cases hToken : p.token? with
      | some t =>
          simp only [lexemesFrom, hToken] at hSplit
          cases ls with
          | nil => exact ⟨[], p :: ps, rfl, rfl, .inl rfl⟩
          | cons l ls =>
              rw [List.cons_append, List.cons.injEq] at hSplit
              rcases hSplit with ⟨rfl, hRest⟩
              rcases ih hRest with
                ⟨front, back, rfl, hFront, hEnd⟩
              refine ⟨p :: front, back, rfl, ?_, .inr ?_⟩
              · simp only [lexemesFrom, hToken, hFront]
              · simp only [trailingFrom, hToken]
                rcases hEnd with rfl | hEnd
                · rfl
                · exact hEnd
      | none =>
          simp only [lexemesFrom, hToken] at hSplit
          rcases ih hSplit with ⟨front, back, rfl, hFront, hEnd⟩
          rcases hEnd with rfl | hEnd
          · exact ⟨[], p :: back, rfl, hFront, .inl rfl⟩
          · refine ⟨p :: front, back, rfl, ?_, .inr ?_⟩
            · simp only [lexemesFrom, hToken, hFront]
            · simpa only [trailingFrom, hToken] using hEnd

/- A stretch from one lexeme to another has the lexemes that it was taken from. -/
theorem lexemes_sourceText
    (hSplit : lexemes s = before ++ l :: taken ++ after) :
    lexemes (Lexeme.sourceText (l :: taken)) =
      { l with gap := [] } :: taken := by
  rw [List.append_assoc, List.cons_append] at hSplit
  rcases lexemesFrom_split hSplit with
    ⟨front, back, hPieces, hTaken⟩
  rcases lexemesFrom_front hTaken with
    ⟨kept, others, rfl, hKept, hEnd⟩
  have hText :
      kept.flatMap Piece.text = Lexeme.fullText taken := by
    have hAll := fullText_lexemesFrom [] kept
    have hNone : trailingFrom [] kept = [] := by
      rcases hEnd with rfl | hEnd
      · rfl
      · exact hEnd
    rw [hKept, hNone, List.append_nil, List.nil_append] at hAll
    exact hAll.symm
  -- Cut off what is in front, and then what is behind.
  have hOwn := pieces_of_suffix hPieces
  rw [← List.cons_append, List.flatMap_append] at hOwn
  have hCut := pieces_of_append hOwn rfl
  rw [List.flatMap_cons, hText] at hCut
  unfold lexemes Lexeme.sourceText
  rw [hCut]
  simp only [lexemesFrom, hKept]

------------------------------------------------------------
-- Tokens And Their Byte Ranges
------------------------------------------------------------

/- The tokens of lexemes that follow a number of bytes, with their byte ranges. -/
def spannedFrom
    (n : Nat)
    (ls : List Lexeme) : List (Token × (Nat × Nat)) :=
  (ls.map Lexeme.token).zip (Lexeme.byteSpansFrom n ls)

theorem spannedTokens_eq (s : List Char) :
    spannedTokens s = spannedFrom 0 (lexemes s) := rfl

theorem length_spannedFrom
    (n : Nat)
    (ls : List Lexeme) :
    (spannedFrom n ls).length = ls.length := by
  rw [spannedFrom, List.length_zip, List.length_map,
    Lexeme.length_byteSpansFrom, Nat.min_self]

theorem byteSize_fullText_cons
    (l : Lexeme)
    (ls : List Lexeme) :
    Lexeme.byteSize (Lexeme.fullText (l :: ls)) =
      Lexeme.byteSize l.gap +
        Lexeme.byteSize (Lexeme.sourceText (l :: ls)) := by
  rw [← Lexeme.byteSize_append, Lexeme.sourceText,
    ← List.append_assoc]
  rfl

theorem spannedFrom_append
    (n : Nat)
    (ls ms : List Lexeme) :
    spannedFrom n (ls ++ ms) =
      spannedFrom n ls ++
        spannedFrom (n + Lexeme.byteSize (Lexeme.fullText ls))
          ms := by
  induction ls generalizing n with
  | nil => rfl
  | cons l ls ih =>
      have hSize :
          n + Lexeme.byteSize (Lexeme.fullText (l :: ls)) =
            n + Lexeme.byteSize l.gap +
                Lexeme.byteSize l.text +
              Lexeme.byteSize (Lexeme.fullText ls) := by
        rw [byteSize_fullText_cons, Lexeme.sourceText,
          Lexeme.byteSize_append]
        omega
      rw [hSize]
      exact congrArg _ (ih _)

theorem spannedFrom_add
    (m n : Nat)
    (ls : List Lexeme) :
    spannedFrom (m + n) ls =
      (spannedFrom m ls).map (shiftSpan n) := by
  rw [spannedFrom, Lexeme.byteSpansFrom_add,
    List.zip_map_right]
  rfl

theorem spannedFrom_prependGap
    (gap : List Char)
    (n : Nat)
    (ls : List Lexeme) :
    spannedFrom n (Lexeme.prependGap gap ls) =
      spannedFrom (n + Lexeme.byteSize gap) ls := by
  rw [spannedFrom, Lexeme.tokens_prependGap,
    Lexeme.byteSpansFrom_prependGap]
  rfl

/- A token's byte range holds the text of its lexeme. -/
theorem slice?_of_mem_spannedFrom
    {front back : List Char}
    (hText : s = front ++ (Lexeme.fullText ls ++ back)) :
    ∀ t ∈ spannedFrom (Lexeme.byteSize front) ls,
      ∃ l ∈ ls,
        t.1 = l.token ∧
          Text.slice? t.2.1 t.2.2 s = some l.text := by
  induction ls generalizing front with
  | nil => simp [spannedFrom]
  | cons l ls ih =>
      have hSplit :
          s =
            front ++ l.gap ++
              (l.text ++ (Lexeme.fullText ls ++ back)) := by
        rw [hText]
        simp [Lexeme.fullText]
      have hSize :
          Lexeme.byteSize front + Lexeme.byteSize l.gap +
              Lexeme.byteSize l.text =
            Lexeme.byteSize (front ++ l.gap ++ l.text) := by
        rw [Lexeme.byteSize_append, Lexeme.byteSize_append]
      simp only [spannedFrom, Lexeme.byteSpansFrom,
        List.map_cons, List.zip_cons_cons, List.forall_mem_cons]
      constructor
      · refine ⟨l, List.mem_cons_self, rfl, ?_⟩
        rw [Text.slice?_eq_some_iff]
        exact
          ⟨_, _, hSplit, Lexeme.byteSize_append _ _, hSize.symm⟩
      · intro t hMember
        rw [hSize] at hMember
        have hRest :
            s =
              front ++ l.gap ++ l.text ++
                (Lexeme.fullText ls ++ back) := by
          rw [hSplit, List.append_assoc (front ++ l.gap)]
        rcases ih hRest t hMember with ⟨m, hInside, hToken⟩
        exact ⟨m, List.mem_cons_of_mem l hInside, hToken⟩

/- The first byte range starts behind the first gap, and the last one ends where the lexemes end. -/
theorem ends_spannedFrom
    (n : Nat)
    (l : Lexeme)
    (ls : List Lexeme) :
    (spannedFrom n (l :: ls)).head?.map (fun t => t.2.1) =
        some (n + Lexeme.byteSize l.gap) ∧
      (spannedFrom n (l :: ls)).getLast?.map
          (fun t => t.2.2) =
        some
          (n + Lexeme.byteSize (Lexeme.fullText (l :: ls))) := by
  refine ⟨rfl, ?_⟩
  induction ls generalizing n l with
  | nil =>
      simp [spannedFrom, Lexeme.byteSpansFrom,
        Lexeme.fullText, Lexeme.byteSize_append,
        Nat.add_assoc]
  | cons m ls ih =>
      have hSplit := spannedFrom_append n [l] (m :: ls)
      have hText :
          Lexeme.fullText (l :: m :: ls) =
            Lexeme.fullText [l] ++
              Lexeme.fullText (m :: ls) := by
        simp [Lexeme.fullText]
      have hSome
          (k : Nat) : spannedFrom k (m :: ls) ≠ [] :=
        List.cons_ne_nil _ _
      rw [List.singleton_append] at hSplit
      rw [hSplit, List.getLast?_append_of_ne_nil _ (hSome _),
        ih, hText, Lexeme.byteSize_append, Nat.add_assoc]

/-
  The stretch from one lexeme to another lies in the text, and
  its tokens are those in between, at the same distances.
-/
theorem spannedTokens_sourceText
    {start : Nat}
    (hSplit : lexemes s = before ++ l :: taken ++ after)
    (hStart :
      start =
        Lexeme.byteSize (Lexeme.fullText before) +
          Lexeme.byteSize l.gap) :
    Text.slice? start
        (Lexeme.byteSize (Lexeme.fullText before) +
          Lexeme.byteSize (Lexeme.fullText (l :: taken))) s =
        some (Lexeme.sourceText (l :: taken)) ∧
      (spannedTokens (Lexeme.sourceText (l :: taken))).map
          (shiftSpan start) =
        spannedFrom (Lexeme.byteSize (Lexeme.fullText before))
          (l :: taken) := by
  constructor
  · rw [Text.slice?_eq_some_iff]
    refine
      ⟨Lexeme.fullText before ++ l.gap,
        Lexeme.fullText after ++ trailingGap s, ?_, ?_, ?_⟩
    · rw [← List.append_assoc]
      exact stretch_of_lexemes hSplit
    · rw [hStart, Lexeme.byteSize_append]
    · rw [Lexeme.byteSize_append, Lexeme.byteSize_append,
        byteSize_fullText_cons, Nat.add_assoc]
  · have hGap :
        0 + start + Lexeme.byteSize [] =
          Lexeme.byteSize (Lexeme.fullText before) +
            Lexeme.byteSize l.gap := by
      rw [hStart, Nat.zero_add]
      rfl
    rw [spannedTokens_eq, lexemes_sourceText hSplit,
      ← spannedFrom_add]
    simp only [spannedFrom, Lexeme.byteSpansFrom, hGap,
      List.map_cons]

/- A range of a list has something in front of it and something behind it. -/
theorem exists_split_of_range
    {α : Type}
    {xs : List α}
    {i j : Nat}
    (hRange : i < j)
    (hWithin : j ≤ xs.length) :
    ∃ before x taken after,
      xs = before ++ x :: taken ++ after ∧
        before.length = i ∧
          (before ++ x :: taken).length = j := by
  have hSome : i < (xs.take j).length := by
    rw [List.length_take]
    omega
  refine
    ⟨(xs.take j).take i, (xs.take j)[i],
      (xs.take j).drop (i + 1), xs.drop j, ?_, ?_, ?_⟩
  · rw [← List.drop_eq_getElem_cons hSome,
      List.take_append_drop, List.take_append_drop]
  · exact List.length_take_of_le (Nat.le_of_lt hSome)
  · rw [← List.drop_eq_getElem_cons hSome,
      List.take_append_drop, List.length_take_of_le hWithin]

/-
  The tokens of a range are those of a run of lexemes, and the
  byte ranges of the first and the last of them are where the
  source text of that run starts and ends.
-/
theorem exists_split_of_tokens
    {i j : Nat}
    {first last : Token × (Nat × Nat)}
    (hRange : i < j)
    (hFirst : (spannedTokens s)[i]? = some first)
    (hLast : (spannedTokens s)[j - 1]? = some last) :
    ∃ before l taken after,
      lexemes s = before ++ l :: taken ++ after ∧
        before.length = i ∧
        (before ++ l :: taken).length = j ∧
        ((spannedTokens s).take j).drop i =
          spannedFrom (Lexeme.byteSize (Lexeme.fullText before))
            (l :: taken) ∧
        first.2.1 =
          Lexeme.byteSize (Lexeme.fullText before) +
            Lexeme.byteSize l.gap ∧
        last.2.2 =
          Lexeme.byteSize (Lexeme.fullText before) +
            Lexeme.byteSize (Lexeme.fullText (l :: taken)) := by
  have hWithin : j ≤ (lexemes s).length := by
    have hBound := (List.getElem?_eq_some_iff.mp hLast).1
    rw [spannedTokens_eq, length_spannedFrom] at hBound
    omega
  rcases exists_split_of_range hRange hWithin with
    ⟨before, l, taken, after, hSplit, hBefore, hTaken⟩
  have hMiddle :
      ((spannedTokens s).take j).drop i =
        spannedFrom (Lexeme.byteSize (Lexeme.fullText before))
          (l :: taken) := by
    rw [spannedTokens_eq, hSplit, spannedFrom_append,
      List.take_left' (by rw [length_spannedFrom, hTaken]),
      spannedFrom_append,
      List.drop_left' (by rw [length_spannedFrom, hBefore]),
      Nat.zero_add]
  -- The ends of the range are the ends of these tokens.
  have hMore : ¬((spannedTokens s).take j).length ≤ i := by
    rw [spannedTokens_eq, List.length_take, length_spannedFrom]
    omega
  have hEnds :=
    ends_spannedFrom
      (Lexeme.byteSize (Lexeme.fullText before)) l taken
  rw [← hMiddle, List.head?_drop, List.getElem?_take,
    if_pos hRange, hFirst, List.getLast?_drop,
    if_neg hMore, List.getLast?_take, if_neg (by omega),
    hLast] at hEnds
  rcases hEnds with ⟨hStart, hFinish⟩
  rw [Option.map_some, Option.some.injEq] at hStart
  rw [Option.some_or, Option.map_some, Option.some.injEq]
    at hFinish
  exact
    ⟨before, l, taken, after, hSplit, hBefore, hTaken,
      hMiddle, hStart, hFinish⟩

/-
  The stretch of a text from the start of one of its tokens to
  the end of the same or a later one has exactly the tokens
  from the one to the other, at the same distances.
-/
theorem spannedTokens_slice
    {i j : Nat}
    {first last : Token × (Nat × Nat)}
    (hRange : i < j)
    (hFirst : (spannedTokens s)[i]? = some first)
    (hLast : (spannedTokens s)[j - 1]? = some last) :
    ∃ t,
      Text.slice? first.2.1 last.2.2 s = some t ∧
        (spannedTokens t).map (shiftSpan first.2.1) =
          ((spannedTokens s).take j).drop i := by
  rcases exists_split_of_tokens hRange hFirst hLast with
    ⟨_, _, _, _, hSplit, _, _, hMiddle, hStart, hFinish⟩
  rw [hStart, hFinish, hMiddle]
  exact ⟨_, spannedTokens_sourceText hSplit rfl⟩

end Lexer

end Rowstore
