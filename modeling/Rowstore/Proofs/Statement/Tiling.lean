import Rowstore.Proofs.Statement.Slicing

/-
  The tokens of a text and what stands between them.

  Every character of a text lies in one token or in one gap.
  A token is no comment, and a gap holds only blanks and
  comments that are complete, if a star inside of a comment is
  read together with the character behind it.  If a comment
  ends at its first closing mark, then this takes that no
  mark stands behind an odd number of stars.

  Main declarations:
    * `Lexer.CommentBody` and `Lexer.Unmarked`
    * `Lexer.commentLength_eq_closed_iff` and
      `Lexer.commentBody_iff_even`
    * `Lexer.Skipped` and `Lexer.LaidOut`
    * `Lexer.tokenSpans` and `Lexer.gapSpans`
    * `Lexer.Tiled` and `Lexer.spans_tile`
-/

------------------------------------------------------------
-- Comments
------------------------------------------------------------

namespace Rowstore

namespace Lexer

variable {c : Char} {s w rest : List Char}

/-
  The text between the marks of a block comment: characters
  that are no stars, and stars with a character behind them
  that is no stroke.
-/
inductive CommentBody : List Char → Prop where
| nil : CommentBody []
| plain
    {c : Char}
    {s : List Char}
    (hPlain : c ≠ '*')
    (hRest : CommentBody s) :
    CommentBody (c :: s)
| pair
    {c : Char}
    {s : List Char}
    (hOpen : c ≠ '/')
    (hRest : CommentBody s) :
    CommentBody ('*' :: c :: s)

/- The text has no mark that closes a block comment. -/
def Unmarked (body : List Char) : Prop :=
  ¬['*', '/'] <:+: body

instance (body : List Char) : Decidable (Unmarked body) :=
  inferInstanceAs (Decidable (¬_))

theorem commentLength_of_body
    {body : List Char}
    (hBody : CommentBody body)
    (rest : List Char) :
    commentLength (body ++ '*' :: '/' :: rest) =
      (body.length + 2, true) := by
  induction hBody with
  | nil => rfl
  | plain hPlain _ ih =>
      rw [List.cons_append, commentLength_plain hPlain, ih]
      rfl
  | pair hOpen _ ih =>
      rw [List.cons_append, List.cons_append,
        commentLength_pair hOpen, ih]
      rfl

/- A block comment is closed where its body and a closing mark end. -/
theorem commentLength_eq_closed_iff :
    commentLength (w ++ rest) = (w.length, true) ↔
      ∃ body, w = body ++ ['*', '/'] ∧ CommentBody body := by
  constructor
  · intro hLength
    fun_induction commentLength w with
    | case1 =>
        have hNone := congrArg Prod.fst hLength
        rw [List.nil_append] at hNone
        rcases commentLength_eq_zero_iff.mp hNone with
          rfl | rfl
        · cases hLength
        · cases hLength
    | case2 =>
        rcases rest with _ | ⟨c, rest⟩
        · cases hLength
        · by_cases hClose : c = '/'
          · subst hClose
            cases hLength
          · rw [List.singleton_append,
              commentLength_pair hClose] at hLength
            simp at hLength
    | case3 s =>
        cases s with
        | nil => exact ⟨[], rfl, .nil⟩
        | cons c s => cases hLength
    | case4 c s hOpen n closed hRest ih =>
        simp only [List.cons_append, commentLength_pair hOpen,
          List.length_cons, Prod.mk.injEq] at hLength
        rcases ih (Prod.ext (by omega) hLength.2) with
          ⟨body, rfl, hBody⟩
        exact ⟨_, rfl, .pair hOpen hBody⟩
    | case5 c s hAlone hClosing hPair n closed hRest ih =>
        have hPlain : c ≠ '*' := by
          rintro rfl
          cases s with
          | nil => exact hAlone rfl rfl
          | cons d s => exact hPair d s rfl rfl
        simp only [List.cons_append,
          commentLength_plain hPlain, List.length_cons,
          Prod.mk.injEq] at hLength
        rcases ih (Prod.ext (by omega) hLength.2) with
          ⟨body, rfl, hBody⟩
        exact ⟨_, rfl, .plain hPlain hBody⟩
  · rintro ⟨body, rfl, hBody⟩
    rw [List.append_assoc]
    simpa using commentLength_of_body hBody rest

/- Up to its first closing mark a comment is read as one exactly if an even number of stars is in front of the mark. -/
theorem commentBody_iff_even
    {body : List Char}
    (hOpen : Unmarked body) :
    CommentBody body ↔ Even (endStars body) := by
  have hLength := commentLength_append hOpen []
  constructor
  · intro hBody
    by_contra hOdd
    rw [commentLength_of_body hBody, if_neg hOdd] at hLength
    cases hLength
  · intro hEven
    rw [if_pos hEven] at hLength
    have hClosed :
        commentLength (body ++ ['*', '/'] ++ []) =
          ((body ++ ['*', '/']).length, true) := by
      simpa using hLength
    rcases commentLength_eq_closed_iff.mp hClosed with
      ⟨body', hSame, hBody⟩
    rwa [List.append_cancel_right hSame]

/- A text with a closing mark has a first one. -/
theorem exists_unmarked_of_mark
    {body : List Char}
    (hMarked : ¬Unmarked body) :
    ∃ front back,
      body = front ++ '*' :: '/' :: back ∧ Unmarked front := by
  unfold Unmarked at hMarked ⊢
  rw [not_not] at hMarked
  induction body with
  | nil => simp at hMarked
  | cons c body ih =>
      by_cases hFirst : ['*', '/'] <+: c :: body
      · rcases hFirst with ⟨back, hBack⟩
        exact ⟨[], back, hBack.symm, by simp⟩
      · rw [List.infix_cons_iff, or_iff_right hFirst] at hMarked
        rcases ih hMarked with ⟨front, back, hSplit, hOpen⟩
        refine ⟨c :: front, back, by rw [hSplit]; rfl, ?_⟩
        rw [List.infix_cons_iff, or_iff_left hOpen]
        intro hPrefix
        apply hFirst
        rw [hSplit, ← List.cons_append]
        exact hPrefix.trans (List.prefix_append _ _)

------------------------------------------------------------
-- Pieces That Are Comments
------------------------------------------------------------

variable {P : List Char → Prop}

/- The text is a comment of a line, or a block comment with such a body. -/
inductive IsComment (P : List Char → Prop) :
    List Char → Prop where
| line
    {body : List Char}
    (hLine : '\n' ∉ body) :
    IsComment P ('-' :: '-' :: body)
| block
    {body : List Char}
    (hBody : P body) :
    IsComment P (blockComment body)

/- If the piece is written as a block comment, then it is skipped exactly if it has such a body. -/
def SkipsBlocks
    (P : List Char → Prop)
    (p : Piece) : Prop :=
  ∀ body,
    p.text = blockComment body → (p.token? = none ↔ P body)

/- The first closing mark of a comment at the start of the text is behind an even number of stars. -/
def ShowsMark (text : List Char) : Prop :=
  ∀ body rest,
    Unmarked body → text = blockComment body ++ rest →
      Even (endStars body)

theorem showsMark_iff {text : List Char} :
    (∀ n < text.length,
      Unmarked ((text.drop 2).take n) →
        text =
            blockComment ((text.drop 2).take n) ++
              text.drop (n + 4) →
          Even (endStars ((text.drop 2).take n))) ↔
      ShowsMark text := by
  constructor
  · rintro hShows body rest hOpen rfl
    have hBody :
        ((blockComment body ++ rest).drop 2).take
          body.length = body := by
      simp [blockComment]
    have hRest :
        (blockComment body ++ rest).drop (body.length + 4) =
          rest := by
      simp [blockComment]
    have hOwn :=
      hShows body.length (by simp [blockComment]; omega)
    rw [hBody, hRest] at hOwn
    exact hOwn hOpen rfl
  · intro hShows n _ hOpen hText
    exact hShows _ _ hOpen hText

instance (text : List Char) : Decidable (ShowsMark text) :=
  decidable_of_iff _ showsMark_iff

theorem skipsBlocks_commentBody
    {token? : Option Token}
    (hScan : scan c (w ++ rest) = (token?, w.length)) :
    SkipsBlocks CommentBody
      { token? := token?
        text := c :: w } := by
  intro body hText
  change c :: w = '/' :: '*' :: (body ++ ['*', '/']) at hText
  rw [List.cons.injEq] at hText
  rcases hText with ⟨rfl, rfl⟩
  rw [List.cons_append, scan_comment, Prod.mk.injEq,
    List.length_cons] at hScan
  rcases hScan with ⟨rfl, hLength⟩
  have hClosed :
      (commentLength (body ++ ['*', '/'] ++ rest)).2 = true ↔
        CommentBody body := by
    constructor
    · intro hClosed
      rcases commentLength_eq_closed_iff.mp
        (Prod.ext (by omega) hClosed) with
        ⟨body', hSame, hBody⟩
      rwa [List.append_cancel_right hSame]
    · intro hBody
      rw [commentLength_eq_closed_iff.mpr ⟨body, rfl, hBody⟩]
  rw [← hClosed]
  simp

theorem skipsBlocks_of_mem
    {p : Piece}
    (hMember : p ∈ pieces s) :
    SkipsBlocks CommentBody p := by
  rcases p with ⟨token?, text⟩
  rcases scan_of_mem_pieces hMember with
    ⟨c, w, rest, rfl, hScan⟩
  exact skipsBlocks_commentBody hScan

/- Where no mark is hidden, the comments that are skipped are those up to the first mark. -/
theorem SkipsBlocks.unmarked
    {p : Piece}
    (hSkips : SkipsBlocks CommentBody p)
    (hShows : ShowsMark p.text) :
    SkipsBlocks Unmarked p := by
  intro body hText
  rw [hSkips body hText]
  constructor
  · intro hBody hMarked
    rcases exists_unmarked_of_mark (not_not_intro hMarked) with
      ⟨front, back, rfl, hOpen⟩
    have hEven : Even (endStars front) := by
      apply hShows front (back ++ ['*', '/']) hOpen
      rw [hText, blockComment_append]
      simp [blockComment]
    have hFirst :=
      commentLength_append hOpen (back ++ ['*', '/'])
    have hLast := commentLength_of_body hBody []
    rw [if_pos hEven] at hFirst
    rw [List.append_assoc, List.cons_append,
      List.cons_append, hFirst, Prod.mk.injEq,
      List.length_append] at hLast
    simp at hLast
  · intro hOpen
    rw [commentBody_iff_even hOpen]
    exact hShows body [] hOpen (by rw [hText, List.append_nil])

/- What is read as a token is no comment. -/
theorem not_isComment_of_scan
    {t : Token}
    (hScan : scan c (w ++ rest) = (some t, w.length))
    (hSkips :
      SkipsBlocks P
        { token? := some t
          text := c :: w }) :
    ¬IsComment P (c :: w) := by
  intro hComment
  generalize hText : c :: w = k at hComment
  cases hComment with
  | line hLine =>
      rw [List.cons.injEq] at hText
      rcases hText with ⟨rfl, rfl⟩
      rw [List.cons_append, scan_line] at hScan
      cases hScan
  | block hBody => cases (hSkips _ hText).mpr hBody

------------------------------------------------------------
-- Gaps
------------------------------------------------------------

/-
  A text in front of another one that is made of blanks and
  complete comments: one of a line goes on to the end of the
  line or of the text.
-/
inductive Skipped
    (P : List Char → Prop)
    (rest : List Char) : List Char → Prop where
| nil : Skipped P rest []
| blank
    {c : Char}
    {s : List Char}
    (hBlank : isGapBlank c = true)
    (hRest : Skipped P rest s) :
    Skipped P rest (c :: s)
| line
    {body s : List Char}
    (hLine : '\n' ∉ body)
    (hEnd : ∀ c ∈ (s ++ rest).head?, c = '\n')
    (hRest : Skipped P rest s) :
    Skipped P rest ('-' :: '-' :: body ++ s)
| block
    {body s : List Char}
    (hBody : P body)
    (hRest : Skipped P rest s) :
    Skipped P rest (blockComment body ++ s)

theorem Skipped.append
    {g h : List Char}
    (hFirst : Skipped P (h ++ rest) g)
    (hSecond : Skipped P rest h) :
    Skipped P rest (g ++ h) := by
  induction hFirst with
  | nil => exact hSecond
  | blank hBlank _ ih => exact .blank hBlank ih
  | line hLine hEnd _ ih =>
      rw [List.append_assoc]
      refine .line hLine ?_ ih
      rwa [List.append_assoc]
  | block hBody _ ih =>
      rw [List.append_assoc]
      exact .block hBody ih

theorem skipped_of_blanks
    (hBlank : ∀ c ∈ s, isGapBlank c = true) :
    Skipped P rest s := by
  induction s with
  | nil => exact .nil
  | cons c s ih =>
      rw [List.forall_mem_cons] at hBlank
      exact .blank hBlank.1 (ih hBlank.2)

/- A comment up to the end of a line is read up to a line break. -/
theorem skipped_of_scan_line
    (hScan : scan '-' (w ++ rest) = (none, w.length))
    (hHead : (w ++ rest).head? = some '-') :
    Skipped P rest ('-' :: w) := by
  cases w with
  | nil =>
      rcases rest with _ | ⟨d, rest⟩
      · cases hHead
      · cases hHead
        rw [List.nil_append, scan_line, Prod.mk.injEq,
          List.length_nil] at hScan
        omega
  | cons d w =>
      cases hHead
      rw [List.cons_append, scan_line, Prod.mk.injEq,
        List.length_cons, Nat.add_comm,
        Nat.add_right_cancel_iff, runLength_append_iff]
        at hScan
      rcases hScan with ⟨_, hInside, hEnd⟩
      have hWhole :
          '-' :: '-' :: w = '-' :: '-' :: w ++ [] := by
        simp
      rw [hWhole]
      refine .line ?_ ?_ .nil
      · intro hMember
        simpa using hInside _ hMember
      · intro c hHead
        cases rest with
        | nil => cases hHead
        | cons d rest =>
            cases hHead
            simpa [startsWith] using hEnd

/- A comment that is skipped is read up to its closing mark. -/
theorem skipped_of_scan_comment
    (hScan : scan '/' (w ++ rest) = (none, w.length))
    (hHead : (w ++ rest).head? = some '*')
    (hSkips :
      SkipsBlocks P
        { token? := none
          text := '/' :: w }) :
    Skipped P rest ('/' :: w) := by
  cases w with
  | nil =>
      rcases rest with _ | ⟨d, rest⟩
      · cases hHead
      · cases hHead
        rw [List.nil_append, scan_comment, Prod.mk.injEq,
          List.length_nil] at hScan
        omega
  | cons d w =>
      cases hHead
      rw [List.cons_append, scan_comment, Prod.mk.injEq,
        List.length_cons] at hScan
      have hClosed :
          commentLength (w ++ rest) = (w.length, true) := by
        refine Prod.ext (by omega) ?_
        by_contra hOpen
        rw [if_neg hOpen] at hScan
        cases hScan.1
      rcases commentLength_eq_closed_iff.mp hClosed with
        ⟨body, rfl, _⟩
      have hBlock :
          Skipped P rest (blockComment body ++ []) :=
        .block ((hSkips body rfl).mp rfl) .nil
      rwa [List.append_nil] at hBlock

/- What is read as a gap is a run of blanks or a complete comment. -/
theorem skipped_of_scan
    (hScan : scan c (w ++ rest) = (none, w.length))
    (hSkips :
      SkipsBlocks P
        { token? := none
          text := c :: w }) :
    Skipped P rest (c :: w) := by
  by_cases hGap : isGapBlank c = true
  · unfold scan at hScan
    rw [if_pos hGap, Prod.mk.injEq, runLength_append_iff]
      at hScan
    apply skipped_of_blanks
    rw [List.forall_mem_cons]
    exact ⟨hGap, hScan.2.1⟩
  by_cases hLine : c = '-' ∧ (w ++ rest).head? = some '-'
  · rcases hLine with ⟨rfl, hHead⟩
    exact skipped_of_scan_line hScan hHead
  by_cases hBlock : c = '/' ∧ (w ++ rest).head? = some '*'
  · rcases hBlock with ⟨rfl, hHead⟩
    exact skipped_of_scan_comment hScan hHead hSkips
  · rw [scan_of_token hGap hLine hBlock] at hScan
    cases hScan

------------------------------------------------------------
-- Lexemes In Their Text
------------------------------------------------------------

/-
  Lexemes and a gap behind them: all gaps are skipped where
  they stand, and no lexeme is empty or a comment.
-/
inductive LaidOut (P : List Char → Prop) :
    List Lexeme → List Char → Prop where
| nil
    {g : List Char}
    (hGap : Skipped P [] g) :
    LaidOut P [] g
| cons
    {l : Lexeme}
    {ls : List Lexeme}
    {g : List Char}
    (hGap :
      Skipped P (l.text ++ (Lexeme.fullText ls ++ g)) l.gap)
    (hText : l.text ≠ [])
    (hToken : ¬IsComment P l.text)
    (hRest : LaidOut P ls g) :
    LaidOut P (l :: ls) g

theorem laidOut_of_skipped
    {gap : List Char}
    (hSkips : ∀ p ∈ pieces s, SkipsBlocks P p)
    (hGap : Skipped P s gap) :
    LaidOut P (lexemesFrom gap (pieces s))
      (trailingFrom gap (pieces s)) := by
  induction s using pieces_induction generalizing gap with
  | hNil =>
      rw [pieces_nil]
      exact .nil hGap
  | hCons c w rest token? hScan ih =>
      rw [pieces_append hScan, List.forall_mem_cons] at hSkips
      rw [pieces_append hScan]
      cases token? with
      | none =>
          apply ih hSkips.2
          exact hGap.append (skipped_of_scan hScan hSkips.1)
      | some t =>
          have hText :
              Lexeme.fullText (lexemes rest) ++
                  trailingGap rest = rest :=
            fullText_lexemes rest
          refine
            .cons ?_ (List.cons_ne_nil c w)
              (not_isComment_of_scan hScan hSkips.1)
              (ih hSkips.2 .nil)
          change
            Skipped P (c :: w ++
              (Lexeme.fullText (lexemes rest) ++
                trailingGap rest)) gap
          rwa [hText]

theorem laidOut_lexemes
    (hSkips : ∀ p ∈ pieces s, SkipsBlocks P p) :
    LaidOut P (lexemes s) (trailingGap s) :=
  laidOut_of_skipped hSkips .nil

------------------------------------------------------------
-- Byte Ranges Of Tokens And Gaps
------------------------------------------------------------

/- The byte ranges of the tokens of a text. -/
def tokenSpans (s : List Char) : List (Nat × Nat) :=
  (spannedTokens s).map Prod.snd

/- What byte ranges leave: in front of the first, between them, and behind the last. -/
def spansAround
    (start finish : Nat) : List (Nat × Nat) → List (Nat × Nat)
| [] => [(start, finish)]
| r :: rs => (start, r.1) :: spansAround r.2 finish rs

/- The byte ranges before, between and after the tokens of a text. -/
def gapSpans (s : List Char) : List (Nat × Nat) :=
  spansAround 0 (Lexeme.byteSize s) (tokenSpans s)

/- The byte range holds the character that comes after a text. -/
def Holds
    (before : List Char)
    (c : Char)
    (r : Nat × Nat) : Bool :=
  r.1 ≤ Lexeme.byteSize before &&
    Lexeme.byteSize (before ++ [c]) ≤ r.2

variable {g : List Char} {ls : List Lexeme}

theorem tokenSpans_eq (s : List Char) :
    tokenSpans s = Lexeme.byteSpans (lexemes s) := by
  apply List.map_snd_zip
  rw [List.length_map]
  exact Nat.le_of_eq (Lexeme.length_byteSpansFrom 0 (lexemes s))

/- Byte ranges of lexemes start behind what is in front of them. -/
theorem le_of_mem_byteSpansFrom
    {n : Nat}
    {r : Nat × Nat}
    (hMember : r ∈ Lexeme.byteSpansFrom n ls) :
    n ≤ r.1 := by
  induction ls generalizing n with
  | nil => cases hMember
  | cons l ls ih =>
      rcases List.mem_cons.mp hMember with rfl | hLater
      · exact Nat.le_add_right _ _
      · have hBehind := ih hLater
        omega

theorem le_of_mem_spansAround
    {n finish : Nat}
    {r : Nat × Nat}
    (hMember :
      r ∈ spansAround n finish (Lexeme.byteSpansFrom n ls)) :
    n ≤ r.1 := by
  induction ls generalizing n with
  | nil =>
      rw [List.mem_singleton.mp hMember]
  | cons l ls ih =>
      rcases List.mem_cons.mp hMember with rfl | hLater
      · exact Nat.le_refl _
      · have hBehind := ih hLater
        omega

/- The byte ranges of lexemes are in order. -/
theorem pairwise_byteSpansFrom
    (n : Nat)
    (ls : List Lexeme) :
    (Lexeme.byteSpansFrom n ls).Pairwise fun r r' =>
      r.2 ≤ r'.1 := by
  induction ls generalizing n with
  | nil => exact .nil
  | cons l ls ih =>
      rw [Lexeme.byteSpansFrom, List.pairwise_cons]
      exact
        ⟨fun _ hLater => le_of_mem_byteSpansFrom hLater, ih _⟩

theorem LaidOut.text_of_mem
    (hLaid : LaidOut P ls g)
    {l : Lexeme}
    (hMember : l ∈ ls) :
    l.text ≠ [] ∧ ¬IsComment P l.text := by
  induction hLaid with
  | nil => cases hMember
  | cons _ hText hToken _ ih =>
      rcases List.mem_cons.mp hMember with rfl | hLater
      · exact ⟨hText, hToken⟩
      · exact ih hLater

/- A token is some text of its own, and no comment. -/
theorem LaidOut.slices
    (hLaid : LaidOut P ls g)
    {before : List Char}
    (hText : s = before ++ (Lexeme.fullText ls ++ g))
    {r : Nat × Nat}
    (hMember :
      r ∈ (spannedFrom (Lexeme.byteSize before) ls).map
        Prod.snd) :
    r.1 < r.2 ∧
      ∃ t, Text.slice? r.1 r.2 s = some t ∧
        ¬IsComment P t := by
  rcases List.mem_map.mp hMember with ⟨t, hToken, rfl⟩
  rcases slice?_of_mem_spannedFrom hText t hToken with
    ⟨l, hInside, _, hSlice⟩
  rcases hLaid.text_of_mem hInside with ⟨hSome, hNoComment⟩
  exact
    ⟨Text.lt_of_slice? hSlice hSome, l.text, hSlice,
      hNoComment⟩

/- What is left between tokens is skipped. -/
theorem LaidOut.gaps
    (hLaid : LaidOut P ls g)
    {before : List Char}
    (hText : s = before ++ (Lexeme.fullText ls ++ g)) :
    ∀ r ∈ spansAround (Lexeme.byteSize before)
        (Lexeme.byteSize s)
        (Lexeme.byteSpansFrom (Lexeme.byteSize before) ls),
      ∃ u t v,
        s = u ++ (t ++ v) ∧ Lexeme.byteSize u = r.1 ∧
          Lexeme.byteSize (u ++ t) = r.2 ∧ Skipped P v t := by
  induction hLaid generalizing before with
  | @nil g hGap =>
      have hWhole : s = before ++ (g ++ []) := by
        rw [hText, List.append_nil]
        rfl
      have hEnd : before ++ g = s := by
        rw [hWhole, List.append_nil]
      simp only [Lexeme.byteSpansFrom, spansAround,
        List.forall_mem_singleton]
      exact ⟨before, g, [], hWhole, rfl, by rw [hEnd], hGap⟩
  | @cons l ls g hGap _ _ _ ih =>
      have hSplit :
          s =
            before ++
              (l.gap ++
                (l.text ++ (Lexeme.fullText ls ++ g))) := by
        rw [hText]
        simp [Lexeme.fullText]
      rw [Lexeme.byteSpansFrom, spansAround,
        List.forall_mem_cons]
      constructor
      · exact
          ⟨_, _, _, hSplit, rfl, Lexeme.byteSize_append _ _,
            hGap⟩
      · dsimp only
        rw [← Lexeme.byteSize_append,
          ← Lexeme.byteSize_append]
        apply ih
        rw [hSplit]
        simp

theorem holds_iff
    {before : List Char}
    {r : Nat × Nat} :
    Holds before c r = true ↔
      r.1 ≤ Lexeme.byteSize before ∧
        Lexeme.byteSize before + c.utf8Size ≤ r.2 := by
  have hSize :
      Lexeme.byteSize (before ++ [c]) =
        Lexeme.byteSize before + c.utf8Size :=
    Lexeme.byteSize_append before [c]
  rw [Holds, Bool.and_eq_true, decide_eq_true_eq,
    decide_eq_true_eq, hSize]

/- No byte range behind a character holds it. -/
theorem countP_holds_eq_zero
    {before : List Char}
    {n : Nat}
    {rs : List (Nat × Nat)}
    (hBehind : ∀ r ∈ rs, n ≤ r.1)
    (hFront : Lexeme.byteSize before < n) :
    rs.countP (Holds before c) = 0 := by
  rw [List.countP_eq_zero]
  intro r hMember hHolds
  have hStart := hBehind r hMember
  rw [holds_iff] at hHolds
  omega

/- A character of two texts is in the first or in the second one. -/
theorem append_eq_append_cons
    {x y u v : List Char}
    (hText : x ++ y = u ++ c :: v) :
    (∃ v', x = u ++ c :: v') ∨
      ∃ u', u = x ++ u' ∧ y = u' ++ c :: v := by
  rcases List.append_eq_append_iff.mp hText with
    ⟨u', hFront, hBack⟩ | ⟨v', hFront, hBack⟩
  · exact .inr ⟨u', hFront, hBack⟩
  · cases v' with
    | nil =>
        rw [List.append_nil] at hFront
        exact
          .inr
            ⟨[], by rw [hFront, List.append_nil], hBack.symm⟩
    | cons d v' =>
        rw [List.cons_append, List.cons.injEq] at hBack
        exact .inl ⟨v', by rw [hFront, hBack.1]⟩

/- A character lies in one byte range, of a token or of a gap. -/
theorem countP_holds
    {n finish : Nat}
    {before u v : List Char}
    (hText : Lexeme.fullText ls ++ g = u ++ c :: v)
    (hStart : n = Lexeme.byteSize before)
    (hFinish :
      finish =
        n + Lexeme.byteSize (Lexeme.fullText ls ++ g)) :
    (Lexeme.byteSpansFrom n ls).countP
          (Holds (before ++ u) c) +
        (spansAround n finish
            (Lexeme.byteSpansFrom n ls)).countP
          (Holds (before ++ u) c) =
      1 := by
  have hPos := c.utf8Size_pos
  induction ls generalizing n before u with
  | nil =>
      have hHolds :
          Holds (before ++ u) c (n, finish) = true := by
        rw [hText] at hFinish
        simp only [holds_iff, Lexeme.byteSize_append,
          Lexeme.byteSize] at hFinish ⊢
        omega
      simp [Lexeme.byteSpansFrom, spansAround, hHolds]
  | cons l ls ih =>
      have hSplit :
          l.gap ++ (l.text ++ (Lexeme.fullText ls ++ g)) =
            u ++ c :: v := by
        rw [← hText]
        simp [Lexeme.fullText]
      have hSize :
          Lexeme.byteSize (Lexeme.fullText (l :: ls) ++ g) =
            Lexeme.byteSize l.gap +
              (Lexeme.byteSize l.text +
                Lexeme.byteSize (Lexeme.fullText ls ++ g)) := by
        rw [← Lexeme.byteSize_append,
          ← Lexeme.byteSize_append]
        simp [Lexeme.fullText]
      have hLater
          (hFront :
            Lexeme.byteSize (before ++ u) <
              n + Lexeme.byteSize l.gap +
                Lexeme.byteSize l.text) :
          (Lexeme.byteSpansFrom
              (n + Lexeme.byteSize l.gap +
                Lexeme.byteSize l.text) ls).countP
                (Holds (before ++ u) c) = 0 ∧
            (spansAround
              (n + Lexeme.byteSize l.gap +
                Lexeme.byteSize l.text) finish
              (Lexeme.byteSpansFrom
                (n + Lexeme.byteSize l.gap +
                  Lexeme.byteSize l.text) ls)).countP
                (Holds (before ++ u) c) = 0 :=
        ⟨countP_holds_eq_zero
            (fun _ hMember => le_of_mem_byteSpansFrom hMember)
            hFront,
          countP_holds_eq_zero
            (fun _ hMember => le_of_mem_spansAround hMember)
            hFront⟩
      simp only [Lexeme.byteSpansFrom, spansAround,
        List.countP_cons, holds_iff]
      rcases append_eq_append_cons hSplit with
        ⟨v', hGap⟩ | ⟨u', rfl, hRest⟩
      · -- The character is in the gap.
        simp only [hGap, Lexeme.byteSize_append,
          Lexeme.byteSize] at hLater ⊢
        rw [(hLater (by omega)).1, (hLater (by omega)).2,
          if_neg (by omega), if_pos (by omega)]
      rcases append_eq_append_cons hRest with
        ⟨v', hToken⟩ | ⟨u'', rfl, hBehind⟩
      · -- The character is in the token.
        simp only [hToken, Lexeme.byteSize_append,
          Lexeme.byteSize] at hLater ⊢
        rw [(hLater (by omega)).1, (hLater (by omega)).2,
          if_pos (by omega), if_neg (by omega)]
      · have hStart' :
            n + Lexeme.byteSize l.gap + Lexeme.byteSize l.text =
              Lexeme.byteSize (before ++ (l.gap ++ l.text)) := by
          rw [hStart, Lexeme.byteSize_append,
            Lexeme.byteSize_append, Nat.add_assoc]
        have hOne := ih hBehind hStart' (by rw [hFinish]; omega)
        have hSame :
            before ++ (l.gap ++ l.text) ++ u'' =
              before ++ (l.gap ++ (l.text ++ u'')) := by
          simp
        rw [hSame] at hOne
        simp only [Lexeme.byteSize_append]
        rw [if_neg (by omega), if_neg (by omega)]
        exact hOne

/-
  The tokens of a text are not empty, lie in it between whole
  characters, are in order and apart, and are no comments.
  What they leave consists of blanks and complete comments.
  Every character lies in exactly one token, or in none and
  in exactly one of the gaps.  The bodies of block comments
  are those with `P`.
-/
structure Tiled
    (P : List Char → Prop)
    (s : List Char) : Prop where
  tokens :
    ∀ r ∈ tokenSpans s,
      r.1 < r.2 ∧
        ∃ t, Text.slice? r.1 r.2 s = some t ∧
          ¬IsComment P t
  apart : (tokenSpans s).Pairwise fun r r' => r.2 ≤ r'.1
  gaps :
    ∀ r ∈ gapSpans s,
      ∃ u t v,
        s = u ++ (t ++ v) ∧ Lexeme.byteSize u = r.1 ∧
          Lexeme.byteSize (u ++ t) = r.2 ∧ Skipped P v t
  once :
    ∀ u c v,
      s = u ++ c :: v →
        (tokenSpans s).countP (Holds u c) +
          (gapSpans s).countP (Holds u c) = 1

theorem tiled_of_skipsBlocks
    (hSkips : ∀ p ∈ pieces s, SkipsBlocks P p) :
    Tiled P s := by
  have hText :
      s = [] ++ (Lexeme.fullText (lexemes s) ++ trailingGap s) :=
    (fullText_lexemes s).symm
  have hLaid := laidOut_lexemes hSkips
  have hSpans := tokenSpans_eq s
  refine
    { tokens := fun r => hLaid.slices hText
      apart := ?_
      gaps := ?_
      once := fun u c v hSplit => ?_ }
  · rw [hSpans]
    exact pairwise_byteSpansFrom 0 _
  · unfold gapSpans
    rw [hSpans]
    exact hLaid.gaps hText
  · have hWhole :
        Lexeme.fullText (lexemes s) ++ trailingGap s =
          u ++ c :: v := by
      rw [fullText_lexemes, hSplit]
    have hStart : 0 = Lexeme.byteSize [] := rfl
    unfold gapSpans
    rw [hSpans]
    apply countP_holds hWhole hStart
    rw [fullText_lexemes, Nat.zero_add]

/-
  Every text is tiled by tokens, blanks and comments in which
  a star hides what is behind it.  It is tiled by tokens,
  blanks and comments up to their first closing mark, if no
  such mark is hidden.
-/
theorem spans_tile (s : List Char) :
    Tiled CommentBody s ∧
      ((∀ p ∈ pieces s, ShowsMark p.text) →
        Tiled Unmarked s) := by
  constructor
  · exact
      tiled_of_skipsBlocks fun p hMember =>
        skipsBlocks_of_mem hMember
  · intro hShows
    exact
      tiled_of_skipsBlocks fun p hMember =>
        (skipsBlocks_of_mem hMember).unmarked
          (hShows p hMember)

/- Two stars in front of a closing mark do not hide it. -/
theorem comment_with_stars_is_skipped :
    Tiled Unmarked "a /* b ***/ c -- d".toList :=
  (spans_tile "a /* b ***/ c -- d".toList).2 (by decide +kernel)

/- A star hides the closing mark of a comment: the comment is a token, or it takes in what is behind it. -/
theorem marked_comment_is_token :
    IsComment Unmarked "/***/".toList ∧
      spannedTokens "/***/".toList = [(.unknown, (0, 5))] ∧
      ¬Tiled Unmarked "/***/".toList ∧
      spannedTokens "/***/ x /* c */".toList = [] := by
  have hBody : Unmarked ['*'] := by decide
  have hComment : IsComment Unmarked "/***/".toList :=
    .block hBody
  have hTokens :
      spannedTokens "/***/".toList = [(.unknown, (0, 5))] := by
    decide +kernel
  refine ⟨hComment, hTokens, ?_, by decide +kernel⟩
  intro hTiled
  have hMember : (0, 5) ∈ tokenSpans "/***/".toList := by
    unfold tokenSpans
    rw [hTokens]
    exact List.mem_singleton_self _
  rcases hTiled.tokens (0, 5) hMember with
    ⟨_, t, hSlice, hNone⟩
  have hWhole :
      Text.slice? 0 5 "/***/".toList = some "/***/".toList := by
    decide
  rw [hWhole, Option.some.injEq] at hSlice
  rw [← hSlice] at hNone
  exact hNone hComment

end Lexer

end Rowstore
