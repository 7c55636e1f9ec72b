import Rowstore.Proofs.Statement.Comments

/-
  How a piece depends on the text behind it.

  A text is milder than another one if it ends earlier, or if
  from some place on it has a blank and anything else instead
  of a dash or a slash.  No piece that ends before a text
  takes in anything of a milder text.

  Main declarations:
    * `Lexer.Milder`
    * `Lexer.Settled`
    * `Lexer.scan_milder`
    * `Lexer.scan_le_length`
-/

------------------------------------------------------------
-- Milder Texts
------------------------------------------------------------

namespace Rowstore

namespace Lexer

/- The second text ends earlier, or goes on with a blank for a dash or a slash. -/
inductive Milder : List Char → List Char → Prop where
| ends (s : List Char) : Milder s []
| blank
    {c : Char}
    {s : List Char}
    (hOpens : c = '-' ∨ c = '/')
    (r : List Char) :
    Milder (c :: s) (' ' :: r)
| cons
    (c : Char)
    {s s' : List Char}
    (hRest : Milder s s') :
    Milder (c :: s) (c :: s')

variable {p : Char → Bool} {rest rest' : List Char}
variable {c : Char} {w : List Char}

theorem Milder.append
    (hMilder : Milder rest rest')
    (s : List Char) :
    Milder (s ++ rest) (s ++ rest') := by
  induction s with
  | nil => exact hMilder
  | cons c s ih => exact .cons c ih

theorem Milder.startsWith_eq_false
    (hMilder : Milder rest rest')
    (hClass :
      p ' ' = false ∨ p '-' = true ∧ p '/' = true)
    (hNone : startsWith p rest = false) :
    startsWith p rest' = false := by
  cases hMilder with
  | ends => rfl
  | cons c => exact hNone
  | blank hOpens =>
      rcases hClass with hBlank | ⟨hDash, hSlash⟩
      · exact hBlank
      · rcases hOpens with rfl | rfl
        · exact absurd hNone (by simp [startsWith, hDash])
        · exact absurd hNone (by simp [startsWith, hSlash])

/-
  A length is settled if it is no longer than the text, and
  the same in front of a milder text whenever it ends before
  that text.
-/
structure Settled (f : List Char → Nat) : Prop where
  le_length : ∀ s, f s ≤ s.length
  stays :
    ∀ {rest rest' : List Char},
      Milder rest rest' →
        ∀ w, f (w ++ rest) ≤ w.length →
          f (w ++ rest') = f (w ++ rest)

/- A length that is nothing before a blank is settled by the text behind one character. -/
theorem Settled.of_cons
    {f : List Char → Nat}
    (hNil : f [] = 0)
    (hBlank : ∀ r, f (' ' :: r) = 0)
    (hWithin : ∀ c s, f (c :: s) ≤ s.length + 1)
    (hCons :
      ∀ {rest rest' : List Char},
        Milder rest rest' →
          ∀ c w, f (c :: (w ++ rest)) ≤ w.length + 1 →
            f (c :: (w ++ rest')) = f (c :: (w ++ rest))) :
    Settled f where
  le_length s := by
    cases s with
    | nil => exact Nat.le_of_eq hNil
    | cons c s => exact hWithin c s
  stays := by
    intro rest rest' hMilder w hInside
    cases w with
    | cons c w => exact hCons hMilder c w hInside
    | nil =>
        have hNone : f rest = 0 :=
          Nat.eq_zero_of_le_zero hInside
        change f rest' = f rest
        cases hMilder with
        | ends => rw [hNil, hNone]
        | blank => rw [hBlank, hNone]
        | cons c hRest =>
            apply hCons hRest c []
            rw [List.nil_append, hNone]
            exact Nat.zero_le _

------------------------------------------------------------
-- Runs
------------------------------------------------------------

theorem runLength_cons
    (p : Char → Bool)
    (c : Char)
    (s : List Char) :
    runLength p (c :: s) =
      if p c then runLength p s + 1 else 0 := by
  unfold runLength
  rw [List.takeWhile_cons]
  split <;> rfl

theorem runLength_eq_zero_iff {s : List Char} :
    runLength p s = 0 ↔ startsWith p s = false := by
  cases s with
  | nil => simp [runLength, startsWith]
  | cons c s =>
      rw [runLength_cons, startsWith]
      cases p c <;> simp

/- A run takes up a text exactly if it goes on to its end, and no further. -/
theorem runLength_append_iff :
    runLength p (w ++ rest) = w.length ↔
      (∀ c ∈ w, p c = true) ∧ startsWith p rest = false := by
  constructor
  · intro hRun
    induction w with
    | nil => exact ⟨by simp, runLength_eq_zero_iff.mp hRun⟩
    | cons c w ih =>
        rw [List.cons_append, runLength_cons,
          List.length_cons] at hRun
        split at hRun
        · rename_i hHolds
          rcases ih (by omega) with ⟨hInside, hEnd⟩
          exact
            ⟨List.forall_mem_cons.mpr ⟨hHolds, hInside⟩,
              hEnd⟩
        · omega
  · rintro ⟨hInside, hEnd⟩
    exact runLength_append hInside hEnd

theorem runLength_le_length
    (p : Char → Bool)
    (s : List Char) :
    runLength p s ≤ s.length :=
  (List.takeWhile_sublist p).length_le

theorem settled_runLength
    (hClass :
      p ' ' = false ∨ p '-' = true ∧ p '/' = true) :
    Settled (runLength p) where
  le_length := runLength_le_length p
  stays := by
    intro rest rest' hMilder w hInside
    induction w with
    | nil =>
        have hNone : runLength p rest = 0 :=
          Nat.eq_zero_of_le_zero hInside
        have hNone' : runLength p rest' = 0 := by
          rw [runLength_eq_zero_iff] at hNone ⊢
          exact hMilder.startsWith_eq_false hClass hNone
        rw [List.nil_append, List.nil_append, hNone, hNone']
    | cons c w ih =>
        rw [List.cons_append, runLength_cons] at hInside
        rw [List.cons_append, List.cons_append,
          runLength_cons, runLength_cons]
        split
        · rename_i hHolds
          rw [if_pos hHolds, List.length_cons] at hInside
          rw [ih (by omega)]
        · rfl

theorem settled_digits : Settled (runLength Decimal.isDigit) :=
  settled_runLength (.inl (by decide))

------------------------------------------------------------
-- Numbers
------------------------------------------------------------

/- The length of digits with an optional sign, or zero if there are no digits. -/
def signedLength (s : List Char) : Nat :=
  let signed := startsWith (fun d => d == '+' || d == '-') s
  let digits :=
    runLength Decimal.isDigit (if signed then s.drop 1 else s)
  if digits = 0 then 0 else (if signed then 1 else 0) + digits

theorem signedLength_cons
    (c : Char)
    (s : List Char) :
    signedLength (c :: s) =
      if c = '+' ∨ c = '-' then
        if runLength Decimal.isDigit s = 0 then 0
        else 1 + runLength Decimal.isDigit s
      else runLength Decimal.isDigit (c :: s) := by
  unfold signedLength startsWith
  by_cases hSign : c = '+' ∨ c = '-'
  · simp [hSign]
  · simpa [hSign] using fun hNone => hNone.symm

theorem exponentLength_cons
    (c : Char)
    (s : List Char) :
    exponentLength (c :: s) =
      if c = 'e' ∨ c = 'E' then
        if signedLength s = 0 then 0 else 1 + signedLength s
      else 0 := by
  unfold exponentLength signedLength
  dsimp only
  by_cases hMark : c = 'e' ∨ c = 'E'
  · rw [if_pos (by simpa using hMark), if_pos hMark]
    by_cases hNone :
        runLength Decimal.isDigit
          (if startsWith (fun d => d == '+' || d == '-') s
            then s.drop 1
          else s) = 0
    · rw [if_pos hNone, if_pos hNone, if_pos rfl]
    · simp only [hNone, Nat.add_eq_zero_iff, and_false,
        if_false, Nat.add_assoc]
  · rw [if_neg (by simpa using hMark), if_neg hMark]

theorem settled_signedLength : Settled signedLength := by
  refine Settled.of_cons rfl (fun _ => rfl) ?_ ?_
  · intro c s
    have hWithin := settled_digits.le_length
    rw [signedLength_cons]
    split
    · specialize hWithin s
      split <;> omega
    · exact hWithin (c :: s)
  intro rest rest' hMilder c w hInside
  rw [signedLength_cons] at hInside
  rw [signedLength_cons, signedLength_cons]
  split
  · rename_i hSign
    rw [if_pos hSign] at hInside
    rw [settled_digits.stays hMilder w]
    split at hInside <;> omega
  · rename_i hSign
    rw [if_neg hSign] at hInside
    exact settled_digits.stays hMilder (c :: w) hInside

theorem settled_exponentLength : Settled exponentLength := by
  refine Settled.of_cons rfl (fun _ => rfl) ?_ ?_
  · intro c s
    have hWithin := settled_signedLength.le_length s
    rw [exponentLength_cons]
    split
    · split <;> omega
    · exact Nat.zero_le _
  intro rest rest' hMilder c w hInside
  rw [exponentLength_cons] at hInside
  rw [exponentLength_cons, exponentLength_cons]
  split
  · rename_i hMark
    rw [if_pos hMark] at hInside
    rw [settled_signedLength.stays hMilder w]
    split at hInside <;> omega
  · rfl

theorem fractionLength_cons
    (n : Nat)
    (c : Char)
    (s : List Char) :
    fractionLength n (c :: s) =
      if c = '.' then
        if n = 0 ∧ runLength Decimal.isDigit s = 0 then 0
        else 1 + runLength Decimal.isDigit s
      else 0 := by
  by_cases hPoint : c = '.'
  · subst hPoint
    simp [fractionLength]
  · simp [fractionLength, hPoint]

theorem settled_fractionLength (n : Nat) :
    Settled (fractionLength n) := by
  refine Settled.of_cons rfl (fun _ => rfl) ?_ ?_
  · intro c s
    have hWithin := settled_digits.le_length s
    rw [fractionLength_cons]
    split
    · split <;> omega
    · exact Nat.zero_le _
  intro rest rest' hMilder c w hInside
  rw [fractionLength_cons] at hInside
  rw [fractionLength_cons, fractionLength_cons]
  split
  · rename_i hPoint
    rw [if_pos hPoint] at hInside
    rw [settled_digits.stays hMilder w]
    split at hInside <;> omega
  · rfl

theorem settled_unsignedLength : Settled unsignedLength where
  le_length s := by
    have hWhole := settled_digits.le_length s
    have hFraction :=
      (settled_fractionLength
        (runLength Decimal.isDigit s)).le_length
        (s.drop (runLength Decimal.isDigit s))
    rw [unsignedLength_eq]
    dsimp only
    split
    · exact Nat.zero_le _
    · have hExponent :=
        settled_exponentLength.le_length
          ((s.drop (runLength Decimal.isDigit s)).drop
            (fractionLength (runLength Decimal.isDigit s)
              (s.drop (runLength Decimal.isDigit s))))
      simp only [List.length_drop] at hFraction hExponent
      omega
  stays := by
    intro rest rest' hMilder w hInside
    have hDrop
        (n : Nat)
        (s r : List Char)
        (hLe : n ≤ s.length) :
        (s ++ r).drop n = s.drop n ++ r :=
      List.drop_append_of_le_length hLe
    rw [unsignedLength_eq] at hInside
    rw [unsignedLength_eq, unsignedLength_eq]
    dsimp only at hInside ⊢
    -- Each part ends before the rest, so the next one starts before it.
    generalize hWhole :
      runLength Decimal.isDigit (w ++ rest) = n at hInside ⊢
    have hWithin : n ≤ w.length := by
      split at hInside <;> omega
    rw [settled_digits.stays hMilder w (by omega), hWhole,
      hDrop n w rest' hWithin, hDrop n w rest hWithin]
    rw [hDrop n w rest hWithin] at hInside
    generalize hFraction :
      fractionLength n (w.drop n ++ rest) = m at hInside ⊢
    have hWithin' : m ≤ (w.drop n).length := by
      rw [List.length_drop]
      split at hInside <;> omega
    rw [(settled_fractionLength n).stays hMilder (w.drop n) (by omega),
      hFraction, hDrop m _ rest' hWithin',
      hDrop m _ rest hWithin']
    rw [hDrop m _ rest hWithin'] at hInside
    split
    · rfl
    · rename_i hSome
      rw [if_neg hSome] at hInside
      rw [settled_exponentLength.stays hMilder]
      rw [List.length_drop, List.length_drop]
      omega

theorem numberLength_cons
    (c : Char)
    (s : List Char) :
    numberLength (c :: s) =
      if c = '-' then
        if unsignedLength s = 0 then 0
        else unsignedLength s + 1
      else unsignedLength (c :: s) := by
  by_cases hDash : c = '-'
  · subst hDash
    rfl
  · rw [if_neg hDash, numberLength]
    rintro t ⟨⟩
    exact hDash rfl

theorem settled_numberLength : Settled numberLength := by
  refine Settled.of_cons rfl (fun _ => rfl) ?_ ?_
  · intro c s
    have hWithin := settled_unsignedLength.le_length
    rw [numberLength_cons]
    split
    · specialize hWithin s
      split <;> omega
    · exact hWithin (c :: s)
  intro rest rest' hMilder c w hInside
  rw [numberLength_cons] at hInside
  rw [numberLength_cons, numberLength_cons]
  split
  · rename_i hDash
    rw [if_pos hDash] at hInside
    rw [settled_unsignedLength.stays hMilder w]
    split at hInside <;> omega
  · rename_i hDash
    rw [if_neg hDash] at hInside
    exact settled_unsignedLength.stays hMilder (c :: w) hInside

------------------------------------------------------------
-- Quoted Text And Comments
------------------------------------------------------------

theorem stringLength_pos
    (q c : Char)
    (s : List Char) :
    0 < (stringLength q (c :: s)).1 := by
  cases s with
  | nil => exact Nat.one_pos
  | cons d s =>
      rw [stringLength]
      split
      · split
        · exact Nat.succ_pos _
        · exact Nat.one_pos
      · exact Nat.succ_pos _

theorem stringLength_le_length
    (q : Char)
    (s : List Char) :
    (stringLength q s).1 ≤ s.length := by
  fun_induction stringLength q s <;>
    simp_all only [List.length_nil, List.length_cons,
      Nat.le_refl] <;> omega

theorem commentLength_le_length (s : List Char) :
    (commentLength s).1 ≤ s.length := by
  fun_induction commentLength s <;>
    simp_all only [List.length_nil, List.length_cons,
      Nat.le_refl] <;> omega

/- A string that ends before a text ends there before a milder text. -/
theorem stringLength_milder
    {q : Char}
    (hQuote : q ≠ ' ')
    (hMilder : Milder rest rest')
    {closed : Bool}
    (hLength :
      stringLength q (w ++ rest) = (w.length, closed)) :
    stringLength q (w ++ rest') = (w.length, closed) := by
  fun_induction stringLength q w generalizing closed with
  | case1 =>
      cases rest with
      | nil =>
          cases hMilder
          exact hLength
      | cons c rest =>
          have hSome := stringLength_pos q c rest
          rw [List.nil_append] at hLength
          rw [hLength] at hSome
          cases hSome
  | case2 c =>
      rw [List.singleton_append] at hLength ⊢
      by_cases hEnd : c = q
      · subst hEnd
        have hAlone :
            startsWith (fun d => d == c) rest = false := by
          cases rest with
          | nil => rfl
          | cons d rest =>
              rw [Bool.eq_false_iff]
              intro hDoubled
              have hBoth : d = c := beq_iff_eq.mp hDoubled
              subst hBoth
              simp [stringLength] at hLength
        rw [stringLength_end hAlone] at hLength
        rw [stringLength_end, hLength]
        exact
          hMilder.startsWith_eq_false
            (.inl (by simpa using hQuote.symm)) hAlone
      · cases rest with
        | nil =>
            cases hMilder
            exact hLength
        | cons d rest =>
            have hSome := stringLength_pos q d rest
            rw [stringLength_cons_of_ne hEnd (by simp)]
              at hLength
            simp only [List.length_singleton, Prod.mk.injEq]
              at hLength
            omega
  | case3 c d s hQuoted hDoubled n closed' hRest ih =>
      simp only [List.cons_append, stringLength, hQuoted,
        hDoubled, if_true, List.length_cons,
        Prod.mk.injEq] at hLength ⊢
      rw [ih (Prod.ext (by omega) hLength.2)]
      exact ⟨rfl, rfl⟩
  | case4 c d s hQuoted hAlone =>
      simp [stringLength, hQuoted, hAlone] at hLength
  | case5 c d s hOther n closed' hRest ih =>
      simp only [List.cons_append, stringLength, hOther,
        Bool.false_eq_true, if_false, List.length_cons,
        Prod.mk.injEq] at hLength ⊢
      rw [← List.cons_append] at hLength ⊢
      rw [ih (Prod.ext (by simpa using hLength.1) hLength.2)]
      exact ⟨rfl, rfl⟩

/- Only a star at the very end is not read in a comment. -/
theorem commentLength_eq_zero_iff {s : List Char} :
    (commentLength s).1 = 0 ↔ s = [] ∨ s = ['*'] := by
  fun_cases commentLength s <;> simp_all

/- A comment that ends before a text ends there before a milder text. -/
theorem commentLength_milder
    (hMilder : Milder rest rest')
    {closed : Bool}
    (hLength :
      commentLength (w ++ rest) = (w.length, closed)) :
    commentLength (w ++ rest') = (w.length, closed) := by
  fun_induction commentLength w generalizing closed with
  | case1 =>
      have hNone := congrArg Prod.fst hLength
      rw [List.nil_append] at hNone
      rcases commentLength_eq_zero_iff.mp hNone with
        rfl | rfl
      · cases hMilder
        exact hLength
      · cases hMilder with
        | ends => exact hLength
        | blank hOpens => simp at hOpens
        | cons c hRest =>
            cases hRest
            exact hLength
  | case2 =>
      rcases rest with _ | ⟨c, rest⟩
      · cases hLength
      · by_cases hClose : c = '/'
        · subst hClose
          cases hLength
        · rw [List.singleton_append,
            commentLength_pair hClose] at hLength
          simp at hLength
  | case3 s =>
      cases s with
      | nil => exact hLength
      | cons c s => cases hLength
  | case4 c s hOpen n closed' hRest ih =>
      simp only [List.cons_append, commentLength_pair hOpen,
        List.length_cons, Prod.mk.injEq] at hLength ⊢
      rw [ih (Prod.ext (by omega) hLength.2)]
      exact ⟨rfl, rfl⟩
  | case5 c s hAlone hClosing hPair n closed' hRest ih =>
      have hPlain : c ≠ '*' := by
        rintro rfl
        cases s with
        | nil => exact hAlone rfl rfl
        | cons d s => exact hPair d s rfl rfl
      simp only [List.cons_append,
        commentLength_plain hPlain, List.length_cons,
        Prod.mk.injEq] at hLength ⊢
      rw [ih (Prod.ext (by omega) hLength.2)]
      exact ⟨rfl, rfl⟩

theorem scanString_milder
    {q : Quote}
    (hMilder : Milder rest rest')
    {t : Token}
    (hScan : scanString q (w ++ rest) = (t, w.length)) :
    scanString q (w ++ rest') = (t, w.length) := by
  have hQuote : q.char ≠ ' ' := by
    cases q <;> decide
  have hLength :
      stringLength q.char (w ++ rest) =
        (w.length, (stringLength q.char (w ++ rest)).2) := by
    refine Prod.ext ?_ rfl
    unfold scanString at hScan
    dsimp only at hScan
    split at hScan <;> exact congrArg Prod.snd hScan
  have hTake (r : List Char) :
      (w ++ r).take (w.length - 1) = w.take (w.length - 1) :=
    List.take_append_of_le_length (Nat.sub_le _ _)
  unfold scanString at hScan ⊢
  rw [stringLength_milder hQuote hMilder hLength]
  rw [hLength] at hScan
  dsimp only at hScan ⊢
  rw [hTake] at hScan ⊢
  exact hScan

theorem scanQuotedName_milder
    (hMilder : Milder rest rest')
    {t : Token}
    (hScan : scanQuotedName (w ++ rest) = (t, w.length)) :
    scanQuotedName (w ++ rest') = (t, w.length) := by
  unfold scanQuotedName at hScan ⊢
  dsimp only at hScan ⊢
  generalize hRun :
    runLength (fun c => c != '\x60') (w ++ rest) = n
    at hScan
  have hWithin : n ≤ w.length := by
    split at hScan
    · have hLength := congrArg Prod.snd hScan
      dsimp only at hLength
      omega
    · exact Nat.le_of_eq (congrArg Prod.snd hScan)
  have hRun' :
      runLength (fun c => c != '\x60') (w ++ rest') = n := by
    rw [(settled_runLength (.inr ⟨by decide, by decide⟩)).stays
      hMilder w (by omega), hRun]
  rw [hRun']
  rw [List.drop_append_of_le_length hWithin,
    List.take_append_of_le_length hWithin] at hScan ⊢
  by_cases hInside : n < w.length
  · cases hDrop : w.drop n with
    | nil =>
        rw [List.drop_eq_nil_iff] at hDrop
        omega
    | cons c s =>
        rw [hDrop] at hScan
        exact hScan
  · rw [List.drop_eq_nil_of_le (by omega),
      List.nil_append] at hScan ⊢
    have hEnd :
        ¬(n ≠ 0 &&
          startsWith (fun c => c == '\x60') rest) = true := by
      intro hFound
      rw [if_pos hFound] at hScan
      have hLength := congrArg Prod.snd hScan
      dsimp only at hLength
      omega
    have hEnd' :
        ¬(n ≠ 0 &&
          startsWith (fun c => c == '\x60') rest') = true := by
      rw [Bool.and_eq_true, not_and, Bool.not_eq_true]
        at hEnd ⊢
      intro hSome
      exact
        hMilder.startsWith_eq_false (.inl (by decide))
          (hEnd hSome)
    rw [if_neg hEnd] at hScan
    rw [if_neg hEnd']
    exact hScan

/- A mark of one character is the same at the end of a text. -/
theorem scanMark_of_short
    {s : List Char}
    (hShort : (scanMark c s).2 = 0) :
    scanMark c s = scanMark c [] := by
  unfold scanMark at hShort ⊢
  split at hShort <;> simp_all

theorem scanMark_blank (s : List Char) :
    scanMark c (' ' :: s) = scanMark c [] := by
  apply scanMark_of_short
  unfold scanMark
  split <;> simp_all

theorem scanMark_milder
    (hMilder : Milder rest rest')
    {t : Token}
    (hScan : scanMark c (w ++ rest) = (t, w.length)) :
    scanMark c (w ++ rest') = (t, w.length) := by
  have hHead (d : Char) (s r : List Char) :
      scanMark c (d :: s) = scanMark c (d :: r) :=
    scanMark_congr c Iff.rfl Iff.rfl s r
  cases w with
  | cons d w =>
      rw [← hScan]
      exact hHead d _ _
  | nil =>
      rw [List.nil_append] at hScan ⊢
      have hShort : (scanMark c rest).2 = 0 := by
        rw [hScan]
        rfl
      cases hMilder with
      | ends => rw [← hScan, scanMark_of_short hShort]
      | blank =>
          rw [← hScan, scanMark_of_short hShort,
            scanMark_blank]
      | cons d =>
          rw [← hScan]
          exact hHead d _ _

------------------------------------------------------------
-- Pieces
------------------------------------------------------------

theorem scanToken_milder
    (hMilder : Milder rest rest')
    {t : Token}
    (hScan : scanToken c (w ++ rest) = (t, w.length)) :
    scanToken c (w ++ rest') = (t, w.length) := by
  unfold scanToken at hScan ⊢
  dsimp only at hScan ⊢
  split
  case isTrue hStart =>
    rw [if_pos hStart, Prod.mk.injEq] at hScan
    rcases hScan with ⟨hToken, hLength⟩
    rw [hLength, List.take_left] at hToken
    rw [(settled_runLength (.inl (by decide))).stays hMilder w
      (Nat.le_of_eq hLength), hLength, List.take_left, hToken]
  case isFalse hStart =>
    rw [if_neg hStart] at hScan
    split
    · rename_i hSingle
      rw [if_pos hSingle] at hScan
      exact scanString_milder hMilder hScan
    rename_i hSingle
    rw [if_neg hSingle] at hScan
    split
    · rename_i hDouble
      rw [if_pos hDouble] at hScan
      exact scanString_milder hMilder hScan
    rename_i hDouble
    rw [if_neg hDouble] at hScan
    split
    · rename_i hAccent
      rw [if_pos hAccent] at hScan
      exact scanQuotedName_milder hMilder hScan
    rename_i hAccent
    rw [if_neg hAccent, ← List.cons_append] at hScan
    have hInside :
        numberLength (c :: w ++ rest) ≤ (c :: w).length := by
      rw [List.length_cons]
      split at hScan
      · omega
      · rw [Prod.mk.injEq] at hScan
        omega
    rw [← List.cons_append,
      settled_numberLength.stays hMilder (c :: w) hInside]
    split
    · rename_i hNone
      rw [if_pos hNone] at hScan
      exact scanMark_milder hMilder hScan
    · rename_i hSome
      rw [if_neg hSome, Prod.mk.injEq] at hScan
      rcases hScan with ⟨hToken, hLength⟩
      rw [hLength, List.take_left] at hToken
      rw [hLength, List.take_left, hToken]

theorem scan_line (s : List Char) :
    scan '-' ('-' :: s) =
      (none, 1 + runLength (fun d => d != '\n') s) := rfl

theorem Milder.head?
    (hMilder : Milder rest rest')
    (hOther : c ≠ ' ')
    (hHead : rest'.head? = some c) :
    rest.head? = some c := by
  cases hMilder with
  | ends => cases hHead
  | cons => exact hHead
  | blank =>
      cases hHead
      contradiction

/- A piece that ends before a text ends there before a milder text. -/
theorem scan_milder
    (hMilder : Milder rest rest')
    (hGap : ¬isGapBlank c = true)
    {token? : Option Token}
    (hScan : scan c (w ++ rest) = (token?, w.length)) :
    scan c (w ++ rest') = (token?, w.length) := by
  by_cases hLine : c = '-' ∧ (w ++ rest).head? = some '-'
  · rcases hLine with ⟨rfl, hHead⟩
    cases w with
    | nil =>
        rcases rest with _ | ⟨d, rest⟩
        · cases hHead
        · cases hHead
          rw [List.nil_append, scan_line, Prod.mk.injEq,
            List.length_nil] at hScan
          omega
    | cons d w =>
        cases hHead
        rw [List.cons_append, scan_line, Prod.mk.injEq,
          List.length_cons] at hScan
        rw [List.cons_append, scan_line,
          (settled_runLength
            (.inr ⟨by decide, by decide⟩)).stays hMilder w
              (by omega)]
        exact Prod.ext hScan.1 hScan.2
  by_cases hBlock : c = '/' ∧ (w ++ rest).head? = some '*'
  · rcases hBlock with ⟨rfl, hHead⟩
    cases w with
    | nil =>
        rcases rest with _ | ⟨d, rest⟩
        · cases hHead
        · cases hHead
          rw [List.nil_append, scan_comment, Prod.mk.injEq,
            List.length_nil] at hScan
          omega
    | cons d w =>
        cases hHead
        rw [List.cons_append, scan_comment, Prod.mk.injEq,
          List.length_cons] at hScan
        have hLength :
            commentLength (w ++ rest') =
              (w.length, (commentLength (w ++ rest)).2) :=
          commentLength_milder hMilder
            (Prod.ext (by omega) rfl)
        rw [List.cons_append, scan_comment, hLength]
        exact Prod.ext hScan.1 (Nat.add_comm 1 _)
  · have hLine' :
        ¬(c = '-' ∧ (w ++ rest').head? = some '-') := by
      rintro ⟨rfl, hHead⟩
      exact
        hLine
          ⟨rfl, (hMilder.append w).head? (by decide) hHead⟩
    have hBlock' :
        ¬(c = '/' ∧ (w ++ rest').head? = some '*') := by
      rintro ⟨rfl, hHead⟩
      exact
        hBlock
          ⟨rfl, (hMilder.append w).head? (by decide) hHead⟩
    rw [scan_of_token hGap hLine hBlock, Prod.mk.injEq]
      at hScan
    have hToken :=
      scanToken_milder hMilder (Prod.ext rfl hScan.2)
    rw [scan_of_token hGap hLine' hBlock', hToken,
      ← hScan.1]

theorem scanString_le_length
    (q : Quote)
    (s : List Char) :
    (scanString q s).2 ≤ s.length := by
  have hLe := stringLength_le_length q.char s
  unfold scanString
  dsimp only
  split <;> exact hLe

theorem scanQuotedName_le_length (s : List Char) :
    (scanQuotedName s).2 ≤ s.length := by
  unfold scanQuotedName
  dsimp only
  split
  · rename_i hClosed
    rw [Bool.and_eq_true] at hClosed
    cases hRest :
        s.drop (runLength (fun c => c != '\x60') s) with
    | nil =>
        rw [hRest] at hClosed
        cases hClosed.2
    | cons c rest =>
        have hLength := congrArg List.length hRest
        rw [List.length_drop, List.length_cons] at hLength
        dsimp only
        omega
  · exact runLength_le_length _ s

theorem scanMark_le_length
    (c : Char)
    (s : List Char) :
    (scanMark c s).2 ≤ s.length := by
  unfold scanMark
  split <;> simp

theorem scanToken_le_length
    (c : Char)
    (s : List Char) :
    (scanToken c s).2 ≤ s.length := by
  unfold scanToken
  split
  · exact runLength_le_length _ s
  split
  · exact scanString_le_length .single s
  split
  · exact scanString_le_length .double s
  split
  · exact scanQuotedName_le_length s
  have hNumber := settled_numberLength.le_length (c :: s)
  rw [List.length_cons] at hNumber
  dsimp only
  split
  · exact scanMark_le_length c s
  · dsimp only
    omega

/- A piece is no longer than its text. -/
theorem scan_le_length
    (c : Char)
    (s : List Char) :
    (scan c s).2 ≤ s.length := by
  unfold scan
  split
  · exact runLength_le_length _ s
  split
  · rename_i t hGap
    have hLe := runLength_le_length (fun d => d != '\n') t
    rw [List.length_cons]
    dsimp only
    omega
  · rename_i t hGap
    have hLe := commentLength_le_length t
    rw [List.length_cons]
    dsimp only
    omega
  · exact scanToken_le_length c s

end Lexer

end Rowstore
