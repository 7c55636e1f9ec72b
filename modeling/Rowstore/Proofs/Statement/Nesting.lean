import Rowstore.Statement.Parser

/-
  Where runs of lexemes are split, by their parentheses.

  A split at a closing parenthesis counts the parentheses
  that were opened meanwhile.  A split at a keyword looks only
  outside of parentheses; there a closing parenthesis too many
  is ignored, so the lexemes need not be balanced.

  Main declarations:
    * `Lexeme.Closes` and `Lexeme.splitAtClose_eq_some_iff`
    * `Lexeme.depthFrom` and `Lexeme.NoneAtTop`
    * `Lexeme.splitAtTop_eq_none_iff` and
      `Lexeme.splitAtTop_eq_some_iff`
    * `Lexeme.getD_splitAtTop_eq_iff`
    * `Lexeme.splitCommas_cons` and
      `Lexeme.infix_of_mem_splitCommas`
-/

------------------------------------------------------------
-- Parentheses
------------------------------------------------------------

namespace Rowstore

namespace Lexeme

/-
  The lexemes close as many parentheses as were open before
  them, and all that they open themselves.
-/
inductive Closes : Nat → List Lexeme → Prop where
| nil : Closes 0 []
| opening
    {n : Nat}
    {l : Lexeme}
    {ls : List Lexeme}
    (hOpen : l.token = .mark .openParen)
    (hRest : Closes (n + 1) ls) :
    Closes n (l :: ls)
| closing
    {n : Nat}
    {l : Lexeme}
    {ls : List Lexeme}
    (hClose : l.token = .mark .closeParen)
    (hRest : Closes n ls) :
    Closes (n + 1) (l :: ls)
| plain
    {n : Nat}
    {l : Lexeme}
    {ls : List Lexeme}
    (hNoOpen : l.token ≠ .mark .openParen)
    (hNoClose : l.token ≠ .mark .closeParen)
    (hRest : Closes n ls) :
    Closes n (l :: ls)

/- What a split gives after one more lexeme in front. -/
theorem map_cons_eq_some_iff
    {l : Lexeme}
    {parts? : Option (List Lexeme × List Lexeme)}
    {before after : List Lexeme} :
    (parts?.map fun (a, b) => (l :: a, b)) =
        some (before, after) ↔
      ∃ a, before = l :: a ∧ parts? = some (a, after) := by
  rw [Option.map_eq_some_iff]
  constructor
  · rintro ⟨⟨a, b⟩, hParts, hEq⟩
    cases hEq
    exact ⟨a, rfl, hParts⟩
  · rintro ⟨a, rfl, hParts⟩
    exact ⟨(a, after), hParts, rfl⟩

/- The split is at the first parenthesis that is closed without a partner. -/
theorem splitAtClose_eq_some_iff
    {n : Nat}
    {ls inner after : List Lexeme} :
    splitAtClose n ls = some (inner, after) ↔
      ∃ c,
        ls = inner ++ c :: after ∧ Closes n inner ∧
          c.token = .mark .closeParen := by
  constructor
  · intro hSplit
    fun_induction splitAtClose n ls generalizing inner with
    | case1 => cases hSplit
    | case2 l ls n hOpen ih =>
        rw [map_cons_eq_some_iff] at hSplit
        rcases hSplit with ⟨inner, rfl, hRest⟩
        rcases ih hRest with ⟨c, rfl, hCloses, hLast⟩
        exact ⟨c, rfl, .opening hOpen hCloses, hLast⟩
    | case3 l ls hClose =>
        cases hSplit
        exact ⟨l, rfl, .nil, hClose⟩
    | case4 l ls n hClose ih =>
        rw [map_cons_eq_some_iff] at hSplit
        rcases hSplit with ⟨inner, rfl, hRest⟩
        rcases ih hRest with ⟨c, rfl, hCloses, hLast⟩
        exact ⟨c, rfl, .closing hClose hCloses, hLast⟩
    | case5 l ls n hNoOpen hNoLast hNoClose ih =>
        rw [map_cons_eq_some_iff] at hSplit
        rcases hSplit with ⟨inner, rfl, hRest⟩
        rcases ih hRest with ⟨c, rfl, hCloses, hLast⟩
        refine ⟨c, rfl, .plain hNoOpen ?_ hCloses, hLast⟩
        intro hClose
        cases n with
        | zero => exact hNoLast hClose rfl
        | succ n => exact hNoClose n hClose rfl
  · rintro ⟨c, rfl, hCloses, hLast⟩
    induction hCloses with
    | nil => simp [splitAtClose, hLast]
    | opening hOpen _ ih => simp [splitAtClose, hOpen, ih]
    | closing hClose _ ih => simp [splitAtClose, hClose, ih]
    | plain hNoOpen hNoClose _ ih =>
        simp [splitAtClose, hNoClose, ih]

end Lexeme

end Rowstore

------------------------------------------------------------
-- Outside Of Parentheses
------------------------------------------------------------

namespace Rowstore

namespace Lexeme

variable {k : Keyword} {n : Nat} {l : Lexeme}
variable {ls before after : List Lexeme}

theorem isKeyword_iff :
    l.isKeyword k = true ↔ l.token = .keyword k :=
  beq_iff_eq

/-
  The depth after lexemes.  A closing parenthesis too many is
  ignored.
-/
def depthFrom
    (n : Nat)
    (ls : List Lexeme) : Nat :=
  ls.foldl depthAfter n

/- The keyword stands only inside of parentheses, if at all. -/
def NoneAtTop
    (k : Keyword)
    (n : Nat)
    (ls : List Lexeme) : Prop :=
  ∀ before l after,
    ls = before ++ l :: after →
      l.token = .keyword k → depthFrom n before ≠ 0

theorem depthFrom_append :
    depthFrom n (before ++ after) =
      depthFrom (depthFrom n before) after :=
  List.foldl_append

theorem noneAtTop_nil : NoneAtTop k n [] := by
  intro before l after hSplit
  simp at hSplit

theorem noneAtTop_cons_iff :
    NoneAtTop k n (l :: ls) ↔
      (n = 0 → l.token ≠ .keyword k) ∧
        NoneAtTop k (l.depthAfter n) ls := by
  constructor
  · intro hNone
    constructor
    · intro hTop hToken
      exact hNone [] l ls rfl hToken hTop
    · rintro before w after rfl hToken
      exact hNone (l :: before) w after rfl hToken
  · rintro ⟨hHead, hTail⟩ before w after hSplit hToken hTop
    cases before with
    | nil =>
        cases hSplit
        exact hHead hTop hToken
    | cons b before =>
        cases hSplit
        exact hTail before w after rfl hToken hTop

theorem noneAtTop_append_iff :
    NoneAtTop k n (before ++ after) ↔
      NoneAtTop k n before ∧
        NoneAtTop k (depthFrom n before) after := by
  induction before generalizing n with
  | nil => simp [noneAtTop_nil, depthFrom]
  | cons l before ih =>
      rw [List.cons_append, noneAtTop_cons_iff,
        noneAtTop_cons_iff, ih, and_assoc]
      rfl

theorem depthAfter_open
    (hOpen : l.token = .mark .openParen) :
    l.depthAfter n = n + 1 := by
  simp [depthAfter, hOpen]

theorem depthAfter_close
    (hClose : l.token = .mark .closeParen) :
    l.depthAfter n = n - 1 := by
  simp [depthAfter, hClose]

theorem depthAfter_plain
    (hNoOpen : l.token ≠ .mark .openParen)
    (hNoClose : l.token ≠ .mark .closeParen) :
    l.depthAfter n = n := by
  unfold depthAfter
  split
  · contradiction
  · contradiction
  · rfl

/- The lexemes are no parentheses. -/
def Plain (ls : List Lexeme) : Prop :=
  ∀ l ∈ ls,
    l.token ≠ .mark .openParen ∧ l.token ≠ .mark .closeParen

theorem depthFrom_of_plain
    (hPlain : Plain ls)
    (n : Nat) :
    depthFrom n ls = n := by
  induction ls generalizing n with
  | nil => rfl
  | cons l ls ih =>
      have hRest : Plain ls := fun l hMember =>
        hPlain l (List.mem_cons_of_mem _ hMember)
      rcases hPlain l List.mem_cons_self with
        ⟨hNoOpen, hNoClose⟩
      change depthFrom (l.depthAfter n) ls = n
      rw [depthAfter_plain hNoOpen hNoClose, ih hRest]

theorem noneAtTop_of_forall
    (hNone : ∀ l ∈ ls, l.token ≠ .keyword k) :
    NoneAtTop k n ls := by
  rintro before l after rfl hToken
  exact absurd hToken (hNone l (by simp))

/- Outside of parentheses there is no such keyword at all. -/
theorem forall_of_noneAtTop
    (hPlain : Plain ls)
    (hNone : NoneAtTop k 0 ls) :
    ∀ l ∈ ls, l.token ≠ .keyword k := by
  intro l hMember hToken
  rcases List.append_of_mem hMember with
    ⟨before, after, rfl⟩
  have hBefore : Plain before := fun l hMember =>
    hPlain l (List.mem_append_left _ hMember)
  exact
    hNone before l after rfl hToken
      (depthFrom_of_plain hBefore 0)

theorem splitAtTop_eq_none_iff :
    splitAtTop k n ls = none ↔ NoneAtTop k n ls := by
  induction ls generalizing n with
  | nil => simp [splitAtTop, noneAtTop_nil]
  | cons l ls ih =>
      rw [splitAtTop, noneAtTop_cons_iff, ← ih]
      by_cases hHere : n = 0 ∧ l.isKeyword k
      · rw [isKeyword_iff] at hHere
        simp [isKeyword_iff, hHere]
      · rw [if_neg hHere, Option.map_eq_none_iff]
        rw [isKeyword_iff] at hHere
        have hOther : n = 0 → l.token ≠ .keyword k :=
          fun hTop hToken => hHere ⟨hTop, hToken⟩
        exact (and_iff_right hOther).symm

/- The split is before the first such keyword outside of parentheses. -/
theorem splitAtTop_eq_some_iff :
    splitAtTop k n ls = some (before, after) ↔
      ls = before ++ after ∧ NoneAtTop k n before ∧
        depthFrom n before = 0 ∧
          ∃ l ∈ after.head?, l.token = .keyword k := by
  induction ls generalizing n before with
  | nil =>
      constructor
      · intro hSplit
        cases hSplit
      · rintro ⟨hNil, _, _, l, hFirst, _⟩
        rw [eq_comm, List.append_eq_nil_iff] at hNil
        rw [hNil.2] at hFirst
        cases hFirst
  | cons l ls ih =>
      rw [splitAtTop]
      by_cases hHere : n = 0 ∧ l.isKeyword k
      · rw [if_pos hHere]
        rw [isKeyword_iff] at hHere
        constructor
        · intro hSplit
          cases hSplit
          exact ⟨rfl, noneAtTop_nil, hHere.1, l, rfl, hHere.2⟩
        · rintro ⟨hSplit, hNone, _, _⟩
          cases before with
          | nil => rw [hSplit, List.nil_append]
          | cons b before =>
              cases hSplit
              rw [noneAtTop_cons_iff] at hNone
              exact absurd hHere.2 (hNone.1 hHere.1)
      · rw [if_neg hHere, map_cons_eq_some_iff]
        rw [isKeyword_iff] at hHere
        constructor
        · rintro ⟨before, rfl, hSplit⟩
          rw [ih] at hSplit
          rcases hSplit with ⟨rfl, hNone, hTop, hFirst⟩
          refine ⟨rfl, ?_, hTop, hFirst⟩
          rw [noneAtTop_cons_iff]
          exact ⟨fun hZero hToken => hHere ⟨hZero, hToken⟩, hNone⟩
        · rintro ⟨hSplit, hNone, hTop, w, hFirst, hWord⟩
          cases before with
          | nil =>
              rw [List.nil_append] at hSplit
              subst hSplit
              cases hFirst
              exact absurd ⟨hTop, hWord⟩ hHere
          | cons b before =>
              cases hSplit
              rw [noneAtTop_cons_iff] at hNone
              refine ⟨before, rfl, ?_⟩
              rw [ih]
              exact ⟨rfl, hNone.2, hTop, w, hFirst, hWord⟩

/- Without such a keyword everything stands before the split. -/
theorem getD_splitAtTop_eq_iff :
    (splitAtTop k 0 ls).getD (ls, []) = (before, after) ↔
      ls = before ++ after ∧ NoneAtTop k 0 before ∧
        (after = [] ∨
          depthFrom 0 before = 0 ∧
            ∃ l ∈ after.head?, l.token = .keyword k) := by
  constructor
  · intro hSplit
    cases hFound : splitAtTop k 0 ls with
    | none =>
        rw [hFound] at hSplit
        cases hSplit
        rw [splitAtTop_eq_none_iff] at hFound
        exact ⟨(List.append_nil ls).symm, hFound, .inl rfl⟩
    | some parts =>
        rw [hFound] at hSplit
        cases hSplit
        rw [splitAtTop_eq_some_iff] at hFound
        rcases hFound with ⟨hParts, hNone, hTop⟩
        exact ⟨hParts, hNone, .inr hTop⟩
  · rintro ⟨rfl, hNone, rfl | hTop⟩
    · rw [← splitAtTop_eq_none_iff] at hNone
      rw [List.append_nil, hNone]
      rfl
    · have hFound := splitAtTop_eq_some_iff.mpr
        ⟨rfl, hNone, hTop⟩
      rw [hFound]
      rfl

------------------------------------------------------------
-- Pieces Between Commas
------------------------------------------------------------

theorem splitCommas_ne_nil
    (n : Nat)
    (ls : List Lexeme) :
    splitCommas n ls ≠ [] := by
  unfold splitCommas
  split
  · simp
  · split
    · simp
    · split <;> simp

/- A lexeme that does not divide belongs to the first piece. -/
theorem splitCommas_cons
    (hInside : ¬(n = 0 ∧ l.token = .mark .comma)) :
    splitCommas n (l :: ls) =
      (splitCommas (l.depthAfter n) ls).modifyHead
        (l :: ·) := by
  have hNoCut : ¬(n = 0 ∧ l.isMark .comma = true) := by
    simpa [isMark] using hInside
  rw [splitCommas, if_neg hNoCut]
  cases hPieces : splitCommas (l.depthAfter n) ls with
  | nil => exact absurd hPieces (splitCommas_ne_nil _ _)
  | cons p ps => rfl

theorem splitCommas_comma
    (hComma : l.token = .mark .comma) :
    splitCommas 0 (l :: ls) = [] :: splitCommas 0 ls := by
  rw [splitCommas, if_pos ⟨rfl, by simp [isMark, hComma]⟩]

theorem infix_of_splitCommas
    {first : List Lexeme}
    {others : List (List Lexeme)}
    (hSplit : splitCommas n ls = first :: others) :
    first <+: ls ∧ ∀ piece ∈ others, piece <:+: ls := by
  induction ls generalizing n first others with
  | nil =>
      cases hSplit
      simp
  | cons l ls ih =>
      by_cases hCut : n = 0 ∧ l.token = .mark .comma
      · rcases hCut with ⟨rfl, hComma⟩
        rw [splitCommas_comma hComma, List.cons.injEq]
          at hSplit
        rcases hSplit with ⟨rfl, hOthers⟩
        refine ⟨List.nil_prefix, fun piece hMember => ?_⟩
        cases others with
        | nil => cases hMember
        | cons p ps =>
            rcases ih hOthers with ⟨hPrefix, hInfix⟩
            rcases List.mem_cons.mp hMember with rfl | hMember
            · exact List.infix_cons hPrefix.isInfix
            · exact List.infix_cons (hInfix piece hMember)
      · rw [splitCommas_cons hCut] at hSplit
        cases hRest : splitCommas (l.depthAfter n) ls with
        | nil => exact absurd hRest (splitCommas_ne_nil _ _)
        | cons p ps =>
            rcases ih hRest with ⟨hPrefix, hInfix⟩
            rw [hRest] at hSplit
            cases hSplit
            exact
              ⟨(List.prefix_cons_inj l).mpr hPrefix,
                fun piece hMember =>
                  List.infix_cons (hInfix piece hMember)⟩

/- The pieces between commas are stretches of the lexemes. -/
theorem infix_of_mem_splitCommas
    {piece : List Lexeme}
    (hPiece : piece ∈ splitCommas n ls) :
    piece <:+: ls := by
  cases hSplit : splitCommas n ls with
  | nil => exact absurd hSplit (splitCommas_ne_nil _ _)
  | cons first others =>
      rcases infix_of_splitCommas hSplit with
        ⟨hPrefix, hInfix⟩
      rw [hSplit] at hPiece
      rcases List.mem_cons.mp hPiece with rfl | hMember
      · exact hPrefix.isInfix
      · exact hInfix piece hMember

end Lexeme

end Rowstore
