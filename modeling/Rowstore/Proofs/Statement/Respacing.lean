import Mathlib.Data.List.Forall2
import Rowstore.Proofs.Statement.Definitions

/-
  Lexemes that differ in one gap.

  If a blank takes the place of a comment in one gap, all that
  is read from tokens and names is the same, and runs of the
  lexemes have the blank for the comment in their source texts
  where the gap is inside of them.

  Main declarations:
    * `Text.Spaced` and `Lexeme.Spaced`
    * `Lexeme.Spaced.append_inv`
    * `Lexeme.Spaced.splitCommas`
    * `Lexeme.SpacedConditions` and `Lexeme.SpacedColumns`
    * `Lexeme.tablePieces_of_spaced`
-/

------------------------------------------------------------
-- Texts With A Blank For A Comment
------------------------------------------------------------

namespace Rowstore

/- The texts are the same, or the second one has a blank for an occurrence of `k`. -/
inductive Text.Spaced (k : List Char) :
    List Char → List Char → Prop where
| same (s : List Char) : Spaced k s s
| here (x y : List Char) :
    Spaced k (x ++ (k ++ y)) (x ++ ' ' :: y)

/- The same about strings. -/
def SpacedText (k : List Char) (a b : String) : Prop :=
  Text.Spaced k a.toList b.toList

namespace Text

variable {k s s' : List Char}

theorem Spaced.append_left
    (hSpaced : Spaced k s s')
    (z : List Char) :
    Spaced k (z ++ s) (z ++ s') := by
  cases hSpaced with
  | same => exact .same _
  | here x y =>
      have hMoved := Spaced.here (k := k) (z ++ x) y
      rwa [List.append_assoc, List.append_assoc] at hMoved

theorem Spaced.append_right
    (hSpaced : Spaced k s s')
    (z : List Char) :
    Spaced k (s ++ z) (s' ++ z) := by
  cases hSpaced with
  | same => exact .same _
  | here x y =>
      rw [List.append_assoc, List.append_assoc,
        List.append_assoc]
      exact .here x (y ++ z)

end Text

end Rowstore

------------------------------------------------------------
-- Lexemes With A Blank For A Comment
------------------------------------------------------------

namespace Rowstore

namespace Lexeme

/- The lexemes are the same, or one gap has a blank for `k`. -/
inductive Spaced (k : List Char) :
    List Lexeme → List Lexeme → Prop where
| same (ls : List Lexeme) : Spaced k ls ls
| here
    (g h text : List Char)
    (token : Token)
    (ls : List Lexeme) :
    Spaced k
      ({ gap := g ++ (k ++ h)
         text := text
         token := token } :: ls)
      ({ gap := g ++ ' ' :: h
         text := text
         token := token } :: ls)
| later
    (l : Lexeme)
    {ls ms : List Lexeme}
    (hRest : Spaced k ls ms) :
    Spaced k (l :: ls) (l :: ms)

/- The lexemes differ in their gaps at most. -/
structure SameWord (l m : Lexeme) : Prop where
  text : m.text = l.text
  token : m.token = l.token

variable {k : List Char} {l m : Lexeme}
variable {ls ms before after : List Lexeme}

theorem SameWord.name?
    (hSame : SameWord l m) :
    m.name? = l.name? := by
  unfold Lexeme.name?
  rw [hSame.text, hSame.token]

theorem SameWord.user?
    (hSame : SameWord l m) :
    m.user? = l.user? := by
  unfold Lexeme.user?
  rw [hSame.token, hSame.name?]

namespace Spaced

theorem nil_inv (hSpaced : Spaced k [] ms) : ms = [] := by
  cases hSpaced
  rfl

theorem cons_inv
    (hSpaced : Spaced k (l :: ls) ms) :
    ∃ l' ls',
      ms = l' :: ls' ∧ SameWord l l' ∧ Spaced k ls ls' := by
  cases hSpaced with
  | same => exact ⟨l, ls, rfl, ⟨rfl, rfl⟩, .same ls⟩
  | here g h text token ls =>
      exact ⟨_, ls, rfl, ⟨rfl, rfl⟩, .same ls⟩
  | later _ hRest => exact ⟨l, _, rfl, ⟨rfl, rfl⟩, hRest⟩

theorem append_inv
    (hSpaced : Spaced k (before ++ after) ms) :
    ∃ before' after',
      ms = before' ++ after' ∧ Spaced k before before' ∧
        Spaced k after after' := by
  generalize hAll : before ++ after = ls at hSpaced
  induction hSpaced generalizing before with
  | same =>
      exact ⟨before, after, hAll.symm, .same _, .same _⟩
  | here g h text token ls =>
      cases before with
      | nil =>
          rw [List.nil_append] at hAll
          subst hAll
          exact ⟨[], _, rfl, .same _, .here g h text token ls⟩
      | cons b before =>
          rw [List.cons_append, List.cons.injEq] at hAll
          rcases hAll with ⟨rfl, rfl⟩
          exact
            ⟨_ :: before, after, rfl,
              .here g h text token before, .same _⟩
  | later l hRest ih =>
      cases before with
      | nil =>
          rw [List.nil_append] at hAll
          subst hAll
          exact ⟨[], _, rfl, .same _, .later l hRest⟩
      | cons b before =>
          rw [List.cons_append, List.cons.injEq] at hAll
          rcases hAll with ⟨rfl, hAll⟩
          rcases ih hAll with
            ⟨before', after', rfl, hBefore, hAfter⟩
          exact
            ⟨_ :: before', after', rfl, .later _ hBefore,
              hAfter⟩

theorem tokens (hSpaced : Spaced k ls ms) :
    ms.map token = ls.map token := by
  induction hSpaced with
  | same => rfl
  | here => rfl
  | later l _ ih => rw [List.map_cons, List.map_cons, ih]

theorem fullText
    (hSpaced : Spaced k ls ms) :
    Text.Spaced k (fullText ls) (fullText ms) := by
  induction hSpaced with
  | same => exact .same _
  | here g h text token ls =>
      have hText :=
        (Text.Spaced.here (k := k) g h).append_right
          (text ++ Lexeme.fullText ls)
      simpa [Lexeme.fullText] using hText
  | later l _ ih => exact ih.append_left (l.gap ++ l.text)

/- The gap in front of the first lexeme is not part of the source text. -/
theorem sourceText
    (hSpaced : Spaced k ls ms) :
    Text.Spaced k (sourceText ls) (sourceText ms) := by
  cases hSpaced with
  | same => exact .same _
  | here g h text token ls => exact .same _
  | later l hRest => exact hRest.fullText.append_left l.text

theorem source
    (hSpaced : Spaced k ls ms) :
    SpacedText k (source ls) (source ms) := by
  unfold SpacedText Lexeme.source
  rw [String.toList_ofList, String.toList_ofList]
  exact hSpaced.sourceText

end Spaced

end Lexeme

end Rowstore

------------------------------------------------------------
-- What Lexemes Write In Spite Of The Gap
------------------------------------------------------------

namespace Rowstore

namespace Lexeme

variable {k : List Char} {l m : Lexeme} {n : Nat}
variable {ls ms all all' : List Lexeme}

/- The lexeme without the gap before it. -/
def ungapped (l : Lexeme) : Lexeme :=
  { l with gap := [] }

theorem alternatingNames?_ungapped (ls : List Lexeme) :
    Reader.alternatingNames? (ls.map ungapped) =
      Reader.alternatingNames? ls := by
  fun_induction Reader.alternatingNames? ls with
  | case1 => rfl
  | case2 n => rfl
  | case3 n c ls hName =>
      have hNone : n.ungapped.name? = none := hName
      simp [Reader.alternatingNames?, hNone]
  | case4 n c ls name hName hComma ih =>
      have hSome : n.ungapped.name? = some name := hName
      have hMark : c.ungapped.isMark .comma = true := hComma
      simp [Reader.alternatingNames?, hSome, hMark, ih]
  | case5 n c ls name hName hNoComma =>
      have hSome : n.ungapped.name? = some name := hName
      have hMark : ¬c.ungapped.isMark .comma = true :=
        hNoComma
      simp [Reader.alternatingNames?, hSome, hMark]

theorem keyClause?_ungapped (ls : List Lexeme) :
    Reader.keyClause? (ls.map ungapped) =
      Reader.keyClause? ls := by
  rcases ls with _ | ⟨w, _ | ⟨key, _ | ⟨p, inner⟩⟩⟩
  · rfl
  · rfl
  · rfl
  · have hLast :
        (inner.map ungapped).getLast?.any
            (isMark .closeParen) =
          inner.getLast?.any (isMark .closeParen) := by
      rw [List.getLast?_map, Option.any_map]
      rfl
    simp only [List.map_cons, Reader.keyClause?, hLast,
      ← List.map_dropLast, alternatingNames?_ungapped]
    rfl

namespace Spaced

theorem ungapped (hSpaced : Spaced k ls ms) :
    ms.map Lexeme.ungapped = ls.map Lexeme.ungapped := by
  induction hSpaced with
  | same => rfl
  | here => rfl
  | later l _ ih => rw [List.map_cons, List.map_cons, ih]

theorem head?
    (hSpaced : Spaced k ls ms)
    {t : Token}
    (hOther : ∀ l ∈ ls.head?, l.token ≠ t) :
    ∀ m ∈ ms.head?, m.token ≠ t := by
  cases hSpaced with
  | same => exact hOther
  | here => simpa using hOther
  | later => simpa using hOther

theorem spell
    (hSpaced : Spaced k ls ms)
    {ts : List Token}
    (hSpell : Spell ts ls) :
    Spell ts ms :=
  hSpaced.tokens.trans hSpell

theorem optionally
    {after after' : List Lexeme}
    (hSpaced : Spaced k ls ms)
    (hAfter : Spaced k after after')
    {t : Token}
    (hWord : Optionally t ls after) :
    Optionally t ms after' := by
  rcases hWord with hWord | ⟨rfl, hOther⟩
  · exact .inl (hSpaced.spell hWord)
  · exact .inr ⟨hSpaced.nil_inv, hAfter.head? hOther⟩

theorem forall_token
    (hSpaced : Spaced k ls ms)
    {t : Token}
    (hOther : ∀ l ∈ ls, l.token ≠ t) :
    ∀ m ∈ ms, m.token ≠ t := by
  intro m hMember hToken
  have hFound := List.mem_map_of_mem (f := token) hMember
  rw [hSpaced.tokens, List.mem_map] at hFound
  rcases hFound with ⟨l, hMember, hSame⟩
  exact hOther l hMember (hSame.trans hToken)

theorem closes
    (hSpaced : Spaced k ls ms)
    (hCloses : Closes n ls) :
    Closes n ms := by
  induction hCloses generalizing ms with
  | nil =>
      rw [hSpaced.nil_inv]
      exact .nil
  | opening hOpen _ ih =>
      rcases hSpaced.cons_inv with
        ⟨m, ms, rfl, hWord, hRest⟩
      exact .opening (hWord.token.trans hOpen) (ih hRest)
  | closing hClose _ ih =>
      rcases hSpaced.cons_inv with
        ⟨m, ms, rfl, hWord, hRest⟩
      exact .closing (hWord.token.trans hClose) (ih hRest)
  | plain hNoOpen hNoClose _ ih =>
      rcases hSpaced.cons_inv with
        ⟨m, ms, rfl, hWord, hRest⟩
      rw [← hWord.token] at hNoOpen hNoClose
      exact .plain hNoOpen hNoClose (ih hRest)

theorem depthFrom
    (hSpaced : Spaced k ls ms)
    (n : Nat) :
    depthFrom n ms = depthFrom n ls := by
  induction hSpaced generalizing n with
  | same => rfl
  | here => rfl
  | later l _ ih => exact ih (l.depthAfter n)

theorem noneAtTop
    (hSpaced : Spaced k ls ms)
    {word : Keyword}
    (hNone : NoneAtTop word n ls) :
    NoneAtTop word n ms := by
  induction hSpaced generalizing n with
  | same => exact hNone
  | here =>
      rw [noneAtTop_cons_iff] at hNone ⊢
      exact hNone
  | later l _ ih =>
      rw [noneAtTop_cons_iff] at hNone ⊢
      exact ⟨hNone.1, ih hNone.2⟩

theorem moreNames
    {names : List String}
    (hSpaced : Spaced k ls ms)
    (hNames : MoreNames names ls) :
    MoreNames names ms := by
  induction hNames generalizing ms with
  | nil =>
      rw [hSpaced.nil_inv]
      exact .nil
  | cons hComma hName _ ih =>
      rcases hSpaced.cons_inv with
        ⟨c, ms, rfl, hComma', hRest⟩
      rcases hRest.cons_inv with
        ⟨m, ms, rfl, hWord, hRest⟩
      exact
        .cons (hComma'.token.trans hComma)
          (hWord.name?.trans hName) (ih hRest)

theorem nameList
    {names : List String}
    (hSpaced : Spaced k ls ms)
    (hNames : NameList names ls) :
    NameList names ms := by
  rcases hNames with ⟨hName, hMore⟩
  rcases hSpaced.cons_inv with ⟨m, ms, rfl, hWord, hRest⟩
  exact .intro (hWord.name?.trans hName) (hRest.moreNames hMore)

theorem projected
    {projection : Projection}
    (hSpaced : Spaced k ls ms)
    (hShown : Projected projection ls) :
    Projected projection ms := by
  cases hShown with
  | all hStar =>
      rcases hSpaced.cons_inv with
        ⟨m, ms, rfl, hWord, hRest⟩
      rw [hRest.nil_inv]
      exact .all (hWord.token.trans hStar)
  | columns hNames => exact .columns (hSpaced.nameList hNames)

theorem forall₂_modifyHead
    {α : Type}
    {r : α → α → Prop}
    {f g : α → α}
    {as bs : List α}
    (hHead : ∀ a b, r a b → r (f a) (g b))
    (hAll : List.Forall₂ r as bs) :
    List.Forall₂ r (as.modifyHead f) (bs.modifyHead g) := by
  cases hAll with
  | nil => exact .nil
  | cons hFirst hOthers =>
      exact .cons (hHead _ _ hFirst) hOthers

/- The pieces between commas correspond. -/
theorem splitCommas
    (hSpaced : Spaced k ls ms)
    (n : Nat) :
    List.Forall₂ (Spaced k) (splitCommas n ls)
      (splitCommas n ms) := by
  have hRefl (pieces : List (List Lexeme)) :
      List.Forall₂ (Spaced k) pieces pieces :=
    List.forall₂_same.mpr fun p _ => .same p
  induction hSpaced generalizing n with
  | same ls => exact hRefl _
  | here g h text token ls =>
      by_cases hCut : n = 0 ∧ token = .mark .comma
      · rcases hCut with ⟨rfl, rfl⟩
        rw [splitCommas_comma rfl, splitCommas_comma rfl]
        exact hRefl _
      · rw [splitCommas_cons hCut, splitCommas_cons hCut]
        -- The depth behind the lexeme depends on its token only.
        let l : Lexeme :=
          { gap := []
            text := text
            token := token }
        change
          List.Forall₂ _
            (List.modifyHead _
              (Lexeme.splitCommas (l.depthAfter n) ls))
            (List.modifyHead _
              (Lexeme.splitCommas (l.depthAfter n) ls))
        generalize Lexeme.splitCommas (l.depthAfter n) ls =
          pieces
        cases pieces with
        | nil => exact .nil
        | cons p ps =>
            exact .cons (.here g h text token p) (hRefl ps)
  | @later l ls ms _ ih =>
      by_cases hCut : n = 0 ∧ l.token = .mark .comma
      · rcases hCut with ⟨rfl, hComma⟩
        rw [splitCommas_comma hComma, splitCommas_comma hComma]
        exact .cons (.same []) (ih 0)
      · rw [splitCommas_cons hCut, splitCommas_cons hCut]
        exact
          forall₂_modifyHead (fun _ _ hFirst => .later l hFirst)
            (ih (l.depthAfter n))

end Spaced

/- Pieces that correspond are empty at the same places. -/
theorem nil_not_mem_of_spaced
    {pieces pieces' : List (List Lexeme)}
    (hSpaced : List.Forall₂ (Spaced k) pieces pieces')
    (hFilled : [] ∉ pieces) :
    [] ∉ pieces' := by
  induction hSpaced with
  | nil => exact hFilled
  | @cons p p' ps ps' hFirst _ ih =>
      rw [List.mem_cons, not_or] at hFilled ⊢
      refine ⟨?_, ih hFilled.2⟩
      rintro rfl
      cases hFirst
      exact hFilled.1 rfl

end Lexeme

end Rowstore

------------------------------------------------------------
-- Texts That Are Kept
------------------------------------------------------------

namespace Rowstore

namespace Lexeme

/-
  The conditions are the source texts of corresponding runs
  at the ends of two statements.
-/
def SpacedConditions
    (k : List Char)
    (all all' : List Lexeme)
    (u v : String) : Prop :=
  ∃ run run',
    run ≠ [] ∧ run <:+ all ∧ run' <:+ all' ∧
      Spaced k run run' ∧ u = source run ∧ v = source run'

/-
  The columns are defined by corresponding stretches of two
  statements.
-/
def SpacedColumns
    (k : List Char)
    (all all' : List Lexeme)
    (c d : ColumnDefinition) : Prop :=
  ∃ piece piece',
    piece <:+: all ∧ piece' <:+: all' ∧
      Spaced k piece piece' ∧
      Reader.columnDefinition piece = .ok c ∧
      Reader.columnDefinition piece' = .ok d

variable {k : List Char}
variable {ls ms all all' : List Lexeme}
variable {pieces pieces' : List (List Lexeme)}

/- The assigned texts correspond. -/
def SpacedAssignment
    (k : List Char)
    (a b : Assignment) : Prop :=
  b.column = a.column ∧ SpacedText k a.value b.value

namespace Spaced

theorem clause
    (hSpaced : Spaced k ls ms)
    (hLeft : ls <:+ all)
    (hRight : ms <:+ all')
    {u : Option String}
    (hClause : Clause u ls) :
    ∃ v,
      Clause v ms ∧
        Option.Rel (SpacedConditions k all all') u v := by
  cases hClause with
  | absent =>
      rw [hSpaced.nil_inv]
      exact ⟨none, .absent, .none⟩
  | present hWhere =>
      rcases hSpaced.cons_inv with
        ⟨w, run, rfl, hWord, hRun⟩
      rcases hRun.cons_inv with ⟨m, rest, rfl, _, _⟩
      refine
        ⟨_, .present (hWord.token.trans hWhere), .some ?_⟩
      exact
        ⟨_, _, List.cons_ne_nil _ _,
          (List.suffix_cons _ _).trans hLeft,
          (List.suffix_cons _ _).trans hRight, hRun, rfl, rfl⟩

theorem assignment?
    (hSpaced : Spaced k ls ms)
    {a : Assignment}
    (hAssigns : Reader.assignment? ls = some a) :
    ∃ b,
      Reader.assignment? ms = some b ∧
        SpacedAssignment k a b := by
  rcases Reader.assignment?_eq_some_iff.mp hAssigns with
    ⟨c, e, v, vs, rfl, hName, hEqual, hValue⟩
  rcases hSpaced.cons_inv with ⟨c', _, rfl, hFirst, hRest⟩
  rcases hRest.cons_inv with ⟨e', _, rfl, hSecond, hRest⟩
  rcases hRest.cons_inv with ⟨v', vs', rfl, _, _⟩
  refine
    ⟨{ column := a.column
       value := Lexeme.source (v' :: vs') }, ?_, rfl, ?_⟩
  · rw [Reader.assignment?_eq_some_iff]
    exact
      ⟨c', e', v', vs', rfl, hFirst.name?.trans hName,
        hSecond.token.trans hEqual, rfl⟩
  · rw [hValue]
    exact hRest.source

theorem typeWritten
    {type : List Lexeme}
    (hSpaced : Spaced k ls ms)
    (hType : TypeWritten type ls) :
    ∃ type', TypeWritten type' ms ∧ Spaced k type type' := by
  cases hType with
  | @word t rest hName hNoOpen =>
      rw [← List.singleton_append] at hSpaced
      rcases hSpaced.append_inv with
        ⟨_, rest', rfl, hFirst, hRest⟩
      rcases hFirst.cons_inv with ⟨t', _, rfl, hWord, hNil⟩
      rw [hNil.nil_inv] at hFirst ⊢
      refine ⟨[t'], .word ?_ (hRest.head? hNoOpen), hFirst⟩
      rwa [hWord.name?]
  | @arguments t p q inner rest hName hOpen hInner hClose =>
      have hSplit :
          t :: p :: (inner ++ q :: rest) =
            (t :: p :: (inner ++ [q])) ++ rest := by
        simp
      rw [hSplit] at hSpaced
      rcases hSpaced.append_inv with
        ⟨type', rest', rfl, hType, _⟩
      rcases hType.cons_inv with ⟨t', _, rfl, hWord, hTail⟩
      rcases hTail.cons_inv with ⟨p', _, rfl, hMark, hTail⟩
      rcases hTail.append_inv with
        ⟨inner', _, rfl, hInside, hLast⟩
      rcases hLast.cons_inv with ⟨q', _, rfl, hEnd, hNil⟩
      rw [hNil.nil_inv] at hType ⊢
      refine ⟨_, ?_, hType⟩
      rw [List.cons_append, List.cons_append,
        List.append_assoc, List.singleton_append]
      refine
        .arguments ?_ (hMark.token.trans hOpen)
          (hInside.forall_token hInner)
          (hEnd.token.trans hClose)
      rwa [hWord.name?]

/- The columns that corresponding stretches define. -/
theorem columnDefinition
    (hSpaced : Spaced k ls ms)
    {c : ColumnDefinition}
    (hColumn : Reader.columnDefinition ls = .ok c) :
    ∃ d,
      Reader.columnDefinition ms = .ok d ∧ d.name = c.name ∧
        SpacedText k c.typeText d.typeText := by
  rcases Reader.columnDefinition_eq_ok_iff.mp hColumn with
    ⟨l, rest, type, rfl, hName, hType, hText, _⟩
  rcases hSpaced.cons_inv with ⟨l', rest', rfl, hWord, hRest⟩
  rcases hRest.typeWritten hType with
    ⟨type', hType', hSource⟩
  refine
    ⟨{ name := c.name
       typeText := Lexeme.source type'
       primaryKey :=
         Reader.declaresKey
           (Lexeme.sourceText (l' :: rest')) },
      ?_, rfl, ?_⟩
  · rw [Reader.columnDefinition_eq_ok_iff]
    exact
      ⟨l', rest', type', rfl, hWord.name?.trans hName, hType',
        rfl, rfl⟩
  · rw [hText]
    exact hSource.source

theorem keyClause
    (hSpaced : Spaced k ls ms)
    {names : List String}
    (hNames : Reader.keyClause ls = .ok names) :
    Reader.keyClause ms = .ok names := by
  have hSame :
      Reader.keyClause? ms = Reader.keyClause? ls := by
    rw [← keyClause?_ungapped ms, hSpaced.ungapped,
      keyClause?_ungapped]
  unfold Reader.keyClause at hNames ⊢
  rw [hSame]
  cases hClause : Reader.keyClause? ls with
  | none =>
      rw [hClause] at hNames
      cases hNames
  | some found =>
      rw [hClause] at hNames
      exact hNames

theorem startsKeyClause (hSpaced : Spaced k ls ms) :
    Reader.startsKeyClause ms = Reader.startsKeyClause ls := by
  cases hSpaced with
  | same => rfl
  | here => rfl
  | later => rfl

end Spaced

/- The pieces of corresponding table definitions. -/
theorem tablePieces_of_spaced
    (hSpaced : List.Forall₂ (Spaced k) pieces pieces')
    (hLeft : ∀ p ∈ pieces, p <:+: all)
    (hRight : ∀ p ∈ pieces', p <:+: all')
    {columns : List ColumnDefinition}
    {key : List String}
    (hPieces :
      Reader.tablePieces pieces = .ok (columns, key)) :
    ∃ columns',
      Reader.tablePieces pieces' = .ok (columns', key) ∧
        List.Forall₂ (SpacedColumns k all all') columns
          columns' := by
  induction hSpaced generalizing columns key with
  | nil =>
      cases hPieces
      exact ⟨[], rfl, .nil⟩
  | @cons p p' ps ps' hFirst _ ih =>
      rw [List.forall_mem_cons] at hLeft hRight
      rcases Reader.tablePieces_cons_eq_ok_iff.mp hPieces with
        ⟨hStarts, names, others, hNames, hRest, rfl⟩ |
        ⟨hStarts, c, others, hColumn, hRest, rfl⟩
      · rcases ih hLeft.2 hRight.2 hRest with
          ⟨columns', hRest', hColumns⟩
        refine ⟨columns', ?_, hColumns⟩
        rw [Reader.tablePieces_cons_eq_ok_iff,
          hFirst.startsKeyClause]
        exact
          .inl
            ⟨hStarts, names, others, hFirst.keyClause hNames,
              hRest', rfl⟩
      · rcases ih hLeft.2 hRight.2 hRest with
          ⟨columns', hRest', hColumns⟩
        rcases hFirst.columnDefinition hColumn with
          ⟨d, hColumn', _⟩
        refine ⟨d :: columns', ?_, .cons ?_ hColumns⟩
        · rw [Reader.tablePieces_cons_eq_ok_iff,
            hFirst.startsKeyClause]
          exact
            .inr
              ⟨hStarts, d, columns', hColumn', hRest', rfl⟩
        · exact
            ⟨p, p', hLeft.1, hRight.1, hFirst, hColumn,
              hColumn'⟩

theorem assignments_of_spaced
    (hSpaced : List.Forall₂ (Spaced k) pieces pieces')
    {changes : List Assignment}
    (hChanges :
      pieces.map Reader.assignment? = changes.map some) :
    ∃ changes',
      pieces'.map Reader.assignment? = changes'.map some ∧
        List.Forall₂ (SpacedAssignment k) changes
          changes' := by
  induction hSpaced generalizing changes with
  | nil =>
      cases changes with
      | nil => exact ⟨[], rfl, .nil⟩
      | cons => cases hChanges
  | cons hFirst _ ih =>
      cases changes with
      | nil => cases hChanges
      | cons a changes =>
          rw [List.map_cons, List.map_cons,
            List.cons.injEq] at hChanges
          rcases hFirst.assignment? hChanges.1 with
            ⟨b, hAssigns, hSame⟩
          rcases ih hChanges.2 with
            ⟨changes', hRest, hOthers⟩
          refine ⟨b :: changes', ?_, .cons hSame hOthers⟩
          rw [List.map_cons, List.map_cons, hAssigns, hRest]

theorem sources_of_spaced
    (hSpaced : List.Forall₂ (Spaced k) pieces pieces') :
    List.Forall₂ (SpacedText k) (pieces.map source)
      (pieces'.map source) := by
  rw [List.forall₂_map_left_iff, List.forall₂_map_right_iff]
  exact hSpaced.imp fun _ _ hPiece => hPiece.source

end Lexeme

end Rowstore
