import Rowstore.Proofs.Execution
import Rowstore.Proofs.Statement.Lowering
import Rowstore.Proofs.Statement.Reading
import Rowstore.Statement.Parser

/-
  A statement in small letters is read as the statement itself,
  with its names and literals in small letters; or both are
  rejected with failures of the same kind.

  Readers see of a lexeme which keyword, mark or comparison it
  is, and whether it may stand for a name.  None of this
  depends on letter case, so each reader takes corresponding
  lexemes of the two texts.

  Main declarations:
    * `Text.lowerName`
    * `Reader.Lowers` and `Reader.Lowers.bind`
    * `Command.lowered`
    * `Statement.parse_lowerName`
-/

------------------------------------------------------------
-- Lowered Lexemes
------------------------------------------------------------

namespace Rowstore

open Text

namespace Text

/- The name with its basic letters lowered. -/
def lowerName (name : String) : String :=
  String.ofList (lowerBasic name.toList)

theorem toList_lowerName (name : String) :
    (lowerName name).toList = lowerBasic name.toList :=
  String.toList_ofList

theorem sameName_iff_lowerName (a b : String) :
    sameName a b = true ↔ lowerName a = lowerName b := by
  unfold sameName lowerName
  rw [sameLetters_iff, String.ofList_inj]

end Text

namespace Token

variable {t : Token}

theorem lowered_eq_keyword_iff {k : Keyword} :
    t.lowered = .keyword k ↔ t = .keyword k := by
  cases t <;> simp [lowered]

theorem lowered_eq_mark_iff {m : Mark} :
    t.lowered = .mark m ↔ t = .mark m := by
  cases t <;> simp [lowered]

theorem lowered_eq_comparison_iff {op : Comparison} :
    t.lowered = .comparison op ↔ t = .comparison op := by
  cases t <;> simp [lowered]

end Token

namespace Lexeme

theorem token_lowered (l : Lexeme) :
    l.lowered.token = l.token.lowered := rfl

theorem isMark_lowered
    (m : Mark)
    (l : Lexeme) :
    l.lowered.isMark m = l.isMark m := by
  rw [Bool.eq_iff_iff]
  unfold isMark lowered
  rw [beq_iff_eq, beq_iff_eq, Token.lowered_eq_mark_iff]

theorem isKeyword_lowered
    (k : Keyword)
    (l : Lexeme) :
    l.lowered.isKeyword k = l.isKeyword k := by
  rw [Bool.eq_iff_iff]
  unfold isKeyword lowered
  rw [beq_iff_eq, beq_iff_eq, Token.lowered_eq_keyword_iff]

/- A soft keyword stands for the name that it spells. -/
theorem name?_lowered (l : Lexeme) :
    l.lowered.name? = l.name?.map lowerName := by
  rcases l with ⟨gap, text, token⟩
  cases token with
  | keyword k =>
      cases hSoft : k.isSoft <;>
        simp [name?, lowered, Token.lowered, hSoft, lowerName]
  | name | quotedName | comparison | mark | number | string
  | unknown =>
      simp [name?, lowered, Token.lowered, lowerName]

theorem depthAfter_lowered
    (depth : Nat)
    (l : Lexeme) :
    l.lowered.depthAfter depth = l.depthAfter depth := by
  rcases l with ⟨gap, text, token⟩
  cases token <;> rfl

theorem fullText_lowered (ls : List Lexeme) :
    fullText (ls.map lowered) = lowerBasic (fullText ls) := by
  unfold fullText lowerBasic
  rw [List.flatMap_map, List.map_flatMap]
  congr 1
  funext l
  simp [lowered, lowerBasic]

theorem sourceText_lowered (ls : List Lexeme) :
    sourceText (ls.map lowered) =
      lowerBasic (sourceText ls) := by
  cases ls with
  | nil => rfl
  | cons l ls =>
      simp only [List.map_cons, sourceText, fullText_lowered,
        lowerBasic_append]
      rfl

theorem source_lowered (ls : List Lexeme) :
    source (ls.map lowered) = lowerName (source ls) := by
  unfold source lowerName
  rw [sourceText_lowered, String.toList_ofList]

------------------------------------------------------------
-- Splits
------------------------------------------------------------

/- The lexemes before and after a split, lowered. -/
def loweredParts
    (parts : List Lexeme × List Lexeme) :
    List Lexeme × List Lexeme :=
  (parts.1.map lowered, parts.2.map lowered)

theorem splitAtClose_lowered
    (depth : Nat)
    (ls : List Lexeme) :
    splitAtClose depth (ls.map lowered) =
      (splitAtClose depth ls).map loweredParts := by
  fun_induction splitAtClose depth ls with
  | case1 => rfl
  | case2 l ls d hOpen ih =>
      simp only [List.map_cons, splitAtClose,
        l.token_lowered, hOpen, Token.lowered, ih,
        Option.map_map]
      rfl
  | case3 l ls hClose =>
      simp only [List.map_cons, splitAtClose,
        l.token_lowered, hClose, Token.lowered]
      rfl
  | case4 l ls d hClose ih =>
      simp only [List.map_cons, splitAtClose,
        l.token_lowered, hClose, Token.lowered, ih,
        Option.map_map]
      rfl
  | case5 l ls d hNoOpen hNoLast hNoClose ih =>
      have hStillNoOpen :
          l.lowered.token ≠ .mark .openParen :=
        mt Token.lowered_eq_mark_iff.mp hNoOpen
      have hStillNoClose :
          l.lowered.token ≠ .mark .closeParen := by
        apply mt Token.lowered_eq_mark_iff.mp
        intro hClose
        cases d with
        | zero => exact hNoLast hClose rfl
        | succ d => exact hNoClose d hClose rfl
      simp only [List.map_cons, hStillNoClose, imp_false,
        IsEmpty.forall_iff, implies_true, splitAtClose, ih,
        Option.map_map]
      rfl

theorem splitAtTop_lowered
    (k : Keyword)
    (depth : Nat)
    (ls : List Lexeme) :
    splitAtTop k depth (ls.map lowered) =
      (splitAtTop k depth ls).map loweredParts := by
  induction ls generalizing depth with
  | nil => rfl
  | cons l ls ih =>
      simp only [List.map_cons, splitAtTop, isKeyword_lowered,
        depthAfter_lowered, ih]
      split
      · rfl
      · simp only [Option.map_map]
        rfl

theorem splitCommas_lowered
    (depth : Nat)
    (ls : List Lexeme) :
    splitCommas depth (ls.map lowered) =
      (splitCommas depth ls).map (List.map lowered) := by
  induction ls generalizing depth with
  | nil => rfl
  | cons l ls ih =>
      simp only [List.map_cons, splitCommas, isMark_lowered,
        depthAfter_lowered, ih]
      split
      · rfl
      · cases splitCommas (l.depthAfter depth) ls with
        | nil => rfl
        | cons piece pieces => rfl

end Lexeme

end Rowstore

------------------------------------------------------------
-- Readers Of Lowered Lexemes
------------------------------------------------------------

namespace Rowstore

namespace Reader

open Execution Lexeme Text

variable {α γ α' γ' : Type} {Q : α → γ → Prop}
variable {P : α' → γ' → Prop} {usage : String}

/-
  Of lowered lexemes the second reader leaves those that the
  first one leaves of the lexemes themselves, and their answers
  are related; or both fail, and with the same kind of failure.
-/
def Lowers
    (Q : α → γ → Prop)
    (r : Reader α)
    (r' : Reader γ) : Prop :=
  ∀ ls,
    SameKind
      (fun p p' =>
        Q p.1 p'.1 ∧ p'.2 = p.2.map Lexeme.lowered)
      (r.run ls) (r'.run (ls.map Lexeme.lowered))

theorem kindName_unexpected
    (usage : String)
    (ls : List Lexeme) :
    (unexpected usage ls).kindName = "InvalidSyntax" := by
  unfold unexpected
  split
  · rfl
  · rfl

theorem sameKind_unexpected
    {R : α → γ → Prop}
    (usage : String)
    (ls ls' : List Lexeme) :
    SameKind R (.error (unexpected usage ls))
      (.error (unexpected usage ls')) := by
  apply SameKind.error
  rw [kindName_unexpected, kindName_unexpected]

namespace Lowers

theorem of_pure
    {a : α}
    {b : γ}
    (hValues : Q a b) :
    Lowers Q (pure a) (pure b) :=
  fun _ => .ok ⟨hValues, rfl⟩

theorem of_fail (usage : String) :
    Lowers Q (fail usage) (fail usage) :=
  fun _ => sameKind_unexpected usage _ _

theorem of_lift
    {x : Except Error α}
    {y : Except Error γ}
    (hSame : SameKind Q x y) :
    Lowers Q (liftM x) (liftM y) := by
  intro ls
  cases hSame with
  | ok hValues => exact .ok ⟨hValues, rfl⟩
  | error hKind => exact .error hKind

theorem of_get :
    Lowers (fun ls ls' => ls' = ls.map Lexeme.lowered)
      (get : Reader (List Lexeme)) get :=
  fun _ => .ok ⟨rfl, rfl⟩

theorem of_set
    {ls ls' : List Lexeme}
    (hLowered : ls' = ls.map Lexeme.lowered) :
    Lowers (fun _ _ => True)
      (set ls : Reader PUnit) (set ls') :=
  fun _ => .ok ⟨trivial, hLowered⟩

theorem bind
    {r : Reader α}
    {r' : Reader γ}
    {f : α → Reader α'}
    {g : γ → Reader γ'}
    (hFirst : Lowers Q r r')
    (hSecond : ∀ a b, Q a b → Lowers P (f a) (g b)) :
    Lowers P (r >>= f) (r' >>= g) := by
  intro ls
  rw [StateT.run_bind, StateT.run_bind]
  apply (hFirst ls).bind
  rintro ⟨a, rest⟩ ⟨b, rest'⟩ ⟨hValues, hRest⟩
  dsimp only at hValues hRest
  rw [hRest]
  exact hSecond a b hValues rest

end Lowers

------------------------------------------------------------
-- Single Lexemes And Names
------------------------------------------------------------

theorem lowers_accept
    {t : Token}
    (hToken : ∀ u : Token, u.lowered = t ↔ u = t) :
    Lowers (fun a b => b = a) (accept t) (accept t) := by
  intro ls
  cases ls with
  | nil => exact .ok ⟨rfl, rfl⟩
  | cons l ls =>
      change
        SameKind _
          (if l.token = t then .ok (true, ls)
            else .ok (false, l :: ls))
          (if l.token.lowered = t then _ else _)
      rw [ite_congr (propext (hToken l.token)) (fun _ => rfl)
        fun _ => rfl]
      split
      · exact .ok ⟨rfl, rfl⟩
      · exact .ok ⟨rfl, rfl⟩

theorem lowers_expect
    {t : Token}
    (hToken : ∀ u : Token, u.lowered = t ↔ u = t)
    (usage : String) :
    Lowers (fun _ _ => True) (expect usage t)
      (expect usage t) := by
  apply (lowers_accept hToken).bind
  rintro a b rfl
  split
  · exact .of_pure trivial
  · exact .of_fail usage

theorem lowers_expect_keyword
    (usage : String)
    (k : Keyword) :
    Lowers (fun _ _ => True) (expect usage (.keyword k))
      (expect usage (.keyword k)) :=
  lowers_expect (fun _ => Token.lowered_eq_keyword_iff) usage

theorem lowers_expect_mark
    (usage : String)
    (m : Mark) :
    Lowers (fun _ _ => True) (expect usage (.mark m))
      (expect usage (.mark m)) :=
  lowers_expect (fun _ => Token.lowered_eq_mark_iff) usage

theorem lowers_name (usage : String) :
    Lowers (fun a b => b = lowerName a) (name usage)
      (name usage) := by
  intro ls
  cases ls with
  | nil => exact sameKind_unexpected usage _ _
  | cons l ls =>
      change
        SameKind _ (name usage (l :: ls))
          (name usage (l.lowered :: ls.map Lexeme.lowered))
      simp only [name, name?_lowered]
      cases l.name? with
      | none => exact sameKind_unexpected usage _ _
      | some s => exact .ok ⟨rfl, rfl⟩

theorem lowers_moreNames (usage : String) :
    Lowers (fun a b => b = a.map lowerName)
      (moreNames usage) (moreNames usage) := by
  intro ls
  change
    SameKind _ (moreNames usage ls)
      (moreNames usage (ls.map Lexeme.lowered))
  fun_induction moreNames usage ls with
  | case1 c l ls hComma s hName names r hRest ih =>
      rw [hRest] at ih
      simp only [List.map_cons, moreNames, isMark_lowered,
        hComma, if_true, name?_lowered, hName,
        Option.map_some]
      generalize
        moreNames usage (ls.map Lexeme.lowered) = answer
        at ih ⊢
      cases ih with
      | ok hBoth =>
          exact .ok ⟨congrArg _ hBoth.1, hBoth.2⟩
  | case2 c l ls hComma s hName e hRest ih =>
      rw [hRest] at ih
      simp only [List.map_cons, moreNames, isMark_lowered,
        hComma, if_true, name?_lowered, hName,
        Option.map_some]
      generalize
        moreNames usage (ls.map Lexeme.lowered) = answer
        at ih ⊢
      cases ih with
      | error hKind => exact .error hKind
  | case3 c l ls hComma hName =>
      simp only [List.map_cons, moreNames, isMark_lowered,
        hComma, if_true, name?_lowered, hName,
        Option.map_none]
      exact sameKind_unexpected usage _ _
  | case4 c l ls hOther =>
      simp only [List.map_cons, moreNames, isMark_lowered,
        hOther, Bool.false_eq_true, if_false]
      exact .ok ⟨rfl, rfl⟩
  | case5 c hComma =>
      simp only [List.map_cons, List.map_nil, moreNames,
        isMark_lowered, hComma, if_true]
      exact sameKind_unexpected usage _ _
  | case6 c hOther =>
      simp only [List.map_cons, List.map_nil, moreNames,
        isMark_lowered, hOther, Bool.false_eq_true, if_false]
      exact .ok ⟨rfl, rfl⟩
  | case7 => exact .ok ⟨rfl, rfl⟩

theorem lowers_names (usage : String) :
    Lowers (fun a b => b = a.map lowerName) (names usage)
      (names usage) := by
  apply (lowers_name usage).bind
  rintro first _ rfl
  apply (lowers_moreNames usage).bind
  rintro others _ rfl
  exact .of_pure rfl

theorem lowers_enclosed (usage : String) :
    Lowers (fun a b => b = a.map Lexeme.lowered)
      (enclosed usage) (enclosed usage) := by
  intro ls
  change
    SameKind _ (enclosed usage ls)
      (enclosed usage (ls.map Lexeme.lowered))
  simp only [enclosed, splitAtClose_lowered]
  cases splitAtClose 0 ls with
  | none => exact sameKind_unexpected usage _ _
  | some parts => exact .ok ⟨rfl, rfl⟩

theorem lowers_condition (usage : String) :
    Lowers (fun a b => b = a.map lowerName)
      (condition usage) (condition usage) := by
  apply
    (lowers_accept fun _ =>
      Token.lowered_eq_keyword_iff).bind
  rintro found _ rfl
  split
  · apply Lowers.of_get.bind
    rintro ls _ rfl
    cases ls with
    | nil => exact .of_fail usage
    | cons l ls =>
        apply (Lowers.of_set rfl).bind
        rintro _ _ _
        apply Lowers.of_pure
        exact congrArg some (source_lowered (l :: ls))
  · exact .of_pure rfl

end Reader

end Rowstore

------------------------------------------------------------
-- Statements That Read And Change Rows
------------------------------------------------------------

namespace Rowstore

open Text

/- The projection with its names lowered. -/
def Projection.lowered : Projection → Projection
| .all => .all
| .columns names => .columns (names.map lowerName)

/- The assignment with its name and its literal lowered. -/
def Assignment.lowered (a : Assignment) : Assignment :=
  { column := lowerName a.column
    value := lowerName a.value }

/- A command that reads or changes rows, with its names and literals lowered. -/
def Command.lowered : Command → Command
| .select projection table condition =>
  .select projection.lowered (lowerName table)
    (condition.map lowerName)
| .insert table columns values =>
  .insert (lowerName table) (columns.map lowerName)
    (values.map lowerName)
| .update table assignments condition =>
  .update (lowerName table)
    (assignments.map Assignment.lowered)
    (condition.map lowerName)
| .delete table condition =>
  .delete (lowerName table) (condition.map lowerName)
| c => c

namespace Reader

open Execution Lexeme

/- The part of a selection that follows what it shows. -/
theorem lowers_selectFrom (projection : Projection) :
    Lowers (fun c d => d = Command.lowered c)
      (do
        expect selectUsage (.keyword .«from»)
        let table ← name selectUsage
        let condition ← condition selectUsage
        pure (Command.select projection table condition))
      (do
        expect selectUsage (.keyword .«from»)
        let table ← name selectUsage
        let condition ← condition selectUsage
        pure
          (Command.select projection.lowered table
            condition)) := by
  apply (lowers_expect_keyword selectUsage _).bind
  intro _ _ _
  apply (lowers_name selectUsage).bind
  rintro table _ rfl
  apply (lowers_condition selectUsage).bind
  rintro condition _ rfl
  exact .of_pure rfl

theorem lowers_select :
    Lowers (fun c d => d = Command.lowered c)
      select select := by
  apply
    (lowers_accept fun _ => Token.lowered_eq_mark_iff).bind
  rintro star _ rfl
  split
  · exact lowers_selectFrom .all
  · apply (lowers_names selectUsage).bind
    rintro names _ rfl
    exact lowers_selectFrom (.columns names)

theorem sameKind_pieceTexts
    (usage : String)
    (ls : List Lexeme)
    (pieces : List (List Lexeme)) :
    SameKind (fun a b => b = a.map lowerName)
      (pieceTexts usage ls pieces)
      (pieceTexts usage (ls.map Lexeme.lowered)
        (pieces.map (List.map Lexeme.lowered))) := by
  induction pieces with
  | nil => exact .ok rfl
  | cons piece pieces ih =>
      cases piece with
      | nil => exact sameKind_unexpected usage _ _
      | cons l piece =>
          apply ih.map
          rintro texts _ rfl
          simp only [List.map_cons, ← source_lowered]

theorem lowers_insert :
    Lowers (fun c d => d = Command.lowered c)
      insert insert := by
  apply (lowers_expect_keyword insertUsage _).bind
  intro _ _ _
  apply (lowers_name insertUsage).bind
  rintro table _ rfl
  apply (lowers_expect_mark insertUsage _).bind
  intro _ _ _
  apply (lowers_names insertUsage).bind
  rintro columns _ rfl
  apply (lowers_expect_mark insertUsage _).bind
  intro _ _ _
  apply (lowers_expect_keyword insertUsage _).bind
  intro _ _ _
  apply (lowers_expect_mark insertUsage _).bind
  intro _ _ _
  apply Lowers.of_get.bind
  rintro here _ rfl
  apply (lowers_enclosed insertUsage).bind
  rintro inner _ rfl
  rw [splitCommas_lowered]
  apply
    (Lowers.of_lift
      (sameKind_pieceTexts insertUsage here _)).bind
  rintro values _ rfl
  exact .of_pure rfl

theorem assignment?_lowered (piece : List Lexeme) :
    assignment? (piece.map Lexeme.lowered) =
      (assignment? piece).map Assignment.lowered := by
  rcases piece with _ | ⟨c, _ | ⟨e, _ | ⟨v, vs⟩⟩⟩
  · rfl
  · rfl
  · rfl
  · have hEqual :
        e.lowered.token = .comparison .eq ↔
          e.token = .comparison .eq :=
      Token.lowered_eq_comparison_iff
    have hValue :
        source (v.lowered :: vs.map Lexeme.lowered) =
          lowerName (source (v :: vs)) :=
      source_lowered (v :: vs)
    simp only [List.map_cons, assignment?, name?_lowered,
      hEqual, hValue]
    cases c.name? with
    | none => rfl
    | some column =>
        simp only [Option.map_some]
        split
        · rfl
        · rfl

theorem sameKind_assignments
    (ls : List Lexeme)
    (pieces : List (List Lexeme)) :
    SameKind (fun a b => b = a.map Assignment.lowered)
      (assignments ls pieces)
      (assignments (ls.map Lexeme.lowered)
        (pieces.map (List.map Lexeme.lowered))) := by
  induction pieces with
  | nil => exact .ok rfl
  | cons piece pieces ih =>
      simp only [List.map_cons, assignments,
        assignment?_lowered]
      cases assignment? piece with
      | none => exact sameKind_unexpected updateUsage _ _
      | some a =>
          apply ih.map
          rintro texts _ rfl
          rfl

theorem lowers_update :
    Lowers (fun c d => d = Command.lowered c)
      update update := by
  apply (lowers_name updateUsage).bind
  rintro table _ rfl
  apply (lowers_expect_keyword updateUsage _).bind
  intro _ _ _
  apply Lowers.of_get.bind
  rintro here _ rfl
  have hSplit :
      (splitAtTop .«where» 0
            (here.map Lexeme.lowered)).getD
          (here.map Lexeme.lowered, []) =
        loweredParts
          ((splitAtTop .«where» 0 here).getD (here, [])) := by
    rw [splitAtTop_lowered]
    cases splitAtTop .«where» 0 here with
    | none => rfl
    | some parts => rfl
  rw [hSplit]
  rcases (splitAtTop .«where» 0 here).getD (here, []) with
    ⟨before, after⟩
  dsimp only [loweredParts]
  rw [splitCommas_lowered]
  apply
    (Lowers.of_lift (sameKind_assignments here _)).bind
  rintro changes _ rfl
  apply (Lowers.of_set rfl).bind
  intro _ _ _
  apply (lowers_condition updateUsage).bind
  rintro condition _ rfl
  exact .of_pure rfl

theorem lowers_delete :
    Lowers (fun c d => d = Command.lowered c)
      delete delete := by
  apply (lowers_expect_keyword deleteUsage _).bind
  intro _ _ _
  apply (lowers_name deleteUsage).bind
  rintro table _ rfl
  apply (lowers_condition deleteUsage).bind
  rintro condition _ rfl
  exact .of_pure rfl

end Reader

end Rowstore

------------------------------------------------------------
-- Whole Statements
------------------------------------------------------------

namespace Rowstore

open Execution Text

namespace Reader

theorem lowers_finish (usage : String) :
    Lowers (fun _ _ => True) (finish usage)
      (finish usage) := by
  apply Lowers.of_get.bind
  rintro ls _ rfl
  cases ls with
  | nil => exact .of_pure trivial
  | cons l ls => exact .of_fail usage

end Reader

namespace Statement

/- The text begins with the word of a statement that reads or changes rows. -/
def IsData (text : String) : Prop :=
  ∃ k ∈ [Keyword.select, .insert, .update, .delete],
    (Lexer.lexemes (normalize text.toList)).head?.map
      Lexeme.token = some (.keyword k)

theorem normalize_lowerBasic (s : List Char) :
    normalize (lowerBasic s) = lowerBasic (normalize s) := by
  have hSemicolon : CaseBlind fun c => c == ';' :=
    caseBlind_eq rfl
  unfold normalize trimEnd
  rw [trim_lowerBasic, dropEndWhile_lowerBasic hSemicolon,
    dropEndWhile_lowerBasic caseBlind_isBlank]

theorem isData_lowerName_iff (text : String) :
    IsData (lowerName text) ↔ IsData text := by
  unfold IsData
  rw [toList_lowerName, normalize_lowerBasic,
    Lexer.lexemes_lowerBasic]
  cases Lexer.lexemes (normalize text.toList) with
  | nil => rfl
  | cons first ls =>
      simp only [List.map_cons, List.head?_cons,
        Option.map_some, Option.some.injEq,
        Lexeme.token_lowered, Token.lowered_eq_keyword_iff]

/- The statement of a lowered text is the lowered command. -/
def LoweredTo (a b : Statement) : Prop :=
  ∃ c, a = .command c ∧ b = .command c.lowered

theorem sameKind_ofLexemes
    {s s' : List Char}
    {first : Lexeme}
    {k : Keyword}
    (hFirst : first.token = .keyword k)
    {usage : String}
    {r : Reader Command}
    (hReader :
      Reader.afterFirst? (.keyword k) =
        some (Reader.shaped usage r))
    (hLowers :
      Reader.Lowers (fun c d => d = Command.lowered c) r r)
    (ls : List Lexeme) :
    SameKind LoweredTo (ofLexemes s first ls)
      (ofLexemes s' first.lowered
        (ls.map Lexeme.lowered)) := by
  have hShaped :
      Reader.Lowers
        (fun a b => LoweredTo a.1 b.1 ∧ b.2 = a.2)
        (Reader.shaped usage r) (Reader.shaped usage r) := by
    apply hLowers.bind
    rintro c _ rfl
    exact .of_pure ⟨⟨c, rfl, rfl⟩, rfl⟩
  have hLowered : first.lowered.token = .keyword k := by
    rw [Lexeme.token_lowered, hFirst]
    rfl
  unfold ofLexemes
  rw [hFirst, hLowered, hReader]
  apply (hShaped ls).bind
  rintro ⟨⟨a, used⟩, left⟩ ⟨⟨b, used'⟩, left'⟩
    ⟨⟨hLowered, hUsed⟩, hLeft⟩
  dsimp only at hLowered hUsed hLeft
  rw [hUsed, hLeft]
  apply (Reader.lowers_finish used left).bind
  intro _ _ _
  exact .ok hLowered

/- A lowered text is read as the lowered statement. -/
theorem parse_lowerName
    {text : String}
    (hData : IsData text) :
    SameKind LoweredTo (parse text)
      (parse (lowerName text)) := by
  rcases hData with ⟨k, hKeyword, hHead⟩
  unfold parse
  dsimp only
  rw [toList_lowerName, normalize_lowerBasic,
    Lexer.lexemes_lowerBasic]
  cases hLexemes :
      Lexer.lexemes (normalize text.toList) with
  | nil =>
      rw [hLexemes] at hHead
      cases hHead
  | cons first ls =>
      rw [hLexemes, List.head?_cons, Option.map_some,
        Option.some.injEq] at hHead
      simp only [List.mem_cons, List.not_mem_nil,
        or_false] at hKeyword
      rcases hKeyword with rfl | rfl | rfl | rfl
      · exact sameKind_ofLexemes hHead rfl
          Reader.lowers_select ls
      · exact sameKind_ofLexemes hHead rfl
          Reader.lowers_insert ls
      · exact sameKind_ofLexemes hHead rfl
          Reader.lowers_update ls
      · exact sameKind_ofLexemes hHead rfl
          Reader.lowers_delete ls

end Statement

end Rowstore
