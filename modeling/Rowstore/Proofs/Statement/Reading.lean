import Rowstore.Proofs.Statement.Nesting

/-
  What the readers of statements take from the lexemes that
  are left, and when they succeed.

  Main declarations:
    * `Reader.bind_eq_ok_iff`
    * `Lexeme.Spell`, `Lexeme.Optionally`,
      `Lexeme.NameList` and `Lexeme.Clause`
    * `Reader.accept_eq_ok_iff` and
      `Reader.expect_eq_ok_iff`
    * `Reader.names_eq_ok_iff`,
      `Reader.condition_eq_ok_iff` and
      `Reader.enclosed_eq_ok_iff`
-/

------------------------------------------------------------
-- Sequences Of Readers
------------------------------------------------------------

namespace Rowstore

namespace Reader

variable {α γ : Type} {ls rest : List Lexeme}

theorem bind_eq_ok_iff
    {x : Reader α}
    {f : α → Reader γ}
    {b : γ} :
    (x >>= f).run ls = .ok (b, rest) ↔
      ∃ a mid,
        x.run ls = .ok (a, mid) ∧
          (f a).run mid = .ok (b, rest) := by
  rw [StateT.run_bind]
  cases hRun : x.run ls with
  | error e => simp [bind, Except.bind]
  | ok p =>
      rcases p with ⟨a, mid⟩
      constructor
      · intro hNext
        exact ⟨a, mid, rfl, hNext⟩
      · rintro ⟨a', mid', hFirst, hNext⟩
        cases hFirst
        exact hNext

/- A reader that succeeds is followed by the rest of a sequence. -/
theorem run_bind_of_ok
    {x : Reader α}
    {f : α → Reader γ}
    {mid : List Lexeme}
    {a : α}
    (hRun : x.run ls = .ok (a, mid)) :
    (x >>= f).run ls = (f a).run mid := by
  rw [StateT.run_bind, hRun]
  rfl

theorem pure_eq_ok_iff {a b : α} :
    (pure a : Reader α).run ls = .ok (b, rest) ↔
      a = b ∧ ls = rest := by
  change
    (.ok (a, ls) : Except Error (α × List Lexeme)) =
      .ok (b, rest) ↔ _
  rw [Except.ok.injEq, Prod.mk.injEq]

theorem fail_ne_ok
    {usage : String}
    {b : α} :
    (fail usage : Reader α).run ls ≠ .ok (b, rest) := by
  intro hRun
  cases hRun

theorem lift_eq_ok_iff
    {answer : Except Error α}
    {b : α} :
    (liftM answer : Reader α).run ls = .ok (b, rest) ↔
      answer = .ok b ∧ ls = rest := by
  cases answer with
  | error e =>
      constructor
      · intro hRun
        cases hRun
      · rintro ⟨hOk, _⟩
        cases hOk
  | ok a =>
      rw [Except.ok.injEq]
      exact pure_eq_ok_iff

theorem map_eq_ok_iff
    {f : α → γ}
    {answer : Except Error α}
    {b : γ} :
    answer.map f = .ok b ↔
      ∃ a, answer = .ok a ∧ f a = b := by
  cases answer with
  | error e => simp [Except.map]
  | ok a => simp [Except.map]

theorem get_eq_ok_iff {here : List Lexeme} :
    (get : Reader (List Lexeme)).run ls =
        .ok (here, rest) ↔
      ls = here ∧ ls = rest := pure_eq_ok_iff

theorem set_eq_ok_iff
    {new : List Lexeme}
    {u : PUnit} :
    (set new : Reader PUnit).run ls = .ok (u, rest) ↔
      new = rest := by
  change
    (.ok (PUnit.unit, new) :
      Except Error (PUnit × List Lexeme)) =
      .ok (u, rest) ↔ _
  simp

end Reader

end Rowstore

------------------------------------------------------------
-- Single Lexemes
------------------------------------------------------------

namespace Rowstore

namespace Lexeme

/- The lexemes have exactly these tokens. -/
def Spell
    (ts : List Token)
    (ls : List Lexeme) : Prop :=
  ls.map token = ts

theorem spell_singleton_iff
    {t : Token}
    {ls : List Lexeme} :
    Spell [t] ls ↔ ∃ l, ls = [l] ∧ l.token = t :=
  List.map_eq_singleton_iff

/- A token that may be left out, and is not there twice. -/
def Optionally
    (t : Token)
    (word after : List Lexeme) : Prop :=
  Spell [t] word ∨
    word = [] ∧ ∀ l ∈ after.head?, l.token ≠ t

end Lexeme

namespace Reader

open Lexeme

variable {ls rest : List Lexeme}

theorem accept_eq_ok_iff
    {t : Token}
    {b : Bool} :
    (accept t).run ls = .ok (b, rest) ↔
      ∃ word,
        ls = word ++ rest ∧ Optionally t word rest ∧
          b = !word.isEmpty := by
  constructor
  · intro hRun
    cases ls with
    | nil =>
        cases hRun
        exact ⟨[], rfl, .inr ⟨rfl, by simp⟩, rfl⟩
    | cons l ls =>
        by_cases hToken : l.token = t
        · have hTaken :
              (accept t).run (l :: ls) = .ok (true, ls) :=
            if_pos hToken
          rw [hTaken] at hRun
          cases hRun
          exact
            ⟨[l], rfl, .inl (by simp [Spell, hToken]), rfl⟩
        · have hLeft :
              (accept t).run (l :: ls) =
                .ok (false, l :: ls) :=
            if_neg hToken
          rw [hLeft] at hRun
          cases hRun
          exact
            ⟨[], rfl, .inr ⟨rfl, by simpa using hToken⟩, rfl⟩
  · rintro ⟨word, rfl, hWord | ⟨rfl, hOther⟩, rfl⟩
    · rw [spell_singleton_iff] at hWord
      rcases hWord with ⟨l, rfl, hToken⟩
      exact if_pos hToken
    · cases rest with
      | nil => rfl
      | cons l rest => exact if_neg (hOther l rfl)

theorem expect_eq_ok_iff
    {usage : String}
    {t : Token}
    {u : Unit} :
    (expect usage t).run ls = .ok (u, rest) ↔
      ∃ l, ls = l :: rest ∧ l.token = t := by
  unfold expect
  rw [bind_eq_ok_iff]
  constructor
  · rintro ⟨b, mid, hAccept, hRest⟩
    cases b with
    | false => exact absurd hRest fail_ne_ok
    | true =>
        rw [if_pos rfl, pure_eq_ok_iff] at hRest
        rcases hRest with ⟨_, rfl⟩
        rw [accept_eq_ok_iff] at hAccept
        rcases hAccept with
          ⟨word, rfl, hWord | ⟨rfl, _⟩, hTaken⟩
        · rw [spell_singleton_iff] at hWord
          rcases hWord with ⟨l, rfl, hToken⟩
          exact ⟨l, rfl, hToken⟩
        · cases hTaken
  · rintro ⟨l, rfl, hToken⟩
    refine ⟨true, rest, ?_, pure_eq_ok_iff.mpr ⟨rfl, rfl⟩⟩
    exact if_pos hToken

theorem name_eq_ok_iff
    {usage name : String} :
    (Reader.name usage).run ls = .ok (name, rest) ↔
      ∃ l, ls = l :: rest ∧ l.name? = some name := by
  cases ls with
  | nil =>
      constructor
      · intro hRun
        cases hRun
      · rintro ⟨l, hNil, _⟩
        cases hNil
  | cons l ls =>
      simp only [Reader.name, StateT.run, List.cons.injEq]
      cases hName : l.name? with
      | none =>
          constructor
          · intro hRun
            cases hRun
          · rintro ⟨l', ⟨rfl, rfl⟩, hSome⟩
            rw [hName] at hSome
            cases hSome
      | some s =>
          constructor
          · intro hRun
            cases hRun
            exact ⟨l, ⟨rfl, rfl⟩, hName⟩
          · rintro ⟨l', ⟨rfl, rfl⟩, hSome⟩
            rw [hName] at hSome
            cases hSome
            rfl

/- A name that is the last lexeme, and what is made of it. -/
theorem named_eq_ok_iff
    {α : Type}
    {f : String → α}
    {usage : String}
    {a : α} :
    (do
      let n ← Reader.name usage
      pure (f n) : Reader α).run ls = .ok (a, []) ↔
      ∃ n l, a = f n ∧ ls = [l] ∧ l.name? = some n := by
  simp only [bind_eq_ok_iff, name_eq_ok_iff, pure_eq_ok_iff]
  constructor
  · rintro ⟨n, _, ⟨l, rfl, hName⟩, rfl, rfl⟩
    exact ⟨n, l, rfl, rfl, hName⟩
  · rintro ⟨n, l, rfl, rfl, hName⟩
    exact ⟨n, [], ⟨l, rfl, hName⟩, rfl, rfl⟩

/- What is read after one lexeme, which is not missing. -/
theorem next?_bind_eq_ok_iff
    {α : Type}
    {f : Option Lexeme → Reader α}
    {a : α}
    (hNone : (f none).run [] ≠ .ok (a, rest)) :
    (next? >>= f).run ls = .ok (a, rest) ↔
      ∃ l more,
        ls = l :: more ∧
          (f (some l)).run more = .ok (a, rest) := by
  cases ls with
  | nil =>
      constructor
      · intro hRun
        exact absurd hRun hNone
      · rintro ⟨l, more, hNil, _⟩
        cases hNil
  | cons l ls =>
      constructor
      · intro hRun
        exact ⟨l, ls, rfl, hRun⟩
      · rintro ⟨_, _, ⟨⟩, hRun⟩
        exact hRun

end Reader

end Rowstore

------------------------------------------------------------
-- Lists Of Names
------------------------------------------------------------

namespace Rowstore

/- Further names, each after a comma. -/
inductive Lexeme.MoreNames :
    List String → List Lexeme → Prop where
| nil : MoreNames [] []
| cons
    {c l : Lexeme}
    {name : String}
    {names : List String}
    {ls : List Lexeme}
    (hComma : c.token = .mark .comma)
    (hName : l.name? = some name)
    (hMore : MoreNames names ls) :
    MoreNames (name :: names) (c :: l :: ls)

/- Names with commas between them, at least one. -/
inductive Lexeme.NameList :
    List String → List Lexeme → Prop where
| intro
    {l : Lexeme}
    {name : String}
    {names : List String}
    {ls : List Lexeme}
    (hName : l.name? = some name)
    (hMore : MoreNames names ls) :
    NameList (name :: names) (l :: ls)

namespace Lexeme

variable {l : Lexeme} {names : List String}
variable {ls : List Lexeme}

theorem MoreNames.mem
    (hNames : MoreNames names ls)
    (hMember : l ∈ ls) :
    l.token = .mark .comma ∨
      ∃ name, l.name? = some name := by
  induction hNames with
  | nil => cases hMember
  | cons hComma hName _ ih =>
      rcases List.mem_cons.mp hMember with rfl | hMember
      · exact .inl hComma
      · rcases List.mem_cons.mp hMember with rfl | hMember
        · exact .inr ⟨_, hName⟩
        · exact ih hMember

/- A list of names holds only names and commas. -/
theorem NameList.mem
    (hNames : NameList names ls)
    (hMember : l ∈ ls) :
    l.token = .mark .comma ∨
      ∃ name, l.name? = some name := by
  rcases hNames with ⟨hName, hMore⟩
  rcases List.mem_cons.mp hMember with rfl | hMember
  · exact .inr ⟨_, hName⟩
  · exact hMore.mem hMember

end Lexeme

namespace Reader

open Lexeme

variable {ls rest : List Lexeme}
variable {usage : String} {names : List String}

theorem moreNames_of_written
    (hNames : MoreNames names ls)
    (hEnd : ∀ l ∈ rest.head?, l.token ≠ .mark .comma) :
    (moreNames usage).run (ls ++ rest) =
      .ok (names, rest) := by
  change moreNames usage (ls ++ rest) = .ok (names, rest)
  induction hNames with
  | nil =>
      cases rest with
      | nil => rfl
      | cons c rest =>
          have hOther : c.isMark .comma = false := by
            simpa [isMark] using hEnd
          cases rest with
          | nil => simp [moreNames, hOther]
          | cons l rest => simp [moreNames, hOther]
  | cons hComma hName _ ih =>
      simp [moreNames, isMark, hComma, hName, ih]

theorem written_of_moreNames
    (hRun :
      (moreNames usage).run ls = .ok (names, rest)) :
    ∃ list,
      ls = list ++ rest ∧ MoreNames names list ∧
        ∀ l ∈ rest.head?, l.token ≠ .mark .comma := by
  change moreNames usage ls = .ok (names, rest) at hRun
  fun_induction moreNames usage ls generalizing names with
  | case1 c l ls hComma name hName others rest' hMore ih =>
      cases hRun
      rcases ih hMore with ⟨list, rfl, hList, hEnd⟩
      have hToken : c.token = .mark .comma := by
        simpa [isMark] using hComma
      exact
        ⟨c :: l :: list, rfl, .cons hToken hName hList,
          hEnd⟩
  | case2 => cases hRun
  | case3 => cases hRun
  | case4 c l ls hOther =>
      cases hRun
      exact ⟨[], rfl, .nil, by simpa [isMark] using hOther⟩
  | case5 => cases hRun
  | case6 c hOther =>
      cases hRun
      exact ⟨[], rfl, .nil, by simpa [isMark] using hOther⟩
  | case7 =>
      cases hRun
      exact ⟨[], rfl, .nil, by simp⟩

theorem names_eq_ok_iff :
    (Reader.names usage).run ls = .ok (names, rest) ↔
      ∃ list,
        ls = list ++ rest ∧ NameList names list ∧
          ∀ l ∈ rest.head?, l.token ≠ .mark .comma := by
  unfold Reader.names
  simp only [bind_eq_ok_iff, name_eq_ok_iff, pure_eq_ok_iff]
  constructor
  · rintro ⟨first, mid, ⟨l, rfl, hName⟩, others, rest',
      hOthers, rfl, rfl⟩
    rcases written_of_moreNames hOthers with
      ⟨list, rfl, hList, hEnd⟩
    exact ⟨l :: list, rfl, .intro hName hList, hEnd⟩
  · rintro ⟨list, rfl, ⟨hName, hMore⟩, hEnd⟩
    exact
      ⟨_, _, ⟨_, rfl, hName⟩, _, rest,
        moreNames_of_written hMore hEnd, rfl, rfl⟩

end Reader

end Rowstore

------------------------------------------------------------
-- Ends Of Statements
------------------------------------------------------------

namespace Rowstore

/-
  A condition that may be left out: the word and what follows
  it, which is not empty.
-/
inductive Lexeme.Clause :
    Option String → List Lexeme → Prop where
| absent : Clause none []
| present
    {w l : Lexeme}
    {ls : List Lexeme}
    (hWord : w.token = .keyword .«where») :
    Clause (some (source (l :: ls))) (w :: l :: ls)

namespace Reader

open Lexeme

variable {ls rest : List Lexeme} {usage : String}

/- A condition takes everything that is left. -/
theorem condition_eq_ok_iff {c : Option String} :
    (Reader.condition usage).run ls = .ok (c, []) ↔
      Clause c ls := by
  unfold Reader.condition
  rw [bind_eq_ok_iff]
  constructor
  · rintro ⟨b, mid, hWord, hRest⟩
    rw [accept_eq_ok_iff] at hWord
    rcases hWord with ⟨word, rfl, hWord, rfl⟩
    rcases hWord with hWord | ⟨rfl, _⟩
    · rw [spell_singleton_iff] at hWord
      rcases hWord with ⟨w, rfl, hToken⟩
      cases mid with
      | nil => cases hRest
      | cons l mid =>
          cases hRest
          exact .present hToken
    · cases hRest
      exact .absent
  · intro hClause
    cases hClause with
    | absent => exact ⟨false, [], rfl, rfl⟩
    | present hWord =>
        exact ⟨true, _, if_pos hWord, rfl⟩

end Reader

end Rowstore

------------------------------------------------------------
-- Parentheses
------------------------------------------------------------

namespace Rowstore

namespace Reader

open Lexeme

theorem enclosed_eq_ok_iff
    {usage : String}
    {ls inner rest : List Lexeme} :
    (enclosed usage).run ls = .ok (inner, rest) ↔
      ∃ c,
        ls = inner ++ c :: rest ∧ Closes 0 inner ∧
          c.token = .mark .closeParen := by
  rw [← splitAtClose_eq_some_iff]
  change enclosed usage ls = .ok (inner, rest) ↔ _
  unfold enclosed
  split
  · rename_i parts hSplit
    rw [hSplit, Except.ok.injEq, Option.some.injEq]
  · rename_i hSplit
    rw [hSplit]
    constructor
    · intro hRun
      cases hRun
    · intro hSome
      cases hSome

end Reader

end Rowstore
