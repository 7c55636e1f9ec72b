import Rowstore.Proofs.Text.Trimming
import Rowstore.Value.Basic

/-
  Texts between single quotes.

  A text is quoted by doubling every single quote in it and
  enclosing it in single quotes.  Whatever the text holds,
  the literal that results denotes the text.

  Main declarations:
    * `Value.undouble_doubled`
    * `Value.quoted` and `Value.ofLiteral_quoted`
-/

------------------------------------------------------------
-- Doubled Quotes
------------------------------------------------------------

namespace Rowstore

namespace Value

/- A text with every given quote in it doubled. -/
def doubled (q : Char) : List Char → List Char
| [] => []
| c :: s =>
  if c = q then q :: q :: doubled q s
  else c :: doubled q s

theorem undouble_cons_of_ne
    {q c : Char}
    (hOther : c ≠ q)
    (s : List Char) :
    undouble q (c :: s) = c :: undouble q s := by
  cases s with
  | nil => rfl
  | cons d s =>
      rw [undouble, if_neg fun h => hOther h.1]

/- Doubled quotes come back as single ones. -/
theorem undouble_doubled
    (q : Char)
    (s : List Char) :
    undouble q (doubled q s) = s := by
  induction s with
  | nil => rfl
  | cons c s ih =>
      unfold doubled
      split
      · rename_i hQuote
        rw [undouble, if_pos ⟨rfl, rfl⟩, ih, hQuote]
      · rename_i hOther
        rw [undouble_cons_of_ne hOther, ih]

------------------------------------------------------------
-- Quoted Literals
------------------------------------------------------------

/- A text as a literal: its quotes doubled, between quotes. -/
def quoted (s : List Char) : List Char :=
  '\'' :: (doubled '\'' s ++ ['\''])

theorem getLast?_quoted (s : List Char) :
    (quoted s).getLast? = some '\'' :=
  List.getLast?_concat (l := '\'' :: doubled '\'' s)

theorem tight_quoted (s : List Char) :
    Text.Tight (quoted s) :=
  Text.tight_of_ends rfl (getLast?_quoted s) (by decide)
    (by decide)

theorem unquote_quoted (s : List Char) :
    unquote (quoted s) = some s := by
  have hEnds :
      (isQuote '\'' &&
        (doubled '\'' s ++ ['\'']).getLast? ==
          some '\'') = true := by
    simp [isQuote]
  unfold quoted
  simp only [unquote]
  rw [if_pos hEnds, List.dropLast_concat, undouble_doubled]

/- A quoted literal denotes its text, whatever the text holds. -/
theorem ofLiteral_quoted (s : List Char) :
    ofLiteral (quoted s) = .text (String.ofList s) := by
  unfold ofLiteral
  simp only [Text.trim_of_tight (tight_quoted s),
    unquote_quoted]

end Value

end Rowstore
