/-
  This file defines the blank characters of a text, cutting
  them from its ends, and splitting a text into words.

  Blank is the Unicode property White_Space, which has
  twenty-five characters and has been stable since
  Unicode 6.3.

  Key definitions include:
    * `Text.isBlank`
    * `Text.trimStart`
    * `Text.trimEnd`
    * `Text.trim`
    * `Text.words`
-/

namespace Rowstore.Text

------------------------------------------------------------
-- Blank Characters
------------------------------------------------------------

/- Closed ranges of blank code points, ascending and apart. -/
def blankRanges : List (Nat × Nat) :=
  [(0x09, 0x0D), (0x20, 0x20), (0x85, 0x85), (0xA0, 0xA0),
   (0x1680, 0x1680), (0x2000, 0x200A), (0x2028, 0x2029),
   (0x202F, 0x202F), (0x205F, 0x205F), (0x3000, 0x3000)]

/- A character is blank when its code point is in a range. -/
def isBlank (c : Char) : Bool :=
  blankRanges.any fun r => r.1 ≤ c.toNat && c.toNat ≤ r.2

------------------------------------------------------------
-- Trimming
------------------------------------------------------------

/- Drop the longest run of characters with `p` at the end. -/
def dropEndWhile
    (p : Char → Bool)
    (s : List Char) : List Char :=
  (s.reverse.dropWhile p).reverse

/- Drop the blanks at the start. -/
def trimStart (s : List Char) : List Char :=
  s.dropWhile isBlank

/- Drop the blanks at the end. -/
def trimEnd (s : List Char) : List Char :=
  dropEndWhile isBlank s

/- Drop the blanks at both ends. -/
def trim (s : List Char) : List Char :=
  trimEnd (trimStart s)

------------------------------------------------------------
-- Words
------------------------------------------------------------

/- One step of `words`, from the right: a blank closes the current word. -/
def wordsStep
    (c : Char)
    (acc : List Char × List (List Char)) :
    List Char × List (List Char) :=
  if isBlank c then
    ([], if acc.1.isEmpty then acc.2 else acc.1 :: acc.2)
  else
    (c :: acc.1, acc.2)

/- The maximal runs of characters that are not blank. -/
def words (s : List Char) : List (List Char) :=
  let (word, rest) := s.foldr wordsStep ([], [])
  if word.isEmpty then rest else word :: rest

end Rowstore.Text
