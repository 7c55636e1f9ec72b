import Rowstore.Statement.Token

/-
  This file defines how statement text is cut into lexemes.

  A text is a sequence of pieces: tokens, and gaps made of
  blanks or of one comment.  Each piece is the longest one
  that can start where the piece before it ended.  Text that
  only begins a string, a quoted name or a comment is one
  unknown token up to the end of the text.

  Key definitions include:
    * `Lexer.Piece`
    * `Lexer.scan`
    * `Lexer.pieces`
    * `Lexer.lexemes`
    * `Lexer.trailingGap`
-/

namespace Rowstore.Lexer

------------------------------------------------------------
-- Character Classes
------------------------------------------------------------

/- The blanks between tokens: space, tab, line ends and form feed. -/
def isGapBlank (c : Char) : Bool :=
  c == ' ' || c == '\t' || c == '\r' || c == '\n' || c == '\x0c'

/- The characters that start a word. -/
def isWordStart (c : Char) : Bool :=
  c.isAlpha || c == '_'

/- The characters that continue a word. -/
def isWordPart (c : Char) : Bool :=
  c.isAlphanum || c == '_' || c == '$'

/- The length of the run of characters with `p` at the start. -/
def runLength
    (p : Char → Bool)
    (s : List Char) : Nat :=
  (s.takeWhile p).length

/- The first character, if there is one, has `p`. -/
def startsWith
    (p : Char → Bool) : List Char → Bool
| [] => false
| c :: _ => p c

------------------------------------------------------------
-- Numbers
------------------------------------------------------------

/- The length of an exponent at the start: a mark, an optional sign and digits, or nothing. -/
def exponentLength : List Char → Nat
| [] => 0
| c :: s =>
  if c == 'e' || c == 'E' then
    let signed := startsWith (fun d => d == '+' || d == '-') s
    let digits := runLength Decimal.isDigit (if signed then s.drop 1 else s)
    if digits = 0 then 0
    else 1 + (if signed then 1 else 0) + digits
  else 0

/- The length of an unsigned number at the start, or zero if there is none. -/
def unsignedLength (s : List Char) : Nat :=
  let whole := runLength Decimal.isDigit s
  let afterWhole := s.drop whole
  let fraction :=
    match afterWhole with
    | '.' :: t =>
      let digits := runLength Decimal.isDigit t
      if whole = 0 && digits = 0 then 0 else 1 + digits
    | _ => 0
  if whole + fraction = 0 then 0
  else whole + fraction + exponentLength (afterWhole.drop fraction)

/- The length of a number at the start, with its optional minus sign, or zero. -/
def numberLength : List Char → Nat
| '-' :: s =>
  let n := unsignedLength s
  if n = 0 then 0 else n + 1
| s => unsignedLength s

/- The token of a number's text. -/
def numberToken (s : List Char) : Token :=
  match Decimal.ofText? s with
  | some d => .number d.toFloat
  | none => .unknown

------------------------------------------------------------
-- Quoted Text And Comments
------------------------------------------------------------

/-
  The length of a string after its opening quote, and whether
  the closing quote was found.  A doubled quote is part of
  the content.
-/
def stringLength (q : Char) : List Char → Nat × Bool
| [] => (0, false)
| [c] => (1, c == q)
| c :: d :: s =>
  if c == q then
    if d == q then
      let (n, closed) := stringLength q s
      (n + 2, closed)
    else (1, true)
  else
    let (n, closed) := stringLength q (d :: s)
    (n + 1, closed)

/-
  The length of a block comment after its opening mark, and
  whether it was closed.  A star and the character after it
  are read together, so a star before the closing mark hides
  that mark.  A star that ends the text is not read.
-/
def commentLength : List Char → Nat × Bool
| [] => (0, false)
| ['*'] => (0, false)
| '*' :: '/' :: _ => (2, true)
| '*' :: _ :: s =>
  let (n, closed) := commentLength s
  (n + 2, closed)
| _ :: s =>
  let (n, closed) := commentLength s
  (n + 1, closed)

------------------------------------------------------------
-- Pieces
------------------------------------------------------------

/- A stretch of text: a token, or a gap if there is no token. -/
structure Piece where
  token? : Option Token
  text : List Char
deriving DecidableEq

/- The keyword or name that a word spells. -/
def wordToken (word : List Char) : Token :=
  match Keyword.ofWord? word with
  | some k => .keyword k
  | none => .name word

/- The string that starts at a quote. -/
def scanString
    (q : Quote)
    (s : List Char) : Token × Nat :=
  let (n, closed) := stringLength q.char s
  if closed then
    (.string q (Value.undouble q.char (s.take (n - 1))), n)
  else (.unknown, n)

/- The quoted name that starts at a grave accent. -/
def scanQuotedName (s : List Char) : Token × Nat :=
  let n := runLength (fun c => c != '\x60') s
  if n ≠ 0 && startsWith (fun c => c == '\x60') (s.drop n) then
    (.quotedName (s.take n), n + 1)
  else (.unknown, n)

/- The mark, comparison or unknown character that starts a text. -/
def scanMark
    (c : Char)
    (s : List Char) : Token × Nat :=
  match c, s with
  | '(', _ => (.mark .openParen, 0)
  | ')', _ => (.mark .closeParen, 0)
  | ',', _ => (.mark .comma, 0)
  | ';', _ => (.mark .semicolon, 0)
  | '*', _ => (.mark .star, 0)
  | '.', _ => (.mark .dot, 0)
  | '=', '=' :: _ => (.comparison .eq, 1)
  | '=', _ => (.comparison .eq, 0)
  | '<', '>' :: _ => (.comparison .ne, 1)
  | '!', '=' :: _ => (.comparison .ne, 1)
  | '<', '=' :: _ => (.comparison .le, 1)
  | '<', _ => (.comparison .lt, 0)
  | '>', '=' :: _ => (.comparison .ge, 1)
  | '>', _ => (.comparison .gt, 0)
  | _, _ => (.unknown, 0)

/- The token that starts with a character, and how many further characters it takes. -/
def scanToken
    (c : Char)
    (s : List Char) : Token × Nat :=
  if isWordStart c then
    let n := runLength isWordPart s
    (wordToken (c :: s.take n), n)
  else if c == '\'' then scanString .single s
  else if c == '"' then scanString .double s
  else if c == '\x60' then scanQuotedName s
  else
    let n := numberLength (c :: s)
    if n = 0 then scanMark c s
    else (numberToken (c :: s.take (n - 1)), n - 1)

/-
  The piece that starts with a character: its token, if it is
  one, and how many further characters it takes.
-/
def scan
    (c : Char)
    (s : List Char) : Option Token × Nat :=
  if isGapBlank c then (none, runLength isGapBlank s)
  else
    match c, s with
    | '-', '-' :: t =>
      (none, 1 + runLength (fun d => d != '\n') t)
    | '/', '*' :: t =>
      let (n, closed) := commentLength t
      (if closed then none else some .unknown, 1 + n)
    | _, _ =>
      let (token, n) := scanToken c s
      (some token, n)

/- The pieces of a text, in order. -/
def pieces : List Char → List Piece
| [] => []
| c :: s =>
  let (token?, n) := scan c s
  { token? := token?, text := c :: s.take n } :: pieces (s.drop n)
termination_by s => s.length
decreasing_by
  simp only [List.length_cons, List.length_drop]
  omega

/- Nothing of a text is lost or reordered in its pieces. -/
theorem flatMap_text_pieces
    (s : List Char) :
    (pieces s).flatMap Piece.text = s := by
  fun_induction pieces s with
  | case1 => rfl
  | case2 c s token? n _ ih =>
    simp [List.flatMap_cons, ih]

------------------------------------------------------------
-- Lexemes
------------------------------------------------------------

/- The lexemes of pieces that follow a gap. -/
def lexemesFrom
    (gap : List Char) : List Piece → List Lexeme
| [] => []
| p :: ps =>
  match p.token? with
  | some t =>
    { gap := gap, text := p.text, token := t } :: lexemesFrom [] ps
  | none => lexemesFrom (gap ++ p.text) ps

/- The gap that is left after the last token of pieces. -/
def trailingFrom
    (gap : List Char) : List Piece → List Char
| [] => gap
| p :: ps =>
  match p.token? with
  | some _ => trailingFrom [] ps
  | none => trailingFrom (gap ++ p.text) ps

/- The lexemes of a text. -/
def lexemes (s : List Char) : List Lexeme :=
  lexemesFrom [] (pieces s)

/- The blanks and comments after the last lexeme of a text. -/
def trailingGap (s : List Char) : List Char :=
  trailingFrom [] (pieces s)

end Rowstore.Lexer
