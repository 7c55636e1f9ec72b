import Rowstore.Value.Comparison

/-
  This file defines the tokens of statement text and the
  lexemes that carry them.

  A lexeme keeps its own text and the gap of blanks and
  comments before it, so that any run of lexemes gives back
  the stretch of source text it was read from.

  Key definitions include:
    * `Keyword`
    * `Keyword.isSoft`
    * `Mark`
    * `Token`
    * `Lexeme`
    * `Lexeme.name?`
    * `Lexeme.sourceText`
    * `Lexeme.byteSpans`
-/

namespace Rowstore

------------------------------------------------------------
-- Keywords
------------------------------------------------------------

/- The reserved and soft words of statements and conditions. -/
inductive Keyword where
| select
| «from»
| «where»
| insert
| into
| values
| update
| set
| delete
| create
| drop
| alter
| table
| database
| use
| grant
| revoke
| on
| «to»
| begin
| commit
| rollback
| «if»
| «exists»
| primary
| transaction
| key
| «show»
| tables
| databases
| describe
| add
| column
| rename
| and
| or
| not
| «in»
| like
| is
| between
deriving DecidableEq, Repr

namespace Keyword

/- The spellings of keywords, in capitals. -/
def spellings : List (String × Keyword) :=
  [("SELECT", select), ("FROM", «from»), ("WHERE", «where»),
   ("INSERT", insert), ("INTO", into), ("VALUES", values),
   ("UPDATE", update), ("SET", set), ("DELETE", delete),
   ("CREATE", create), ("DROP", drop), ("ALTER", alter),
   ("TABLE", table), ("DATABASE", database),
   ("SCHEMA", database), ("USE", use), ("GRANT", grant),
   ("REVOKE", revoke), ("ON", on), ("TO", «to»),
   ("BEGIN", begin), ("COMMIT", commit),
   ("ROLLBACK", rollback), ("IF", «if»),
   ("EXISTS", «exists»), ("PRIMARY", primary),
   ("TRANSACTION", transaction), ("WORK", transaction),
   ("KEY", key), ("SHOW", «show»), ("TABLES", tables),
   ("DATABASES", databases), ("SCHEMAS", databases),
   ("DESCRIBE", describe), ("DESC", describe), ("ADD", add),
   ("COLUMN", column), ("RENAME", rename), ("AND", and),
   ("OR", or), ("NOT", not), ("IN", «in»), ("LIKE", like),
   ("IS", is), ("BETWEEN", between)]

/- The keyword that a word spells, in any letter case. -/
def ofWord? (word : List Char) : Option Keyword :=
  spellings.lookup (String.ofList (Text.upperBasic word))

/- A soft keyword may stand where a name is expected. -/
def isSoft : Keyword → Bool
| transaction
| key
| «show»
| tables
| databases
| describe
| add
| column
| rename => true
| _ => false

end Keyword

------------------------------------------------------------
-- Tokens
------------------------------------------------------------

/- The punctuation marks that are not comparisons. -/
inductive Mark where
| openParen
| closeParen
| comma
| semicolon
| star
| dot
deriving DecidableEq, Repr

/- The two quotes that enclose string tokens. -/
inductive Quote where
| single
| double
deriving DecidableEq, Repr

namespace Quote

/- The character of a quote. -/
def char : Quote → Char
| single => '\''
| double => '"'

end Quote

/-
  The tokens of statement text.  Strings, names and numbers
  carry what they denote; `unknown` stands for text that
  forms no token.
-/
inductive Token where
| keyword (k : Keyword)
| comparison (op : Comparison)
| mark (m : Mark)
| number (x : Float)
| string (q : Quote) (content : List Char)
| name (text : List Char)
| quotedName (text : List Char)
| unknown
deriving DecidableEq

namespace Token

/- The token is a soft keyword. -/
def isSoft : Token → Bool
| keyword k => k.isSoft
| _ => false

/- The token is a comparison operator. -/
def isComparison : Token → Bool
| comparison _ => true
| _ => false

/- The token is a number or a string. -/
def isLiteral : Token → Bool
| number _ => true
| string _ _ => true
| _ => false

end Token

------------------------------------------------------------
-- Lexemes
------------------------------------------------------------

/- A token with its text and the gap before it. -/
structure Lexeme where
  gap : List Char
  text : List Char
  token : Token
deriving DecidableEq

namespace Lexeme

/- The name that a lexeme stands for, if it may stand for one. -/
def name? (l : Lexeme) : Option String :=
  match l.token with
  | .name s => some (String.ofList s)
  | .quotedName s => some (String.ofList s)
  | .keyword k =>
    if k.isSoft then some (String.ofList l.text) else none
  | _ => none

/- The lexeme is a given keyword. -/
def isKeyword
    (k : Keyword)
    (l : Lexeme) : Bool :=
  l.token == .keyword k

/- The lexeme is a given punctuation mark. -/
def isMark
    (m : Mark)
    (l : Lexeme) : Bool :=
  l.token == .mark m

/- The source text of lexemes, gaps included. -/
def fullText (ls : List Lexeme) : List Char :=
  ls.flatMap fun l => l.gap ++ l.text

/- The source text from the first lexeme's start to the last one's end. -/
def sourceText : List Lexeme → List Char
| [] => []
| l :: ls => l.text ++ fullText ls

/- The number of bytes of a text in UTF-8. -/
def byteSize : List Char → Nat
| [] => 0
| c :: s => c.utf8Size + byteSize s

/- The byte ranges of lexemes that follow a number of bytes. -/
def byteSpansFrom
    (start : Nat) : List Lexeme → List (Nat × Nat)
| [] => []
| l :: ls =>
  let a := start + byteSize l.gap
  let b := a + byteSize l.text
  (a, b) :: byteSpansFrom b ls

/- The byte ranges of lexemes in their source text. -/
def byteSpans (ls : List Lexeme) : List (Nat × Nat) :=
  byteSpansFrom 0 ls

end Lexeme

end Rowstore
