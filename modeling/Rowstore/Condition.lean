import Rowstore.Statement.Parser

/-
  This file defines conditions: a single comparison of a
  column with a literal, read from its source text.

  Key definitions include:
    * `Condition`
    * `Condition.parse`
-/

namespace Rowstore

/- A comparison of a column's cell with a literal. -/
structure Condition where
  column : String
  op : Comparison
  literal : Value
deriving DecidableEq

namespace Condition

/- The tokens that a literal may not hold. -/
def breaksLiteral : Token → Bool
| .comparison _ => true
| .keyword .and => true
| .keyword .or => true
| .keyword .not => true
| .keyword .«in» => true
| .keyword .like => true
| .keyword .is => true
| .keyword .between => true
| .mark .openParen => true
| .mark .closeParen => true
| _ => false

/- The comparison that a token stands for. -/
def comparison? : Token → Option Comparison
| .comparison op => some op
| _ => none

/- The failure to find a part of a condition in its text. -/
def missing
    (what : String)
    (text : List Char) : Error :=
  .invalidCondition
    ("Expected " ++ what ++ " in '" ++ String.ofList text ++ "'")

/- The failure of a text that is more than one comparison. -/
def compound (text : List Char) : Error :=
  .invalidCondition
    ("Only a single <column> <operator> <value> comparison is supported, got '"
      ++ String.ofList text ++ "'")

/- The literal of a condition, from the lexemes after its operator. -/
def literalOf
    (text : List Char)
    (op : Comparison)
    (ls : List Lexeme) : Except Error Value :=
  if ls.isEmpty then
    .error (missing ("a value after '" ++ op.sign ++ "'") text)
  else if ls.any fun l => breaksLiteral l.token then
    .error (compound text)
  else .ok (Value.ofLiteral (Lexeme.sourceText ls))

/- The condition that the lexemes of a text form. -/
def ofLexemes
    (text : List Char)
    (ls : List Lexeme) : Except Error Condition :=
  match ls.head?.bind Lexeme.name? with
  | none => .error (missing "a column name" text)
  | some column =>
    match (ls[1]?).bind fun l => comparison? l.token with
    | none => .error (missing "a comparison operator" text)
    | some op => do
      let value ← literalOf text op (ls.drop 2)
      pure { column := column, op := op, literal := value }

/- Read a condition that takes up a whole text. -/
def parse (text : String) : Except Error Condition :=
  let s := Text.trim text.toList
  ofLexemes s (Lexer.lexemes s)

end Condition

end Rowstore
