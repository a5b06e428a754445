import LineMarkup.Expr
import LineMarkup.Grammar.Reader
import LineMarkup.Text.Quoted

/-!
# Lexemes

The smallest parts of the source language: names, numbers, words, quoted texts and operators.

## Main Definitions

* `identifier` — a letter, `_` or `$`, then any of these and digits
* `number` — digits, optionally a point and more digits
* `boolLiteral`, `nullLiteral` — words that no letter continues
* `string` — a text between two equal quotes
* `binaryOp`, `unaryOp` — operator symbols, the longer one first
-/

namespace LineMarkup.Grammar

open Reader

/-- Where a name may start. -/
def isIdentStart (c : Char) : Bool :=
  c.isAlpha || c == '_' || c == '$'

/-- How a name may go on. -/
def isIdentChar (c : Char) : Bool :=
  c.isAlphanum || c == '_' || c == '$'

/-- One character of a class. -/
def Reader.one (p : Char → Bool) : Reader Char := fun c =>
  match c.rest with
  | [] => ⟨none, .silent⟩
  | d :: ds => if p d then ⟨some (d, c.past [d] ds), .silent⟩ else ⟨none, .silent⟩

/-- A name. -/
def identifier : Reader String := atom .identifier do
  let first ← one isIdentStart
  let others ← takeWhile isIdentChar
  return String.ofList (first :: others)

/-- A number: digits, optionally followed by a point and more digits. -/
def number : Reader Float := atom .number do
  let whole ← takeWhile1 Char.isDigit
  let fraction ← option do
    lit "."
    takeWhile1 Char.isDigit
  let decimals := fraction.getD []
  return Number.nearest (Number.digitsValue (whole ++ decimals)) (-(decimals.length : Int))

/-- A word that no further name character continues. -/
def word {α : Type} (text : String) (value : α) : Reader α := do
  lit text
  return value

/-- The words for the two truth values. -/
def boolLiteral : Reader Bool := atom .boolLiteral do
  let value ← (word "true" true).orElse (word "false" false)
  notBefore isIdentChar
  return value

/-- The two words for null. -/
def nullLiteral : Reader Unit := atom .nullLiteral do
  (lit "null").orElse (lit "undefined")
  notBefore isIdentChar

/-- The inside of a quoted text, up to the closing quote. -/
def quotedBody (quote : Char) : Reader (List Char) := fun c =>
  let (inside, rest) := Text.Quoted.body quote c.rest
  ⟨some (inside, c.past inside rest), .silent⟩

/-- A text between two equal quotes of one kind. -/
def quotedBy (quote : Char) : Reader String := do
  let _ ← one (· == quote)
  let inside ← quotedBody quote
  let _ ← one (· == quote)
  return String.ofList (Text.Quoted.unescape inside)

/-- A quoted text. -/
def string : Reader String :=
  call .string ((quotedBy '"').orElse (quotedBy '\''))

/-- The symbol of an operator. -/
def binarySymbol (op : BinaryOp) : Reader BinaryOp :=
  word op.symbol op

/-- An operator between two operands. A symbol that starts another one comes after it. -/
def binaryOp : Reader BinaryOp := call .binaryOp
  (firstOf ([.strictEq, .strictNotEq, .eq, .notEq, .ltEq, .gtEq, .and, .or, .lt, .gt,
    .add, .sub, .mul, .div, .rem].map binarySymbol))

/-- An operator in front of an operand. -/
def unaryOp : Reader UnaryOp := call .unaryOp
  ((word "!" .not).orElse (word "-" .neg))

end LineMarkup.Grammar
