import LineMarkup.Proofs.Grouping
import LineMarkup.Proofs.Spelling

/-!
# Printing expressions

An expression as a writer means it, and its text.  The writer thinks of no places in a text and sets
parentheses only where the tree would else be another one, but may put any blanks between tokens.

How tightly a construct binds is a level: conditionals are the loosest, the operators between
operands stand in `operatorTable`, then come the operators in front of an operand, and the suffixes
are the tightest.  Each place in a construct asks for a level, and what binds more loosely goes into
parentheses there.

## Main Definitions

* `Term` — expressions without places
* `Term.toExpr` — the tree that a term means, with all its places at the start of the text
* `Term.tokens` — the tokens of a term where a level is asked for
* `layOut` — tokens with blanks before, between and behind them
-/

namespace LineMarkup.Grammar

/-! ### Terms -/

/-- A name of a variable: none of the reserved words. -/
abbrev VariableName :=
  { n : List Char // IsName n ∧ n ∉ reservedWords }

/-- A name of a property: any name. -/
abbrev PropertyName :=
  { n : List Char // IsName n }

/-- Digits, at least one. -/
abbrev Digits :=
  { ds : List Char // IsDigits ds }

/-- A decimal: digits, optionally a point and more digits. -/
structure Decimal where
  whole : Digits
  decimals : Option Digits

namespace Decimal

/-- How a decimal is written. -/
def token (d : Decimal) : List Char :=
  match d.decimals with
  | none => d.whole
  | some es => d.whole ++ '.' :: es

/-- The number that a decimal spells. -/
def value (d : Decimal) : Float :=
  (Number.ofText? d.token).getD 0

end Decimal

/-- Expressions without places and without parentheses. -/
inductive Term where
  | string (s : String)
  | number (d : Decimal)
  | bool (b : Bool)
  | null
  | name (n : VariableName)
  | array (elements : List Term)
  | member (object : Term) (property : PropertyName)
  | index (object key : Term)
  | call (callee : Term) (args : List Term)
  | unary (op : UnaryOp) (operand : Term)
  | binary (left : Term) (op : BinaryOp) (right : Term)
  | conditional (test yes no : Term)

namespace Term

mutual

/-- The tree that a term means. -/
def toExpr : Term → Expr
  | string s => .literal (.string s) default
  | number d => .literal (.number d.value) default
  | bool b => .literal (.bool b) default
  | null => .literal .null default
  | name n => .identifier (String.ofList n) default
  | array elements => .array (toExprs elements) default
  | member object property => .member object.toExpr (String.ofList property) default
  | index object key => .index object.toExpr key.toExpr default
  | call callee args => .call callee.toExpr (toExprs args) default
  | unary op operand => .unary op operand.toExpr default
  | binary left op right => .binary left.toExpr op right.toExpr default
  | conditional test yes no => .conditional test.toExpr yes.toExpr no.toExpr default

/-- The trees of several terms. -/
def toExprs : List Term → List Expr
  | [] => []
  | t :: ts => t.toExpr :: toExprs ts

end

/-! ### Levels and tokens -/

/-- The operators between operands, from the loosest to the tightest; those of a row bind equally
tightly, and all group to the left. -/
def operatorTable : List (List BinaryOp) :=
  [[.or], [.and], [.eq, .notEq, .strictEq, .strictNotEq], [.lt, .gt, .ltEq, .gtEq], [.add, .sub],
    [.mul, .div, .rem]]

/-- The level of an operator: its row. -/
def operatorLevel (op : BinaryOp) : Nat :=
  operatorTable.findIdx (fun row => row.contains op) + 1

/-- The level of prefixed operations: behind all rows. -/
def prefixLevel : Nat := operatorTable.length + 1

/-- The level of suffixes, and of everything that has no loose end. -/
def suffixLevel : Nat := prefixLevel + 1

/-- How tightly a term binds. -/
def level : Term → Nat
  | conditional .. => 0
  | binary _ op _ => operatorLevel op
  | unary .. => prefixLevel
  | _ => suffixLevel

/-- Tokens where a level is asked for: in parentheses if they bind more loosely. -/
def enclose (asked own : Nat) (tokens : List (List Char)) : List (List Char) :=
  if own < asked then ['('] :: tokens ++ [[')']] else tokens

mutual

/-- The tokens of a term. -/
def tokens : Term → List (List Char)
  | string s => [Text.Quoted.encode s.toList]
  | number d => [d.token]
  | bool b => [if b then "true".toList else "false".toList]
  | null => ["null".toList]
  | name n => [n]
  | array elements => ['['] :: listTokens elements ++ [[']']]
  | member object property =>
    enclose suffixLevel object.level object.tokens ++ [['.'], property]
  | index object key =>
    enclose suffixLevel object.level object.tokens ++ ['['] :: key.tokens ++ [[']']]
  | call callee args =>
    enclose suffixLevel callee.level callee.tokens ++ ['('] :: listTokens args ++ [[')']]
  | unary op operand => op.symbol.toList :: enclose prefixLevel operand.level operand.tokens
  | binary left op right =>
    enclose (operatorLevel op) left.level left.tokens ++ op.symbol.toList ::
      enclose (operatorLevel op + 1) right.level right.tokens
  | conditional test yes no =>
    enclose 1 test.level test.tokens ++ ['?'] :: yes.tokens ++ [':'] :: no.tokens

/-- The tokens of terms with commas between them. -/
def listTokens : List Term → List (List Char)
  | [] => []
  | t :: ts => t.tokens ++ moreTokens ts

/-- The tokens of terms behind commas. -/
def moreTokens : List Term → List (List Char)
  | [] => []
  | t :: ts => [','] :: t.tokens ++ moreTokens ts

end

end Term

/-! ### Layout -/

/-- The blanks that may stand between tokens. -/
inductive Blank where
  | space | tab | carriageReturn | lineFeed

/-- The character of a blank. -/
def Blank.char : Blank → Char
  | space => ' '
  | tab => '\t'
  | carriageReturn => '\r'
  | lineFeed => '\n'

/-- Tokens with blanks before, between and behind them: `gap i` stands before the `i`-th token. -/
def layOut (gap : Nat → List Blank) : List (List Char) → List Char
  | [] => (gap 0).map Blank.char
  | token :: tokens => (gap 0).map Blank.char ++ token ++ layOut (fun i => gap (i + 1)) tokens

end LineMarkup.Grammar
