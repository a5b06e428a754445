import LineMarkup.Diagnostic
import LineMarkup.Expr.Grouping
import LineMarkup.Grammar.Lexeme

/-!
# Expressions in source text

The grammar of expressions, from the tightest part to the loosest: primaries, chains of member,
index and call suffixes, prefixed operators, operator sequences, conditionals.

Each level takes the reader for nested expressions as an argument; `expr` ties the knot. A nested
expression stands behind at least one character more than the expression around it, so the
characters left at the start bound the nesting.

An expression takes the blanks behind it, because it looks for a `?` there. So a conditional or
a prefixed operation at the end of its line covers them.

## Main Definitions

* `primary`, `chain`, `unary`, `binary`, `conditional` — the levels, given nested expressions
* `expr` — an expression inside a longer text
* `expression` — an expression that is the whole text
* `Reader.run` — what a reader makes of a whole text
* `Expr.parse` — the expression that a text is, or its syntax error
-/

namespace LineMarkup.Grammar

open Reader

/-- A part of an expression with the span of the text that it took. -/
def spanned {α : Type} (p : Reader α) : Reader (α × Span) := do
  let start ← here
  let a ← p
  let stop ← here
  return (a, ⟨start, stop⟩)

/-- What may follow an operand directly. -/
inductive Suffix where
  | member (property : String)
  | index (key : Expr)
  | call (args : List Expr)
deriving Inhabited

/-- An operand with a suffix; it reaches from the start of the operand to the end of the suffix. -/
def extend (object : Expr) (suffix : Suffix × Span) : Expr :=
  let span := object.span.merge suffix.2
  match suffix.1 with
  | .member property => .member object property span
  | .index key => .index object key span
  | .call args => .call object args span

section Levels

variable (nested : Reader Expr)

/-- Expressions with commas between them, possibly none. -/
def arguments : Reader (List Expr) := do
  let items ← option do
    let first ← nested
    let others ← many do
      token ","
      skip
      nested
    return first :: others
  return items.getD []

/-- An array literal. -/
def arrayLiteral : Reader Expr := do
  let (elements, span) ← spanned <| call .arrayLiteral do
    lit "["
    skip
    let elements ← arguments nested
    token "]"
    return elements
  return .array elements span

/-- An expression in parentheses. -/
def parenthesised : Reader Expr := do
  lit "("
  skip
  let e ← nested
  token ")"
  return e

/-- A literal with the span of its own text. -/
def literal (p : Reader Value) : Reader Expr := do
  let (value, span) ← spanned p
  return .literal value span

/-- A name that stands for itself. -/
def variableName : Reader Expr := do
  let (name, span) ← spanned identifier
  return .identifier name span

/-- The smallest operands. -/
def primary : Reader Expr :=
  firstOf
    [literal (do return .number (← number)),
      literal (do return .string (← string)),
      literal (do return .bool (← boolLiteral)),
      literal (do nullLiteral; return .null),
      arrayLiteral nested,
      variableName,
      parenthesised nested]

/-- A suffix. -/
def suffix : Reader Suffix :=
  firstOf
    [call .member do
        lit "."
        skip
        return .member (← identifier),
      call .index do
        lit "["
        skip
        let key ← nested
        token "]"
        return .index key,
      call .call do
        lit "("
        skip
        let args ← arguments nested
        token ")"
        return .call args]

/-- An operand with its suffixes. -/
def chain : Reader Expr := call .chain do
  let first ← primary nested
  skip
  let suffixes ← many do
    skip
    spanned (suffix nested)
  return suffixes.foldl extend first

/-- An operand behind its operators, which all cover the whole of it. -/
def unary : Reader Expr := do
  let ((ops, operand), span) ← spanned <| call .unary do
    let ops ← many do
      skip
      unaryOp
    skip
    let operand ← chain nested
    return (ops, operand)
  return ops.foldr (fun op e => .unary op e span) operand

/-- Operands with operators between them. -/
def binary : Reader Expr := call .binary do
  let first ← unary nested
  skip
  let rest ← many do
    skip
    let op ← binaryOp
    skip
    let operand ← unary nested
    return (op, operand)
  return Expr.group first rest

/-- The two branches behind a condition. -/
def branches : Reader (Expr × Expr) := do
  lit "?"
  skip
  let yes ← nested
  token ":"
  skip
  let no ← nested
  return (yes, no)

/-- An expression, conditional or not. -/
def conditional : Reader Expr := do
  let ((test, outcome), span) ← spanned <| call .expr do
    let test ← binary nested
    skip
    let outcome ← option (branches nested)
    return (test, outcome)
  match outcome with
  | none => return test
  | some (yes, no) => return .conditional test yes no span

end Levels

/-- An expression nested at most as deep as the length of the list. -/
def exprWithin : List Char → Reader Expr
  | [] => conditional fail
  | _ :: deeper => conditional (exprWithin deeper)

/-- An expression. -/
def expr : Reader Expr := fun c => exprWithin c.rest c

/-- An expression that is the whole text. -/
def expression : Reader Expr := call .expression do
  skip
  let e ← expr
  skip
  call .endOfInput atEnd
  return e

/-- What a reader makes of a text, or the furthest failure of its rules. -/
def Reader.run {α : Type} (p : Reader α) (source : String) : Except SyntaxError α :=
  let o := p (.ofString source)
  match o.found? with
  | some (a, _) => .ok a
  | none =>
    let f := o.trace.survey .initial
    .error ⟨f.offset, f.expected⟩

end LineMarkup.Grammar

namespace LineMarkup

/-- The expression that a text is, blanks around it aside. -/
def Expr.parse (source : String) : Except SyntaxError Expr :=
  Grammar.expression.run source

end LineMarkup
