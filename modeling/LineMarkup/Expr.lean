import LineMarkup.Span
import LineMarkup.Value

/-!
# Expressions

The expressions embedded in code nodes, each node with the span of the source that it covers.

## Main Definitions

* `BinaryOp`, `UnaryOp` — the operators, with their precedence
* `Expr` — expression trees
* `Expr.span` — the span of a tree's root
-/

namespace LineMarkup

/-- The operators between two operands. -/
inductive BinaryOp where
  | eq | notEq | strictEq | strictNotEq
  | lt | gt | ltEq | gtEq
  | and | or
  | add | sub | mul | div | rem
deriving DecidableEq, Repr, Inhabited

namespace BinaryOp

/-- How tightly an operator binds; all of them group to the left. -/
def precedence : BinaryOp → Nat
  | or => 1
  | and => 2
  | eq | notEq | strictEq | strictNotEq => 3
  | lt | gt | ltEq | gtEq => 4
  | add | sub => 5
  | mul | div | rem => 6

/-- How an operator is written. -/
def symbol : BinaryOp → String
  | eq => "=="
  | notEq => "!="
  | strictEq => "==="
  | strictNotEq => "!=="
  | lt => "<"
  | gt => ">"
  | ltEq => "<="
  | gtEq => ">="
  | and => "&&"
  | or => "||"
  | add => "+"
  | sub => "-"
  | mul => "*"
  | div => "/"
  | rem => "%"

end BinaryOp

/-- The operators in front of one operand. -/
inductive UnaryOp where
  | not | neg
deriving DecidableEq, Repr, Inhabited

/-- How an operator is written. -/
def UnaryOp.symbol : UnaryOp → String
  | not => "!"
  | neg => "-"

/-- Expression trees. Parentheses leave no node. -/
inductive Expr where
  | literal (value : Value) (span : Span)
  | array (elements : List Expr) (span : Span)
  | identifier (name : String) (span : Span)
  | member (object : Expr) (property : String) (span : Span)
  | index (object key : Expr) (span : Span)
  | call (callee : Expr) (args : List Expr) (span : Span)
  | binary (left : Expr) (op : BinaryOp) (right : Expr) (span : Span)
  | unary (op : UnaryOp) (operand : Expr) (span : Span)
  | conditional (test yes no : Expr) (span : Span)
deriving Inhabited

namespace Expr

/-- The span of a tree's root. -/
def span : Expr → Span
  | literal _ s => s
  | array _ s => s
  | identifier _ s => s
  | member _ _ s => s
  | index _ _ s => s
  | call _ _ s => s
  | binary _ _ _ s => s
  | unary _ _ s => s
  | conditional _ _ _ s => s

/-- Whether a tree is the bare identifier `name`. -/
def isIdentifier (e : Expr) (name : String) : Bool :=
  match e with
  | identifier n _ => n == name
  | _ => false

theorem isIdentifier_self (name : String) (span : Span) :
    (identifier name span).isIdentifier name = true :=
  beq_self_eq_true name

end Expr

end LineMarkup
