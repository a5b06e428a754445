import LineMarkup.Expr

/-!
# Grouping of operators

A flat sequence of operands with operators between them becomes a tree: tighter operators
first, equally tight ones from the left.

The operands already read wait on a stack, each with the operator to its right; precedences grow
from the bottom of the stack to its top. A new operator first closes every waiting operator that
binds at least as tightly as itself.

## Main Definitions

* `Expr.join` — one operation, with the span that covers both operands
* `Expr.close` — close the waiting operators that bind at least as tightly as a bound
* `Expr.group` — the tree of a whole sequence
-/

namespace LineMarkup.Expr

/-- One operation, with the span that covers both operands. -/
def join (left : Expr) (op : BinaryOp) (right : Expr) : Expr :=
  .binary left op right (left.span.merge right.span)

/-- Close the waiting operators that bind at least as tightly as `bound`. The top of the stack comes
first. -/
def close (bound : Nat) : List (Expr × BinaryOp) → Expr → List (Expr × BinaryOp) × Expr
  | [], e => ([], e)
  | (left, op) :: waiting, e =>
    if bound ≤ op.precedence then
      close bound waiting (join left op e)
    else
      ((left, op) :: waiting, e)

/-- Read the rest of a sequence onto a stack and close everything at its end. -/
def groupOnto : List (Expr × BinaryOp) → Expr → List (BinaryOp × Expr) → Expr
  | waiting, e, [] => (close 0 waiting e).2
  | waiting, e, (op, next) :: rest =>
    let (waiting, e) := close op.precedence waiting e
    groupOnto ((e, op) :: waiting) next rest

/-- The tree of a sequence of operands with operators between them. -/
def group (first : Expr) (rest : List (BinaryOp × Expr)) : Expr :=
  groupOnto [] first rest

@[simp] theorem close_nil (bound : Nat) (e : Expr) : close bound [] e = ([], e) := rfl

@[simp] theorem group_nil (e : Expr) : group e [] = e := rfl

end LineMarkup.Expr
