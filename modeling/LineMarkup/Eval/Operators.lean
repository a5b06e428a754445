import LineMarkup.Expr

/-!
# Operations on values

What the operators make of two values that are known.

## Main Definitions

* `Value.order?` — how two values compare: texts by their characters, all else as numbers
* `Value.plus` — joining or adding
* `Value.equals` — what the equality operators compute
* `BinaryOp.apply` — an operator between two values
* `UnaryOp.apply` — an operator in front of a value
-/

namespace LineMarkup

namespace Value

/-- How two values compare. Two texts are compared character by character, any other two values as
numbers; there is no order with what is not a number. -/
def order? : Value → Value → Option Ordering
  | string s, string t => some (compare s t)
  | v, w =>
    let x := v.toNumber
    let y := w.toNumber
    if x < y then some .lt
    else if y < x then some .gt
    else if x == y then some .eq
    else none

/-- Whether adding a value means joining texts. -/
def joins : Value → Bool
  | string _ => true
  | array _ => true
  | object _ => true
  | _ => false

/-- The sum of two values: their texts joined if one of them calls for it, else their numbers
added. -/
def plus (v w : Value) : Value :=
  if v.joins || w.joins then
    string (v.text ++ w.text)
  else
    number (v.toNumber + w.toNumber)

/-- Equality in expressions: two numbers are compared as numbers, any other two values as values. -/
def equals : Value → Value → Bool
  | number x, number y => x == y
  | v, w => v.same w

end Value

/-- An operator between two values. -/
def BinaryOp.apply (op : BinaryOp) (v w : Value) : Value :=
  match op with
  | eq | strictEq => .bool (v.equals w)
  | notEq | strictNotEq => .bool (!v.equals w)
  | lt => .bool (v.order? w == some .lt)
  | gt => .bool (v.order? w == some .gt)
  | ltEq => .bool (v.order? w == some .lt || v.order? w == some .eq)
  | gtEq => .bool (v.order? w == some .gt || v.order? w == some .eq)
  | and => if v.isTruthy then w else v
  | or => if v.isTruthy then v else w
  | add => v.plus w
  | sub => .number (v.toNumber - w.toNumber)
  | mul => .number (v.toNumber * w.toNumber)
  | div => .number (v.toNumber / w.toNumber)
  | rem => .number (Number.remainder v.toNumber w.toNumber)

/-- An operator in front of a value. -/
def UnaryOp.apply (op : UnaryOp) (v : Value) : Value :=
  match op with
  | not => .bool (!v.isTruthy)
  | neg => .number (-v.toNumber)

end LineMarkup
