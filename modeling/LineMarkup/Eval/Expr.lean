import LineMarkup.Eval.Access
import LineMarkup.Eval.Operators
import LineMarkup.Host
import LineMarkup.Locals

/-!
# Evaluation

The value of an expression in a scope. A scope holds the locals and the host; beside it, an
expression sees the side list of the code node that it stands in. The side list is given by
what each of its programs renders to, an output or an error. That is only worked out where the
expression asks for the program, so neither an error nor the effort counts elsewhere.

## Main Definitions

* `Scope` — what a name can mean
* `Side` — what a side program renders to
* `Scope.resolve` — the value of a bare name
* `Expr.eval` — the value of an expression

## Main Statements

* `Expr.eval_literal`, `Expr.eval_identifier`, `Expr.eval_member`, `Expr.eval_index`,
  `Expr.eval_call_member` — the steps of an expression, by its form
-/

namespace LineMarkup

/-- What a name can mean: locals, and a host if there is one. -/
structure Scope where
  locals : Locals
  mode : LocalsMode
  hostName : String
  host : Option Host

/-- What a side program renders to, worked out when it is asked for. -/
abbrev Side := Thunk (Except EvalError String)

/-- The name of the side list. -/
def sidesName : String := "__nodes"

/-- All outputs of a side list, or its first error. -/
def allSides : List Side → Except EvalError (List Value)
  | [] => .ok []
  | side :: rest => do return .string (← side.get) :: (← allSides rest)

/-- The output of the side program at an index; null if the index is no place in the list. -/
def sideAt (sides : List Side) (key : Value) : Except EvalError Value :=
  match (Number.wholeIndex? key.toNumber).bind (sides[·]?) with
  | none => .ok .null
  | some side => do return .string (← side.get)

namespace Scope

/-- The local of a name: in grouped mode, only the name of the whole is one. -/
def local? (scope : Scope) (name : String) : Option Value :=
  match scope.mode with
  | .flat => scope.locals.get? name
  | .grouped => if name = localsName then some (.object scope.locals) else none

/-- The host that an expression names. -/
def hostAt? (scope : Scope) (e : Expr) : Option Host :=
  if e.isIdentifier scope.hostName then scope.host else none

/-- The value of a bare name at `span`: the side list, else a local. The host is no value. -/
def resolve (scope : Scope) (sides : List Side) (name : String) (span : Span) :
    Except EvalError Value :=
  if name = sidesName then do
    return .array (← allSides sides)
  else if name = scope.hostName ∧ scope.host.isSome then
    .error { cause := .hostAsValue name, span := some span }
  else
    match scope.local? name with
    | some v => .ok v
    | none => .error { cause := .unbound name, span := some span }

/-- Call a method of the host. That the method is missing is told in terms of the expression. -/
def callHost (scope : Scope) (host : Host) (method : String) (args : List Value) :
    Except EvalError Value :=
  match host.call method args with
  | .ok v => .ok v
  | .error e =>
    if e.kind = .undefinedMethod then
      .error { cause := .noHostMethod scope.hostName method }
    else
      .error e

end Scope

namespace Expr

mutual

/-- The value of an expression. -/
def eval (scope : Scope) (sides : List Side) : Expr → Except EvalError Value
  | literal v _ => .ok v
  | array es _ => do return .array (← evalAll scope sides es)
  | identifier name span => scope.resolve sides name span
  | member object property span =>
    if scope.mode = .grouped ∧ object.isIdentifier localsName then
      .ok ((scope.locals.get? property).getD .null)
    else do
      let target ← eval scope sides object
      locate span (target.property property)
  | index object key span => do
    let k ← eval scope sides key
    if object.isIdentifier sidesName then
      sideAt sides k
    else
      let target ← eval scope sides object
      locate span (target.item k)
  | call (member object name _) args span => do
    let vs ← evalAll scope sides args
    match scope.hostAt? object with
    | some host => locate span (scope.callHost host name vs)
    | none =>
      let target ← eval scope sides object
      locate span (target.method name vs)
  | call _ _ span => .error { cause := .notAMethod, span := some span }
  | binary left .and right _ => do
    let v ← eval scope sides left
    if v.isTruthy then eval scope sides right else return v
  | binary left .or right _ => do
    let v ← eval scope sides left
    if v.isTruthy then return v else eval scope sides right
  | binary left op right _ => do
    let v ← eval scope sides left
    let w ← eval scope sides right
    return op.apply v w
  | unary op operand _ => do return op.apply (← eval scope sides operand)
  | conditional test yes no _ => do
    if (← eval scope sides test).isTruthy then
      eval scope sides yes
    else
      eval scope sides no

/-- The values of expressions from left to right. -/
def evalAll (scope : Scope) (sides : List Side) : List Expr → Except EvalError (List Value)
  | [] => .ok []
  | e :: es => do
    let v ← eval scope sides e
    return v :: (← evalAll scope sides es)

end

section Steps

variable (scope : Scope) (sides : List Side)

theorem eval_literal (v : Value) (span : Span) : (literal v span).eval scope sides = .ok v := rfl

theorem eval_identifier (name : String) (span : Span) :
    (identifier name span).eval scope sides = scope.resolve sides name span := rfl

theorem eval_member (object : Expr) (property : String) (span : Span) :
    (member object property span).eval scope sides =
      if scope.mode = .grouped ∧ object.isIdentifier localsName then
        .ok ((scope.locals.get? property).getD .null)
      else
        object.eval scope sides >>= fun target => locate span (target.property property) := rfl

theorem eval_index (object key : Expr) (span : Span) :
    (index object key span).eval scope sides =
      key.eval scope sides >>= fun k =>
        if object.isIdentifier sidesName then
          sideAt sides k
        else
          object.eval scope sides >>= fun target => locate span (target.item k) := rfl

theorem eval_call_member (object : Expr) (method : String) (s : Span) (args : List Expr)
    (span : Span) :
    (call (member object method s) args span).eval scope sides =
      evalAll scope sides args >>= fun vs =>
        match scope.hostAt? object with
        | some host => locate span (scope.callHost host method vs)
        | none =>
          object.eval scope sides >>= fun target => locate span (target.method method vs) := rfl

end Steps

end Expr

end LineMarkup
