import LineMarkup.Span

/-!
# Errors of rendering

What can go wrong while a template is rendered, each cause with its kind and its message. An error
carries the span of the expression it comes from, unless a host method gave it one, and perhaps the
text of an underlying error.

## Main Definitions

* `EvalError.Kind`, `EvalError.Cause` — the kinds and the causes
* `EvalError` — a cause with its place
* `EvalError.orSpan` — give an error a place if it has none
-/

namespace LineMarkup

/-- The kinds of errors that callers tell apart. -/
inductive EvalError.Kind where
  | undefinedVariable | undefinedMethod | type | host
deriving DecidableEq, Repr

/-- Why rendering failed. -/
inductive EvalError.Cause where
  /-- a name that nothing is bound to -/
  | unbound (name : String)
  /-- a method that the host does not have, in an expression that calls the host `host` -/
  | noHostMethod (host method : String)
  /-- a method that a host was asked for and does not have -/
  | unregistered (method : String)
  /-- a method that values of a type do not have -/
  | noMethod (typeName method : String)
  /-- a property of null -/
  | propertyOfNull (property : String)
  /-- a call of something that is no method -/
  | notAMethod
  /-- the host itself where a value is needed -/
  | hostAsValue (name : String)
  /-- a value of another type -/
  | mismatch (wanted found : String)
  /-- an argument that must be given -/
  | missingArgument (position : Nat) (name : String)
  /-- an error that a host method raises on its own account -/
  | raised (kind : EvalError.Kind) (message : String)
deriving DecidableEq, Repr

namespace EvalError.Cause

/-- The kind of a cause. -/
def kind : Cause → Kind
  | unbound _ => .undefinedVariable
  | noHostMethod _ _ => .undefinedMethod
  | unregistered _ => .undefinedMethod
  | noMethod _ _ => .type
  | propertyOfNull _ => .type
  | notAMethod => .type
  | hostAsValue _ => .type
  | mismatch _ _ => .type
  | missingArgument _ _ => .type
  | raised k _ => k

/-- The message for a cause. -/
def message : Cause → String
  | unbound name => s!"{name} is not defined"
  | noHostMethod host method => s!"{host}.{method} is not a function"
  | unregistered method => s!"runtime method not found: {method}"
  | noMethod typeName method => s!"{typeName}.{method} is not a function"
  | propertyOfNull property => "cannot read property '" ++ property ++ "' of null"
  | notAMethod => "only methods can be called"
  | hostAsValue name => s!"{name} can only be used to call its methods"
  | mismatch wanted found => s!"expected {wanted}, got {found}"
  | missingArgument position name => s!"missing required argument at position {position}: {name}"
  | raised _ message => message

end EvalError.Cause

/-- An error of rendering. -/
structure EvalError where
  cause : EvalError.Cause
  span : Option Span := none
  source : Option String := none
deriving DecidableEq, Repr

namespace EvalError

/-- The kind of an error. -/
def kind (e : EvalError) : Kind := e.cause.kind

/-- The message of an error. -/
def message (e : EvalError) : String := e.cause.message

/-- The error with a place, unless it has one already. -/
def orSpan (e : EvalError) (span : Span) : EvalError :=
  { e with span := some (e.span.getD span) }

end EvalError

/-- Give an error a place, unless it has one already. -/
def locate {α : Type} (span : Span) : Except EvalError α → Except EvalError α
  | .ok a => .ok a
  | .error e => .error (e.orSpan span)

end LineMarkup
