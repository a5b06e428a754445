/-!
# Traces

Reading a text by the grammar leaves a trace: which rules were called where, and whether they
matched. The trace never decides what is read; a failed reading is explained from it alone.

An explanation names the rules that were tried at the furthest place. A failed call replaces
what failed inside it at that place by its own name, unless exactly one name was added inside:
then the more specific name stays.

## Main Definitions

* `Rule` — the rules of the grammar, in its order, with the names used in messages
* `Trace` — the calls made while reading
* `Frontier` — the furthest place with a failed call, and the rules that failed there
* `Trace.survey` — the frontier after a trace
* `Frontier.expected` — the rules to report, in the grammar's order and each once
-/

namespace LineMarkup.Grammar

/-- The rules of the grammar that can fail, in the grammar's order. -/
inductive Rule where
  | endOfInput
  | expression | expr | binary | binaryOp | unary | unaryOp
  | chain | member | index | call
  | arrayLiteral | number | boolLiteral | nullLiteral | identifier | string
  | template | header | localsMode
  | block | writeText | writeCode | sideNodes | attrBlock
deriving DecidableEq, Repr

namespace Rule

/-- All rules, in the grammar's order. -/
def all : List Rule :=
  [endOfInput, expression, expr, binary, binaryOp, unary, unaryOp, chain, member, index, call,
    arrayLiteral, number, boolLiteral, nullLiteral, identifier, string, template, header,
    localsMode, block, writeText, writeCode, sideNodes, attrBlock]

/-- The name of a rule in messages. -/
def name : Rule → String
  | endOfInput => "EOI"
  | expression => "expression"
  | expr => "expr"
  | binary => "binary"
  | binaryOp => "bin_op"
  | unary => "unary"
  | unaryOp => "unary_op"
  | chain => "postfix"
  | member => "member"
  | index => "index"
  | call => "call"
  | arrayLiteral => "array_literal"
  | number => "number"
  | boolLiteral => "bool_literal"
  | nullLiteral => "null_literal"
  | identifier => "identifier"
  | string => "string"
  | template => "program"
  | header => "header"
  | localsMode => "locals_mode"
  | block => "block"
  | writeText => "write_text"
  | writeCode => "write_code"
  | sideNodes => "side_nodes"
  | attrBlock => "attr_stmt"

end Rule

/-- The calls made while reading, in order. A call keeps the trace of what it called itself. -/
inductive Trace where
  | silent
  | call (rule : Rule) (offset : Nat) (matched : Bool) (inner : Trace)
  | both (first second : Trace)
deriving Repr

/-- One trace after another. -/
def Trace.andThen : Trace → Trace → Trace
  | .silent, t => t
  | s, .silent => s
  | s, t => .both s t

/-- The furthest place with a failed call, and the rules that failed there in order of failure. -/
structure Frontier where
  offset : Nat
  rules : List Rule
deriving DecidableEq, Repr

namespace Frontier

/-- Before anything failed. -/
def initial : Frontier := ⟨0, []⟩

/-- How many rules failed at a place, as far as the frontier knows. -/
def countAt (f : Frontier) (offset : Nat) : Nat :=
  if offset = f.offset then f.rules.length else 0

/-- Note that `rule` failed at `offset`, where `before` rules had failed before it was called. A
single failure inside the call is kept in its place. -/
def fail (f : Frontier) (rule : Rule) (offset before : Nat) : Frontier :=
  if f.countAt offset = before + 1 then
    f
  else if offset = f.offset then
    ⟨offset, f.rules.take before ++ [rule]⟩
  else if f.offset < offset then
    ⟨offset, [rule]⟩
  else
    f

/-- The rules to report, in the grammar's order and each once. -/
def expected (f : Frontier) : List Rule :=
  Rule.all.filter (fun r => f.rules.contains r)

end Frontier

/-- The frontier after a trace. -/
def Trace.survey : Trace → Frontier → Frontier
  | .silent, f => f
  | .both s t, f => t.survey (s.survey f)
  | .call rule offset matched inner, f =>
    let g := inner.survey f
    if matched then g else g.fail rule offset (f.countAt offset)

end LineMarkup.Grammar
