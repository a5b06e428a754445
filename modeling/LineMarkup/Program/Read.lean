import LineMarkup.Grammar.Template
import LineMarkup.Program

/-!
# Programs of source text

The program that the statements of a block stand for. Spans in a program count from the start of
their own expression, so each expression is read again on its own.

## Main Definitions

* `Program.ofStatements` — the program of a block
-/

namespace LineMarkup.Program

open Grammar

mutual

/-- Add the statements of a block to a program. -/
def addStatements (p : Program) : List Statement → Except SyntaxError Program
  | [] => .ok p
  | .text s :: rest => addStatements (p.pushText s) rest
  | .code source _ sides :: rest => do
    let e ← Expr.parse source
    let programs ← ofBlocks sides
    addStatements (p.push (.code source e programs)) rest
  | .attr name body :: rest => do
    let value ← addStatements [] body
    addStatements (p.push (.attr name value)) rest

/-- The programs of blocks. -/
def ofBlocks : List (List Statement) → Except SyntaxError (List Program)
  | [] => .ok []
  | b :: bs => do
    let p ← addStatements [] b
    return p :: (← ofBlocks bs)

end

/-- The program of a block. -/
def ofStatements (statements : List Statement) : Except SyntaxError Program :=
  addStatements [] statements

end LineMarkup.Program
