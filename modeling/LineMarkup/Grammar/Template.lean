import LineMarkup.Grammar.Expression
import LineMarkup.Locals
import LineMarkup.Text.Blank

/-!
# Templates in source text

The grammar of template source: a header that says how locals are addressed and what the host is
called, and a block of statements.

## Main Definitions

* `Statement` — what stands in a block
* `block` — a block of statements
* `template` — a template that is the whole text
-/

namespace LineMarkup.Grammar

open Reader

/-- A statement of a block. An expression is kept as its own text without the blanks around it,
and as the tree that was read in place. -/
inductive Statement where
  | text (s : String)
  | code (source : String) (inPlace : Expr) (sides : List (List Statement))
  | attr (name : String) (body : List Statement)
deriving Inhabited

/-- A template as written. -/
structure WrittenTemplate where
  mode : LocalsMode
  hostName : String
  body : List Statement

/-- Literal output. -/
def writeText : Reader Statement := call .writeText do
  lit "write"
  skip
  let s ← string
  token ";"
  return .text s

/-- An expression together with its own text. -/
def sourcedExpr : Reader (String × Expr) := do
  let start ← place
  let e ← expr
  let stop ← place
  return (String.ofList (Text.trimList (start.textTo stop)), e)

section Levels

variable (nested : Reader (List Statement))

/-- The blocks of the side nodes of an expression; at least one. -/
def sideNodes : Reader (List (List Statement)) := call .sideNodes do
  lit "with"
  skip
  let first ← nested
  let others ← many do
    skip
    nested
  return first :: others

/-- An expression whose text is output. -/
def writeCode : Reader Statement := call .writeCode do
  lit "write"
  token "("
  skip
  let (source, e) ← sourcedExpr
  token ")"
  skip
  let sides ← option (sideNodes nested)
  token ";"
  return .code source e (sides.getD [])

/-- An attribute with the block that makes its value. -/
def attrBlock : Reader Statement := call .attrBlock do
  lit "attr"
  skip
  let name ← string
  skip
  let body ← nested
  return .attr name body

/-- Statements in braces. -/
def blockOf : Reader (List Statement) := call .block do
  lit "\x7b"
  let statements ← many do
    skip
    firstOf [writeText, writeCode nested, attrBlock nested]
  token "\x7d"
  return statements

end Levels

/-- A block nested at most as deep as the length of the list. -/
def blockWithin : List Char → Reader (List Statement)
  | [] => blockOf fail
  | _ :: deeper => blockOf (blockWithin deeper)

/-- A block of statements. -/
def block : Reader (List Statement) := fun c => blockWithin c.rest c

/-- The word for a way to address locals. -/
def modeWord (mode : LocalsMode) : Reader LocalsMode :=
  word mode.word mode

/-- How locals are addressed. -/
def localsMode : Reader LocalsMode :=
  call .localsMode ((modeWord .flat).orElse (modeWord .grouped))

/-- The header of a template. -/
def header : Reader (LocalsMode × String) := call .header do
  lit "render"
  token "("
  token "locals"
  token ":"
  skip
  let mode ← localsMode
  token ","
  token "runtime"
  token ":"
  skip
  let hostName ← string
  token ")"
  return (mode, hostName)

/-- A template that is the whole text. -/
def template : Reader WrittenTemplate := call .template do
  skip
  let (mode, hostName) ← header
  skip
  let body ← block
  skip
  call .endOfInput atEnd
  return ⟨mode, hostName, body⟩

end LineMarkup.Grammar
