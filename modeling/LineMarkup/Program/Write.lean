import LineMarkup.Locals
import LineMarkup.Program
import LineMarkup.Text.Quoted

/-!
# Programs as source text

A template is written as a header and a block in braces: one statement a line, nested blocks
indented by four spaces. Texts and names are quoted, expressions stand as they are.

## Main Definitions

* `Program.writeSegments` — the statements of a block
* `Program.write` — a whole template: header and block
-/

namespace LineMarkup.Program

/-- The indentation of a level. -/
def margin (depth : Nat) : List Char :=
  List.replicate (4 * depth) ' '

/-- A block around statements, where the closing brace stands at `depth`. -/
def braces (depth : Nat) (statements : List Char) : List Char :=
  '\x7b' :: '\n' :: (statements ++ margin depth ++ ['\x7d'])

mutual

/-- The statements of a block whose braces stand at `depth`. -/
def writeSegments (depth : Nat) : List Segment → List Char
  | [] => []
  | seg :: rest =>
    margin (depth + 1) ++ writeSegment (depth + 1) seg ++ '\n' :: writeSegments depth rest

/-- One statement, without the end of its line. -/
def writeSegment (depth : Nat) : Segment → List Char
  | .text s => "write ".toList ++ Text.Quoted.encode s.toList ++ [';']
  | .code source _ sides =>
    "write (".toList ++ source.toList ++ [')'] ++ writeSides depth sides ++ [';']
  | .attr name value =>
    "attr ".toList ++ Text.Quoted.encode name.toList ++ ' ' ::
      braces depth (writeSegments depth value)

/-- The blocks of the side nodes behind an expression. -/
def writeSides (depth : Nat) : List (List Segment) → List Char
  | [] => []
  | p :: rest =>
    " with ".toList ++ braces depth (writeSegments depth p) ++ writeMoreSides depth rest

/-- The blocks behind the first one. -/
def writeMoreSides (depth : Nat) : List (List Segment) → List Char
  | [] => []
  | p :: rest => ' ' :: (braces depth (writeSegments depth p) ++ writeMoreSides depth rest)

end

/-- The source text of a template. -/
def write (p : Program) (mode : LocalsMode) (hostName : String) : List Char :=
  "render(locals: ".toList ++ mode.word.toList ++ ", runtime: ".toList ++
    Text.Quoted.encode hostName.toList ++ ") ".toList ++ braces 0 (writeSegments 0 p)

end LineMarkup.Program
