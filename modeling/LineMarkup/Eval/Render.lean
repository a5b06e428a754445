import LineMarkup.Eval.Expr
import LineMarkup.Program

/-!
# Rendering

The output of a program: its texts as they are, the texts of its expressions' values, and its
attributes with their values. The first error, from left to right, is the result instead.

## Main Definitions

* `writtenAttribute` — an attribute with its value, or its bare name if the value is empty
* `Program.render` — the output of a program in a scope
-/

namespace LineMarkup

/-- An attribute with its value, or its bare name if the value is empty. -/
def writtenAttribute (name value : String) : String :=
  if value = "" then name else name ++ "=\"" ++ value ++ "\""

namespace Program

mutual

/-- The output of a program. -/
def render (scope : Scope) : List Segment → Except EvalError String
  | [] => .ok ""
  | seg :: rest => do
    let first ← renderSegment scope seg
    let others ← render scope rest
    return first ++ others

/-- The output of a segment. -/
def renderSegment (scope : Scope) : Segment → Except EvalError String
  | .text s => .ok s
  | .code _ e sides => do return (← e.eval scope (renderSides scope sides)).text
  | .attr name value => do return writtenAttribute name (← render scope value)

/-- What each program of a side list renders to, each worked out only when it is asked for. -/
def renderSides (scope : Scope) : List (List Segment) → List Side
  | [] => []
  | p :: ps => Thunk.mk (fun _ => render scope p) :: renderSides scope ps

end

end Program

end LineMarkup
