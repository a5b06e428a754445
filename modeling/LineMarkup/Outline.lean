import LineMarkup.Template
import LineMarkup.Text.Structure

/-!
# Outlines

Data written down for inspection: every record with its name and the names of its fields, on one
line.

## Main Definitions

* `Value.outline`, `Expr.outline`, `Program.outline` — outlines of nested data
* `Template.outline`, `Settings.outline`, `Host.outline` — outlines of what callers hold
-/

namespace LineMarkup

open Text

/-- The outline of a truth value. -/
def outlineBool (b : Bool) : String :=
  if b then "true" else "false"

/-- The outline of a span. -/
def Span.outline (s : Span) : String :=
  record "Span" [("start", toString s.start), ("end", toString s.stop)]

namespace Value

mutual

/-- The outline of a value. -/
def outline : Value → String
  | null => "Null"
  | bool b => application "Bool" [outlineBool b]
  | number x => application "Number" [Number.literalText x]
  | string s => application "String" [inspect s]
  | array items => application "Array" [sequence (outlines items)]
  | object fields =>
    application "Object" ["\x7b" ++ ", ".intercalate (outlineFields fields) ++ "\x7d"]

/-- The outlines of the elements. -/
def outlines : List Value → List String
  | [] => []
  | v :: vs => v.outline :: outlines vs

/-- The outlines of the entries. -/
def outlineFields : List (String × Value) → List String
  | [] => []
  | (k, v) :: fs => (inspect k ++ ": " ++ v.outline) :: outlineFields fs

end

end Value

/-- The outline of an operator. -/
def BinaryOp.outline : BinaryOp → String
  | eq => "Eq"
  | notEq => "NotEq"
  | strictEq => "StrictEq"
  | strictNotEq => "StrictNotEq"
  | lt => "Lt"
  | gt => "Gt"
  | ltEq => "LtEq"
  | gtEq => "GtEq"
  | and => "And"
  | or => "Or"
  | add => "Add"
  | sub => "Sub"
  | mul => "Mul"
  | div => "Div"
  | rem => "Rem"

/-- The outline of an operator. -/
def UnaryOp.outline : UnaryOp → String
  | not => "Not"
  | neg => "Neg"

/-- The outline of something with its span. -/
def outlineSpanned (node : String) (span : Span) : String :=
  record "Spanned" [("node", node), ("span", span.outline)]

namespace Expr

mutual

/-- The outline of an expression. -/
def outline : Expr → String
  | literal v s => outlineSpanned (application "Literal" [v.outline]) s
  | array es s => outlineSpanned (application "ArrayLiteral" [sequence (outlines es)]) s
  | identifier n s => outlineSpanned (application "Identifier" [inspect n]) s
  | member o p s =>
    outlineSpanned (record "Member" [("object", o.outline), ("property", inspect p)]) s
  | index o k s => outlineSpanned (record "Index" [("object", o.outline), ("index", k.outline)]) s
  | call c as s =>
    outlineSpanned (record "Call" [("callee", c.outline), ("args", sequence (outlines as))]) s
  | binary l op r s =>
    outlineSpanned
      (record "BinaryOp" [("left", l.outline), ("op", op.outline), ("right", r.outline)]) s
  | unary op e s => outlineSpanned (record "UnaryOp" [("op", op.outline), ("operand", e.outline)]) s
  | conditional t y n s =>
    outlineSpanned
      (record "Conditional"
        [("test", t.outline), ("consequent", y.outline), ("alternate", n.outline)]) s

/-- The outlines of expressions. -/
def outlines : List Expr → List String
  | [] => []
  | e :: es => e.outline :: outlines es

end

end Expr

namespace Program

/-- The outline of a program, given those of its segments. -/
def outlineOf (segments : List String) : String :=
  record "Program" [("segments", sequence segments)]

mutual

/-- The outlines of segments. -/
def outlines : List Segment → List String
  | [] => []
  | seg :: rest => outlineSegment seg :: outlines rest

/-- The outline of a segment. -/
def outlineSegment : Segment → String
  | .text s => application "Text" [inspect s]
  | .code source e sides =>
    application "Code"
      [record "CodeSegment"
        [("source", inspect source), ("expr", e.outline), ("nodes", sequence (outlineAll sides))]]
  | .attr name value =>
    application "Attr"
      [record "AttrSegment" [("name", inspect name), ("value", outlineOf (outlines value))]]

/-- The outlines of programs. -/
def outlineAll : List (List Segment) → List String
  | [] => []
  | p :: ps => outlineOf (outlines p) :: outlineAll ps

end

/-- The outline of a program. -/
def outline (p : Program) : String :=
  outlineOf (outlines p)

end Program

/-- The outline of a template. Of the host it only says whether there is one. -/
def Template.outline (t : Template) : String :=
  record "RenderFunction"
    [("program", t.program.outline),
      ("scoped_locals", outlineBool (t.mode == .grouped)),
      ("runtime_name", inspect t.hostName),
      ("runtime", outlineBool t.host.isSome)]

/-- The outline of settings. Of the host it only says whether there is one. -/
def Settings.outline (s : Settings) : String :=
  record "GenerateOptions"
    [("runtime_name", inspect s.hostName),
      ("self_closing", inspect s.selfClosing),
      ("return_string", outlineBool s.asSource),
      ("scoped_locals", outlineBool s.grouped),
      ("runtime", outlineBool s.host.isSome)]

/-- The outline of a host: the names of its methods. -/
def Host.outline (h : Host) : String :=
  record "Runtime" [("methods", sequence (h.names.map inspect))]

end LineMarkup
