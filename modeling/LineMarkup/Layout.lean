import LineMarkup.Grammar.Expression
import LineMarkup.Node
import LineMarkup.Program
import LineMarkup.Settings

/-!
# Layout

A markup tree becomes lines, indented by two spaces a level. Tags and comments start lines. Text
and expressions flow: a run of them at the start of a tag's content goes on behind the tag, any
other run stands on a line of its own behind a mark. A run of blank text among tags and comments
is dropped.

A line is a list of segments; a program is made of all lines with line feeds between them.

## Main Definitions

* `LayoutError` — why a tree cannot be made into a template, with its message
* `Piece` — what one node contributes: to the current line, or lines of its own
* `Flow` — what a list of siblings contributes: a run that goes on the line before, and lines
* `Head` — name, `#` and `.` short forms, and attribute list of a tag
* `Layout.program` — the program of a whole tree
-/

namespace LineMarkup

/-- Why a tree cannot be made into a template. -/
inductive LayoutError where
  /-- a setting outside its legal words -/
  | invalidSetting (e : InvalidSetting)
  /-- a node of a type that is not known -/
  | unknownType (type : String)
  /-- the content of a code node, without the blanks around it, is no expression -/
  | invalidExpression (source : String) (e : SyntaxError)
deriving DecidableEq, Repr

/-- What an error says. -/
def LayoutError.message : LayoutError → String
  | invalidSetting e => e.message
  | unknownType type => "unrecognized node type: '" ++ type ++ "'"
  | invalidExpression source e => "invalid expression \x60" ++ source ++ "\x60: " ++ e.message

namespace Layout

/-- The segments of one line. -/
abbrev Line := List Segment

/-- The lines with line feeds between them. -/
def joinLines : List Line → List Segment
  | [] => []
  | [line] => line
  | line :: rest => line ++ .text "\n" :: joinLines rest

/-- The indentation of a level. -/
def indent (depth : Nat) : Segment :=
  .text (String.ofList (List.replicate (2 * depth) ' '))

/-- What one node contributes. -/
inductive Piece where
  /-- segments for the current line; `blank` says that they are blank text only -/
  | inline (segments : List Segment) (blank : Bool)
  /-- lines of its own -/
  | block (lines : List Line)

/-- All segments of a node that stands alone. -/
def Piece.segments : Piece → List Segment
  | inline segments _ => segments
  | block lines => joinLines lines

/-- A run of text and expressions; `blank` says that it is blank text only. -/
structure Run where
  segments : List Segment
  blank : Bool

/-- What a list of siblings contributes: the run that it starts with, if it starts with one, and the
lines from its first tag or comment on. -/
structure Flow where
  run : Option Run
  lines : List Line

namespace Flow

/-- No siblings. -/
def empty : Flow := ⟨none, []⟩

/-- The run at the start, unless it is blank and lines follow it. -/
def lead? (f : Flow) : Option (List Segment) :=
  match f.run with
  | none => none
  | some r => if r.blank && !f.lines.isEmpty then none else some r.segments

/-- The run at the start as a line of its own, at a level, behind other lines; a blank run is
dropped. -/
def marked (f : Flow) (depth : Nat) : List Line :=
  match f.run with
  | none => []
  | some r => if r.blank then [] else [indent depth :: .text "| " :: r.segments]

/-- One more node in front. -/
def add (depth : Nat) (piece : Piece) (f : Flow) : Flow :=
  match piece with
  | .inline segments blank =>
    match f.run with
    | none => ⟨some ⟨segments, blank⟩, f.lines⟩
    | some r => ⟨some ⟨segments ++ r.segments, blank && r.blank⟩, f.lines⟩
  | .block lines => ⟨none, lines ++ f.marked depth ++ f.lines⟩

/-- The lines of a whole tree: the run at the start is the first one. -/
def topLines (f : Flow) : List Line :=
  match f.lead? with
  | none => f.lines
  | some run => run :: f.lines

/-- The lines of a tag: the run at the start goes on behind its head. -/
def behind (f : Flow) (head : Line) : List Line :=
  match f.lead? with
  | none => head :: f.lines
  | some run => (head ++ .text " " :: run) :: f.lines

end Flow

/-! ### Heads of tags -/

/-- The tags that are never written with a slash. -/
def alwaysWithBody : List String :=
  ["script", "style", "textarea", "title", "iframe", "template", "canvas", "video", "audio",
    "object"]

/-- The id in its short form: a value that is one text, not empty. -/
def shortId? (attrs : Attributes (List Node) []) : Option String :=
  match attrs.get? "id" with
  | some [.text s] => if s = "" then none else some s
  | _ => none

/-- The classes in their short form: a value that is one text with at least one word. -/
def shortClasses? (attrs : Attributes (List Node) []) : Option (List String) :=
  match attrs.get? "class" with
  | some [.text s] => if (Text.words s).isEmpty then none else some (Text.words s)
  | _ => none

/-- The short forms of a tag. -/
structure Head where
  id : Option String
  classes : Option (List String)

namespace Head

/-- The short forms that attributes allow. -/
def ofAttrs (attrs : Attributes (List Node) []) : Head :=
  ⟨shortId? attrs, shortClasses? attrs⟩

/-- Whether an attribute is written in its short form. -/
def takes (h : Head) (name : String) : Bool :=
  (name == "id" && h.id.isSome) || (name == "class" && h.classes.isSome)

/-- The short forms behind the name of a tag. -/
def segments (h : Head) : List Segment :=
  (match h.id with
    | none => []
    | some id => [.text "#", .text id]) ++
  (match h.classes with
    | none => []
    | some cs => [.text ".", .text (".".intercalate cs)])

end Head

/-- An attribute in the list of a tag. A value that needs no rendering is written at once. -/
def attribution (name : String) (value : Program) : List Segment :=
  match value.asStatic? with
  | some s => if s = "" then [.text name] else [.text (name ++ "=\"" ++ s ++ "\"")]
  | none => [.attr name value]

/-- Attributes in parentheses with spaces between them; nothing if there are none. -/
def attributionList : List (List Segment) → List Segment
  | [] => []
  | first :: rest =>
    .text "(" :: first ++ rest.flatMap (fun a => .text " " :: a) ++ [.text ")"]

/-- The slash behind a tag without a body, where settings ask for it. -/
def slash (closing : SelfClosing) (name : String) (content : Option (List Node)) : List Segment :=
  if Node.hasNoBody content && closing == .slash && !alwaysWithBody.contains name then
    [.text " /"]
  else
    []

/-! ### Trees -/

mutual

/-- What a node contributes at a level. -/
def piece (closing : SelfClosing) (depth : Nat) : Node → Except LayoutError Piece
  | .text s => .ok (.inline [.text s] (Text.allBlank s))
  | .code content sides => do
    let source := Text.trim content
    match Expr.parse source with
    | .error e => throw (.invalidExpression source e)
    | .ok e =>
      let programs ←
        match sides with
        | none => pure []
        | some ns => sidePrograms closing ns
      return .inline [.code source e programs] false
  | .comment content => .ok (.block [[indent depth, .text "// ", .text content]])
  | .unknown type => .error (.unknownType type)
  | .tag name attrs content => do
    let short := Head.ofAttrs (attrs.getD .nil)
    let listed ←
      match attrs with
      | none => pure []
      | some as => attributions closing short as
    let head := indent depth :: .text name :: short.segments ++ attributionList listed ++
      slash closing name content
    if Node.hasNoBody content then
      return .block [head]
    else
      let inner ←
        match content with
        | none => pure .empty
        | some ns => flow closing (depth + 1) ns
      return .block (inner.behind head)

/-- What a list of siblings contributes at a level. -/
def flow (closing : SelfClosing) (depth : Nat) : List Node → Except LayoutError Flow
  | [] => .ok .empty
  | n :: rest => do
    let p ← piece closing depth n
    let f ← flow closing depth rest
    return f.add depth p

/-- The segments of the nodes of an attribute's value, one behind the other. -/
def parts (closing : SelfClosing) : List Node → Except LayoutError (List Segment)
  | [] => .ok []
  | n :: rest => do
    let p ← piece closing 0 n
    let others ← parts closing rest
    return p.segments ++ others

/-- The programs of side nodes, each node for itself. -/
def sidePrograms (closing : SelfClosing) : List Node → Except LayoutError (List Program)
  | [] => .ok []
  | n :: rest => do
    let p ← piece closing 0 n
    let others ← sidePrograms closing rest
    return .ofSegments p.segments :: others

/-- The attributes that are listed, in their order. -/
def attributions (closing : SelfClosing) (short : Head) {before : List String} :
    Attributes (List Node) before → Except LayoutError (List (List Segment))
  | .nil => .ok []
  | .cons name value rest _ =>
    if short.takes name then
      attributions closing short rest
    else do
      let segments ← parts closing value
      let others ← attributions closing short rest
      return attribution name (.ofSegments segments) :: others

end

/-- The program of a whole tree. -/
def program (closing : SelfClosing) (nodes : List Node) : Except LayoutError Program := do
  let f ← flow closing 0 nodes
  return .ofSegments (joinLines f.topLines)

end Layout

end LineMarkup
