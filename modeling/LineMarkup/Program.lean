import LineMarkup.Expr

/-!
# Programs

A program is what rendering walks over: literal text, expressions whose texts are spliced in, and
attributes whose values are only known when the program is rendered.

Programs are built from the left. Empty text leaves no segment and adjacent texts become one, so
a program without expressions is at most one segment.

## Main Definitions

* `Segment`, `Program` — the parts of a program
* `Program.pushText`, `Program.push`, `Program.append` — the ways to extend a program
* `Program.ofSegments` — the program of a list of segments
* `Program.asStatic?` — the text of a program that has no other part
-/

namespace LineMarkup

/-- A part of a program. An expression keeps its source, exactly as it is written into template
source, and the programs of its side nodes. -/
inductive Segment where
  | text (s : String)
  | code (source : String) (expr : Expr) (sides : List (List Segment))
  | attr (name : String) (value : List Segment)
deriving Inhabited

/-- A sequence of segments. -/
abbrev Program := List Segment

namespace Program

/-- Add literal text at the end: it joins a text that stands there, and empty text adds nothing. -/
def pushText : Program → String → Program
  | [], s => if s = "" then [] else [.text s]
  | [.text t], s => [.text (t ++ s)]
  | [seg], s => if s = "" then [seg] else [seg, .text s]
  | seg :: rest, s => seg :: pushText rest s

/-- Add a segment at the end. -/
def push (p : Program) : Segment → Program
  | .text s => p.pushText s
  | seg => p ++ [seg]

/-- Add all segments of another program at the end. -/
def append (p q : Program) : Program :=
  q.foldl push p

/-- The program of a list of segments. -/
def ofSegments (segments : List Segment) : Program :=
  append [] segments

/-- The whole output of a program that needs no rendering. -/
def asStatic? : Program → Option String
  | [] => some ""
  | [.text s] => some s
  | _ => none

@[simp] theorem pushText_empty : (p : Program) → p.pushText "" = p
  | [] => by simp [pushText]
  | [.text t] => by simp [pushText]
  | [.code _ _ _] => by simp [pushText]
  | [.attr _ _] => by simp [pushText]
  | seg :: next :: rest => by simp [pushText, pushText_empty (next :: rest)]

@[simp] theorem append_nil (p : Program) : p.append [] = p := rfl

@[simp] theorem ofSegments_nil : ofSegments [] = [] := rfl

end Program

end LineMarkup
