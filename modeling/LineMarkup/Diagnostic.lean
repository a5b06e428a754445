import LineMarkup.Grammar.Trace
import LineMarkup.Span

/-!
# Diagnostics

Messages about a source text, and their picture: the line they are about with carets under the
place.

## Main Definitions

* `Diagnostic` — a message with the span that it is about, and perhaps a hint
* `Diagnostic.rows`, `Diagnostic.render` — its picture
* `SyntaxError` — where reading stopped and what was expected there
-/

namespace LineMarkup

/-- A message about a span of a source text. -/
structure Diagnostic where
  span : Span
  message : String
  hint : Option String := none
deriving Repr

/-- Line and column of a byte offset, both counted from one. A column is a character; a line ends
behind its line feed. -/
def lineColumn (offset : Nat) : List Char → Nat × Nat :=
  go 0 1 1
where
  go (reached line column : Nat) : List Char → Nat × Nat
    | [] => (line, column)
    | c :: cs =>
      if offset ≤ reached then
        (line, column)
      else if c = '\n' then
        go (reached + c.utf8Size) (line + 1) 1 cs
      else
        go (reached + c.utf8Size) line (column + 1) cs

/-- The lines of a text. A line ends with a line feed, or with a carriage return and a line feed;
the end of the text ends a line that is not empty. -/
def lines : List Char → List (List Char)
  | [] => []
  | '\n' :: cs => [] :: lines cs
  | '\r' :: '\n' :: cs => [] :: lines cs
  | c :: cs =>
    match cs, lines cs with
    | [], _ => [[c]]
    | _ :: _, [] => [[c]]
    | _ :: _, l :: ls => (c :: l) :: ls

namespace Diagnostic

/-- A number set to the right of three columns. -/
def padded (n : Nat) : String :=
  let digits := toString n
  String.ofList (List.replicate (3 - digits.length) ' ') ++ digits

/-- What stands before a quoted line in its row: the number of the line. -/
def gutter (line : Nat) : String :=
  padded line ++ " | "

/-- What stands before the carets in their row. -/
def blankGutter : String :=
  "    | "

/-- The line of a text with a number, counted from one; nothing if there is no such line. -/
def lineText (line : Nat) (cs : List Char) : List Char :=
  (lines cs)[line - 1]?.getD []

/-- The carets behind the gutter: blanks up to the column, then one caret for each character of the
span, at least one. -/
def carets (column width : Nat) : String :=
  String.ofList (List.replicate (column - 1) ' ' ++ List.replicate (max 1 width) '^')

/-- The rows of the picture: message, place, the line that the span starts on, carets under the
span, and the hint if there is one. -/
def rows (d : Diagnostic) (source : String) : List String :=
  let cs := source.toList
  let (line, column) := lineColumn d.span.start cs
  [s!"Error: {d.message}",
    s!" --> {line}:{column}",
    "  |",
    gutter line ++ String.ofList (lineText line cs),
    blankGutter ++ carets column (d.span.sliceList cs).length] ++
  (d.hint.map fun hint => s!"  = hint: {hint}").toList

/-- The picture of a message in a source text. -/
def render (d : Diagnostic) (source : String) : String :=
  "\n".intercalate (d.rows source)

end Diagnostic

/-- Where reading stopped, and the rules expected there. -/
structure SyntaxError where
  offset : Nat
  expected : List Grammar.Rule
deriving DecidableEq, Repr

namespace SyntaxError

/-- The expected rules in words: `a`, `a or b`, `a, b, or c`. -/
def enumerate : List String → String
  | [] => ""
  | [a] => a
  | [a, b] => s!"{a} or {b}"
  | a :: b :: rest => a ++ ", " ++ enumerateRest b rest
where
  enumerateRest : String → List String → String
    | a, [] => "or " ++ a
    | a, b :: rest => a ++ ", " ++ enumerateRest b rest

/-- What a syntax error says. -/
def message (e : SyntaxError) : String :=
  if e.expected.isEmpty then
    "parse error: unknown parsing error"
  else
    "parse error: expected " ++ enumerate (e.expected.map Grammar.Rule.name)

/-- A syntax error is about the byte where reading stopped. -/
def span (e : SyntaxError) : Span :=
  ⟨e.offset, e.offset + 1⟩

/-- A syntax error as a diagnostic. -/
def toDiagnostic (e : SyntaxError) : Diagnostic :=
  { span := e.span, message := e.message }

end SyntaxError

end LineMarkup
