import LineMarkup.Eval.Render
import LineMarkup.Layout
import LineMarkup.Program.Read
import LineMarkup.Program.Write

/-!
# Templates

A template is a program together with the way its expressions reach locals and host. It comes
from a markup tree or from source text, is rendered any number of times, and can be written as
source text again.

## Main Definitions

* `Template.ofNodes` — the template of a markup tree
* `Template.ofSource`, `Template.toSource` — between templates and source text
* `Template.render` — the output for given locals
* `Artifact` — what a generation with settings yields: a template, or its source text
-/

namespace LineMarkup

/-- A program with the way its expressions reach locals and host. -/
structure Template where
  program : Program
  mode : LocalsMode
  hostName : String
  host : Option Host

namespace Template

/-- What the names in a template mean for given locals. -/
def scope (t : Template) (locals : Locals) : Scope :=
  ⟨locals, t.mode, t.hostName, t.host⟩

/-- The output for given locals. -/
def render (t : Template) (locals : Locals) : Except EvalError String :=
  Program.render (t.scope locals) t.program

/-- The source text of a template. The host itself is not part of it, only its name. -/
def toSource (t : Template) : String :=
  String.ofList (t.program.write t.mode t.hostName)

/-- The template of a source text, with the host that its expressions shall see. -/
def ofSource (source : String) (host : Option Host) : Except SyntaxError Template := do
  let written ← Grammar.template.run source
  let program ← Program.ofStatements written.body
  return ⟨program, written.mode, written.hostName, host⟩

/-- The template of a markup tree. The settings are checked first. -/
def ofNodes (nodes : List Node) (settings : Settings) : Except LayoutError Template := do
  match settings.validate with
  | .error e => throw (.invalidSetting e)
  | .ok valid =>
    let program ← Layout.program valid.selfClosing nodes
    return ⟨program, valid.mode, valid.hostName, valid.host⟩

end Template

/-- What a generation yields. -/
inductive Artifact where
  | template (t : Template)
  | source (text : String)

/-- The template of a markup tree, or its source text if the settings ask for that. -/
def Artifact.ofNodes (nodes : List Node) (settings : Settings) : Except LayoutError Artifact := do
  let t ← Template.ofNodes nodes settings
  return if settings.asSource then .source t.toSource else .template t

/-- Why rendering a tree at once failed: it could not be laid out, or its template not rendered. -/
inductive RenderError where
  | layout (e : LayoutError)
  | eval (e : EvalError)

/-- Lay out a tree and render it once. -/
def renderNodes (nodes : List Node) (settings : Settings) (locals : Locals) :
    Except RenderError String :=
  match Template.ofNodes nodes settings with
  | .error e => .error (.layout e)
  | .ok t =>
    match t.render locals with
    | .error e => .error (.eval e)
    | .ok s => .ok s

end LineMarkup
