import LineMarkup.EvalError
import LineMarkup.Value

/-!
# Locals

The values that a template is rendered with, by name.

## Main Definitions

* `LocalsMode` — how expressions reach the locals
* `Locals` — named values in order
* `Locals.ofValue` — the locals of an object value
-/

namespace LineMarkup

/-- How expressions reach the locals: each one by its own name, or all of them grouped in one
object. -/
inductive LocalsMode where
  | flat | grouped
deriving DecidableEq, Repr, Inhabited

/-- The word for a mode in template source. -/
def LocalsMode.word : LocalsMode → String
  | flat => "flat"
  | grouped => "scoped"

/-- Named values in order. -/
abbrev Locals := Entries Value

/-- The name of the object that groups all locals. -/
def localsName : String := "locals"

/-- The locals of an object; no other value has any. -/
def Locals.ofValue : Value → Except EvalError Locals
  | .object fields => .ok fields
  | v => .error { cause := .mismatch "object for locals" v.typeName }

end LineMarkup
