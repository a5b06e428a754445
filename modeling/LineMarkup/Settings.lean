import LineMarkup.Host
import LineMarkup.Json.Decode
import LineMarkup.Locals

/-!
# Settings

What can be chosen for the layout of a tree and for the template it makes.

The way in which tags without a body are written is kept as the text it was given as, and
checked before anything is laid out.

## Main Definitions

* `SelfClosing` — how a tag without a body is written
* `Settings` — all settings, with their defaults
* `Settings.validate` — the settings with every choice checked
* `Settings.ofJson` — the settings of a JSON text
-/

namespace LineMarkup

/-- How a tag without a body is written: `br`, or `br /`. Two words are known for the first form. -/
inductive SelfClosing where
  | tag | close | slash
deriving DecidableEq, Repr

namespace SelfClosing

/-- The word for a form. -/
def word : SelfClosing → String
  | tag => "tag"
  | close => "close"
  | slash => "slash"

/-- The form that a word stands for. -/
def ofWord? : String → Option SelfClosing
  | "tag" => some tag
  | "close" => some close
  | "slash" => some slash
  | _ => none

@[simp] theorem ofWord?_word (m : SelfClosing) : ofWord? m.word = some m := by
  cases m <;> rfl

end SelfClosing

/-- A setting outside its legal words. -/
structure InvalidSetting where
  option : String
  value : String
  allowed : String
deriving DecidableEq, Repr

/-- What the error says. -/
def InvalidSetting.message (e : InvalidSetting) : String :=
  "'" ++ e.value ++ "' is an invalid option for '" ++ e.option ++ "'. You can use " ++ e.allowed

/-- All settings, with their defaults. -/
structure Settings where
  hostName : String := "__runtime"
  selfClosing : String := SelfClosing.tag.word
  asSource : Bool := false
  grouped : Bool := false
  host : Option Host := none

/-- Settings with every choice checked. -/
structure ValidSettings where
  hostName : String
  selfClosing : SelfClosing
  asSource : Bool
  mode : LocalsMode
  host : Option Host

namespace Settings

/-- The addressing of locals that the settings ask for. -/
def mode (s : Settings) : LocalsMode :=
  if s.grouped then .grouped else .flat

/-- Check every choice. -/
def validate (s : Settings) : Except InvalidSetting ValidSettings :=
  match SelfClosing.ofWord? s.selfClosing with
  | some m => .ok ⟨s.hostName, m, s.asSource, s.mode, s.host⟩
  | none => .error ⟨"selfClosing", s.selfClosing, "'close', 'tag', or 'slash'"⟩

open Json

/-- The fields of settings, as far as they have come. -/
structure Fields where
  hostName : Option String := none
  selfClosing : Option String := none
  asSource : Option Bool := none
  grouped : Option Bool := none

/-- The settings of the fields; missing ones keep their defaults. -/
def Fields.toSettings (f : Fields) : Settings :=
  let defaults : Settings := {}
  { hostName := f.hostName.getD defaults.hostName
    selfClosing := f.selfClosing.getD defaults.selfClosing
    asSource := f.asSource.getD defaults.asSource
    grouped := f.grouped.getD defaults.grouped }

/-- The fields of settings written as an object. -/
def readFields : List (Option String × Tree) → Fields → Except DecodeError Fields
  | [], f => .ok f
  | (key, t) :: rest, f => do
    match ← readKey key with
    | "runtimeName" =>
      fresh "runtimeName" f.hostName
      readFields rest { f with hostName := some (← readString t) }
    | "selfClosing" =>
      fresh "selfClosing" f.selfClosing
      readFields rest { f with selfClosing := some (← readString t) }
    | "returnString" =>
      fresh "returnString" f.asSource
      readFields rest { f with asSource := some (← readBool t) }
    | "scopedLocals" =>
      fresh "scopedLocals" f.grouped
      readFields rest { f with grouped := some (← readBool t) }
    | _ =>
      ignore t
      readFields rest f

/-- The fields of settings written as an array, in their order. -/
def readPositions : List Tree → Nat → Fields → Except DecodeError Fields
  | [], _, f => .ok f
  | t :: rest, position, f =>
    match position with
    | 0 => do readPositions rest 1 { f with hostName := some (← readString t) }
    | 1 => do readPositions rest 2 { f with selfClosing := some (← readString t) }
    | 2 => do readPositions rest 3 { f with asSource := some (← readBool t) }
    | 3 => do readPositions rest 4 { f with grouped := some (← readBool t) }
    | _ => .error .malformed

/-- Settings. -/
def read : Tree → Except DecodeError Settings
  | .object fields whole => do
    let f ← readFields fields {}
    close whole
    return f.toSettings
  | .array items whole => do
    let f ← readPositions items 0 {}
    close whole
    return f.toSettings
  | t => .error (mismatch t .settings)

/-- The settings of a JSON text. -/
def ofJson (text : String) : Except DecodeError Settings :=
  decode read text

end Settings

end LineMarkup
