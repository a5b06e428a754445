import LineMarkup.EvalError
import LineMarkup.Text.CaseMapping
import LineMarkup.Value

/-!
# Properties and methods of values

What a value answers to a name, to an index and to a method call.

## Main Definitions

* `Value.property` — an entry of an object, the length of a text or an array
* `Value.item` — an element of an array, a character of a text, or a property
* `Value.method` — the methods that every value of a type has
-/

namespace LineMarkup.Value

/-- The property of a name. Null has none, which is an error; other values have null for a name that
they do not know. -/
def property (target : Value) (name : String) : Except EvalError Value :=
  match target with
  | null => .error { cause := .propertyOfNull name }
  | object fields => .ok ((Entries.get? fields name).getD null)
  | string s => .ok (if name = "length" then number (Float.ofNat s.length) else null)
  | array items => .ok (if name = "length" then number (Float.ofNat items.length) else null)
  | _ => .ok null

/-- What stands at an index. Arrays and texts are counted from zero by whole numbers; any other
index is the name of a property. -/
def item (target key : Value) : Except EvalError Value :=
  match target, key with
  | array items, number x =>
    .ok (((Number.wholeIndex? x).bind (items[·]?)).getD null)
  | string s, number x =>
    .ok ((((Number.wholeIndex? x).bind (s.toList[·]?)).map fun c => string c.toString).getD null)
  | target, key => target.property key.text

/-- A method of a value. -/
def method (target : Value) (name : String) (args : List Value) : Except EvalError Value :=
  match target, name with
  | string s, "toUpperCase" => .ok (string (Text.upperCase s))
  | string s, "toLowerCase" => .ok (string (Text.lowerCase s))
  | string s, "trim" => .ok (string (Text.trim s))
  | array items, "join" =>
    let separator := (args.head?.map text).getD ","
    .ok (string (separator.intercalate (texts items)))
  | null, name => .error { cause := .propertyOfNull name }
  | target, "toString" => .ok (string target.text)
  | target, name => .error { cause := .noMethod target.typeName name }

end LineMarkup.Value
