import LineMarkup.Host.Parameters
import LineMarkup.Value.Tagged

/-!
# Sample methods

A small stock of host methods: some that declare their parameters, and some that look at their
arguments themselves and raise every kind of error.

## Main Definitions

* `Samples.all` — all sample methods
* `Samples.host` — the host that has them all
* `Samples.constant` — a method that yields the same value for all arguments
-/

namespace LineMarkup.Samples

/-! ### Methods with declared parameters -/

/-- Any one value makes the same text. -/
def changeToDoge : Method :=
  .declared "changeToDoge" { list := [⟨"_input", .any⟩] } fun _ => .ok (.string "doge")

/-- A text in brackets. -/
def bracket : Method :=
  .declared "bracket" { list := [⟨"text", .string⟩] } fun (text, _) => .ok (.string ("[" ++ text ++ "]"))

/-- Twice a number. -/
def double : Method :=
  .declared "double" { list := [⟨"n", .number⟩] } fun (n, _) => .ok (.number (n * 2.0))

/-- A word for a truth value. -/
def yesNo : Method :=
  .declared "yesNo" { list := [⟨"value", .bool⟩] } fun (b, _) => .ok (.string (if b then "yes" else "no"))

/-- The first element of an array. -/
def first : Method :=
  .declared "first" { list := [⟨"items", .array⟩] } fun (items, _) =>
    match items with
    | [] => .error { cause := .raised .host "empty array" }
    | v :: _ => .ok v

/-- A text `n` times in a row, built by doubling. -/
def repeated (text : String) (n : Nat) : String :=
  if n = 0 then
    ""
  else
    let half := repeated text (n / 2)
    if n % 2 = 0 then half ++ half else half ++ half ++ text
termination_by n

/-- A text a number of times. -/
def repeatText : Method :=
  .declared "repeat" { list := [⟨"text", .string⟩, ⟨"count", .number⟩] } fun (text, count, _) =>
    .ok (.string (repeated text (Number.rounded count)))

/-- One argument of every type, put together. -/
def mixed : Method :=
  .declared "mixed"
    { list := [⟨"any", .any⟩, ⟨"s", .string⟩, ⟨"n", .number⟩, ⟨"b", .bool⟩, ⟨"items", .array⟩] }
    fun (any, s, n, b, items, _) => .ok (.array [any, .string s, .number n, .bool b, .array items])

/-! ### Methods that look at their arguments themselves -/

/-- The text of an argument; nothing if it is missing. -/
def textAt (args : List Value) (i : Nat) : String :=
  (args[i]?.map Value.text).getD ""

/-- An argument as an offset: its whole part, zero if it is no number. -/
def offsetAt (args : List Value) (i : Nat) : Nat :=
  (args[i]?.bind Value.asNumber?).elim 0 Number.toWord

/-- An exact text of all arguments. -/
def inspect : Method :=
  .free "inspect" fun args => .ok (.string (Value.taggedList args))

/-- The entries of an object whose keys and values alternate. -/
def packInto (entries : Entries Value) : List Value → Entries Value
  | [] => entries
  | [k] => entries.insert k.text .null
  | k :: v :: rest => packInto (entries.insert k.text v) rest

/-- An object of keys and values that alternate. -/
def pack : Method :=
  .free "pack" fun args => .ok (.object (packInto [] args))

/-- The first argument. -/
def echo : Method :=
  .free "echo" fun args => .ok (args.head?.getD .null)

/-- An error without a place. -/
def fail : Method :=
  .free "fail" fun args => .error { cause := .raised .host (textAt args 0) }

/-- An error with a place of its own. -/
def failAt : Method :=
  .free "failAt" fun args => .error
    { cause := .raised .host (textAt args 0)
      span := some ⟨offsetAt args 1, offsetAt args 2⟩ }

/-- An error that has another one behind it. -/
def wrapped : Method :=
  .free "wrapped" fun args => .error
    { cause := .raised .host "failed to load partial"
      source := some (textAt args 0) }

/-- An error about a method that is missing inside the host. -/
def ghost : Method :=
  .free "ghost" fun args => .error
    { cause := .noHostMethod "inner" (textAt args 0)
      span := some ⟨7, 9⟩ }

/-- An error about a name that nothing is bound to. -/
def unbound : Method :=
  .free "unbound" fun args => .error { cause := .unbound (textAt args 0) }

/-- An error about a value of another type. -/
def mismatch : Method :=
  .free "mismatch" fun args => .error
    { cause := .mismatch (textAt args 1) ((args.head?.map Value.typeName).getD "nothing") }

/-- All sample methods. -/
def all : List Method :=
  [changeToDoge, bracket, double, yesNo, first, repeatText, mixed, inspect, pack, echo, fail,
    failAt, wrapped, ghost, unbound, mismatch]

/-- The sample method of a name. -/
def find? (name : String) : Option Method :=
  all.find? (fun m => m.signature.name == name)

/-- The host that has all sample methods. -/
def host : Host :=
  all.foldl Host.register .empty

/-- A method that yields the same value for all arguments. -/
def constant (name : String) (value : Value) : Method :=
  .free name fun _ => .ok value

end LineMarkup.Samples
