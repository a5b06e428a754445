import LineMarkup.Text.Printable

/-!
# Structure texts

How data is written down for inspection: texts in double quotes with everything unreadable
escaped, and records with the names of their fields.

## Main Definitions

* `inspect` — a text in quotes
* `record`, `application`, `sequence` — records, constructors with arguments, lists
-/

namespace LineMarkup.Text

/-- One character inside quotes. Quotes, backslashes and the usual control characters have letters
of their own; characters that cannot be seen alone are written by their code. -/
def inspectChar (c : Char) : List Char :=
  match c with
  | '\x00' => ['\\', '0']
  | '\t' => ['\\', 't']
  | '\r' => ['\\', 'r']
  | '\n' => ['\\', 'n']
  | '\\' => ['\\', '\\']
  | '"' => ['\\', '"']
  | c =>
    if isPrintable c && !extendsGrapheme c then
      [c]
    else
      ['\\', 'u', '\x7b'] ++ Nat.toDigits 16 c.toNat ++ ['\x7d']

/-- A text in quotes. -/
def inspect (s : String) : String :=
  String.ofList ('"' :: (s.toList.flatMap inspectChar ++ ['"']))

/-- A list of texts in brackets. -/
def sequence (items : List String) : String :=
  "[" ++ ", ".intercalate items ++ "]"

/-- A constructor with its arguments. -/
def application (name : String) (args : List String) : String :=
  name ++ "(" ++ ", ".intercalate args ++ ")"

/-- A record: its name, and its fields with their names. -/
def record (name : String) (fields : List (String × String)) : String :=
  name ++ " \x7b " ++ ", ".intercalate (fields.map fun (k, v) => k ++ ": " ++ v) ++ " \x7d"

end LineMarkup.Text
