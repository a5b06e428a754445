import LineMarkup.Value

/-!
# Values as tagged JSON

A JSON text of a value from which the value can be told exactly: numbers by their bits, objects as
lists of pairs, so that the order of their entries stays.

## Main Definitions

* `Value.tagged` — the text of a value
* `Value.taggedList` — the text of a list of values
-/

namespace LineMarkup.Value

/-- A number in sixteen hexadecimal digits. -/
def hexWord (n : Nat) : String :=
  let digits := Nat.toDigits 16 n
  String.ofList (List.replicate (16 - digits.length) '0' ++ digits)

/-- The bits of a number; everything that is not a number looks alike. -/
def bitsText (x : Float) : String :=
  if x.isNaN then "nan" else hexWord x.toBits.toNat

/-- One character of a JSON text: quotes, backslashes and control characters are escaped. -/
def jsonChar (c : Char) : List Char :=
  match c with
  | '"' => ['\\', '"']
  | '\\' => ['\\', '\\']
  | '\x08' => ['\\', 'b']
  | '\x0c' => ['\\', 'f']
  | '\n' => ['\\', 'n']
  | '\r' => ['\\', 'r']
  | '\t' => ['\\', 't']
  | c =>
    if c.toNat < 0x20 then
      ['\\', 'u', '0', '0', Nat.digitChar (c.toNat / 16), Nat.digitChar (c.toNat % 16)]
    else
      [c]

/-- A text in JSON. -/
def jsonText (s : String) : String :=
  String.ofList ('"' :: (s.toList.flatMap jsonChar ++ ['"']))

mutual

/-- The text of a value. -/
def tagged : Value → String
  | null => "null"
  | bool b => if b then "true" else "false"
  | number x => "\x7b\"f64\":\"" ++ bitsText x ++ "\"\x7d"
  | string s => jsonText s
  | array items => "[" ++ ",".intercalate (taggedItems items) ++ "]"
  | object fields => "\x7b\"object\":[" ++ ",".intercalate (taggedFields fields) ++ "]\x7d"

/-- The texts of the elements, in order. -/
def taggedItems : List Value → List String
  | [] => []
  | v :: vs => v.tagged :: taggedItems vs

/-- The texts of the entries, each a pair. -/
def taggedFields : List (String × Value) → List String
  | [] => []
  | (k, v) :: fs => ("[" ++ jsonText k ++ "," ++ v.tagged ++ "]") :: taggedFields fs

end

/-- The text of a list of values. -/
def taggedList (values : List Value) : String :=
  (array values).tagged

end LineMarkup.Value
