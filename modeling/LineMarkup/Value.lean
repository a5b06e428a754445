import LineMarkup.Entries
import LineMarkup.Number.Format
import LineMarkup.Number.Reading
import LineMarkup.Text.Blank

/-!
# Values

The values that embedded expressions compute.

## Main Definitions

* `Value` — null, truth values, 64-bit numbers, texts, arrays, and objects with ordered entries
* `Value.text` — what a value leaves in the output
* `Value.toNumber` — the number that arithmetic makes of a value
* `Value.same` — equality: numbers as numbers, objects whatever the order of their entries
-/

namespace LineMarkup

/-- A value of the expression language. -/
inductive Value where
  | null
  | bool (b : Bool)
  | number (x : Float)
  | string (s : String)
  | array (items : List Value)
  | object (fields : List (String × Value))
deriving Inhabited

namespace Value

/-- The word for a value's type in messages. -/
def typeName : Value → String
  | null => "null"
  | bool _ => "bool"
  | number _ => "number"
  | string _ => "string"
  | array _ => "array"
  | object _ => "object"

mutual

/-- What a value leaves in the output: null nothing, an array its elements' texts with commas
between them, an object a fixed text. -/
def text : Value → String
  | null => ""
  | bool b => if b then "true" else "false"
  | number x => Number.text x
  | string s => s
  | array items => ",".intercalate (texts items)
  | object _ => "[object Object]"

/-- The texts of the elements, in order. -/
def texts : List Value → List String
  | [] => []
  | v :: vs => v.text :: texts vs

end

/-- Whether a condition holds for the value. Null, the empty text, zero and what is not a number
do not; arrays and objects always do. -/
def isTruthy : Value → Bool
  | null => false
  | bool b => b
  | number x => x != 0.0 && !x.isNaN
  | string s => s != ""
  | array _ => true
  | object _ => true

/-- The number that arithmetic makes of a value. A text counts as the number that it spells
between its blanks, a blank text as zero. -/
def toNumber : Value → Float
  | null => 0.0
  | bool b => if b then 1.0 else 0.0
  | number x => x
  | string s =>
    match Text.trimList s.toList with
    | [] => 0.0
    | cs => (Number.ofText? cs).getD Number.notANumber
  | array _ => Number.notANumber
  | object _ => Number.notANumber

mutual

/-- Equality of values. Numbers are compared as numbers, so that what is not a number differs from
itself and both zeros agree. Objects agree if they have equally many entries and each entry of the
one is found in the other. -/
def same : Value → Value → Bool
  | null, null => true
  | bool a, bool b => a == b
  | number x, number y => x == y
  | string s, string t => s == t
  | array xs, array ys => sameItems xs ys
  | object fs, object gs => fs.length == gs.length && sameFields fs gs
  | _, _ => false

/-- Equality of two lists of values, place by place. -/
def sameItems : List Value → List Value → Bool
  | [], [] => true
  | x :: xs, y :: ys => x.same y && sameItems xs ys
  | _, _ => false

/-- Whether each entry of the first list is found in the second one with an equal value. -/
def sameFields : List (String × Value) → List (String × Value) → Bool
  | [], _ => true
  | (k, v) :: fs, gs =>
    (match Entries.get? gs k with
      | some w => v.same w
      | none => false) && sameFields fs gs

end

/-- The text that a value is, if it is one. -/
def asString? : Value → Option String
  | string s => some s
  | _ => none

/-- The number that a value is, if it is one. -/
def asNumber? : Value → Option Float
  | number x => some x
  | _ => none

/-- The truth value that a value is, if it is one. -/
def asBool? : Value → Option Bool
  | bool b => some b
  | _ => none

/-- The elements of an array. -/
def asArray? : Value → Option (List Value)
  | array items => some items
  | _ => none

/-- The entries of an object. -/
def asObject? : Value → Option (Entries Value)
  | object fields => some fields
  | _ => none

end Value

end LineMarkup
