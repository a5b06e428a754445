import LineMarkup.Json.Tree
import LineMarkup.Number.Format
import LineMarkup.Text.Structure
import LineMarkup.Value

/-!
# Decoding JSON trees

Reading typed data from a tree, from left to right. Text that is not well formed and data of a
wrong shape are told apart; whichever comes first is the answer.

## Main Definitions

* `Shape` — what a place asks for
* `DecodeError` — why data cannot be read, with the message for each cause
* `readString`, `readBool`, `readKey` — the simplest places
* `Value.ofTree?`, `Value.ofJson` — any value
-/

namespace LineMarkup.Json

/-- What a place asks for. -/
inductive Shape where
  | string | bool | sequence | map | node | settings
deriving DecidableEq, Repr

/-- How a shape is named in messages. -/
def Shape.name : Shape → String
  | string => "a string"
  | bool => "a boolean"
  | sequence => "a sequence"
  | map => "a map"
  | node => "struct RawNode"
  | settings => "struct GenerateOptions"

/-- Places that take one of several shapes. -/
inductive Choice where
  | content | attr
deriving DecidableEq, Repr

/-- How a choice is named in messages. -/
def Choice.name : Choice → String
  | content => "RawContent"
  | attr => "OneOrMany"

/-- Why data cannot be read. -/
inductive DecodeError where
  /-- the text is not well formed, or goes beyond what can be represented -/
  | malformed
  /-- `found` describes a value of another shape -/
  | wrongShape (found : String) (wanted : Shape)
  /-- a field that must be there is not -/
  | missingField (name : String)
  /-- a field occurs twice -/
  | duplicateField (name : String)
  /-- no shape of a choice fits -/
  | noChoice (choice : Choice)
  /-- a node written as an empty array -/
  | emptyNode
deriving DecidableEq, Repr

/-- The message for a cause; text that is not well formed has none. -/
def DecodeError.message? : DecodeError → Option String
  | malformed => none
  | wrongShape found wanted => some s!"invalid type: {found}, expected {wanted.name}"
  | missingField name => some ("missing field \x60" ++ name ++ "\x60")
  | duplicateField name => some ("duplicate field \x60" ++ name ++ "\x60")
  | noChoice choice => some s!"data did not match any variant of untagged enum {choice.name}"
  | emptyNode => some "invalid length 0, expected struct RawNode with 5 elements"

/-- The error for a tree at a place that asks for another shape. Scalars are described with their
value, so they must be readable. -/
def mismatch (t : Tree) (wanted : Shape) : DecodeError :=
  match t with
  | .null => .wrongShape "null" wanted
  | .bool b => .wrongShape ("boolean \x60" ++ toString b ++ "\x60") wanted
  | .number (.natural n) => .wrongShape ("integer \x60" ++ toString n ++ "\x60") wanted
  | .number (.negative n) => .wrongShape ("integer \x60-" ++ toString n ++ "\x60") wanted
  | .number (.real x) =>
    .wrongShape ("floating point \x60" ++ LineMarkup.Number.messageText x ++ "\x60") wanted
  | .number .outOfRange => .malformed
  | .string (some s) => .wrongShape ("string " ++ Text.inspect s) wanted
  | .string none => .malformed
  | .array _ _ => .wrongShape "sequence" wanted
  | .object _ _ => .wrongShape "map" wanted
  | .broken => .malformed

/-- Go into a container, where at most `room` more may be nested. -/
def descend (room : Nat) : Except DecodeError Nat :=
  if room = 0 then .error .malformed else .ok (room - 1)

/-- The end of a container that must be whole. -/
def close (whole : Bool) : Except DecodeError Unit :=
  if whole then .ok () else .error .malformed

/-- A field that is not known; only its form matters. -/
def ignore (t : Tree) : Except DecodeError Unit :=
  if t.isWellFormed then .ok () else .error .malformed

/-- A field that has not come before. -/
def fresh {α : Type} (name : String) : Option α → Except DecodeError Unit
  | none => .ok ()
  | some _ => .error (.duplicateField name)

/-- A tree that can be read in full. -/
def readable (room : Nat) (t : Tree) : Except DecodeError Unit :=
  if t.isReadable room then .ok () else .error .malformed

/-- A key that names characters. -/
def readKey : Option String → Except DecodeError String
  | some k => .ok k
  | none => .error .malformed

/-- A text. -/
def readString : Tree → Except DecodeError String
  | .string (some s) => .ok s
  | t => .error (mismatch t .string)

/-- A truth value. -/
def readBool : Tree → Except DecodeError Bool
  | .bool b => .ok b
  | t => .error (mismatch t .bool)

/-- A text, or null for none. -/
def readString? : Tree → Except DecodeError (Option String)
  | .null => .ok none
  | t => (readString t).map some

/-- Decode the root of a text; nothing may follow it. -/
def decode {α : Type} (read : Tree → Except DecodeError α) (text : String) :
    Except DecodeError α := do
  let d := parse text
  let a ← read d.root
  close d.ends
  return a

end LineMarkup.Json

namespace LineMarkup.Value

open Json

mutual

/-- The value of a readable tree. Of entries with one key, the first gives the place and the last
the value. -/
def ofTree? : Tree → Option Value
  | .null => some .null
  | .bool b => some (.bool b)
  | .number n => n.toFloat?.map .number
  | .string s => s.map .string
  | .array items _ => (ofTrees? items).map .array
  | .object fields _ => (ofFields? [] fields).map .object
  | .broken => none

/-- The values of readable trees. -/
def ofTrees? : List Tree → Option (List Value)
  | [] => some []
  | t :: ts => do return (← ofTree? t) :: (← ofTrees? ts)

/-- Add the entries of readable fields. -/
def ofFields? (entries : Entries Value) : List (Option String × Tree) → Option (Entries Value)
  | [] => some entries
  | (k, t) :: fs => do
    let v ← ofTree? t
    ofFields? (entries.insert (← k) v) fs

end

/-- Any value. -/
def read (t : Tree) : Except DecodeError Value :=
  if t.isReadable Tree.deepest then
    match ofTree? t with
    | some v => .ok v
    | none => .error .malformed
  else
    .error .malformed

/-- The value of a JSON text. -/
def ofJson (text : String) : Except DecodeError Value :=
  Json.decode read text

end LineMarkup.Value
