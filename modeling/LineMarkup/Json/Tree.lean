import LineMarkup.Json.Token

/-!
# JSON trees

JSON text as a tree, as far as it is well formed. Reading goes on from left to right, and what
comes first decides; so a text that stops being well formed somewhere still has a tree, whose
containers are marked as cut off there.

Tokens are taken one by one onto a stack of open containers.

## Main Definitions

* `Tree` — a value, whole or cut off
* `Document` — a tree, and whether the text ends with it
* `parse` — the document of a text
* `Tree.isWellFormed` — no part is cut off
* `Tree.isReadable` — in addition all texts name characters, all numbers are in range, and
  containers are not nested too deeply
-/

namespace LineMarkup.Json

/-- A JSON value as far as the text goes. `broken` stands where no value could be read; a container
is not whole if the text goes wrong before its closing bracket. -/
inductive Tree where
  | null
  | bool (b : Bool)
  | number (n : Numeral)
  | string (s : Option String)
  | array (items : List Tree) (whole : Bool)
  | object (fields : List (Option String × Tree)) (whole : Bool)
  | broken
deriving Inhabited

/-- An open container, with what it holds so far in reverse order; an object also with the key
whose value is being read. -/
inductive Frame where
  | array (done : List Tree)
  | object (done : List (Option String × Tree)) (key : Option String)

/-- What is being waited for, with the open containers, the innermost first. `mayClose` holds
directly behind an opening bracket. -/
inductive State where
  | value (stack : List Frame) (mayClose : Bool)
  | key (done : List (Option String × Tree)) (stack : List Frame) (mayClose : Bool)
  | colon (done : List (Option String × Tree)) (key : Option String) (stack : List Frame)
  | after (v : Tree) (stack : List Frame)

/-- A tree, and whether the text ends with it. -/
structure Document where
  root : Tree
  ends : Bool
deriving Inhabited

/-- Close all open containers as cut off. -/
def cutOff (v : Tree) : List Frame → Tree
  | [] => v
  | .array done :: stack => cutOff (.array (v :: done).reverse false) stack
  | .object done key :: stack => cutOff (.object ((key, v) :: done).reverse false) stack

namespace State

/-- The document if the text ends or goes wrong in a state. -/
def stop : State → Document
  | value (.array done :: stack) _ => ⟨cutOff (.array done.reverse false) stack, false⟩
  | value stack _ => ⟨cutOff .broken stack, false⟩
  | key done stack _ => ⟨cutOff (.object done.reverse false) stack, false⟩
  | colon done k stack => ⟨cutOff (.object ((k, .broken) :: done).reverse false) stack, false⟩
  | after v stack => ⟨cutOff v stack, false⟩

/-- The state after a token; none if the token may not come here. -/
def step? : State → Token → Option State
  | value (.array done :: stack) true, .closeArray => some (after (.array done.reverse true) stack)
  | value stack _, .openArray => some (value (.array [] :: stack) true)
  | value stack _, .openObject => some (key [] stack true)
  | value stack _, .null => some (after .null stack)
  | value stack _, .bool b => some (after (.bool b) stack)
  | value stack _, .number n => some (after (.number n) stack)
  | value stack _, .string s => some (after (.string s) stack)
  | value _ _, _ => none
  | key done stack true, .closeObject => some (after (.object done.reverse true) stack)
  | key done stack _, .string s => some (colon done s stack)
  | key _ _ _, _ => none
  | colon done k stack, .colon => some (value (.object done k :: stack) false)
  | colon _ _ _, _ => none
  | after v (.array done :: stack), .comma => some (value (.array (v :: done) :: stack) false)
  | after v (.array done :: stack), .closeArray =>
    some (after (.array (v :: done).reverse true) stack)
  | after v (.object done k :: stack), .comma => some (key ((k, v) :: done) stack false)
  | after v (.object done k :: stack), .closeObject =>
    some (after (.object ((k, v) :: done).reverse true) stack)
  | after _ _, _ => none

/-- The document that the remaining tokens make of a state. -/
def run : State → List Token → Document
  | after v [], [] => ⟨v, true⟩
  | s, [] => s.stop
  | s, t :: ts =>
    match s.step? t with
    | some s' => s'.run ts
    | none => s.stop

end State

/-- The document of a text. -/
def parse (s : String) : Document :=
  (State.value [] false).run (tokens s)

namespace Tree

mutual

/-- Whether no part of a tree is cut off. -/
def isWellFormed : Tree → Bool
  | null | bool _ | number _ | string _ => true
  | array items whole => areWellFormed items && whole
  | object fields whole => fieldsWellFormed fields && whole
  | broken => false

/-- Whether no part of the trees is cut off. -/
def areWellFormed : List Tree → Bool
  | [] => true
  | t :: ts => t.isWellFormed && areWellFormed ts

/-- Whether no part of the fields is cut off. -/
def fieldsWellFormed : List (Option String × Tree) → Bool
  | [] => true
  | (_, t) :: fs => t.isWellFormed && fieldsWellFormed fs

end

mutual

/-- Whether a tree can be read in full, where at most `room` more containers may be nested. -/
def isReadable (room : Nat) : Tree → Bool
  | null | bool _ => true
  | number n => n.toFloat?.isSome
  | string s => s.isSome
  | array items whole => 0 < room && areReadable (room - 1) items && whole
  | object fields whole => 0 < room && fieldsReadable (room - 1) fields && whole
  | broken => false

/-- Whether all trees can be read in full. -/
def areReadable (room : Nat) : List Tree → Bool
  | [] => true
  | t :: ts => t.isReadable room && areReadable room ts

/-- Whether all keys and values can be read in full. -/
def fieldsReadable (room : Nat) : List (Option String × Tree) → Bool
  | [] => true
  | (k, t) :: fs => k.isSome && t.isReadable room && fieldsReadable room fs

end

/-- How many containers may be nested in a text that is read in full. -/
def deepest : Nat := 127

end Tree

end LineMarkup.Json
