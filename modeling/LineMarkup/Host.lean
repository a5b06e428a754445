import LineMarkup.EvalError
import LineMarkup.Value

/-!
# Hosts

A host offers methods that expressions may call. A method is a function of its arguments; it says
its name and its parameters.

## Main Definitions

* `ValueType` — the types that parameters ask for
* `Signature`, `Method` — what a method says about itself, and what it does
* `Host` — methods by name
* `Host.register`, `Host.has`, `Host.call` — the operations of a host
-/

namespace LineMarkup

/-- The types that a parameter may ask for. -/
inductive ValueType where
  | string | number | bool | array | object | any
deriving DecidableEq, Repr

namespace ValueType

/-- All types. -/
def all : List ValueType := [string, number, bool, array, object, any]

/-- The name of a type in signatures. -/
def name : ValueType → String
  | string => "String"
  | number => "Number"
  | bool => "Bool"
  | array => "Array"
  | object => "Object"
  | any => "Any"

/-- Whether a value is of a type. -/
def isMatch : ValueType → Value → Bool
  | any, _ => true
  | string, .string _ => true
  | number, .number _ => true
  | bool, .bool _ => true
  | array, .array _ => true
  | object, .object _ => true
  | _, _ => false

end ValueType

/-- A declared parameter. -/
structure ParamInfo where
  name : String
  type : ValueType
  required : Bool
deriving DecidableEq, Repr

/-- What a method says about itself. -/
structure Signature where
  name : String
  params : List ParamInfo
deriving DecidableEq, Repr

/-- A method: its signature, and what it makes of its arguments. -/
structure Method where
  signature : Signature
  run : List Value → Except EvalError Value

/-- A method that declares no parameters and looks at its arguments itself. -/
def Method.free (name : String) (run : List Value → Except EvalError Value) : Method :=
  ⟨⟨name, []⟩, run⟩

/-- Methods by name. -/
structure Host where
  methods : Entries Method

namespace Host

/-- A host without methods. -/
def empty : Host := ⟨[]⟩

/-- Add a method; it replaces one of the same name. -/
def register (host : Host) (method : Method) : Host :=
  ⟨host.methods.insert method.signature.name method⟩

/-- Whether there is a method of a name. -/
def has (host : Host) (name : String) : Bool :=
  (host.methods.get? name).isSome

/-- Call a method by name. -/
def call (host : Host) (name : String) (args : List Value) : Except EvalError Value :=
  match host.methods.get? name with
  | some method => method.run args
  | none => .error { cause := .unregistered name }

/-- The names of the methods, in alphabetical order of their characters. -/
def names (host : Host) : List String :=
  (host.methods.map Prod.fst).mergeSort (fun a b => a ≤ b)

end Host

end LineMarkup
