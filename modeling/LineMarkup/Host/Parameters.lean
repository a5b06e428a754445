import LineMarkup.Host

/-!
# Declared parameters

Methods that declare their parameters have their arguments taken apart from left to right before they
run. A parameter for any value takes null where no argument is given; every other parameter must be
given a value of its type. Further arguments do not matter.

The names of the parameters are bound one after the other while this goes on, and the list of the
arguments is bound to a name as well. A parameter of that name takes its place: parameters behind
it are read from the array that was given for it.

## Main Definitions

* `ParamType` — the types of declared parameters, with the data that each one takes
* `Parameters` — the lists of parameters that a method may declare
* `Bindings` — the names that are bound while arguments are taken apart
* `Arguments` — the data for a list of parameters
* `Arguments.check` — the data of the arguments, or the first one that does not fit
* `Method.declared` — a method with declared parameters
-/

namespace LineMarkup

/-- The types of declared parameters. -/
inductive ParamType where
  | any | string | number | bool | array
deriving DecidableEq, Repr

namespace ParamType

/-- The data that a parameter takes. -/
abbrev Data : ParamType → Type
  | any => Value
  | string => String
  | number => Float
  | bool => Bool
  | array => List Value

/-- The type in the signature. -/
def valueType : ParamType → ValueType
  | any => .any
  | string => .string
  | number => .number
  | bool => .bool
  | array => .array

/-- Whether an argument must be given. -/
def isRequired : ParamType → Bool
  | any => false
  | _ => true

/-- How the type is called in messages. -/
def word : ParamType → String
  | any => "any"
  | string => "string"
  | number => "number"
  | bool => "bool"
  | array => "array"

/-- The data of a value, if it is of the type. -/
def ofValue? : (type : ParamType) → Value → Option type.Data
  | any, v => some v
  | string, .string s => some s
  | number, .number x => some x
  | bool, .bool b => some b
  | array, .array vs => some vs
  | _, _ => none

/-- The data where no argument is given, if that is allowed. -/
def absent? : (type : ParamType) → Option type.Data
  | any => some .null
  | _ => none

/-- The value that data stand for. -/
def toValue : (type : ParamType) → type.Data → Value
  | any, v => v
  | string, s => .string s
  | number, x => .number x
  | bool, b => .bool b
  | array, vs => .array vs

end ParamType

/-- A declared parameter. -/
structure Param where
  name : String
  type : ParamType
deriving DecidableEq, Repr

namespace Param

/-- The parameter in the signature. -/
def info (p : Param) : ParamInfo :=
  ⟨p.name, p.type.valueType, p.type.isRequired⟩

/-- The data for a parameter from what is given for it. -/
def take? (p : Param) : Option Value → Option p.type.Data
  | none => p.type.absent?
  | some v => p.type.ofValue? v

/-- The error about what is given for a parameter. -/
def refusal (p : Param) (position : Nat) : Option Value → EvalError
  | none => { cause := .missingArgument position p.name }
  | some v => { cause := .mismatch p.type.word v.typeName }

end Param

/-- The names that are bound while arguments are taken apart, with their values. -/
abbrev Bindings := Entries Value

namespace Bindings

/-- The name that the list of the arguments is bound to at first. -/
def listName : String := "args"

/-- What is bound before the first parameter. -/
def ofCall (args : List Value) : Bindings :=
  [(listName, .array args)]

/-- The list that is bound now. -/
def list (b : Bindings) : List Value :=
  ((b.get? listName).bind Value.asArray?).getD []

end Bindings

/-- The lists of parameters that a method may declare. Their names are different, and a parameter
that takes the name of the list of arguments is itself a list, unless there is none behind it. -/
structure Parameters where
  list : List Param
  distinct : (list.map Param.name).Nodup := by decide
  listed : ∀ p ∈ list.dropLast, p.name = Bindings.listName → p.type = .array := by decide

/-- The data for a list of parameters. -/
def Arguments : List Param → Type
  | [] => Unit
  | p :: ps => p.type.Data × Arguments ps

/-- The data for parameters that start at `position`, or the error for the first argument that does
not fit. The name of each parameter is bound before the next one is read. -/
def Arguments.check (position : Nat) (b : Bindings) :
    (params : List Param) → Except EvalError (Arguments params)
  | [] => .ok ()
  | p :: ps =>
    match p.take? b.list[position]? with
    | none => .error (p.refusal position b.list[position]?)
    | some a => do
      let rest ← check (position + 1) (b.insert p.name (p.type.toValue a)) ps
      return (a, rest)

/-- The data of the arguments of a call, or the error for the first one that does not fit. -/
def Parameters.check (params : Parameters) (args : List Value) :
    Except EvalError (Arguments params.list) :=
  Arguments.check 0 (.ofCall args) params.list

/-- The signature of a method with these parameters. -/
def Parameters.signature (params : Parameters) (name : String) : Signature :=
  ⟨name, params.list.map Param.info⟩

/-- A method with declared parameters. -/
def Method.declared (name : String) (params : Parameters)
    (run : Arguments params.list → Except EvalError Value) : Method :=
  ⟨params.signature name, fun args => do run (← params.check args)⟩

end LineMarkup
