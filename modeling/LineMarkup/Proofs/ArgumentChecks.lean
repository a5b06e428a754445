import LineMarkup.Host.Samples
import Mathlib.Data.Nat.Find

/-!
# Argument checks

A method with declared parameters says in its signature which arguments it takes, and it checks the
arguments that it is given.  The two are made from the same parameters but share no code: the signature has a
type and a mark for arguments that must be given, the check takes data out of a value or finds that it cannot.
So they are compared, parameter by parameter: `Param.take?` has data exactly where `ParamInfo.Suits` holds.

The check goes from left to right and stops at the first argument that does not suit, so of several it is
the one with the least position that is reported, and the body of the method is not run.  Values behind the
last parameter are never looked at.

What is given for a parameter need not be the argument at its position.  The check binds the names of the
parameters while it goes on, and one of these names may be the one under which it knows the list of arguments.
Then the parameters behind it are read from the array that was given for it.  The signature knows nothing of
that, so it tells the truth about the arguments exactly if nothing that must be given stands behind such a
parameter.

## Main Definitions

* `ParamInfo.Suits`, `Signature.Admits` — what a signature says about what is given
* `Signature.Offends` — the first parameter that is not suited
* `ParamInfo.complaint` — what is said about it
* `Arguments.values` — the values that the body of a method is given
* `Parameters.given` — what is given for a parameter
* `Parameters.Unshadowed` — nothing that must be given stands behind a parameter with the name of the list
* `Method.Agrees` — what a method does is what its signature says

## Main Statements

* `Param.isSome_take?_iff` — a parameter is checked as it is declared
* `Arguments.check_of_suits`, `Arguments.check_of_offends` — the two ways the check goes
* `Method.declared_agrees_iff` — what a method does is what its signature says of what is given, and what it
  says of the arguments exactly if the list of arguments is not shadowed
-/

namespace LineMarkup

/-! ### What a signature says -/

/-- The word for a type in messages. -/
def ValueType.word : ValueType → String
  | string => "string"
  | number => "number"
  | bool => "bool"
  | array => "array"
  | object => "object"
  | any => "any"

namespace ParamInfo

/-- What is given for a parameter suits it: a value of its type, or nothing where nothing must be given. -/
def Suits (p : ParamInfo) : Option Value → Prop
  | none => p.required = false
  | some v => p.type.isMatch v = true

/-- What is said about a parameter that is not suited. -/
def complaint (p : ParamInfo) (position : Nat) : Option Value → String
  | none => s!"missing required argument at position {position}: {p.name}"
  | some v => s!"expected {p.type.word}, got {v.typeName}"

end ParamInfo

namespace Signature

/-- Every declared parameter is suited by what is given for it. -/
def Admits (s : Signature) (given : Nat → Option Value) : Prop :=
  ∀ (i : Nat) (p : ParamInfo), s.params[i]? = some p → p.Suits (given i)

/-- A parameter is the first one that is not suited. -/
structure Offends (s : Signature) (given : Nat → Option Value) (i : Nat) (p : ParamInfo) : Prop where
  declared : s.params[i]? = some p
  unsuited : ¬ p.Suits (given i)
  before : ∀ j < i, ∀ q : ParamInfo, s.params[j]? = some q → q.Suits (given j)

/-- Of the parameters that are not suited there is a first one. -/
theorem exists_offends {s : Signature} {given : Nat → Option Value} (h : ¬ s.Admits given) :
    ∃ i p, s.Offends given i p := by
  classical
  have hsome : ∃ (i : Nat) (p : ParamInfo), s.params[i]? = some p ∧ ¬ p.Suits (given i) := by
    simpa [Admits] using h
  obtain ⟨p, hp, hunsuited⟩ := Nat.find_spec hsome
  refine ⟨Nat.find hsome, p, hp, hunsuited, ?_⟩
  intro j hj q hq
  by_contra hnot
  exact Nat.find_min hsome hj ⟨q, hq, hnot⟩

end Signature

/-! ### One parameter -/

namespace ParamType

/-- Data that are taken from a value stand for it. -/
theorem toValue_of_ofValue? {type : ParamType} {v : Value} {a : type.Data}
    (h : type.ofValue? v = some a) : type.toValue a = v := by
  cases type <;> cases v <;> simp_all [ofValue?, toValue]

/-- Data that are there without a value stand for null. -/
theorem toValue_of_absent? {type : ParamType} {a : type.Data} (h : type.absent? = some a) :
    type.toValue a = .null := by
  cases type <;> simp_all [absent?, toValue]

/-- Data are found in the values of the declared type. -/
theorem isSome_ofValue? (type : ParamType) (v : Value) :
    (type.ofValue? v).isSome = type.valueType.isMatch v := by
  cases type <;> cases v <;> rfl

/-- Data are there without a value unless a value must be given. -/
theorem isSome_absent? (type : ParamType) : type.absent?.isSome = !type.isRequired := by
  cases type <;> rfl

/-- A type is called the same in messages as in signatures. -/
theorem word_eq (type : ParamType) : type.word = type.valueType.word := by
  cases type <;> rfl

/-- A parameter for which nothing must be given takes every value. -/
theorem isMatch_of_not_required {type : ParamType} (h : type.isRequired = false) (v : Value) :
    type.valueType.isMatch v = true := by
  cases type <;> simp_all [isRequired, valueType, ValueType.isMatch]

end ParamType

namespace Param

/-- **Data are taken exactly from what suits the declared parameter.** -/
theorem isSome_take?_iff (p : Param) (given : Option Value) :
    (p.take? given).isSome = true ↔ p.info.Suits given := by
  cases given with
  | none =>
      show p.type.absent?.isSome = true ↔ p.type.isRequired = false
      rw [p.type.isSome_absent?, Bool.not_eq_true']
  | some v =>
      show (p.type.ofValue? v).isSome = true ↔ p.type.valueType.isMatch v = true
      rw [p.type.isSome_ofValue?]

/-- No data are taken from what does not suit. -/
theorem take?_eq_none_iff (p : Param) (given : Option Value) :
    p.take? given = none ↔ ¬ p.info.Suits given := by
  rw [← p.isSome_take?_iff, Bool.not_eq_true, Option.isSome_eq_false_iff, Option.isNone_iff_eq_none]

/-- Data are taken from the value that is given, or from null if there is none. -/
theorem toValue_of_take? {p : Param} {given : Option Value} {a : p.type.Data}
    (h : p.take? given = some a) : p.type.toValue a = given.getD .null := by
  cases given with
  | none => exact ParamType.toValue_of_absent? h
  | some v => exact ParamType.toValue_of_ofValue? h

/-- What does not suit is a type error. -/
theorem refusal_kind (p : Param) (position : Nat) (given : Option Value) :
    (p.refusal position given).kind = .type := by
  cases given <;> rfl

/-- The message of the error speaks of the parameter as the signature declares it. -/
theorem refusal_message (p : Param) (position : Nat) (given : Option Value) :
    (p.refusal position given).message = p.info.complaint position given := by
  cases given with
  | none => rfl
  | some v =>
      show s!"expected {p.type.word}, got {v.typeName}" = _
      rw [p.type.word_eq]
      rfl

/-- A parameter for which nothing must be given is suited by everything. -/
theorem suits_of_not_required {p : Param} (h : p.type.isRequired = false) (given : Option Value) :
    p.info.Suits given := by
  cases given with
  | none => exact h
  | some v => exact ParamType.isMatch_of_not_required h v

end Param

/-! ### What is given -/

namespace Bindings

/-- Before the first parameter, the list is the one of the call. -/
@[simp] theorem list_ofCall (args : List Value) : (ofCall args).list = args := rfl

/-- Only a parameter with its name takes the place of the list. -/
theorem list_insert (b : Bindings) (name : String) (v : Value) :
    list (b.insert name v) = if name = listName then v.asArray?.getD [] else b.list := by
  rw [list, Entries.get?_insert]
  split
  · rfl
  · rfl

end Bindings

/-- The list that is bound behind a parameter. -/
def Param.listBehind (p : Param) (given : Option Value) (list : List Value) : List Value :=
  if p.name = Bindings.listName then (given.bind Value.asArray?).getD [] else list

/-- Binding the data of a parameter leaves the list that is bound behind it. -/
theorem Bindings.list_insert_of_take? {b : Bindings} {p : Param} {given : Option Value}
    {a : p.type.Data} (h : p.take? given = some a) :
    list (b.insert p.name (p.type.toValue a)) = p.listBehind given b.list := by
  rw [list_insert, Param.listBehind, Param.toValue_of_take? h]
  split
  · cases given with
    | none => rfl
    | some v => rfl
  · rfl

/-- What is given for the parameters of a list that starts at a position, when a list is bound. -/
def Arguments.givenFrom (position : Nat) (list : List Value) : List Param → Nat → Option Value
  | [], _ => none
  | _ :: _, 0 => list[position]?
  | p :: ps, i + 1 => givenFrom (position + 1) (p.listBehind list[position]? list) ps i

namespace Parameters

/-- The list that a parameter is read from: the arguments, or the array that was given for an earlier parameter
with the name of the list. -/
def source (params : Parameters) (args : List Value) (i : Nat) : List Value :=
  match (params.list.take i).findIdx? fun p => p.name == Bindings.listName with
  | none => args
  | some j => (args[j]?.bind Value.asArray?).getD []

/-- What is given for a parameter. -/
def given (params : Parameters) (args : List Value) (i : Nat) : Option Value :=
  (params.source args i)[i]?

/-- Nothing that must be given stands behind a parameter with the name of the list. -/
def Unshadowed (params : Parameters) : Prop :=
  params.list.Pairwise fun p q => p.name = Bindings.listName → q.type.isRequired = false

instance (params : Parameters) : Decidable params.Unshadowed :=
  inferInstanceAs (Decidable (params.list.Pairwise _))

end Parameters

/-! ### All parameters -/

namespace Arguments

/-- The values that data for parameters were taken from. -/
def values : (params : List Param) → Arguments params → List Value
  | [], _ => []
  | p :: ps, (a, rest) => p.type.toValue a :: values ps rest

section

variable {p : Param} {ps : List Param} {b : Bindings} {position : Nat}

/-- A parameter that is suited is bound, and the check goes on. -/
theorem check_cons_of_some {a : p.type.Data} (h : p.take? b.list[position]? = some a) :
    check position b (p :: ps) =
      (check (position + 1) (b.insert p.name (p.type.toValue a)) ps).map fun rest => (a, rest) := by
  rw [check, h]
  rfl

/-- A parameter that is not suited ends the check. -/
theorem check_cons_of_none (h : p.take? b.list[position]? = none) :
    check position b (p :: ps) = .error (p.refusal position b.list[position]?) := by
  rw [check, h]

end

/-- What suits all parameters passes the check; where nothing is given, it is taken as null. -/
theorem check_of_suits {ps : List Param} (position : Nat) (b : Bindings)
    (h : ∀ (i : Nat) (p : Param), ps[i]? = some p →
      p.info.Suits (givenFrom position b.list ps i)) :
    ∃ data, check position b ps = .ok data ∧ values ps data =
      (List.range ps.length).map fun i => (givenFrom position b.list ps i).getD .null := by
  induction ps generalizing position b with
  | nil => exact ⟨(), rfl, rfl⟩
  | cons p ps ih =>
      obtain ⟨a, ha⟩ := Option.isSome_iff_exists.mp ((p.isSome_take?_iff _).mpr (h 0 p rfl))
      have hlist := Bindings.list_insert_of_take? (b := b) ha
      obtain ⟨rest, hrest, hvalues⟩ := ih (position + 1) (b.insert p.name (p.type.toValue a)) (by
        intro i q hq
        rw [hlist]
        exact h (i + 1) q hq)
      refine ⟨(a, rest), ?_, ?_⟩
      · rw [check_cons_of_some ha, hrest]
        rfl
      · show p.type.toValue a :: values ps rest = _
        rw [hvalues, hlist, Param.toValue_of_take? ha, List.length_cons, List.range_succ_eq_map,
          List.map_cons, List.map_map]
        rfl

/-- The check stops at the first parameter that is not suited. -/
theorem check_of_offends {ps : List Param} (position : Nat) (b : Bindings) {i : Nat} {p : Param}
    (hp : ps[i]? = some p) (hunsuited : ¬ p.info.Suits (givenFrom position b.list ps i))
    (hbefore : ∀ j < i, ∀ q, ps[j]? = some q → q.info.Suits (givenFrom position b.list ps j)) :
    check position b ps =
      .error (p.refusal (position + i) (givenFrom position b.list ps i)) := by
  induction ps generalizing position b i with
  | nil => simp at hp
  | cons first ps ih =>
      cases i with
      | zero =>
          obtain rfl : first = p := by simpa using hp
          exact check_cons_of_none ((first.take?_eq_none_iff _).mpr hunsuited)
      | succ i =>
          obtain ⟨a, ha⟩ := Option.isSome_iff_exists.mp
            ((first.isSome_take?_iff _).mpr (hbefore 0 (Nat.succ_pos i) first rfl))
          have hlist := Bindings.list_insert_of_take? (b := b) ha
          have hrest := ih (position + 1) (b.insert first.name (first.type.toValue a)) hp
            (by rw [hlist]; exact hunsuited)
            (by
              intro j hj q hq
              rw [hlist]
              exact hbefore (j + 1) (Nat.succ_lt_succ hj) q hq)
          rw [check_cons_of_some ha, hrest, hlist, Nat.add_right_comm]
          rfl

/-- Only as much of the list is looked at as there are parameters. -/
theorem check_congr {ps : List Param} {position : Nat} {b b' : Bindings}
    (h : ∀ i < position + ps.length, b.list[i]? = b'.list[i]?) :
    check position b ps = check position b' ps := by
  induction ps generalizing position b b' with
  | nil => rfl
  | cons p ps ih =>
      have hgiven : b.list[position]? = b'.list[position]? := h position (by simp)
      cases ha : p.take? b.list[position]? with
      | none =>
          rw [check_cons_of_none ha, check_cons_of_none (by rw [← hgiven]; exact ha), hgiven]
      | some a =>
          have ha' : p.take? b'.list[position]? = some a := by rw [← hgiven]; exact ha
          rw [check_cons_of_some ha, check_cons_of_some ha']
          congr 1
          refine ih fun i hi => ?_
          rw [Bindings.list_insert_of_take? ha, Bindings.list_insert_of_take? ha', ← hgiven,
            Param.listBehind, Param.listBehind]
          split
          · rfl
          · exact h i (by rw [List.length_cons]; omega)

/-- What is given for a parameter is read from the arguments, or from the array that was given for the one
parameter with the name of the list, if this one comes before. -/
theorem givenFrom_eq {ps : List Param} (hdistinct : (ps.map Param.name).Nodup) (position : Nat)
    (list : List Value) {i : Nat} (hi : i < ps.length) :
    givenFrom position list ps i =
      (match (ps.take i).findIdx? fun p => p.name == Bindings.listName with
        | none => list
        | some j => (list[position + j]?.bind Value.asArray?).getD [])[position + i]? := by
  induction ps generalizing position list i with
  | nil => simp at hi
  | cons p ps ih =>
      rw [List.map_cons, List.nodup_cons] at hdistinct
      cases i with
      | zero => rfl
      | succ i =>
          have hi : i < ps.length := Nat.lt_of_succ_lt_succ hi
          rw [givenFrom, ih hdistinct.2 (position + 1) _ hi, List.take_succ_cons,
            List.findIdx?_cons, Param.listBehind]
          by_cases hname : p.name = Bindings.listName
          · -- No parameter behind this one has the name again.
            have hnone : (ps.take i).findIdx? (fun p => p.name == Bindings.listName) = none := by
              rw [List.findIdx?_eq_none_iff]
              intro q hq
              rw [beq_eq_false_iff_ne, ← hname]
              intro hqname
              exact hdistinct.1 (List.mem_map.mpr ⟨q, List.mem_of_mem_take hq, hqname⟩)
            simp only [hnone, hname, beq_self_eq_true, if_true]
            rw [Nat.add_assoc position 1 i, Nat.add_comm 1 i]
            rfl
          · simp only [hname, if_false, beq_eq_false_iff_ne.mpr hname, Bool.false_eq_true]
            cases (ps.take i).findIdx? fun p => p.name == Bindings.listName with
            | none => rw [Option.map_none, Nat.add_right_comm position 1 i, Nat.add_assoc]
            | some j =>
                simp only [Option.map_some]
                rw [Nat.add_right_comm position 1 i, Nat.add_assoc position i 1,
                  Nat.add_right_comm position 1 j, Nat.add_assoc position j 1]

end Arguments

namespace Parameters

variable {params : Parameters} {args : List Value}

/-- A declared parameter is given what the check reads for it. -/
theorem givenFrom_eq_given {i : Nat} {p : Param} (h : params.list[i]? = some p) :
    Arguments.givenFrom 0 args params.list i = params.given args i := by
  obtain ⟨hi, -⟩ := List.getElem?_eq_some_iff.mp h
  rw [Arguments.givenFrom_eq params.distinct 0 args hi, given, source]
  simp only [Nat.zero_add]

/-- The arguments pass the check if what is given suits all parameters. -/
theorem check_of_suits
    (h : ∀ (i : Nat) (p : Param), params.list[i]? = some p → p.info.Suits (params.given args i)) :
    ∃ data, params.check args = .ok data ∧ Arguments.values params.list data =
      (List.range params.list.length).map fun i => (params.given args i).getD .null := by
  have hsuits : ∀ (i : Nat) (p : Param), params.list[i]? = some p →
      p.info.Suits (Arguments.givenFrom 0 (Bindings.ofCall args).list params.list i) := by
    intro i p hp
    rw [Bindings.list_ofCall, givenFrom_eq_given hp]
    exact h i p hp
  obtain ⟨data, hdata, hvalues⟩ := Arguments.check_of_suits 0 (.ofCall args) hsuits
  refine ⟨data, hdata, hvalues.trans (List.map_congr_left fun i hi => ?_)⟩
  have hlt : i < params.list.length := List.mem_range.mp hi
  rw [Bindings.list_ofCall, givenFrom_eq_given (List.getElem?_eq_getElem hlt)]

/-- The check stops at the first parameter that is not suited by what is given for it. -/
theorem check_of_offends {i : Nat} {p : Param} (hp : params.list[i]? = some p)
    (hunsuited : ¬ p.info.Suits (params.given args i))
    (hbefore : ∀ j < i, ∀ q, params.list[j]? = some q → q.info.Suits (params.given args j)) :
    params.check args = .error (p.refusal i (params.given args i)) := by
  have h := Arguments.check_of_offends 0 (.ofCall args) hp
    (by rwa [Bindings.list_ofCall, givenFrom_eq_given hp])
    (by
      intro j hj q hq
      rw [Bindings.list_ofCall, givenFrom_eq_given hq]
      exact hbefore j hj q hq)
  rwa [Nat.zero_add, Bindings.list_ofCall, givenFrom_eq_given hp] at h

/-- Arguments behind the last parameter do not matter. -/
theorem check_take : params.check (args.take params.list.length) = params.check args := by
  refine Arguments.check_congr fun i hi => ?_
  rw [Nat.zero_add] at hi
  rw [Bindings.list_ofCall, Bindings.list_ofCall, List.getElem?_take_of_lt hi]

/-- Where the list is not shadowed, what is given for a parameter is as good as the argument at its
position. -/
theorem given_eq_or_not_required (h : params.Unshadowed) {i : Nat} {p : Param}
    (hp : params.list[i]? = some p) :
    params.given args i = args[i]? ∨ p.type.isRequired = false := by
  rw [given, source]
  cases hfind : (params.list.take i).findIdx? fun p => p.name == Bindings.listName with
  | none => exact .inl rfl
  | some j =>
      obtain ⟨hj, hname, -⟩ := List.findIdx?_eq_some_iff_getElem.mp hfind
      obtain ⟨hi, rfl⟩ := List.getElem?_eq_some_iff.mp hp
      have hji : j < i := by
        rw [List.length_take] at hj
        omega
      rw [List.getElem_take, beq_iff_eq] at hname
      exact .inr (List.pairwise_iff_getElem.mp h j i (Nat.lt_trans hji hi) hi hji hname)

/-- A value of each type; for arrays the empty one. -/
def sample : ParamType → Value
  | .any => .null
  | .string => .string ""
  | .number => .number 0
  | .bool => .bool false
  | .array => .array []

/-- Where the list is shadowed, there are arguments of the declared types that do not suit what is given. -/
theorem exists_unsuited (h : ¬ params.Unshadowed) :
    ∃ args : List Value,
      (∀ (i : Nat) (p : Param), params.list[i]? = some p → p.info.Suits args[i]?) ∧
      ∃ (i : Nat) (p : Param), params.list[i]? = some p ∧ ¬ p.info.Suits (params.given args i) := by
  rw [Unshadowed, List.pairwise_iff_getElem] at h
  push Not at h
  obtain ⟨j, i, hj, hi, hji, hname, hrequired⟩ := h
  refine ⟨params.list.map fun p => sample p.type, ?_, i, _, List.getElem?_eq_getElem hi, ?_⟩
  · intro k p hk
    rw [List.getElem?_map, hk]
    show p.type.valueType.isMatch (sample p.type) = true
    cases p.type <;> rfl
  · -- The array of the first parameter with the name is empty.
    obtain ⟨k, hfind⟩ : ∃ k, (params.list.take i).findIdx?
        (fun p => p.name == Bindings.listName) = some k := by
      rw [← Option.isSome_iff_exists, List.findIdx?_isSome, List.any_eq_true]
      exact ⟨_, List.mem_take_iff_getElem.mpr ⟨j, by omega, rfl⟩, by simpa using hname⟩
    obtain ⟨hk, hkname, -⟩ := List.findIdx?_eq_some_iff_getElem.mp hfind
    rw [List.getElem_take, beq_iff_eq] at hkname
    have hki : k < i := by
      rw [List.length_take] at hk
      omega
    have hlast : k < params.list.dropLast.length := by
      rw [List.length_dropLast]
      omega
    have harray : params.list[k].type = .array := by
      refine params.listed _ ?_ hkname
      rw [← List.getElem_dropLast hlast]
      exact List.getElem_mem hlast
    have hnone : params.given (params.list.map fun p => sample p.type) i = none := by
      have hsample : (params.list.map fun p => sample p.type)[k]? = some (.array []) := by
        rw [List.getElem?_map, List.getElem?_eq_getElem (Nat.lt_trans hki hi), Option.map_some,
          harray]
        rfl
      simp only [given, source, hfind, hsample]
      rfl
    rw [hnone]
    exact hrequired

end Parameters

/-! ### Methods -/

namespace Method

variable {name : String} {params : Parameters} {args : List Value} {given : Nat → Option Value}

/-- What a method does with its arguments is what its signature says, when `given` is what is given for its
parameters. The check passes exactly if the signature admits that; otherwise the method fails with a type
error about the first parameter that is not suited, whatever its body is. Arguments behind the last
parameter change nothing. -/
structure Agrees (name : String) (params : Parameters) (args : List Value)
    (given : Nat → Option Value) : Prop where
  passes_iff : (∃ data, params.check args = .ok data) ↔ (params.signature name).Admits given
  fails : ¬ (params.signature name).Admits given →
    ∃ i p, (params.signature name).Offends given i p ∧
      ∃ err : EvalError, err.kind = .type ∧ err.message = p.complaint i (given i) ∧
        ∀ body, (declared name params body).run args = .error err
  surplus : ∀ body, (declared name params body).run (args.take params.list.length) =
    (declared name params body).run args

/-- A method runs its body on the data that pass the check. -/
theorem declared_run_of_ok {data : Arguments params.list} (h : params.check args = .ok data)
    (body : Arguments params.list → Except EvalError Value) :
    (declared name params body).run args = body data := by
  show params.check args >>= body = body data
  rw [h]
  rfl

/-- A method whose arguments do not pass the check has its error. -/
theorem declared_run_of_error {err : EvalError} (h : params.check args = .error err)
    (body : Arguments params.list → Except EvalError Value) :
    (declared name params body).run args = .error err := by
  show params.check args >>= body = .error err
  rw [h]
  rfl

/-- The parameters of the signature are the declared ones. -/
theorem getElem?_signature (i : Nat) :
    (params.signature name).params[i]? = params.list[i]?.map Param.info :=
  List.getElem?_map

/-- What the signature admits suits the declared parameters. -/
theorem admits_iff : (params.signature name).Admits given ↔
    ∀ (i : Nat) (p : Param), params.list[i]? = some p → p.info.Suits (given i) := by
  constructor
  · intro h i p hp
    exact h i p.info (by rw [getElem?_signature, hp, Option.map_some])
  · intro h i p hp
    rw [getElem?_signature, Option.map_eq_some_iff] at hp
    obtain ⟨q, hq, rfl⟩ := hp
    exact h i q hq

/-- The check stops at the parameter that offends. -/
theorem check_of_offends {i : Nat} {p : ParamInfo}
    (h : (params.signature name).Offends (params.given args) i p) :
    ∃ err : EvalError, params.check args = .error err ∧ err.kind = .type ∧
      err.message = p.complaint i (params.given args i) := by
  have hdeclared := h.declared
  rw [getElem?_signature, Option.map_eq_some_iff] at hdeclared
  obtain ⟨q, hq, rfl⟩ := hdeclared
  refine ⟨_, Parameters.check_of_offends hq h.unsuited ?_, q.refusal_kind i _,
    q.refusal_message i _⟩
  intro j hj r hr
  exact h.before j hj r.info (by rw [getElem?_signature, hr, Option.map_some])

/-- What a method does is what its signature says of what is given for its parameters. -/
theorem agrees_given (name : String) (params : Parameters) (args : List Value) :
    Agrees name params args (params.given args) where
  passes_iff := by
    constructor
    · rintro ⟨data, hdata⟩
      by_contra hnot
      obtain ⟨i, p, hoffends⟩ := Signature.exists_offends hnot
      obtain ⟨err, herr, -⟩ := check_of_offends hoffends
      rw [hdata] at herr
      cases herr
    · intro hadmits
      obtain ⟨data, hdata, -⟩ := Parameters.check_of_suits (admits_iff.mp hadmits)
      exact ⟨data, hdata⟩
  fails := by
    intro hnot
    obtain ⟨i, p, hoffends⟩ := Signature.exists_offends hnot
    obtain ⟨err, herr, hkind, hmessage⟩ := check_of_offends hoffends
    exact ⟨i, p, hoffends, err, hkind, hmessage, declared_run_of_error herr⟩
  surplus := by
    intro body
    show params.check (args.take params.list.length) >>= body = params.check args >>= body
    rw [Parameters.check_take]

/-- The signature says the same of what is given for the parameters in another way, if the two ways
differ only for parameters that everything suits. -/
theorem Agrees.congr {other : Nat → Option Value} (h : Agrees name params args given)
    (hsame : ∀ (i : Nat) (p : Param), params.list[i]? = some p →
      given i = other i ∨ p.type.isRequired = false) :
    Agrees name params args other := by
  have hsuits : ∀ (i : Nat) (p : ParamInfo), (params.signature name).params[i]? = some p →
      (p.Suits (given i) ↔ p.Suits (other i)) := by
    intro i p hp
    rw [getElem?_signature, Option.map_eq_some_iff] at hp
    obtain ⟨q, hq, rfl⟩ := hp
    obtain heq | hoptional := hsame i q hq
    · rw [heq]
    · exact iff_of_true (q.suits_of_not_required hoptional _) (q.suits_of_not_required hoptional _)
  have hadmits : (params.signature name).Admits given ↔ (params.signature name).Admits other :=
    forall_congr' fun i => forall_congr' fun p => forall_congr' fun hp => hsuits i p hp
  refine ⟨h.passes_iff.trans hadmits, ?_, h.surplus⟩
  intro hnot
  obtain ⟨i, p, hoffends, err, hkind, hmessage, hrun⟩ := h.fails (mt hadmits.mp hnot)
  refine ⟨i, p, ⟨hoffends.declared, ?_, ?_⟩, err, hkind, ?_, hrun⟩
  · exact mt (hsuits i p hoffends.declared).mpr hoffends.unsuited
  · intro j hj q hq
    exact (hsuits j q hq).mp (hoffends.before j hj q hq)
  · have hdeclared := hoffends.declared
    rw [getElem?_signature, Option.map_eq_some_iff] at hdeclared
    obtain ⟨q, hq, rfl⟩ := hdeclared
    obtain heq | hoptional := hsame i q hq
    · rw [← heq]
      exact hmessage
    · exact absurd (q.suits_of_not_required hoptional _) hoffends.unsuited

/-- A list under the name of the list of arguments, and a number behind it. -/
def tally : Parameters :=
  { list := [⟨"args", .array⟩, ⟨"x", .number⟩] }

end Method

/-- A text that is to be repeated, and no number of times. -/
example : Samples.repeatText.run [.string "ab"] = .error { cause := .missingArgument 1 "count" } :=
  rfl

end LineMarkup
