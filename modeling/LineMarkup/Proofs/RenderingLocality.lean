import LineMarkup.Template

/-!
# What rendering reads

Rendering a program reads no more of locals and host than the program names.

A scope is looked at in three ways only: a bare name is resolved, a method call asks whether its object
is the host, and in grouped mode the locals are taken as a whole.  Two scopes that give the same answers
wherever an expression asks are told apart by no expression, and so by no program: each way to look is a
condition on the subexpressions of the program, side programs and attribute values included.

Side programs are rendered when they are asked for.  Both scopes are handed the same list of suspended
outputs because suspended computations of equal results are equal, so laziness needs no argument of its
own.

## Main Definitions

* `Expr.subexprs`, `Program.subexprs` — all expressions in an expression and in a program
* `Program.names`, `Program.hostMethods` — the names that a program holds, and the methods of the host
* `Scope.AgreeOn` — scopes that give the same answers to some expressions
* `Host.AgreeAt` — hosts that do the same for a method

## Main Statements

* `Expr.eval_congr`, `Program.render_congr` — scopes that agree on all subexpressions are not told apart
* `Template.render_reads_names` — the bindings that matter are those that a program names
-/

namespace LineMarkup

/-! ### Subexpressions -/

namespace Expr

mutual

/-- An expression and all expressions in it. -/
def subexprs : Expr → List Expr
  | literal v span => [literal v span]
  | array es span => array es span :: subexprsAll es
  | identifier name span => [identifier name span]
  | member object property span => member object property span :: subexprs object
  | index object key span => index object key span :: (subexprs object ++ subexprs key)
  | call callee args span => call callee args span :: (subexprs callee ++ subexprsAll args)
  | binary left op right span => binary left op right span :: (subexprs left ++ subexprs right)
  | unary op operand span => unary op operand span :: subexprs operand
  | conditional test yes no span =>
    conditional test yes no span :: (subexprs test ++ (subexprs yes ++ subexprs no))

/-- Several expressions and all expressions in them. -/
def subexprsAll : List Expr → List Expr
  | [] => []
  | e :: es => subexprs e ++ subexprsAll es

end

theorem mem_subexprs_self (e : Expr) : e ∈ e.subexprs := by
  cases e <;> exact List.mem_cons_self

/-- The name that an expression is. -/
def name? : Expr → Option String
  | identifier name _ => some name
  | _ => none

/-- The method of the host that an expression calls. -/
def hostMethod? (hostName : String) : Expr → Option String
  | call (member object method _) _ _ => if object.isIdentifier hostName then some method else none
  | _ => none

end Expr

namespace Program

mutual

/-- All expressions in a program, in attribute values and side programs as well. -/
def subexprs : List Segment → List Expr
  | [] => []
  | seg :: rest => segmentSubexprs seg ++ subexprs rest

/-- All expressions in a segment. -/
def segmentSubexprs : Segment → List Expr
  | .text _ => []
  | .code _ e sides => e.subexprs ++ sidesSubexprs sides
  | .attr _ value => subexprs value

/-- All expressions in a side list. -/
def sidesSubexprs : List (List Segment) → List Expr
  | [] => []
  | p :: ps => subexprs p ++ sidesSubexprs ps

end

/-- The names that occur in a program, one for each place. -/
def names (p : Program) : List String :=
  (subexprs p).filterMap Expr.name?

/-- The methods that a program calls on the name of the host, one for each call. -/
def hostMethods (p : Program) (hostName : String) : List String :=
  (subexprs p).filterMap (Expr.hostMethod? hostName)

theorem mem_names {p : Program} {name : String} {span : Span}
    (h : .identifier name span ∈ subexprs p) : name ∈ p.names := by
  unfold names
  rw [List.mem_filterMap]
  exact ⟨_, h, rfl⟩

theorem mem_hostMethods {p : Program} {object : Expr} {hostName method : String} {args : List Expr}
    {s span : Span} (h : .call (.member object method s) args span ∈ subexprs p)
    (hobject : object.isIdentifier hostName = true) : method ∈ p.hostMethods hostName := by
  unfold hostMethods
  rw [List.mem_filterMap]
  refine ⟨_, h, ?_⟩
  show (if object.isIdentifier hostName then some method else none) = some method
  rw [if_pos hobject]

end Program

theorem Expr.eq_identifier_of_isIdentifier {e : Expr} {name : String}
    (h : e.isIdentifier name = true) : ∃ span, e = .identifier name span := by
  unfold isIdentifier at h
  split at h
  · exact ⟨_, by rw [beq_iff_eq.mp h]⟩
  · simp at h

/-! ### Scopes that are not told apart -/

/-- Two scopes give the same answers wherever one of the expressions asks. -/
structure Scope.AgreeOn (scope scope' : Scope) (es : List Expr) : Prop where
  mode : scope.mode = scope'.mode
  /-- In grouped mode the locals are reached as a whole, whatever is looked up in them. -/
  grouped : scope.mode = .grouped → scope.locals = scope'.locals
  name : ∀ {name : String} {span : Span}, .identifier name span ∈ es → ∀ sides,
    scope.resolve sides name span = scope'.resolve sides name span
  /-- Either no method call goes to a host, or the hosts do the same. -/
  call : ∀ {object : Expr} {method : String} {s : Span} {args : List Expr} {span : Span},
    .call (.member object method s) args span ∈ es → object ∈ es →
      (scope.hostAt? object = none ∧ scope'.hostAt? object = none) ∨
        ∃ host host', scope.hostAt? object = some host ∧ scope'.hostAt? object = some host' ∧
          ∀ vs, scope.callHost host method vs = scope'.callHost host' method vs

theorem Scope.AgreeOn.mono {scope scope' : Scope} {es fs : List Expr} (h : scope.AgreeOn scope' es)
    (sub : fs ⊆ es) : scope.AgreeOn scope' fs where
  mode := h.mode
  grouped := h.grouped
  name hmem := h.name (sub hmem)
  call hmem hobject := h.call (sub hmem) (sub hobject)

section Congruence

variable {scope scope' : Scope}

namespace Expr

variable (sides : List Side)

private theorem subset_behind {e : Expr} {es fs : List Expr} (h : fs ⊆ es) : fs ⊆ e :: es :=
  List.Subset.trans h (List.subset_cons_self e es)

mutual

/-- **Scopes that agree on all subexpressions give an expression the same value.** -/
theorem eval_congr : (e : Expr) → scope.AgreeOn scope' e.subexprs →
    e.eval scope sides = e.eval scope' sides
  | literal v s, _ => by rw [eval, eval]
  | array es s, h => by
      have hes := evalAll_congr es (h.mono (List.subset_cons_self _ _))
      rw [eval, eval, hes]
  | identifier name s, h => by
      rw [eval, eval]
      exact h.name (mem_subexprs_self _) sides
  | member object property s, h => by
      have hobject := eval_congr object (h.mono (List.subset_cons_self _ _))
      rw [eval, eval, hobject, h.mode]
      by_cases hgrouped : scope'.mode = .grouped ∧ object.isIdentifier localsName
      · rw [if_pos hgrouped, if_pos hgrouped, h.grouped (h.mode.trans hgrouped.1)]
      · rw [if_neg hgrouped, if_neg hgrouped]
  | index object key s, h => by
      have hobject := eval_congr object (h.mono (subset_behind (List.subset_append_left _ _)))
      have hkey := eval_congr key (h.mono (subset_behind (List.subset_append_right _ _)))
      rw [eval, eval, hkey, hobject]
  | call (member object method s') args s, h => by
      have hsub : object.subexprs ⊆ (call (member object method s') args s).subexprs :=
        subset_behind (List.Subset.trans (List.subset_cons_self _ _) (List.subset_append_left _ _))
      have hobject := eval_congr object (h.mono hsub)
      have hargs := evalAll_congr args (h.mono (subset_behind (List.subset_append_right _ _)))
      rw [eval, eval, hargs, hobject]
      -- A method call looks at the scope itself: it asks whether the object is the host.
      rcases h.call (mem_subexprs_self _) (hsub (mem_subexprs_self object)) with
        ⟨hnone, hnone'⟩ | ⟨host, host', hsome, hsome', hcall⟩
      · rw [hnone, hnone']
      · rw [hsome, hsome']
        simp only [hcall]
  | call (literal _ _) _ _, _ | call (array _ _) _ _, _ | call (identifier _ _) _ _, _
  | call (index _ _ _) _ _, _ | call (call _ _ _) _ _, _ | call (binary _ _ _ _) _ _, _
  | call (unary _ _ _) _ _, _ | call (conditional _ _ _ _) _ _, _ => by
      rw [eval, eval] <;> simp
  | binary left op right s, h => by
      have hleft := eval_congr left (h.mono (subset_behind (List.subset_append_left _ _)))
      have hright := eval_congr right (h.mono (subset_behind (List.subset_append_right _ _)))
      -- Two operators may leave out their right operand; the equation of the others excludes them.
      cases op <;> rw [eval, eval, hleft, hright]
      all_goals simp
  | unary op operand s, h => by
      have hoperand := eval_congr operand (h.mono (List.subset_cons_self _ _))
      rw [eval, eval, hoperand]
  | conditional test yes no s, h => by
      have htest := eval_congr test (h.mono (subset_behind (List.subset_append_left _ _)))
      have hbranches := h.mono (subset_behind (List.subset_append_right _ _))
      have hyes := eval_congr yes (hbranches.mono (List.subset_append_left _ _))
      have hno := eval_congr no (hbranches.mono (List.subset_append_right _ _))
      rw [eval, eval, htest, hyes, hno]

/-- Lists of expressions are evaluated alike in scopes that agree on them. -/
theorem evalAll_congr : (es : List Expr) → scope.AgreeOn scope' (subexprsAll es) →
    evalAll scope sides es = evalAll scope' sides es
  | [], _ => by rw [evalAll, evalAll]
  | e :: es, h => by
      have he := eval_congr e (h.mono (List.subset_append_left _ _))
      have hes := evalAll_congr es (h.mono (List.subset_append_right _ _))
      rw [evalAll, evalAll, he, hes]

end

end Expr

namespace Program

mutual

/-- **Scopes that agree on all subexpressions render a program alike.** -/
theorem render_congr : (p : List Segment) → scope.AgreeOn scope' (subexprs p) →
    render scope p = render scope' p
  | [], _ => by rw [render, render]
  | seg :: rest, h => by
      have hseg := renderSegment_congr seg (h.mono (List.subset_append_left _ _))
      have hrest := render_congr rest (h.mono (List.subset_append_right _ _))
      rw [render, render, hseg, hrest]

/-- A segment is rendered alike in scopes that agree on its expressions. -/
theorem renderSegment_congr : (seg : Segment) → scope.AgreeOn scope' (segmentSubexprs seg) →
    renderSegment scope seg = renderSegment scope' seg
  | .text s, _ => by rw [renderSegment, renderSegment]
  | .code source e sides, h => by
      have hsides := renderSides_congr sides (h.mono (List.subset_append_right _ _))
      have he := Expr.eval_congr (renderSides scope' sides) e
        (h.mono (List.subset_append_left _ _))
      rw [renderSegment, renderSegment, hsides, he]
  | .attr name value, h => by
      have hvalue := render_congr value h
      rw [renderSegment, renderSegment, hvalue]

/-- Side programs are rendered alike in scopes that agree on their expressions. -/
theorem renderSides_congr : (sides : List (List Segment)) →
    scope.AgreeOn scope' (sidesSubexprs sides) → renderSides scope sides = renderSides scope' sides
  | [], _ => by rw [renderSides, renderSides]
  | p :: ps, h => by
      have hp := render_congr p (h.mono (List.subset_append_left _ _))
      have hps := renderSides_congr ps (h.mono (List.subset_append_right _ _))
      rw [renderSides, renderSides, hp, hps]

end

end Program

end Congruence

/-! ### Locals and hosts that are not told apart -/

/-- Two hosts do the same for a method: neither has it, or it has the same results for the same
arguments. -/
def Host.AgreeAt (host host' : Host) (method : String) : Prop :=
  (host.has method = false ∧ host'.has method = false) ∨
    ∀ args, host.call method args = host'.call method args

/-- A method that is missing has one result, whatever the host. -/
theorem Host.call_of_not_has {host : Host} {method : String} (h : host.has method = false)
    (args : List Value) : host.call method args = .error { cause := .unregistered method } := by
  unfold Host.has at h
  rw [Option.isSome_eq_false_iff, Option.isNone_iff_eq_none] at h
  rw [Host.call, h]

theorem Host.AgreeAt.call_eq {host host' : Host} {method : String} (h : host.AgreeAt host' method)
    (args : List Value) : host.call method args = host'.call method args := by
  rcases h with ⟨hnone, hnone'⟩ | hsame
  · rw [call_of_not_has hnone, call_of_not_has hnone']
  · exact hsame args

namespace Scope

/-- A bare name is the side list, or the host, or else a local. -/
theorem resolve_congr {scope scope' : Scope} {name : String}
    (hhost : (name = scope.hostName ∧ scope.host.isSome) ↔
      (name = scope'.hostName ∧ scope'.host.isSome))
    (hlocal : name ≠ sidesName → ¬ (name = scope.hostName ∧ scope.host.isSome) →
      scope.local? name = scope'.local? name) (sides : List Side) (span : Span) :
    scope.resolve sides name span = scope'.resolve sides name span := by
  unfold resolve
  by_cases hsides : name = sidesName
  · rw [if_pos hsides, if_pos hsides]
  rw [if_neg hsides, if_neg hsides]
  by_cases htaken : name = scope.hostName ∧ scope.host.isSome
  · rw [if_pos htaken, if_pos (hhost.mp htaken)]
  · rw [if_neg htaken, if_neg (fun h => htaken (hhost.mpr h)), hlocal hsides htaken]

section AgreeOn

variable {p : Program} {hostName : String}

/-- Flat locals with the same values for the names of a program, but for the names that are taken. -/
theorem agreeOn_of_locals {locals locals' : Locals} {host : Option Host}
    (h : ∀ name ∈ p.names, name ≠ sidesName → ¬ (name = hostName ∧ host.isSome) →
      locals.get? name = locals'.get? name) :
    AgreeOn ⟨locals, .flat, hostName, host⟩ ⟨locals', .flat, hostName, host⟩
      (Program.subexprs p) where
  mode := rfl
  grouped hgrouped := by cases hgrouped
  name {name span} hmem sides := by
    apply resolve_congr
    · exact Iff.rfl
    · intro hsides htaken
      exact h name (Program.mem_names hmem) hsides htaken
  call {object method s args span} _ _ := by
    cases hhost : hostAt? ⟨locals, .flat, hostName, host⟩ object with
    | none => exact .inl ⟨rfl, hhost⟩
    | some found => exact .inr ⟨found, found, rfl, hhost, fun _ => rfl⟩

/-- Hosts that do the same for the methods that a program calls on them. -/
theorem agreeOn_of_hosts {mode : LocalsMode} {locals : Locals} {host host' : Host}
    (h : ∀ method ∈ p.hostMethods hostName, host.AgreeAt host' method) :
    AgreeOn ⟨locals, mode, hostName, some host⟩ ⟨locals, mode, hostName, some host'⟩
      (Program.subexprs p) where
  mode := rfl
  grouped _ := rfl
  name _ _ := rfl
  call {object method s args span} hmem _ := by
    unfold hostAt?
    by_cases hobject : object.isIdentifier hostName
    · refine .inr ⟨host, host', if_pos hobject, if_pos hobject, fun vs => ?_⟩
      unfold callHost
      rw [(h method (Program.mem_hostMethods hmem hobject)).call_eq vs]
    · exact .inl ⟨if_neg hobject, if_neg hobject⟩

/-- Any hosts, where the name of the host does not occur. -/
theorem agreeOn_of_not_mem_names {mode : LocalsMode} {locals : Locals} {host host' : Option Host}
    (h : hostName ∉ p.names) :
    AgreeOn ⟨locals, mode, hostName, host⟩ ⟨locals, mode, hostName, host'⟩
      (Program.subexprs p) where
  mode := rfl
  grouped _ := rfl
  name {name span} hmem sides := by
    have hname : name ≠ hostName := by
      rintro rfl
      exact h (Program.mem_names hmem)
    apply resolve_congr
    · exact ⟨fun hhost => absurd hhost.1 hname, fun hhost => absurd hhost.1 hname⟩
    · intro _ _
      rfl
  call {object method s args span} _ hobject := by
    have hnot : ¬ object.isIdentifier hostName := by
      intro hidentifier
      obtain ⟨span', rfl⟩ := Expr.eq_identifier_of_isIdentifier hidentifier
      exact h (Program.mem_names hobject)
    exact .inl ⟨if_neg hnot, if_neg hnot⟩

end AgreeOn

end Scope

/-- **Rendering depends on no bindings but those that a program names.**  In flat mode, locals with the
same values for the names of the program are rendered alike; the name of the side list, and that of a
host that is there, are not looked up in them.  In either mode, hosts that do the same for the methods
that the program calls on the name of the host are rendered alike, and if that name does not occur it
does not matter whether there is a host. -/
theorem Template.render_reads_names (p : Program) (hostName : String) :
    (∀ (host : Option Host) (locals locals' : Locals),
      (∀ name ∈ p.names, name ≠ sidesName → ¬ (name = hostName ∧ host.isSome) →
        locals.get? name = locals'.get? name) →
      Template.render ⟨p, .flat, hostName, host⟩ locals =
        Template.render ⟨p, .flat, hostName, host⟩ locals') ∧
    ∀ (mode : LocalsMode) (locals : Locals),
      (∀ host host' : Host, (∀ method ∈ p.hostMethods hostName, host.AgreeAt host' method) →
        Template.render ⟨p, mode, hostName, some host⟩ locals =
          Template.render ⟨p, mode, hostName, some host'⟩ locals) ∧
      (hostName ∉ p.names → ∀ host host' : Option Host,
        Template.render ⟨p, mode, hostName, host⟩ locals =
          Template.render ⟨p, mode, hostName, host'⟩ locals) := by
  refine ⟨fun host locals locals' h => ?_, fun mode locals => ⟨fun host host' h => ?_, ?_⟩⟩
  · exact Program.render_congr p (Scope.agreeOn_of_locals h)
  · exact Program.render_congr p (Scope.agreeOn_of_hosts h)
  · intro h host host'
    exact Program.render_congr p (Scope.agreeOn_of_not_mem_names h)

/-- A call on the host inside an attribute, and the outputs of a side list.  The locals differ in their
order, in a name that the program does not hold, and in the two names that are taken; the hosts in a
method that is not called, or in being there. -/
theorem Template.render_reads_names_nested :
    ∃ p : Program, p.names = ["r", "a", "__nodes", "b"] ∧ p.hostMethods "r" = ["m"] ∧
      Template.render ⟨p, .flat, "r", some .empty⟩ [("a", .null), ("x", .null), ("b", .bool true)] =
        Template.render ⟨p, .flat, "r", some .empty⟩
          [("__nodes", .null), ("b", .bool true), ("r", .null), ("a", .null)] ∧
      Template.render ⟨p, .grouped, "r", some ⟨[("m", .free "m" fun args => .ok (.array args))]⟩⟩ [] =
        Template.render ⟨p, .grouped, "r", some ⟨[("n", .free "n" fun _ => .ok .null),
          ("m", .free "m" fun args => .ok (.array args))]⟩⟩ [] ∧
      Template.render ⟨p, .grouped, "s", none⟩ [] =
        Template.render ⟨p, .grouped, "s", some .empty⟩ [] := by
  refine ⟨[.attr "k" [.code "r.m(a)" (.call (.member (.identifier "r" ⟨0, 1⟩) "m" ⟨0, 3⟩)
      [.identifier "a" ⟨4, 5⟩] ⟨0, 6⟩) []],
    .code "__nodes" (.identifier "__nodes" ⟨0, 7⟩) [[.code "b" (.identifier "b" ⟨0, 1⟩) []]]],
    rfl, rfl, ?_, ?_, ?_⟩
  · refine (render_reads_names _ "r").1 _ _ _ fun name hname hsides htaken => ?_
    have hcases : name ∈ ["r", "a", "__nodes", "b"] := hname
    simp only [List.mem_cons, List.not_mem_nil, or_false] at hcases
    rcases hcases with rfl | rfl | rfl | rfl
    · exact absurd ⟨rfl, rfl⟩ htaken
    · rfl
    · exact absurd rfl hsides
    · rfl
  · refine ((render_reads_names _ "r").2 .grouped _).1 _ _ fun method hmethod => ?_
    obtain rfl : method = "m" := List.mem_singleton.mp hmethod
    exact .inr fun args => rfl
  · exact ((render_reads_names _ "s").2 .grouped _).2 (by decide) _ _

end LineMarkup
