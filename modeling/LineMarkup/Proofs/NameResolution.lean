import LineMarkup.Template
import Mathlib.Control.Monad.Basic

/-!
# What names mean

A name in an expression is bound to the side list, or else to the host, or else to a local.  That order
is gone through whenever a bare name is evaluated.  Three other places have a way of their own: an entry
of the grouped locals is looked up at once, an element of the side list is the only one that is worked
out, and a call on the host has no value to start from.  Each of them compares the name with one word
only, and the name of the host is free to be any of these words.

So the order could differ from place to place, and it does in two cases.  If the host is named as the
side list, a call on that name goes to the host; if the host is named as the grouped locals, an entry
behind a point is still that of the locals.  In all other cases a name means the same in every place.

## Main Definitions

* `Binding`, `Scope.binding` — what a name is bound to
* `Binding.read`, `Binding.item`, `Binding.call` — the value of a name, an element of it, a call on it
* `Scope.Uniform` — a name means its binding in every place
* `Scope.Contested` — a host is there under a name that expressions have for something else

## Main Statements

* `Scope.uniform_iff` — a name is uniform exactly if it is not contested
* `Scope.names_resolve` — what follows for the grouped locals and for calls on the side list
-/

namespace LineMarkup

/-! ### Bindings -/

/-- What a name is bound to. -/
inductive Binding where
  | sides
  | host (host : Host)
  | value (v : Value)
  | unbound

/-- The host that is there under a name. -/
def Scope.hostNamed? (scope : Scope) (name : String) : Option Host :=
  if name = scope.hostName then scope.host else none

/-- What a name is bound to: the side list, else a host that is there, else a local. -/
def Scope.binding (scope : Scope) (name : String) : Binding :=
  if name = sidesName then
    .sides
  else
    match scope.hostNamed? name with
    | some host => .host host
    | none =>
      match scope.local? name with
      | some v => .value v
      | none => .unbound

namespace Binding

variable (sides : List Side) (name : String) (span : Span)

/-- The value of a name that stands at `span`.  A host has none. -/
def read : Binding → Except EvalError Value
  | .sides => do return .array (← allSides sides)
  | host _ => .error { cause := .hostAsValue name, span := some span }
  | value v => .ok v
  | unbound => .error { cause := .unbound name, span := some span }

/-- The element at a key, for an expression at `whole`.  Of the side list no more is worked out. -/
def item (key : Value) (whole : Span) : Binding → Except EvalError Value
  | .sides => sideAt sides key
  | b => do locate whole ((← b.read sides name span).item key)

/-- A method call, for an expression at `whole`. -/
def call (scope : Scope) (method : String) (args : List Value) (whole : Span) :
    Binding → Except EvalError Value
  | .host h => locate whole (scope.callHost h method args)
  | b => do locate whole ((← b.read sides name span).method method args)

end Binding

namespace Scope

variable {scope : Scope} {sides : List Side} {name : String}

theorem binding_sidesName (scope : Scope) : scope.binding sidesName = .sides :=
  if_pos rfl

theorem hostNamed?_eq_none_iff :
    scope.hostNamed? name = none ↔ ¬ (name = scope.hostName ∧ scope.host.isSome) := by
  unfold hostNamed?
  by_cases hname : name = scope.hostName
  · rw [if_pos hname, ← Option.not_isSome_iff_eq_none]
    exact ⟨fun hnone hhost => hnone hhost.2, fun hnot hsome => hnot ⟨hname, hsome⟩⟩
  · rw [if_neg hname]
    exact ⟨fun _ hhost => hname hhost.1, fun _ => rfl⟩

/-- A host that is there takes its name from the locals. -/
theorem binding_of_host {host : Host} (hsides : name ≠ sidesName)
    (hhost : scope.hostNamed? name = some host) : scope.binding name = .host host := by
  rw [binding, if_neg hsides, hhost]

/-- A name that neither the side list nor a host takes is a local. -/
theorem binding_of_free (hsides : name ≠ sidesName) (hhost : scope.hostNamed? name = none) :
    scope.binding name = (scope.local? name).elim .unbound .value := by
  rw [binding, if_neg hsides, hhost]
  cases scope.local? name with
  | none => rfl
  | some v => rfl

/-- **Resolving a bare name reads its binding.** -/
theorem resolve_eq_read (scope : Scope) (sides : List Side) (name : String) (span : Span) :
    scope.resolve sides name span = (scope.binding name).read sides name span := by
  unfold resolve
  by_cases hsides : name = sidesName
  · subst hsides
    rw [if_pos rfl, binding_sidesName]
    rfl
  rw [if_neg hsides]
  cases hhost : scope.hostNamed? name with
  | some host =>
      have htaken : name = scope.hostName ∧ scope.host.isSome := by
        refine Classical.not_not.mp fun hnot => ?_
        rw [hostNamed?_eq_none_iff.mpr hnot] at hhost
        cases hhost
      rw [if_pos htaken, binding_of_host hsides hhost]
      rfl
  | none =>
      rw [if_neg (hostNamed?_eq_none_iff.mp hhost), binding_of_free hsides hhost]
      cases scope.local? name with
      | none => rfl
      | some v => rfl

/-- Whether a name asks for the host does not depend on whether it is that of the side list. -/
theorem hostAt?_identifier (scope : Scope) (name : String) (span : Span) :
    scope.hostAt? (.identifier name span) = scope.hostNamed? name := by
  unfold hostAt? hostNamed? Expr.isIdentifier
  simp only [beq_iff_eq]

/-! ### The same meaning in every place -/

/-- A name means its binding in every place: by itself, and as the object of an entry, an element or a
call. -/
structure Uniform (scope : Scope) (sides : List Side) (name : String) : Prop where
  bare : ∀ span, (Expr.identifier name span).eval scope sides =
    (scope.binding name).read sides name span
  member : ∀ span property whole,
    (Expr.member (.identifier name span) property whole).eval scope sides = do
      let v ← (scope.binding name).read sides name span
      locate whole (v.property property)
  index : ∀ span key whole, (Expr.index (.identifier name span) key whole).eval scope sides = do
    let k ← key.eval scope sides
    (scope.binding name).item sides name span k whole
  call : ∀ span method s args whole,
    (Expr.call (.member (.identifier name span) method s) args whole).eval scope sides = do
      let vs ← Expr.evalAll scope sides args
      (scope.binding name).call sides name span scope method vs whole

/-- A host is there under a name that expressions have for something else: for the side list, or for
the grouped locals. -/
def Contested (scope : Scope) (name : String) : Prop :=
  (scope.hostNamed? name).isSome ∧
    (name = sidesName ∨ scope.mode = .grouped ∧ name = localsName)

/-- The grouped locals by their name, unless a host is named so. -/
theorem binding_localsName (hgrouped : scope.mode = .grouped) (h : ¬ scope.Contested localsName) :
    scope.binding localsName = .value (.object scope.locals) := by
  have hnone : scope.hostNamed? localsName = none :=
    Option.not_isSome_iff_eq_none.mp fun hsome => h ⟨hsome, .inr ⟨hgrouped, rfl⟩⟩
  rw [binding_of_free (by decide) hnone, local?, hgrouped]
  rfl

theorem eval_member_identifier (h : ¬ scope.Contested name) (span : Span) (property : String)
    (whole : Span) :
    (Expr.member (.identifier name span) property whole).eval scope sides =
      (scope.binding name).read sides name span >>= fun v => locate whole (v.property property) := by
  rw [Expr.eval_member]
  by_cases hentry : scope.mode = .grouped ∧ (Expr.identifier name span).isIdentifier localsName
  · -- The entry is looked up at once; reading the locals and then their entry gives the same.
    rw [if_pos hentry]
    obtain ⟨hgrouped, hname⟩ := hentry
    obtain rfl : name = localsName := beq_iff_eq.mp hname
    rw [binding_localsName hgrouped h]
    rfl
  · rw [if_neg hentry, Expr.eval_identifier, resolve_eq_read]

/-- An element of the side list comes from the side list, whatever the host is named. -/
theorem eval_index_identifier (span : Span) (key : Expr) (whole : Span) :
    (Expr.index (.identifier name span) key whole).eval scope sides =
      key.eval scope sides >>= fun k => (scope.binding name).item sides name span k whole := by
  rw [Expr.eval_index]
  refine bind_congr fun k => ?_
  by_cases hname : name = sidesName
  · subst hname
    rw [binding_sidesName]
    exact if_pos (beq_self_eq_true sidesName)
  · have hnot : ¬ (Expr.identifier name span).isIdentifier sidesName :=
      fun hidentifier => hname (beq_iff_eq.mp hidentifier)
    rw [if_neg hnot, Expr.eval_identifier, resolve_eq_read]
    -- Only the side list has a way of its own to an element.
    cases hhost : scope.hostNamed? name with
    | some host =>
        rw [binding_of_host hname hhost]
        rfl
    | none =>
        rw [binding_of_free hname hhost]
        cases scope.local? name with
        | none => rfl
        | some v => rfl

theorem eval_call_identifier (h : ¬ scope.Contested name) (span : Span) (method : String) (s : Span)
    (args : List Expr) (whole : Span) :
    (Expr.call (.member (.identifier name span) method s) args whole).eval scope sides =
      Expr.evalAll scope sides args >>= fun vs =>
        (scope.binding name).call sides name span scope method vs whole := by
  rw [Expr.eval_call_member, hostAt?_identifier, Expr.eval_identifier, resolve_eq_read]
  refine bind_congr fun vs => ?_
  by_cases hsides : name = sidesName
  · have hnone : scope.hostNamed? name = none :=
      Option.not_isSome_iff_eq_none.mp fun hsome => h ⟨hsome, .inl hsides⟩
    subst hsides
    rw [hnone, binding_sidesName]
    rfl
  · cases hhost : scope.hostNamed? name with
    | some host =>
        rw [binding_of_host hsides hhost]
        rfl
    | none =>
        rw [binding_of_free hsides hhost]
        cases scope.local? name with
        | none => rfl
        | some v => rfl

theorem Uniform.of_not_contested (h : ¬ scope.Contested name) (sides : List Side) :
    scope.Uniform sides name where
  bare span := by rw [Expr.eval_identifier, resolve_eq_read]
  member := eval_member_identifier h
  index := eval_index_identifier
  call := eval_call_identifier h

/-- A call on the name of the side list does not see the side list if a host has that name. -/
theorem not_uniform_sidesName (hhost : (scope.hostNamed? sidesName).isSome) :
    ¬ ∀ sides, scope.Uniform sides sidesName := by
  intro huniform
  obtain ⟨host, hhost⟩ := Option.isSome_iff_exists.mp hhost
  have hcall (sides : List Side) :
      locate default (scope.callHost host "toString" []) =
        (Binding.sides).call sides sidesName default scope "toString" [] default := by
    have h := (huniform sides).call default "toString" default [] default
    rw [Expr.eval_call_member, hostAt?_identifier, hhost, binding_sidesName] at h
    exact h
  -- The host says the same for every side list, but the texts of two side lists differ.
  have hempty := hcall []
  rw [hcall [Thunk.pure (.ok "a")]] at hempty
  have htexts : (Except.ok (.string "a") : Except EvalError Value) = .ok (.string "") := hempty
  exact absurd (Value.string.inj (Except.ok.inj htexts)) (by decide)

/-- An entry behind the name of the grouped locals is read even if a host has that name. -/
theorem not_uniform_localsName (hgrouped : scope.mode = .grouped)
    (hhost : (scope.hostNamed? localsName).isSome) (sides : List Side) :
    ¬ scope.Uniform sides localsName := by
  intro huniform
  obtain ⟨host, hhost⟩ := Option.isSome_iff_exists.mp hhost
  have h := huniform.member default "" default
  rw [Expr.eval_member, if_pos ⟨hgrouped, beq_self_eq_true localsName⟩,
    binding_of_host (by decide) hhost] at h
  cases h

/-- **A name means the same in every place exactly if it is not contested.** -/
theorem uniform_iff (scope : Scope) (name : String) :
    (∀ sides, scope.Uniform sides name) ↔ ¬ scope.Contested name := by
  constructor
  · rintro huniform ⟨hhost, rfl | ⟨hgrouped, rfl⟩⟩
    · exact not_uniform_sidesName hhost huniform
    · exact not_uniform_localsName hgrouped hhost [] (huniform [])
  · exact fun h sides => .of_not_contested h sides

/-- **Names mean the same in every place, unless a host takes a word of the language.**  A name is
resolved in one order, side list, host, locals, wherever it stands, exactly if no host is there under
the name of the side list, or, in grouped mode, under that of the locals.  Where no host is named as the
grouped locals, an entry behind a point is the entry behind its quoted name; where none is named as the
side list, a call on that name goes to the side list. -/
theorem names_resolve (scope : Scope) :
    (∀ name, (∀ sides, scope.Uniform sides name) ↔ ¬ scope.Contested name) ∧
    (scope.mode = .grouped → ¬ scope.Contested localsName →
      ∀ (sides : List Side) (key : String) (span span' s whole whole' : Span),
        (Expr.member (.identifier localsName span) key whole).eval scope sides =
          (Expr.index (.identifier localsName span') (.literal (.string key) s) whole').eval
            scope sides) ∧
    (¬ scope.Contested sidesName →
      ∀ (sides : List Side) (method : String) (args : List Expr) (span s whole : Span),
        (Expr.call (.member (.identifier sidesName span) method s) args whole).eval scope sides = do
          let vs ← Expr.evalAll scope sides args
          let outputs ← allSides sides
          locate whole ((Value.array outputs).method method vs)) := by
  refine ⟨uniform_iff scope, fun hgrouped h sides key span span' s whole whole' => ?_,
    fun h sides method args span s whole => ?_⟩
  · rw [eval_member_identifier h, eval_index_identifier, Expr.eval_literal, binding_localsName hgrouped h]
    rfl
  · rw [eval_call_identifier h, binding_sidesName]
    refine bind_congr fun vs => ?_
    rw [Binding.call, Binding.read, bind_assoc]
    · rfl
    · exact fun _ h => Binding.noConfusion h

/-- A host under a name of its own, in grouped mode: an entry of the locals in both ways, and a call on
the side list. -/
theorem names_resolve_beside_host :
    (∀ name ∈ [localsName, sidesName, "r"],
      ¬ Contested ⟨[("k", .string "v")], .grouped, "r", some .empty⟩ name) ∧
    (Expr.member (.identifier localsName ⟨0, 6⟩) "k" ⟨0, 8⟩).eval
        ⟨[("k", .string "v")], .grouped, "r", some .empty⟩ [] =
      (Expr.index (.identifier localsName ⟨0, 6⟩) (.literal (.string "k") ⟨7, 10⟩) ⟨0, 11⟩).eval
        ⟨[("k", .string "v")], .grouped, "r", some .empty⟩ [] ∧
    (Expr.call (.member (.identifier sidesName ⟨0, 7⟩) "join" ⟨0, 12⟩) [] ⟨0, 14⟩).eval
        ⟨[("k", .string "v")], .grouped, "r", some .empty⟩ [Thunk.pure (.ok "a")] =
      .ok (.string "a") := by
  have hfree (name : String) (h : name = localsName ∨ name = sidesName ∨ name = "r") :
      ¬ Contested ⟨[("k", .string "v")], .grouped, "r", some .empty⟩ name := by
    rintro ⟨hhost, htaken⟩
    rcases h with rfl | rfl | rfl
    · cases hhost
    · cases hhost
    · rcases htaken with htaken | ⟨-, htaken⟩
      · exact absurd htaken (by decide)
      · exact absurd htaken (by decide)
  refine ⟨fun name hname => hfree name (by simpa using hname), ?_, ?_⟩
  · exact (names_resolve _).2.1 rfl (hfree _ (.inl rfl)) [] "k" _ _ _ _ _
  · exact (names_resolve _).2.2 (hfree _ (.inr (.inl rfl))) _ "join" [] _ _ _

end Scope

/-- A call on the side list, where a host has its name, and an entry of the grouped locals, written in
two ways, where a host has theirs. -/
theorem Template.contested_names_differ :
    (ofNodes [.code "__nodes.join(\"-\")" (some [.text "a", .text "b"])]
        { hostName := sidesName, host := some .empty }).toOption.map (render · []) =
      some (.error { cause := .noHostMethod sidesName "join", span := some ⟨0, 17⟩ }) ∧
    (ofNodes [.code "locals.k" none]
        { grouped := true, hostName := localsName, host := some .empty }).toOption.map
          (render · [("k", .string "v")]) = some (.ok "v") ∧
    (ofNodes [.code "locals['k']" none]
        { grouped := true, hostName := localsName, host := some .empty }).toOption.map
          (render · [("k", .string "v")]) =
      some (.error { cause := .hostAsValue localsName, span := some ⟨0, 6⟩ }) := by
  decide +kernel

end LineMarkup
