import LineMarkup.Proofs.ExpressionSpans
import LineMarkup.Proofs.SourceRoundTrip
import Mathlib.Control.Monad.Basic

/-!
# Where errors of rendering come from

Every error of rendering has a place: the span of an expression of the template, in the source that this
expression was read from.

Errors begin without a place and get one on their way up, from the innermost expression that asks for
one.  An error that has a place keeps it.  So it is enough to know, for each step of evaluation, that its
errors either come from a part of the expression or are located by the expression itself.  The one
exception is a method of the host, which may give its errors a place of its own; that a method is
missing is not left to the host, though, and is located as everything else.

## Main Definitions

* `Program.sources` — the sources in a program with the expressions that they are read as
* `EvalError.ComesFrom` — the place of an error is that of an expression, or the host gave it
* `ErrorsFrom` — all errors of a result come from some expressions

## Main Statements

* `ErrorsFrom.bind`, `ErrorsFrom.locate` — the two ways that an error takes
* `Expr.errorsFrom_eval`, `Program.errorsFrom_render` — errors come from the expressions at hand
* `Template.render_error_located` — the same of a template that exists, with the place in its source
-/

namespace LineMarkup

/-! ### Sources in programs -/

namespace Program

mutual

/-- All sources in a program with the expressions that they are read as, those in attribute values and
side programs as well. -/
def sources : List Segment → List (String × Expr)
  | [] => []
  | seg :: rest => segmentSources seg ++ sources rest

/-- The sources in a segment. -/
def segmentSources : Segment → List (String × Expr)
  | .text _ => []
  | .code source e sides => (source, e) :: sidesSources sides
  | .attr _ value => sources value

/-- The sources in a side list. -/
def sidesSources : List (List Segment) → List (String × Expr)
  | [] => []
  | p :: ps => sources p ++ sidesSources ps

end

mutual

/-- The expressions in a program are those in what its sources are read as. -/
theorem subexprs_eq_flatMap_sources : (p : List Segment) →
    subexprs p = (sources p).flatMap fun c => c.2.subexprs
  | [] => rfl
  | seg :: rest => by
      rw [subexprs, sources, List.flatMap_append, segmentSubexprs_eq_flatMap_sources seg,
        subexprs_eq_flatMap_sources rest]

/-- The expressions in a segment are those in its sources. -/
theorem segmentSubexprs_eq_flatMap_sources : (seg : Segment) →
    segmentSubexprs seg = (segmentSources seg).flatMap fun c => c.2.subexprs
  | .text s => rfl
  | .code source e sides => by
      rw [segmentSubexprs, segmentSources, List.flatMap_cons, sidesSubexprs_eq_flatMap_sources sides]
  | .attr name value => by
      rw [segmentSubexprs, segmentSources, subexprs_eq_flatMap_sources value]

/-- The expressions in a side list are those in its sources. -/
theorem sidesSubexprs_eq_flatMap_sources : (ps : List (List Segment)) →
    sidesSubexprs ps = (sidesSources ps).flatMap fun c => c.2.subexprs
  | [] => rfl
  | p :: ps => by
      rw [sidesSubexprs, sidesSources, List.flatMap_append, subexprs_eq_flatMap_sources p,
        sidesSubexprs_eq_flatMap_sources ps]

end

mutual

/-- Faithful segments: each source is read as the expression beside it. -/
theorem parse_of_mem_sources : (p : List Segment) → (∀ seg ∈ p, seg.Faithful) →
    ∀ c ∈ sources p, Expr.parse c.1 = .ok c.2
  | [], _ => fun c hc => by cases hc
  | seg :: rest, h => by
      rw [List.forall_mem_cons] at h
      exact List.forall_mem_append.mpr
        ⟨parse_of_mem_segmentSources seg h.1, parse_of_mem_sources rest h.2⟩

/-- The sources in a faithful segment are read as their trees. -/
theorem parse_of_mem_segmentSources : (seg : Segment) → seg.Faithful →
    ∀ c ∈ segmentSources seg, Expr.parse c.1 = .ok c.2
  | .text s, _ => fun c hc => by cases hc
  | .code source e sides, h => by
      cases h with
      | code _ hparse _ hsides =>
          exact List.forall_mem_cons.mpr ⟨hparse, parse_of_mem_sidesSources sides hsides⟩
  | .attr name value, h => by
      cases h with
      | attr _ hvalue => exact parse_of_mem_sources value hvalue

/-- The sources in faithful side programs are read as their trees. -/
theorem parse_of_mem_sidesSources : (ps : List (List Segment)) →
    (∀ p ∈ ps, ∀ seg ∈ p, seg.Faithful) → ∀ c ∈ sidesSources ps, Expr.parse c.1 = .ok c.2
  | [], _ => fun c hc => by cases hc
  | p :: ps, h => by
      rw [List.forall_mem_cons] at h
      exact List.forall_mem_append.mpr
        ⟨parse_of_mem_sources p h.1, parse_of_mem_sidesSources ps h.2⟩

end

end Program

/-! ### Errors and their places -/

/-- Where an error comes from when some expressions are evaluated: from one of them, and then it has the
span of that expression, or from a method of the host that one of them calls, which gave it a span. -/
inductive EvalError.ComesFrom (scope : Scope) (es : List Expr) (err : EvalError) : Prop where
  | expr {n : Expr} : n ∈ es → err.span = some n.span → ComesFrom scope es err
  | host {host : Host} {method : String} {args : List Value} {span : Span} :
      scope.host = some host → method ∈ es.filterMap (Expr.hostMethod? scope.hostName) →
      host.call method args = .error err → err.kind ≠ .undefinedMethod → err.span = some span →
      ComesFrom scope es err

/-- All errors of a result come from some expressions. -/
def ErrorsFrom {α : Type} (scope : Scope) (es : List Expr) (r : Except EvalError α) : Prop :=
  ∀ err, r = .error err → err.ComesFrom scope es

/-- All errors of a result are without a place. -/
def Unplaced {α : Type} (r : Except EvalError α) : Prop :=
  ∀ err, r = .error err → err.span = none

namespace ErrorsFrom

variable {α β : Type} {scope : Scope} {es : List Expr} {n : Expr}

theorem ok (a : α) : ErrorsFrom scope es (.ok a) :=
  fun err h => by cases h

/-- An error that is raised with the span of an expression. -/
theorem raise {cause : EvalError.Cause} {source : Option String} (hn : n ∈ es) :
    ErrorsFrom scope es (.error ⟨cause, some n.span, source⟩ : Except EvalError α) := by
  rintro _ ⟨⟩
  exact .expr hn rfl

/-- **One step after the other**: an error is one of either step. -/
theorem bind {x : Except EvalError α} {f : α → Except EvalError β} (hx : ErrorsFrom scope es x)
    (hf : ∀ a, ErrorsFrom scope es (f a)) : ErrorsFrom scope es (x >>= f) := by
  intro err h
  cases x with
  | error err' =>
      have hfirst : (Except.error err' : Except EvalError β) = .error err := h
      cases hfirst
      exact hx err rfl
  | ok a => exact hf a err h

/-- **Locating gives a place to errors without one.** -/
theorem locate {x : Except EvalError α} (hn : n ∈ es)
    (hx : ∀ err, x = .error err → err.span = none ∨ err.ComesFrom scope es) :
    ErrorsFrom scope es (locate n.span x) := by
  intro err h
  cases x with
  | ok a => cases h
  | error err' =>
      cases h
      cases hspan : err'.span with
      | none => exact .expr hn (by rw [EvalError.orSpan, hspan, Option.getD_none])
      | some span =>
          -- An error that has a place is not changed.
          have hsame : err'.orSpan n.span = err' := by
            rw [EvalError.orSpan, hspan, Option.getD_some, ← hspan]
          rw [hsame]
          refine (hx err' rfl).resolve_left fun hnone => ?_
          rw [hnone] at hspan
          cases hspan

/-- An error without a place takes that of the expression it is raised for. -/
theorem locate_unplaced {x : Except EvalError α} (hn : n ∈ es) (hx : Unplaced x) :
    ErrorsFrom scope es (LineMarkup.locate n.span x) :=
  locate hn fun err h => .inl (hx err h)

end ErrorsFrom

namespace Value

/-- An error about a property has no place of its own. -/
theorem property_unplaced (target : Value) (name : String) : Unplaced (target.property name) := by
  intro err h
  cases target with
  | null =>
      cases h
      rfl
  | _ => cases h

/-- An error about an element has no place of its own. -/
theorem item_unplaced (target key : Value) : Unplaced (target.item key) := by
  intro err h
  unfold item at h
  split at h
  · cases h
  · cases h
  · exact property_unplaced _ _ err h

/-- An error of a built-in method has no place of its own. -/
theorem method_unplaced (target : Value) (name : String) (args : List Value) :
    Unplaced (target.method name args) := by
  intro err h
  unfold method at h
  split at h
  all_goals cases h
  all_goals rfl

end Value

/-- A call on the host is located, unless the method gave its error a place.  That there is no such
method is always located. -/
theorem ErrorsFrom.callHost {scope : Scope} {es args : List Expr} {object : Expr} {host : Host}
    {method : String} {s span : Span} (vs : List Value)
    (hn : .call (.member object method s) args span ∈ es)
    (hhost : scope.hostAt? object = some host) :
    ErrorsFrom scope es (LineMarkup.locate span (scope.callHost host method vs)) := by
  refine ErrorsFrom.locate (n := .call (.member object method s) args span) hn fun err h => ?_
  unfold Scope.callHost at h
  split at h
  · cases h
  case h_2 err' hcall =>
    split at h
    · -- The error of the host is replaced, and its span is lost with it.
      cases h
      exact .inl rfl
    case isFalse hkind =>
      cases h
      unfold Scope.hostAt? at hhost
      split at hhost
      case isFalse => cases hhost
      case isTrue hobject =>
        cases hspan : err.span with
        | none => exact .inl rfl
        | some span' =>
            refine .inr (.host hhost ?_ hcall hkind hspan)
            rw [List.mem_filterMap]
            exact ⟨_, hn, if_pos hobject⟩

/-! ### Evaluation -/

section Evaluation

variable {scope : Scope} {es : List Expr} {sides : List Side}

/-- An error of a side list is that of one of its nodes. -/
theorem errorsFrom_allSides (hsides : ∀ side ∈ sides, ErrorsFrom scope es side.get) :
    ErrorsFrom scope es (allSides sides) := by
  induction sides with
  | nil => exact .ok []
  | cons side rest ih =>
      rw [List.forall_mem_cons] at hsides
      exact hsides.1.bind fun _ => (ih hsides.2).bind fun _ => .ok _

/-- An error of one side node is that of the node. -/
theorem errorsFrom_sideAt (hsides : ∀ side ∈ sides, ErrorsFrom scope es side.get)
    (key : Value) : ErrorsFrom scope es (sideAt sides key) := by
  unfold sideAt
  split
  · exact .ok _
  case h_2 side hside =>
    obtain ⟨i, -, hi⟩ := Option.bind_eq_some_iff.mp hside
    exact (hsides side (List.mem_of_getElem? hi)).bind fun _ => .ok _

/-- An error of a name is about that name, or of the side list that it stands for. -/
theorem Scope.errorsFrom_resolve (hsides : ∀ side ∈ sides, ErrorsFrom scope es side.get)
    {name : String} {span : Span} (hn : .identifier name span ∈ es) :
    ErrorsFrom scope es (scope.resolve sides name span) := by
  unfold Scope.resolve
  split
  · exact (errorsFrom_allSides hsides).bind fun _ => .ok _
  split
  · exact .raise hn
  split
  · exact .ok _
  · exact .raise hn

namespace Expr

mutual

/-- **Errors of an expression come from its parts.** -/
theorem errorsFrom_eval (hsides : ∀ side ∈ sides, ErrorsFrom scope es side.get) :
    (e : Expr) → e.subexprs ⊆ es → ErrorsFrom scope es (e.eval scope sides)
  | literal v s, _ => by
      rw [eval]
      exact .ok v
  | array items s, h => by
      rw [eval]
      exact (errorsFrom_evalAll hsides items (List.subset_of_cons_subset h)).bind fun _ => .ok _
  | identifier name s, h => by
      rw [eval]
      exact Scope.errorsFrom_resolve hsides (h (mem_subexprs_self _))
  | member object property s, h => by
      rw [eval]
      split
      · exact .ok _
      · exact (errorsFrom_eval hsides object (List.subset_of_cons_subset h)).bind fun target =>
          .locate_unplaced (h (mem_subexprs_self _)) (target.property_unplaced property)
  | index object key s, h => by
      have hparts := List.append_subset.mp (List.subset_of_cons_subset h)
      rw [eval]
      refine (errorsFrom_eval hsides key hparts.2).bind fun k => ?_
      split
      · -- Errors of a side program have a place inside it, and none is added here.
        exact errorsFrom_sideAt hsides k
      · exact (errorsFrom_eval hsides object hparts.1).bind fun target =>
          .locate_unplaced (h (mem_subexprs_self _)) (target.item_unplaced k)
  | call (member object method s') args s, h => by
      have hparts := List.append_subset.mp (List.subset_of_cons_subset h)
      rw [eval]
      refine (errorsFrom_evalAll hsides args hparts.2).bind fun vs => ?_
      split
      case h_1 host hhost => exact .callHost vs (h (mem_subexprs_self _)) hhost
      case h_2 =>
        exact (errorsFrom_eval hsides object (List.subset_of_cons_subset hparts.1)).bind fun target =>
          .locate_unplaced (h (mem_subexprs_self _)) (target.method_unplaced method vs)
  -- Whatever else is called is no method.
  | call (literal _ _) _ _, h | call (array _ _) _ _, h | call (identifier _ _) _ _, h
  | call (index _ _ _) _ _, h | call (call _ _ _) _ _, h | call (binary _ _ _ _) _ _, h
  | call (unary _ _ _) _ _, h | call (conditional _ _ _ _) _ _, h =>
      .raise (h (mem_subexprs_self _))
  | binary left op right s, h => by
      have hparts := List.append_subset.mp (List.subset_of_cons_subset h)
      have hleft := errorsFrom_eval hsides left hparts.1
      have hright := errorsFrom_eval hsides right hparts.2
      cases op with
      | and =>
          rw [eval]
          refine hleft.bind fun v => ?_
          split
          · exact hright
          · exact .ok v
      | or =>
          rw [eval]
          refine hleft.bind fun v => ?_
          split
          · exact .ok v
          · exact hright
      | _ =>
          rw [eval]
          · exact hleft.bind fun v => hright.bind fun w => .ok _
          all_goals simp
  | unary op operand s, h => by
      rw [eval]
      exact (errorsFrom_eval hsides operand (List.subset_of_cons_subset h)).bind fun _ => .ok _
  | conditional test yes no s, h => by
      have hparts := List.append_subset.mp (List.subset_of_cons_subset h)
      have hbranches := List.append_subset.mp hparts.2
      rw [eval]
      refine (errorsFrom_eval hsides test hparts.1).bind fun v => ?_
      split
      · exact errorsFrom_eval hsides yes hbranches.1
      · exact errorsFrom_eval hsides no hbranches.2

/-- An error of several expressions is that of one of them. -/
theorem errorsFrom_evalAll (hsides : ∀ side ∈ sides, ErrorsFrom scope es side.get) :
    (items : List Expr) → subexprsAll items ⊆ es → ErrorsFrom scope es (evalAll scope sides items)
  | [], _ => by
      rw [evalAll]
      exact .ok []
  | e :: items, h => by
      have hparts := List.append_subset.mp h
      rw [evalAll]
      exact (errorsFrom_eval hsides e hparts.1).bind fun _ =>
        (errorsFrom_evalAll hsides items hparts.2).bind fun _ => .ok _

end

end Expr

end Evaluation

/-! ### Rendering -/

namespace Program

variable {scope : Scope} {es : List Expr}

mutual

/-- **Errors of rendering come from the expressions of the program.** -/
theorem errorsFrom_render : (p : List Segment) → subexprs p ⊆ es →
    ErrorsFrom scope es (render scope p)
  | [], _ => by
      rw [render]
      exact .ok ""
  | seg :: rest, h => by
      have hparts := List.append_subset.mp h
      rw [render]
      exact (errorsFrom_renderSegment seg hparts.1).bind fun _ =>
        (errorsFrom_render rest hparts.2).bind fun _ => .ok _

/-- An error of a segment comes from an expression in it. -/
theorem errorsFrom_renderSegment : (seg : Segment) → segmentSubexprs seg ⊆ es →
    ErrorsFrom scope es (renderSegment scope seg)
  | .text s, _ => by
      rw [renderSegment]
      exact .ok s
  | .code source e sides, h => by
      have hparts := List.append_subset.mp h
      rw [renderSegment]
      exact (Expr.errorsFrom_eval (errorsFrom_renderSides sides hparts.2) e hparts.1).bind
        fun _ => .ok _
  | .attr name value, h => by
      rw [renderSegment]
      exact (errorsFrom_render value h).bind fun _ => .ok _

/-- An error of a side node comes from an expression in its program. -/
theorem errorsFrom_renderSides : (sides : List (List Segment)) → sidesSubexprs sides ⊆ es →
    ∀ side ∈ renderSides scope sides, ErrorsFrom scope es side.get
  | [], _ => by
      rw [renderSides]
      exact fun side hside => by cases hside
  | p :: ps, h => by
      have hparts := List.append_subset.mp h
      rw [renderSides]
      exact List.forall_mem_cons.mpr
        ⟨errorsFrom_render p hparts.1, errorsFrom_renderSides ps hparts.2⟩

end

end Program

/-- **Every error of rendering has a place.**  If a template that exists fails to render, for whatever
locals and whatever its host does, the error has a span.  Either a method of the host that the template
calls gave it this span, with an error that does not say that a method is missing; or it is the span of
an expression in the template, which lies in the source of that expression: it is not empty and splits
no character. -/
theorem Template.render_error_located {t : Template} (ht : t.Exists) {locals : Locals}
    {err : EvalError} (h : t.render locals = .error err) :
    ∃ span, err.span = some span ∧
      ((∃ host method args, t.host = some host ∧ method ∈ t.program.hostMethods t.hostName ∧
          host.call method args = .error err ∧ err.kind ≠ .undefinedMethod) ∨
        ∃ source e n, (source, e) ∈ Program.sources t.program ∧ n ∈ e.subexprs ∧ span = n.span ∧
          span.LiesIn source.toList 0) := by
  have hfrom : err.ComesFrom (t.scope locals) (Program.subexprs t.program) :=
    Program.errorsFrom_render t.program (List.Subset.refl _) err h
  cases hfrom with
  | @host host method args span hhost hmethod hcall hkind hspan =>
      exact ⟨span, hspan, .inl ⟨host, method, args, hhost, hmethod, hcall, hkind⟩⟩
  | @expr n hn hspan =>
      rw [Program.subexprs_eq_flatMap_sources, List.mem_flatMap] at hn
      obtain ⟨⟨source, e⟩, hsource, hn⟩ := hn
      have hparse := Program.parse_of_mem_sources t.program ht.faithful.segments _ hsource
      exact ⟨n.span, hspan,
        .inr ⟨source, e, n, hsource, hn, rfl, Expr.lies_of_parse hparse n hn⟩⟩

/-- A name that is not bound, behind a character of two bytes and in a side program of an attribute. -/
theorem Template.render_error_located_side_node :
    ∃ t, Template.ofNodes [.tag "p" (some (.cons "on" [.code "__nodes[0]"
        (some [.code "'é' + b.c" none])] .nil)) none] {} = .ok t ∧
      t.Exists ∧ t.render [] = .error ⟨.unbound "b", some ⟨7, 8⟩, none⟩ ∧
      ∃ source e n, (source, e) ∈ Program.sources t.program ∧ n ∈ e.subexprs ∧ ⟨7, 8⟩ = n.span ∧
        Span.LiesIn ⟨7, 8⟩ source.toList 0 := by
  have hok : (Template.ofNodes [.tag "p" (some (.cons "on" [.code "__nodes[0]"
      (some [.code "'é' + b.c" none])] .nil)) none] {}).toOption.any (fun t => t.host.isNone &&
        t.render [] == .error ⟨.unbound "b", some ⟨7, 8⟩, none⟩) = true := by
    decide +kernel
  generalize hnodes : Template.ofNodes _ _ = result at hok
  cases result with
  | error e => cases hok
  | ok t =>
      obtain ⟨hhost, hrender⟩ := Bool.and_eq_true_iff.mp hok
      have hrender : t.render [] = .error _ := eq_of_beq hrender
      refine ⟨t, rfl, .ofNodes hnodes, hrender, ?_⟩
      obtain ⟨span, hspan, hcase⟩ := render_error_located (.ofNodes hnodes) hrender
      cases hspan
      rcases hcase with ⟨host, method, args, hsome, -⟩ | hexpr
      · rw [hsome] at hhost
        cases hhost
      · exact hexpr

end LineMarkup
