import LineMarkup.Proofs.NameResolution
import LineMarkup.Proofs.RenderingLocality

/-!
# Two ways to address locals

A template in flat mode can be translated to grouped mode: each name that is looked up in the locals
becomes the entry of that name in the grouped locals.  If the locals bind all these names, both templates
are rendered alike, output or first error.

A translated name is no name any more, and expressions ask in four places whether an object is a certain
name.  Three of the names asked for, the side list, the host and the grouped locals, are such that the
answer stays the same: the first two are not translated, and the third one always is, so that no object of
a translated expression is the bare grouped locals but those that the translation put there.  The fourth
place is a call: a name that is called becomes an entry that is called, and that is a method.  So called
names are left out.

## Main Definitions

* `Template.isFree` — whether a name is looked up in the locals
* `Expr.grouped`, `Program.grouped` — names become entries of the grouped locals
* `Expr.Addressable` — all names that are translated are bound, and none of them is called

## Main Statements

* `Expr.isIdentifier_grouped` — what the translation leaves of a name
* `Expr.eval_grouped`, `Program.render_grouped` — a translated expression or program gives the same
* `Template.render_flat_eq_grouped` — the same of templates
-/

namespace LineMarkup

/-! ### Translating names -/

/-- Whether a name is looked up in the locals: it is neither that of the side list nor that of a host
that is there. -/
def Template.isFree (hostName : String) (host : Option Host) (name : String) : Bool :=
  name != sidesName && !(name == hostName && host.isSome)

namespace Expr

variable (free : String → Bool)

mutual

/-- Each free name becomes the entry of that name in the grouped locals, at the place of the name. -/
def grouped : Expr → Expr
  | literal v span => literal v span
  | array es span => array (groupedAll es) span
  | identifier name span =>
    if free name then member (identifier localsName span) name span else identifier name span
  | member object property span => member (grouped object) property span
  | index object key span => index (grouped object) (grouped key) span
  | call callee args span => call (grouped callee) (groupedAll args) span
  | binary left op right span => binary (grouped left) op (grouped right) span
  | unary op operand span => unary op (grouped operand) span
  | conditional test yes no span => conditional (grouped test) (grouped yes) (grouped no) span

/-- The same in several expressions. -/
def groupedAll : List Expr → List Expr
  | [] => []
  | e :: es => grouped e :: groupedAll es

end

/-- **The translation takes free names away, and makes no names.** -/
theorem isIdentifier_grouped (e : Expr) (name : String) :
    (e.grouped free).isIdentifier name = (e.isIdentifier name && !free name) := by
  cases e with
  | identifier n span =>
      rw [grouped]
      by_cases hname : n = name
      · subst hname
        cases hfree : free n with
        | true =>
            rw [if_pos rfl, Bool.not_true, Bool.and_false]
            rfl
        | false =>
            rw [if_neg Bool.false_ne_true, Bool.not_false, Bool.and_true]
      · have hne : (identifier n span).isIdentifier name = false := beq_false_of_ne hname
        rw [hne, Bool.false_and]
        split
        · rfl
        · exact hne
  | literal v span => rfl
  | array es span => rfl
  | member object property span => rfl
  | index object key span => rfl
  | call callee args span => rfl
  | binary left op right span => rfl
  | unary op operand span => rfl
  | conditional test yes no span => rfl

end Expr

namespace Program

variable (free : String → Bool)

mutual

/-- The same in all expressions of a program, those in attribute values and side programs as well. -/
def grouped : List Segment → List Segment
  | [] => []
  | seg :: rest => groupedSegment seg :: grouped rest

/-- The same in all expressions of a segment. -/
def groupedSegment : Segment → Segment
  | .text s => .text s
  | .code source e sides => .code source (e.grouped free) (groupedSides sides)
  | .attr name value => .attr name (grouped value)

/-- The same in all programs of a side list. -/
def groupedSides : List (List Segment) → List (List Segment)
  | [] => []
  | p :: ps => grouped p :: groupedSides ps

end

end Program

/-! ### The same values -/

/-- Free names are bound, and none of them is called. -/
structure Expr.Addressable (free : String → Bool) (locals : Locals) (es : List Expr) : Prop where
  bound : ∀ {name : String} {span : Span}, .identifier name span ∈ es → free name = true →
    ∃ v, locals.get? name = some v
  called : ∀ {name : String} {s : Span} {args : List Expr} {span : Span},
    .call (.identifier name s) args span ∈ es → free name = false

theorem Expr.Addressable.mono {free : String → Bool} {locals : Locals} {es fs : List Expr}
    (h : Addressable free locals es) (sub : fs ⊆ es) : Addressable free locals fs where
  bound hmem := h.bound (sub hmem)
  called hmem := h.called (sub hmem)

section Translated

variable {locals : Locals} {hostName : String} {host : Option Host}

namespace Template

theorem isFree_sidesName : isFree hostName host sidesName = false := rfl

/-- Only a host that is there takes its name. -/
theorem isFree_hostName {h : Host} : isFree hostName (some h) hostName = false := by
  rw [isFree, beq_self_eq_true, Option.isSome_some, Bool.and_self, Bool.not_true, Bool.and_false]

theorem isFree_localsName (hname : hostName ≠ localsName) :
    isFree hostName host localsName = true := by
  rw [isFree, beq_false_of_ne hname.symm, Bool.false_and, Bool.not_false, Bool.and_true]
  rfl

/-- A name is free if neither the side list nor a host goes by it. -/
theorem isFree_iff {name : String} :
    isFree hostName host name = true ↔
      name ≠ sidesName ∧ ¬ (name = hostName ∧ host.isSome) := by
  simp only [isFree, Bool.and_eq_true, bne_iff_ne, Bool.not_eq_true', Bool.and_eq_false_iff,
    beq_eq_false_iff_ne, ne_eq, not_and_or, Bool.not_eq_true]

end Template

open Template

/-- A name is the same value as what it becomes. -/
theorem resolve_grouped {name : String} {span : Span}
    (hbound : isFree hostName host name = true → ∃ v, locals.get? name = some v)
    (sides : List Side) :
    Scope.resolve ⟨locals, .flat, hostName, host⟩ sides name span =
      ((Expr.identifier name span).grouped (isFree hostName host)).eval
        ⟨locals, .grouped, hostName, host⟩ sides := by
  rw [Expr.grouped]
  cases hfree : isFree hostName host name with
  | true =>
      obtain ⟨v, hv⟩ := hbound hfree
      obtain ⟨hsides, hhost⟩ := isFree_iff.mp hfree
      rw [if_pos rfl, Expr.eval, if_pos ⟨rfl, beq_self_eq_true localsName⟩, hv, Scope.resolve,
        if_neg hsides, if_neg hhost, Scope.local?, hv]
      rfl
  | false =>
      rw [if_neg Bool.false_ne_true, Expr.eval]
      apply Scope.resolve_congr
      · exact Iff.rfl
      · intro hsides hhost
        rw [isFree_iff.mpr ⟨hsides, hhost⟩] at hfree
        cases hfree

/-- A call goes to the host if the translated call does. -/
theorem hostAt?_grouped (object : Expr) :
    Scope.hostAt? ⟨locals, .grouped, hostName, host⟩ (object.grouped (isFree hostName host)) =
      Scope.hostAt? ⟨locals, .flat, hostName, host⟩ object := by
  unfold Scope.hostAt?
  cases host with
  | none => rw [ite_self, ite_self]
  | some h => rw [Expr.isIdentifier_grouped, isFree_hostName, Bool.not_false, Bool.and_true]

namespace Expr

variable (sides : List Side)

mutual

/-- **A translated expression has the same value**, or the same error. -/
theorem eval_grouped (hname : hostName ≠ localsName) : (e : Expr) →
    Addressable (isFree hostName host) locals e.subexprs →
    e.eval ⟨locals, .flat, hostName, host⟩ sides =
      (e.grouped (isFree hostName host)).eval ⟨locals, .grouped, hostName, host⟩ sides
  | literal v s, _ => by rw [grouped, eval, eval]
  | array es s, h => by
      have hes := evalAll_grouped hname es (h.mono (List.subset_cons_self _ _))
      rw [grouped, eval, eval, hes]
  | identifier name s, h => by
      rw [eval]
      exact resolve_grouped (h.bound (mem_subexprs_self _)) sides
  | member object property s, h => by
      have hobject := eval_grouped hname object (h.mono (List.subset_cons_self _ _))
      -- No object is the bare grouped locals once it is translated.
      have hnot : ¬ (object.grouped (isFree hostName host)).isIdentifier localsName := by
        rw [isIdentifier_grouped, isFree_localsName hname, Bool.not_true, Bool.and_false]
        exact Bool.false_ne_true
      rw [grouped, eval, eval, if_neg (fun hflat => by cases hflat.1), if_neg (fun h => hnot h.2),
        hobject]
  | index object key s, h => by
      have hobject := eval_grouped hname object
        (h.mono (List.subset_cons_of_subset _ (List.subset_append_left _ _)))
      have hkey := eval_grouped hname key
        (h.mono (List.subset_cons_of_subset _ (List.subset_append_right _ _)))
      rw [grouped, eval, eval, isIdentifier_grouped, isFree_sidesName, Bool.not_false,
        Bool.and_true, hkey, hobject]
  | call callee args s, h => by
      have hargs := evalAll_grouped hname args
        (h.mono (List.subset_cons_of_subset _ (List.subset_append_right _ _)))
      cases callee with
      | member object method s' =>
          have hobject := eval_grouped hname object (h.mono (List.subset_cons_of_subset _
            (List.Subset.trans (List.subset_cons_self _ _) (List.subset_append_left _ _))))
          rw [grouped, grouped, eval, eval, hostAt?_grouped, hargs, hobject]
          rfl
      | identifier name s' =>
          rw [grouped, grouped, h.called (mem_subexprs_self _), if_neg Bool.false_ne_true]
          rfl
      | literal v s' => rfl
      | array es s' => rfl
      | index object key s' => rfl
      | call callee args s' => rfl
      | binary left op right s' => rfl
      | unary op operand s' => rfl
      | conditional test yes no s' => rfl
  | binary left op right s, h => by
      have hleft := eval_grouped hname left
        (h.mono (List.subset_cons_of_subset _ (List.subset_append_left _ _)))
      have hright := eval_grouped hname right
        (h.mono (List.subset_cons_of_subset _ (List.subset_append_right _ _)))
      rw [grouped]
      cases op <;> rw [eval, eval, hleft, hright]
      all_goals simp
  | unary op operand s, h => by
      have hoperand := eval_grouped hname operand (h.mono (List.subset_cons_self _ _))
      rw [grouped, eval, eval, hoperand]
  | conditional test yes no s, h => by
      have htest := eval_grouped hname test
        (h.mono (List.subset_cons_of_subset _ (List.subset_append_left _ _)))
      have hbranches := h.mono (List.subset_cons_of_subset _ (List.subset_append_right _ _))
      have hyes := eval_grouped hname yes (hbranches.mono (List.subset_append_left _ _))
      have hno := eval_grouped hname no (hbranches.mono (List.subset_append_right _ _))
      rw [grouped, eval, eval, htest, hyes, hno]

theorem evalAll_grouped (hname : hostName ≠ localsName) : (es : List Expr) →
    Addressable (isFree hostName host) locals (subexprsAll es) →
    evalAll ⟨locals, .flat, hostName, host⟩ sides es =
      evalAll ⟨locals, .grouped, hostName, host⟩ sides (groupedAll (isFree hostName host) es)
  | [], _ => by rw [groupedAll, evalAll, evalAll]
  | e :: es, h => by
      have he := eval_grouped hname e (h.mono (List.subset_append_left _ _))
      have hes := evalAll_grouped hname es (h.mono (List.subset_append_right _ _))
      rw [groupedAll, evalAll, evalAll, he, hes]

end

end Expr

namespace Program

mutual

/-- **A translated program renders to the same**, output or first error. -/
theorem render_grouped (hname : hostName ≠ localsName) : (p : List Segment) →
    Expr.Addressable (isFree hostName host) locals (subexprs p) →
    render ⟨locals, .flat, hostName, host⟩ p =
      render ⟨locals, .grouped, hostName, host⟩ (grouped (isFree hostName host) p)
  | [], _ => by rw [grouped, render, render]
  | seg :: rest, h => by
      have hseg := renderSegment_grouped hname seg (h.mono (List.subset_append_left _ _))
      have hrest := render_grouped hname rest (h.mono (List.subset_append_right _ _))
      rw [grouped, render, render, hseg, hrest]

theorem renderSegment_grouped (hname : hostName ≠ localsName) : (seg : Segment) →
    Expr.Addressable (isFree hostName host) locals (segmentSubexprs seg) →
    renderSegment ⟨locals, .flat, hostName, host⟩ seg =
      renderSegment ⟨locals, .grouped, hostName, host⟩ (groupedSegment (isFree hostName host) seg)
  | .text s, _ => by rw [groupedSegment, renderSegment, renderSegment]
  | .code source e sides, h => by
      have hsides := renderSides_grouped hname sides (h.mono (List.subset_append_right _ _))
      rw [groupedSegment, renderSegment, renderSegment, hsides,
        Expr.eval_grouped _ hname e (h.mono (List.subset_append_left _ _))]
  | .attr name value, h => by
      have hvalue := render_grouped hname value h
      rw [groupedSegment, renderSegment, renderSegment, hvalue]

theorem renderSides_grouped (hname : hostName ≠ localsName) : (sides : List (List Segment)) →
    Expr.Addressable (isFree hostName host) locals (sidesSubexprs sides) →
    renderSides ⟨locals, .flat, hostName, host⟩ sides =
      renderSides ⟨locals, .grouped, hostName, host⟩ (groupedSides (isFree hostName host) sides)
  | [], _ => by rw [groupedSides, renderSides, renderSides]
  | p :: ps, h => by
      have hp := render_grouped hname p (h.mono (List.subset_append_left _ _))
      have hps := renderSides_grouped hname ps (h.mono (List.subset_append_right _ _))
      rw [groupedSides, renderSides, renderSides, hp, hps]

end

end Program

end Translated

/-- **Flat and grouped addressing agree.**  Where the locals bind all names of a program that are looked
up in them, and none of these names is called by itself, the program in flat mode renders to the same as
the program with these names as entries of the grouped locals does in grouped mode. -/
theorem Template.render_flat_eq_grouped {p : Program} {hostName : String} {host : Option Host}
    {locals : Locals} (hname : hostName ≠ localsName)
    (hbound : ∀ name ∈ p.names, name ≠ sidesName → ¬ (name = hostName ∧ host.isSome) →
      ∃ v, locals.get? name = some v)
    (hcalled : ∀ name s args span, .call (.identifier name s) args span ∈ Program.subexprs p →
      name = sidesName ∨ name = hostName ∧ host.isSome) :
    Template.render ⟨p, .flat, hostName, host⟩ locals =
      Template.render ⟨Program.grouped (isFree hostName host) p, .grouped, hostName, host⟩ locals := by
  refine Program.render_grouped hname p ⟨fun {name span} hmem hfree => ?_,
    fun {name s args span} hmem => ?_⟩
  · obtain ⟨hsides, hhost⟩ := isFree_iff.mp hfree
    exact hbound name (Program.mem_names hmem) hsides hhost
  · refine Bool.eq_false_iff.mpr fun hfree => ?_
    obtain ⟨hsides, hhost⟩ := isFree_iff.mp hfree
    rcases hcalled name s args span hmem with h | h
    · exact hsides h
    · exact hhost h

/-- A name that is the grouped locals' own, a call on the host, and a side program in an attribute. -/
theorem Template.render_flat_eq_grouped_nested :
    ∃ p : Program, p.names = ["__nodes", "locals", "r", "a"] ∧
      Program.grouped (isFree "r" (some .empty)) p =
        [.attr "k" [.code "__nodes[locals.n]" (.index (.identifier "__nodes" ⟨0, 7⟩)
          (.member (.member (.identifier "locals" ⟨8, 14⟩) "locals" ⟨8, 14⟩) "n" ⟨8, 16⟩) ⟨0, 17⟩)
          [[.code "r.m(a)" (.call (.member (.identifier "r" ⟨0, 1⟩) "m" ⟨0, 3⟩)
            [.member (.identifier "locals" ⟨4, 5⟩) "a" ⟨4, 5⟩] ⟨0, 6⟩) []]]]] ∧
      Template.render ⟨p, .flat, "r", some .empty⟩
          [("a", .null), ("locals", .object [("n", .null)])] =
        Template.render ⟨Program.grouped (isFree "r" (some .empty)) p, .grouped, "r", some .empty⟩
          [("a", .null), ("locals", .object [("n", .null)])] := by
  refine ⟨[.attr "k" [.code "__nodes[locals.n]" (.index (.identifier "__nodes" ⟨0, 7⟩)
      (.member (.identifier "locals" ⟨8, 14⟩) "n" ⟨8, 16⟩) ⟨0, 17⟩)
      [[.code "r.m(a)" (.call (.member (.identifier "r" ⟨0, 1⟩) "m" ⟨0, 3⟩)
        [.identifier "a" ⟨4, 5⟩] ⟨0, 6⟩) []]]]], rfl, rfl, ?_⟩
  refine render_flat_eq_grouped (by decide) (fun name hmem hsides hhost => ?_)
    fun name s args span hmem => ?_
  · have hcases : name ∈ ["__nodes", "locals", "r", "a"] := hmem
    simp only [List.mem_cons, List.not_mem_nil, or_false] at hcases
    rcases hcases with rfl | rfl | rfl | rfl
    · exact absurd rfl hsides
    · exact ⟨_, rfl⟩
    · exact absurd ⟨rfl, rfl⟩ hhost
    · exact ⟨_, rfl⟩
  · simp [Program.subexprs, Program.segmentSubexprs, Program.sidesSubexprs, Expr.subexprs,
      Expr.subexprsAll] at hmem

end LineMarkup
