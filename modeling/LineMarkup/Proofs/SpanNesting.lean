import LineMarkup.Proofs.ExpressionParts
import LineMarkup.Proofs.FailurePlaces

/-!
# Spans nest like the tree

The span of a node covers the spans of its children, and the children stand in it one behind the other.
So an editor can find the node at a place by going down the tree, and marks of siblings do not overlap.

Spans are made by three rules.  A token, an array and a conditional have the span of what was read, blanks
behind it included; a suffix and an operation have the smallest span that covers their parts, and
parentheses around a part are left out; operators in front of one operand all have one span.  What a node
is read from, `Grammar.ReadFrom`, says which rule made its span.  Its parts stand in texts one behind the
other, and each part has its span in its own text, so they cannot overlap.

One case needs more.  The span of operators in front ends where the operand does, and where that is was
measured while reading; `span_foldl_extend` says where the operand's own span ends.

## Main Definitions

* `Expr.children` — the parts of a node, from left to right
* `Expr.Nests` — the spans of the parts of a node are in its span, one behind the other

## Main Statements

* `Grammar.ReadFrom.nests` — one case for each kind of node
* `Expr.spans_of_parse` — the spans of an expression, and the place of a syntax error
-/

namespace LineMarkup

/-! ### Order of spans -/

/-- One span is in another. -/
def Span.Covers (a b : Span) : Prop :=
  a.start ≤ b.start ∧ b.stop ≤ a.stop

/-- One span ends before another starts. -/
def Span.Precedes (a b : Span) : Prop :=
  a.stop ≤ b.start

namespace Span

variable {a b : Span} {s : List Char} {o : Nat}

theorem covers_refl (a : Span) : a.Covers a :=
  ⟨Nat.le_refl _, Nat.le_refl _⟩

/-- The span around two others covers the first one. -/
theorem merge_covers_left (a b : Span) : (a.merge b).Covers a :=
  ⟨Nat.min_le_left _ _, Nat.le_max_left _ _⟩

/-- The span around two others covers the second one. -/
theorem merge_covers_right (a b : Span) : (a.merge b).Covers b :=
  ⟨Nat.min_le_right _ _, Nat.le_max_right _ _⟩

theorem Covers.trans {c : Span} (h : a.Covers b) (h' : b.Covers c) : a.Covers c :=
  ⟨Nat.le_trans h.1 h'.1, Nat.le_trans h'.2 h.2⟩

/-- The span of a whole text covers every span in it. -/
theorem LiesIn.covers (h : a.LiesIn s o) : (Grammar.spanOf s o).Covers a :=
  ⟨h.start.le, h.stop.le_last⟩

/-- A span in a text precedes a span in a later text. -/
theorem LiesIn.precedes {t : List Char} {o' : Nat} (ha : a.LiesIn s o) (hb : b.LiesIn t o')
    (h : o + utf8Length s ≤ o') : a.Precedes b :=
  Nat.le_trans ha.stop.le_last (Nat.le_trans h hb.start.le)

end Span

/-! ### Children -/

namespace Expr

/-- The parts of a node, from left to right. -/
def children : Expr → List Expr
  | literal _ _ => []
  | array es _ => es
  | identifier _ _ => []
  | member object _ _ => [object]
  | index object key _ => [object, key]
  | call callee args _ => callee :: args
  | binary left _ right _ => [left, right]
  | unary _ operand _ => [operand]
  | conditional test yes no _ => [test, yes, no]

/-- The spans of the parts of a node are in its span, one behind the other. -/
structure Nests (n : Expr) : Prop where
  covers : ∀ c ∈ n.children, n.span.Covers c.span
  ordered : n.children.Pairwise fun a b => a.span.Precedes b.span

/-- A node without parts has nothing to cover. -/
theorem Nests.leaf {n : Expr} (h : n.children = []) : n.Nests := by
  refine ⟨?_, ?_⟩
  · rw [h]
    exact fun c hc => by cases hc
  · rw [h]
    exact .nil

end Expr

namespace Grammar

open LineMarkup.Expr Reader

/-! ### Arguments -/

/-- A list of expressions that stand one behind the other in a text. -/
structure RowIn (s : List Char) (o : Nat) (es : List Expr) : Prop where
  lies : ∀ e ∈ es, e.span.LiesIn s o
  ordered : es.Pairwise fun a b => a.span.Precedes b.span

namespace RowIn

theorem nil (s : List Char) (o : Nat) : RowIn s o [] :=
  ⟨List.forall_mem_nil _, .nil⟩

/-- Expressions in a row stay so with more text in front. -/
theorem prepend {w s : List Char} {o : Nat} {es : List Expr} (h : RowIn s (o + utf8Length w) es) :
    RowIn (w ++ s) o es :=
  ⟨fun e he => (h.lies e he).prepend, h.ordered⟩

theorem single {s : List Char} {o : Nat} {e : Expr} (he : e.span.LiesIn s o) : RowIn s o [e] :=
  ⟨List.forall_mem_singleton.mpr he, List.pairwise_singleton _ _⟩

/-- Expressions in a row stay so with more text behind. -/
theorem append {s : List Char} {o : Nat} {es : List Expr} (h : RowIn s o es) (z : List Char) :
    RowIn (s ++ z) o es :=
  ⟨fun e he => (h.lies e he).append z, h.ordered⟩

/-- One more expression in front of a row. -/
theorem cons {x xs : List Char} {o : Nat} {e : Expr} {es : List Expr} (he : e.span.LiesIn x o)
    (hes : RowIn xs (o + utf8Length x) es) : RowIn (x ++ xs) o (e :: es) where
  lies := List.forall_mem_cons.mpr ⟨he.append xs, hes.prepend.lies⟩
  ordered := List.pairwise_cons.mpr
    ⟨fun e' he' => he.precedes (hes.lies e' he') (Nat.le_refl _), hes.ordered⟩

end RowIn

/-- Further arguments stand one behind the other. -/
theorem MoreArguments.row {s : List Char} {fs : Nat → List Expr}
    (h : MoreArguments ExprSpelling s fs) : ∀ o, RowIn s o (fs o) := by
  induction h with
  | nil => exact RowIn.nil []
  | cons hw hx hxs ih => exact fun o => (RowIn.cons (hx.lies _).root (ih _)).prepend

/-- Arguments stand one behind the other. -/
theorem ArgumentsSpelling.row {s : List Char} {fs : Nat → List Expr}
    (h : ArgumentsSpelling ExprSpelling s fs) (o : Nat) : RowIn s o (fs o) := by
  cases h with
  | none => exact .nil [] o
  | some hx hxs => exact .cons (hx.lies o).root (hxs.row _)

/-! ### Operands -/

/-- The span of a chain covers its last suffix. -/
theorem span_extend (object : Expr) (a : Suffix × Span) :
    (extend object a).span = object.span.merge a.2 := by
  obtain ⟨suffix, span⟩ := a
  cases suffix <;> rfl

/-- **The span of an operand with suffixes**: from the start of what they are attached to, to the end of
the last one. -/
theorem span_foldl_extend {z : List Char} {fs : Nat → List (Suffix × Span)}
    (h : SuffixesSpelling ExprSpelling z fs) :
    ∀ {o : Nat} {object : Expr}, object.span.start ≤ o → object.span.stop ≤ o →
      ((fs o).foldl extend object).span =
        ⟨object.span.start, operandStop object.span.stop (fs o)⟩ := by
  induction h with
  | nil => exact fun _ _ => rfl
  | @cons x w xs f fs hx hw hxs ih =>
      intro o object hstart hstop
      have hnext : (extend object (f o, spanOf x o)).span = ⟨object.span.start, o + utf8Length x⟩ := by
        rw [span_extend]
        unfold Span.merge spanOf
        rw [Nat.min_eq_left hstart, Nat.max_eq_right (Nat.le_trans hstop (Nat.le_add_right _ _))]
      rw [List.foldl_cons, operandStop_cons, ih, hnext]
      · rfl
      · rw [hnext]
        exact Nat.le_trans hstart (by omega)
      · rw [hnext]
        exact Nat.le_add_right _ _

/-- A primary ends where its text does, or before. -/
theorem PrimarySpelling.stop_le {y : List Char} {f : Nat → Expr}
    (h : PrimarySpelling ExprSpelling y f) (o : Nat) (w : List Char) :
    (f o).span.stop ≤ o + utf8Length y + utf8Length w :=
  Nat.le_trans (h.lies o).root.stop.le_last (Nat.le_add_right _ _)

/-- The span of a primary with its suffixes. -/
theorem span_chain {y w z : List Char} {f : Nat → Expr} {fs : Nat → List (Suffix × Span)}
    (hy : PrimarySpelling ExprSpelling y f) (hz : SuffixesSpelling ExprSpelling z fs) (o : Nat) :
    ((fs (o + utf8Length y + utf8Length w)).foldl extend (f o)).span =
      ⟨(f o).span.start,
        operandStop (f o).span.stop (fs (o + utf8Length y + utf8Length w))⟩ := by
  have hstop := hy.stop_le o w
  exact span_foldl_extend hz (Nat.le_trans (Nat.le_of_lt (hy.lies o).root.nonempty) hstop) hstop

/-- Without suffixes, an operand stops where its primary does, and else where they do. -/
theorem operandStop_mono {bare bare' : Nat} (h : bare ≤ bare') (suffixes : List (Suffix × Span)) :
    operandStop bare suffixes ≤ operandStop bare' suffixes := by
  unfold operandStop
  cases suffixes.getLast? with
  | none => exact h
  | some a => exact Nat.le_refl _

/-- The span of a chain lies in its text. -/
theorem ChainAt.lies {c : List Char} {o : Nat} {object : Expr} (h : ChainAt c o object) :
    object.span.LiesIn c o := by
  obtain ⟨f, hf, rfl⟩ := h.operand
  exact (hf.lies o).root

/-- A node with a suffix: the object, and what is in the suffix. -/
private theorem nests_of_suffix {c x : List Char} {o : Nat} {n object : Expr} {inside : List Expr}
    (hchildren : n.children = object :: inside)
    (hspan : n.span = object.span.merge (spanOf x (o + utf8Length c)))
    (hobject : object.span.LiesIn c o) (hinside : RowIn x (o + utf8Length c) inside) : n.Nests where
  covers := by
    rw [hchildren, hspan]
    refine List.forall_mem_cons.mpr ⟨Span.merge_covers_left _ _, fun e he => ?_⟩
    exact (Span.merge_covers_right _ _).trans (hinside.lies e he).covers
  ordered := by
    rw [hchildren]
    exact (RowIn.cons hobject hinside).ordered

/-- A chain covers what it is put together from: its object, and behind it what is in the suffix. -/
private theorem ChainAt.nests {c x : List Char} {o : Nat} {object : Expr} {g : Nat → Suffix}
    (h : ChainAt c o object) (hx : SuffixSpelling ExprSpelling x g) :
    (extend object (g (o + utf8Length c), spanOf x (o + utf8Length c))).Nests := by
  cases hx with
  | member hw hn => exact nests_of_suffix rfl rfl h.lies (.nil _ _)
  | @index w y f hw hy =>
      refine nests_of_suffix rfl rfl h.lies (RowIn.prepend ?_)
      exact (RowIn.single (hy.lies _).root).append _
  | @call w y fs hw hy =>
      refine nests_of_suffix rfl rfl h.lies (RowIn.prepend ?_)
      exact (hy.row _).append _

/-- An operator in front of an operand: the operand, perhaps behind more operators. -/
private theorem nests_of_prefixed {x y w z : List Char} {o : Nat} {f : Nat → Expr}
    {fs : Nat → List (Suffix × Span)} (op : UnaryOp) (ops : List UnaryOp)
    (hy : PrimarySpelling ExprSpelling y f) (hw : Blanks w) (hz : SuffixesSpelling ExprSpelling z fs) :
    let bare := o + utf8Length x + utf8Length y + utf8Length w
    (operandTree (op :: ops) (f (o + utf8Length x)) (fs bare)
      ⟨o, operandStop bare (fs bare)⟩).Nests := by
  intro bare
  refine ⟨List.forall_mem_singleton.mpr ?_, List.pairwise_singleton _ _⟩
  cases ops with
  | cons op' ops => exact Span.covers_refl _
  | nil =>
      have hchain := ChainAt.mk (o := o + utf8Length x) hy hw hz
      refine ⟨Nat.le_trans (Nat.le_add_right _ _) hchain.lies.start.le, ?_⟩
      show ((fs bare).foldl extend (f (o + utf8Length x))).span.stop ≤ operandStop bare (fs bare)
      rw [span_chain hy hz]
      exact operandStop_mono (hy.stop_le _ w) _

/-! ### All nodes -/

/-- **Spans nest at every node**, whatever it is read from. -/
theorem ReadFrom.nests {all : List Expr} {t : List Char} {o : Nat} {n : Expr}
    (h : ReadFrom all t o n) : n.Nests := by
  cases h with
  | literal o ha => exact .leaf rfl
  | name o hn hword => exact .leaf rfl
  | @array w x fs o hw hx =>
      have hrow : RowIn ('[' :: w ++ (x ++ [']'])) o (fs (o + utf8Length ('[' :: w))) :=
        ((hx.row _).append _).prepend
      exact ⟨fun c hc => (hrow.lies c hc).covers, hrow.ordered⟩
  | suffix hc hx => exact hc.nests hx
  | @prefixed x y w z before ops op f fs n o hops hy hw hz hn hfront =>
      rw [hn]
      exact nests_of_prefixed op ops hy hw hz
  | @operation x w y o left right op hx hw hy hall =>
      obtain ⟨f, hf, rfl⟩ := hx
      obtain ⟨g, hg, rfl⟩ := hy
      refine ⟨List.forall_mem_cons.mpr ⟨Span.merge_covers_left _ _,
        List.forall_mem_singleton.mpr (Span.merge_covers_right _ _)⟩, ?_⟩
      refine List.pairwise_pair.mpr ?_
      exact (hf.lies _).root.precedes (hg.lies _).root (Nat.le_add_right _ _)
  | @conditional x w y w' z f g h o hx hw hy hw' hz =>
      have hno (p : Nat) : RowIn (':' :: w' ++ z) p [h (p + utf8Length (':' :: w'))] :=
        (RowIn.single (hz.lies _).root).prepend
      have hbranches (p : Nat) := (RowIn.cons (hy.lies (p + utf8Length ('?' :: w))).root
        (hno _)).prepend
      have hrow := RowIn.cons (hx.lies o).root (hbranches _)
      exact ⟨fun c hc => (hrow.lies c hc).covers, hrow.ordered⟩

/-- An identifier is read from its name. -/
theorem ReadFrom.eq_name {all : List Expr} {t : List Char} {o : Nat} {name : String} {span : Span}
    (h : ReadFrom all t o (.identifier name span)) : name = String.ofList t ∧ span = spanOf t o := by
  generalize hn : Expr.identifier name span = n at h
  cases h with
  | name o hname hword => exact Expr.identifier.inj hn
  | @suffix c x o object g hc hx =>
      cases hx <;> cases hn
  | prefixed o hops hy hw hz heq hfront =>
      rw [← hn] at heq
      cases heq
  | literal | array | operation | conditional => cases hn

end Grammar

/-! ### Whole texts -/

/-- The span of a part of a text cuts that part out. -/
theorem slice_spanOf {source : String} {before s after : List Char}
    (h : source.toList = before ++ (s ++ after)) :
    (Grammar.spanOf s (utf8Length before)).slice source = String.ofList s := by
  have hstop : min (utf8Length before + utf8Length s) (utf8Length (before ++ (s ++ after))) =
      utf8Length before + utf8Length s := by
    rw [utf8Length_append, utf8Length_append]
    omega
  unfold Span.slice Span.sliceList Grammar.spanOf
  simp only [h, hstop, Nat.min_eq_left (Nat.le_add_right _ _), dropBytes?_append, Option.bind_some,
    Nat.add_sub_cancel_left, takeBytes?_append, Option.getD_some]

/-- **The spans of an expression, and the place of a syntax error.**  Every node of an expression that is
read has a span of the source, which covers those of its children, one behind the other; the span of an
identifier is its name.  A source that is no expression is refused between two of its characters. -/
theorem Expr.spans_of_parse (source : String) :
    (∀ e, Expr.parse source = .ok e → ∀ n ∈ e.subexprs,
      n.span.LiesIn source.toList 0 ∧ n.Nests ∧
        ∀ name span, n = .identifier name span → span.slice source = name) ∧
    ∀ err, Expr.parse source = .error err → IsCut source.toList 0 err.span.start := by
  refine ⟨fun e h n hn => ?_, fun err h => Expr.isCut_of_parse h⟩
  obtain ⟨w, s, f, -, hs, hsource, rfl⟩ := Grammar.parse_eq_ok_iff.mp h
  obtain ⟨before, t, after, rfl, ht⟩ := hs.reads _ n hn
  refine ⟨Expr.lies_of_parse h n hn, ht.nests, ?_⟩
  rintro name span rfl
  obtain ⟨rfl, rfl⟩ := ht.eq_name
  rw [← utf8Length_append]
  exact slice_spanOf (by rw [hsource, List.append_assoc])

/-- A text of two bytes for one character between brackets, and a bracket that is not closed. -/
theorem Expr.spans_of_parse_brackets :
    (∃ e, Expr.parse "a[\"é\"]" = .ok e ∧
      (e.subexprs.map Expr.span = [⟨0, 7⟩, ⟨0, 1⟩, ⟨2, 6⟩] ∧ ∀ n ∈ e.subexprs,
        n.span.LiesIn "a[\"é\"]".toList 0 ∧ n.Nests)) ∧
      ∃ err, Expr.parse "a[ " = .error err ∧ IsCut "a[ ".toList 0 err.span.start := by
  refine ⟨?_, ?_⟩
  · have hspans : ((Expr.parse "a[\"é\"]").map fun e => e.subexprs.map Expr.span).toOption =
        some [⟨0, 7⟩, ⟨0, 1⟩, ⟨2, 6⟩] := by decide +kernel
    cases hparse : Expr.parse "a[\"é\"]" with
    | error err => simp [hparse, Except.map, Except.toOption] at hspans
    | ok e =>
        rw [hparse] at hspans
        refine ⟨e, rfl, Option.some.inj hspans, fun n hn => ?_⟩
        have h := (Expr.spans_of_parse "a[\"é\"]").1 e hparse n hn
        exact ⟨h.1, h.2.1⟩
  · have hfails : (Expr.parse "a[ ").isOk = false := by decide +kernel
    cases hparse : Expr.parse "a[ " with
    | error err => exact ⟨err, rfl, (Expr.spans_of_parse "a[ ").2 err hparse⟩
    | ok e => simp [hparse, Except.isOk, Except.toBool] at hfails

end LineMarkup
