import LineMarkup.Proofs.ExpressionReading
import LineMarkup.Proofs.RenderingLocality

/-!
# Where expressions stand

Every node of an expression that is read from a text has a span in that text: it is not empty, and
neither end of it splits a character.

A text can be cut between any two characters, and each span of a node has cuts for its ends.  Three
kinds of spans come into a tree: that of a token or of a whole level, from the start of its text to some
cut; that of a prefixed operation, which may leave out the blanks behind its operand; and the smallest
one that covers two others.  The ends of the last kind are among the ends of the other two, so covering
keeps the property whatever the texts of the two are, and nothing has to be known about the order in
which operators are grouped.

## Main Definitions

* `IsCut` — an offset that splits no character of a text
* `Span.LiesIn` — a span of a text
* `Expr.Spans` — all spans of an expression are of a kind

## Main Statements

* `Expr.Spans.group` — grouping operators keeps every property that covering keeps
* `ExprSpelling.lies` — the spans of an expression lie in its text
* `Expr.lies_of_parse` — the same of an expression that is read
-/

namespace LineMarkup

/-! ### Cuts -/

/-- An offset that splits no character of a text that starts at `o`: all of the text before it, all
behind it, or a part before it and a part behind it. -/
def IsCut (s : List Char) (o n : Nat) : Prop :=
  ∃ before after, s = before ++ after ∧ n = o + utf8Length before

namespace IsCut

variable {s : List Char} {o n : Nat}

/-- A text can be cut in front of all of it. -/
theorem first (s : List Char) (o : Nat) : IsCut s o o :=
  ⟨[], s, rfl, rfl⟩

/-- A text can be cut behind all of it. -/
theorem last (s : List Char) (o : Nat) : IsCut s o (o + utf8Length s) :=
  ⟨s, [], (List.append_nil s).symm, rfl⟩

/-- A cut stays one with more text in front. -/
theorem prepend {w : List Char} (h : IsCut s (o + utf8Length w) n) : IsCut (w ++ s) o n := by
  obtain ⟨before, after, rfl, rfl⟩ := h
  refine ⟨w ++ before, after, (List.append_assoc w before after).symm, ?_⟩
  rw [utf8Length_append, Nat.add_assoc]

/-- A cut stays one with more text behind. -/
theorem append (h : IsCut s o n) (z : List Char) : IsCut (s ++ z) o n := by
  obtain ⟨before, after, rfl, rfl⟩ := h
  exact ⟨before, after ++ z, List.append_assoc before after z, rfl⟩

/-- No cut is in front of the text. -/
theorem le (h : IsCut s o n) : o ≤ n := by
  obtain ⟨before, after, rfl, rfl⟩ := h
  exact Nat.le_add_right _ _

/-- No cut is behind the text. -/
theorem le_last (h : IsCut s o n) : n ≤ o + utf8Length s := by
  obtain ⟨before, after, rfl, rfl⟩ := h
  rw [utf8Length_append, ← Nat.add_assoc]
  exact Nat.le_add_right _ _

/-- The smaller of two cuts is a cut. -/
theorem min {m : Nat} (hm : IsCut s o m) (hn : IsCut s o n) : IsCut s o (min m n) := by
  rcases Nat.le_total m n with h | h
  · rwa [Nat.min_eq_left h]
  · rwa [Nat.min_eq_right h]

/-- The larger of two cuts is a cut. -/
theorem max {m : Nat} (hm : IsCut s o m) (hn : IsCut s o n) : IsCut s o (max m n) := by
  rcases Nat.le_total m n with h | h
  · rwa [Nat.max_eq_right h]
  · rwa [Nat.max_eq_left h]

end IsCut

/-- A span of a text that starts at `o`: it is not empty, and its ends are cuts. -/
structure Span.LiesIn (span : Span) (s : List Char) (o : Nat) : Prop where
  nonempty : span.start < span.stop
  start : IsCut s o span.start
  stop : IsCut s o span.stop

namespace Span.LiesIn

variable {a b : Span} {s : List Char} {o : Nat}

/-- A span of a text stays one with more text in front. -/
theorem prepend {w : List Char} (h : a.LiesIn s (o + utf8Length w)) : a.LiesIn (w ++ s) o :=
  ⟨h.nonempty, h.start.prepend, h.stop.prepend⟩

/-- A span of a text stays one with more text behind. -/
theorem append (h : a.LiesIn s o) (z : List Char) : a.LiesIn (s ++ z) o :=
  ⟨h.nonempty, h.start.append z, h.stop.append z⟩

/-- **The smallest span that covers two spans of a text is a span of the text.** -/
theorem merge (ha : a.LiesIn s o) (hb : b.LiesIn s o) : (a.merge b).LiesIn s o where
  nonempty := calc
    (a.merge b).start ≤ a.start := Nat.min_le_left _ _
    _ < a.stop := ha.nonempty
    _ ≤ (a.merge b).stop := Nat.le_max_left _ _
  start := ha.start.min hb.start
  stop := ha.stop.max hb.stop

end Span.LiesIn

/-- A text that is not empty has bytes. -/
theorem utf8Length_pos {s : List Char} (hs : s ≠ []) : 0 < utf8Length s := by
  obtain ⟨x, xs, rfl⟩ := List.exists_cons_of_ne_nil hs
  rw [utf8Length_cons]
  exact Nat.add_pos_left x.utf8Size_pos _

/-- The span of a whole text lies in it. -/
theorem Grammar.spanOf_liesIn {s : List Char} (hs : s ≠ []) (o : Nat) : (spanOf s o).LiesIn s o :=
  ⟨Nat.lt_add_of_pos_right (utf8Length_pos hs), .first s o, .last s o⟩

/-! ### Spans of trees -/

namespace Expr

/-- All spans of an expression are of a kind. -/
def Spans (P : Span → Prop) (e : Expr) : Prop :=
  ∀ n ∈ e.subexprs, P n.span

/-- All spans of several expressions are of a kind. -/
def SpansAll (P : Span → Prop) (es : List Expr) : Prop :=
  ∀ n ∈ subexprsAll es, P n.span

variable {P Q : Span → Prop}

/-- A kind of spans may be replaced by a wider one. -/
theorem Spans.mono {e : Expr} (h : e.Spans P) (sub : ∀ span, P span → Q span) : e.Spans Q :=
  fun n hn => sub _ (h n hn)

theorem SpansAll.mono {es : List Expr} (h : SpansAll P es) (sub : ∀ span, P span → Q span) :
    SpansAll Q es :=
  fun n hn => sub _ (h n hn)

/-- The span of an expression is one of its spans. -/
theorem Spans.root {e : Expr} (h : e.Spans P) : P e.span :=
  h e (mem_subexprs_self e)

theorem SpansAll.nil : SpansAll P [] :=
  fun n hn => by cases hn

theorem SpansAll.cons {e : Expr} {es : List Expr} (he : e.Spans P) (hes : SpansAll P es) :
    SpansAll P (e :: es) :=
  List.forall_mem_append.mpr ⟨he, hes⟩

theorem Spans.leaf_literal {v : Value} {span : Span} (h : P span) : (literal v span).Spans P :=
  List.forall_mem_singleton.mpr h

theorem Spans.leaf_identifier {name : String} {span : Span} (h : P span) :
    (identifier name span).Spans P :=
  List.forall_mem_singleton.mpr h

/-- A list adds its own span to those of its elements. -/
theorem Spans.array {es : List Expr} {span : Span} (hes : SpansAll P es) (h : P span) :
    (array es span).Spans P :=
  List.forall_mem_cons.mpr ⟨h, hes⟩

/-- A prefixed operation adds its own span to those of its operand. -/
theorem Spans.unary {op : UnaryOp} {e : Expr} {span : Span} (he : e.Spans P) (h : P span) :
    (unary op e span).Spans P :=
  List.forall_mem_cons.mpr ⟨h, he⟩

/-- A conditional adds its own span to those of its three parts. -/
theorem Spans.conditional {test yes no : Expr} {span : Span} (htest : test.Spans P)
    (hyes : yes.Spans P) (hno : no.Spans P) (h : P span) : (conditional test yes no span).Spans P :=
  List.forall_mem_cons.mpr
    ⟨h, List.forall_mem_append.mpr ⟨htest, List.forall_mem_append.mpr ⟨hyes, hno⟩⟩⟩

/-! ### Operators -/

section Covering

variable (hmerge : ∀ a b, P a → P b → P (a.merge b))
include hmerge

/-- An operation adds the span that covers its operands. -/
theorem Spans.join {left right : Expr} (op : BinaryOp) (hleft : left.Spans P)
    (hright : right.Spans P) : (join left op right).Spans P :=
  List.forall_mem_cons.mpr
    ⟨hmerge _ _ hleft.root hright.root, List.forall_mem_append.mpr ⟨hleft, hright⟩⟩

/-- Taking operands off the stack keeps the kind of their spans. -/
theorem Spans.close {waiting : List (Expr × BinaryOp)} (bound : Nat)
    (hwaiting : ∀ w ∈ waiting, w.1.Spans P) :
    ∀ {e : Expr}, e.Spans P →
      (∀ w ∈ (close bound waiting e).1, w.1.Spans P) ∧ (close bound waiting e).2.Spans P := by
  induction waiting with
  | nil => exact fun he => ⟨hwaiting, he⟩
  | cons w waiting ih =>
      obtain ⟨left, op⟩ := w
      intro e he
      obtain ⟨hleft, hrest⟩ := List.forall_mem_cons.mp hwaiting
      rw [Expr.close]
      split
      · exact ih hrest (.join hmerge op hleft he)
      · exact ⟨hwaiting, he⟩

/-- Operands that come one after the other are grouped into operations that cover them. -/
theorem Spans.groupOnto {rest : List (BinaryOp × Expr)} (hrest : ∀ r ∈ rest, r.2.Spans P) :
    ∀ {waiting : List (Expr × BinaryOp)} {e : Expr}, (∀ w ∈ waiting, w.1.Spans P) → e.Spans P →
      (groupOnto waiting e rest).Spans P := by
  induction rest with
  | nil => exact fun hwaiting he => (Spans.close hmerge 0 hwaiting he).2
  | cons r rest ih =>
      obtain ⟨op, next⟩ := r
      intro waiting e hwaiting he
      obtain ⟨hnext, hrest⟩ := List.forall_mem_cons.mp hrest
      obtain ⟨hwaiting', he'⟩ := Spans.close hmerge op.precedence hwaiting he
      exact ih hrest (List.forall_mem_cons.mpr ⟨he', hwaiting'⟩) hnext

/-- **Grouping operators keeps every property of spans that covering keeps.** -/
theorem Spans.group {first : Expr} {rest : List (BinaryOp × Expr)} (hfirst : first.Spans P)
    (hrest : ∀ r ∈ rest, r.2.Spans P) : (group first rest).Spans P :=
  .groupOnto hmerge hrest (fun w hw => by cases hw) hfirst

end Covering

end Expr

namespace Grammar

open LineMarkup.Expr

/-! ### Suffixes and prefixes -/

/-- All spans in a suffix are of a kind. -/
def Suffix.Spans (P : Span → Prop) : Suffix → Prop
  | .member _ => True
  | .index key => key.Spans P
  | .call args => SpansAll P args

variable {P Q : Span → Prop}

/-- A kind of spans may be replaced by a wider one. -/
theorem Suffix.Spans.mono {a : Suffix} (h : a.Spans P) (sub : ∀ span, P span → Q span) :
    a.Spans Q := by
  cases a with
  | member property => trivial
  | index key => exact Expr.Spans.mono h sub
  | call args => exact SpansAll.mono h sub

/-- A suffix adds the span that covers the chain in front of it and its own. -/
theorem spans_extend (hmerge : ∀ a b, P a → P b → P (a.merge b)) {object : Expr}
    {a : Suffix × Span} (hobject : object.Spans P) (ha : a.1.Spans P) (hspan : P a.2) :
    (extend object a).Spans P := by
  obtain ⟨suffix, span⟩ := a
  have hroot := hmerge _ _ hobject.root hspan
  cases suffix with
  | member property => exact List.forall_mem_cons.mpr ⟨hroot, hobject⟩
  | index key =>
      exact List.forall_mem_cons.mpr ⟨hroot, List.forall_mem_append.mpr ⟨hobject, ha⟩⟩
  | call args =>
      exact List.forall_mem_cons.mpr ⟨hroot, List.forall_mem_append.mpr ⟨hobject, ha⟩⟩

/-- A chain of suffixes adds spans that cover longer and longer parts of it. -/
theorem spans_foldl_extend (hmerge : ∀ a b, P a → P b → P (a.merge b))
    {suffixes : List (Suffix × Span)} (hsuffixes : ∀ a ∈ suffixes, a.1.Spans P ∧ P a.2) :
    ∀ {first : Expr}, first.Spans P → (suffixes.foldl extend first).Spans P := by
  induction suffixes with
  | nil => exact fun hfirst => hfirst
  | cons a suffixes ih =>
      intro first hfirst
      obtain ⟨ha, hsuffixes⟩ := List.forall_mem_cons.mp hsuffixes
      exact ih hsuffixes (spans_extend hmerge hfirst ha.1 ha.2)

/-- The span of prefixed operations is theirs only: without operators it is not looked at. -/
theorem spans_operandTree {ops : List UnaryOp} {first : Expr} {suffixes : List (Suffix × Span)}
    {span : Span} (h : (suffixes.foldl extend first).Spans P) (hspan : P span) :
    (operandTree ops first suffixes span).Spans P := by
  unfold operandTree
  induction ops with
  | nil => exact h
  | cons op ops ih => exact .unary ih hspan

/-! ### Spelled expressions -/

/-- A prefixed operation ends behind its operand: with the last suffix, or before what comes next. -/
theorem operandStop_liesIn {s z : List Char} {o bare : Nat} {suffixes : List (Suffix × Span)}
    (hbare : o < bare) (hcut : IsCut s o bare) (hz : ∀ n, IsCut z bare n → IsCut s o n)
    (hsuffixes : ∀ a ∈ suffixes, a.2.LiesIn z bare) :
    Span.LiesIn ⟨o, operandStop bare suffixes⟩ s o := by
  unfold operandStop
  cases hlast : suffixes.getLast? with
  | none => exact ⟨hbare, .first s o, hcut⟩
  | some a =>
      have ha := hsuffixes a (List.mem_of_getLast? hlast)
      exact ⟨Nat.lt_trans (Nat.lt_of_lt_of_le hbare ha.start.le) ha.nonempty, .first s o,
        hz _ ha.stop⟩

mutual

/-- **The spans of an expression lie in its text**, wherever the text stands. -/
theorem ExprSpelling.lies : {s : List Char} → {f : Nat → Expr} → ExprSpelling s f → ∀ o,
    (f o).Spans (·.LiesIn s o)
  | _, _, .of h => ConditionalSpelling.lies h

/-- The spans of a conditional lie in its text: it has that of the whole level. -/
theorem ConditionalSpelling.lies : {s : List Char} → {f : Nat → Expr} →
    ConditionalSpelling ExprSpelling s f → ∀ o, (f o).Spans (·.LiesIn s o)
  | _, _, .sequence h => SequenceSpelling.lies h
  | _, _, .conditional hx _ hy _ hz => by
      intro o
      refine .conditional ((SequenceSpelling.lies hx o).mono fun _ h => h.append _)
        ((ExprSpelling.lies hy _).mono fun _ h => ?_)
        ((ExprSpelling.lies hz _).mono fun _ h => ?_) (spanOf_liesIn (by simp) o)
      · exact ((h.append _).prepend).prepend
      · exact ((h.prepend).prepend.prepend).prepend

/-- The spans of operators and operands lie in their text. -/
theorem SequenceSpelling.lies : {s : List Char} → {f : Nat → Expr} →
    SequenceSpelling ExprSpelling s f → ∀ o, (f o).Spans (·.LiesIn s o)
  | _, _, .mk hx hxs => by
      intro o
      refine .group (fun a b ha hb => ha.merge hb) ?_ fun r hr => ?_
      · exact (OperandSpelling.lies hx o).mono fun _ h => h.append _
      · exact (RestSpelling.lies hxs _ r hr).mono fun _ h => h.prepend

/-- The spans of further operands lie in their text. -/
theorem RestSpelling.lies : {s : List Char} → {fs : Nat → List (BinaryOp × Expr)} →
    RestSpelling ExprSpelling s fs → ∀ o, ∀ r ∈ fs o, r.2.Spans (·.LiesIn s o)
  | _, _, .nil => fun _ r hr => by cases hr
  | _, _, .cons op _ hx hxs => by
      intro o
      refine List.forall_mem_cons.mpr ⟨?_, fun r hr => ?_⟩
      · exact (OperandSpelling.lies hx _).mono fun _ h => (h.append _).prepend
      · exact (RestSpelling.lies hxs _ r hr).mono fun _ h => h.prepend.prepend

/-- The spans of an operand lie in its text, which goes on behind where the operand stops. -/
theorem OperandSpelling.lies : {s : List Char} → {f : Nat → Expr} →
    OperandSpelling ExprSpelling s f → ∀ o, (f o).Spans (·.LiesIn s o)
  | _, _, @OperandSpelling.mk _ x y w z _ _ _ _ hy _ hz => by
      intro o
      -- Without suffixes, prefixed operations end where a suffix would start, behind the blanks `w`.
      have hsuffixes := SuffixesSpelling.lies hz (o + utf8Length x + utf8Length y + utf8Length w)
      have hbehind (span : Span) (h : span.LiesIn z (o + utf8Length x + utf8Length y + utf8Length w)) :
          span.LiesIn (x ++ (y ++ (w ++ z))) o := h.prepend.prepend.prepend
      refine spans_operandTree (spans_foldl_extend (fun a b ha hb => ha.merge hb)
        (fun a ha => ⟨(hsuffixes a ha).1.mono hbehind, hbehind _ (hsuffixes a ha).2⟩) ?_) ?_
      · exact (PrimarySpelling.lies hy _).mono fun _ h => (h.append _).prepend
      · refine operandStop_liesIn ?_ ?_ (fun n h => h.prepend.prepend.prepend)
          fun a ha => (hsuffixes a ha).2
        · have := utf8Length_pos hy.opens.ne_nil
          omega
        · exact ((IsCut.first z _).prepend).prepend.prepend

/-- The spans of suffixes, and of what is in them, lie in their text. -/
theorem SuffixesSpelling.lies : {s : List Char} → {fs : Nat → List (Suffix × Span)} →
    SuffixesSpelling ExprSpelling s fs → ∀ o, ∀ a ∈ fs o,
      a.1.Spans (·.LiesIn s o) ∧ a.2.LiesIn s o
  | _, _, .nil => fun _ a ha => by cases ha
  | _, _, .cons hx _ hxs => by
      intro o
      refine List.forall_mem_cons.mpr ⟨⟨?_, ?_⟩, fun a ha => ⟨?_, ?_⟩⟩
      · exact (SuffixSpelling.lies hx o).mono fun _ h => h.append _
      · exact (spanOf_liesIn hx.opens.ne_nil o).append _
      · exact (SuffixesSpelling.lies hxs _ a ha).1.mono fun _ h => h.prepend.prepend
      · exact (SuffixesSpelling.lies hxs _ a ha).2.prepend.prepend

/-- The spans of what is in a suffix lie in its text. -/
theorem SuffixSpelling.lies : {s : List Char} → {f : Nat → Suffix} →
    SuffixSpelling ExprSpelling s f → ∀ o, (f o).Spans (·.LiesIn s o)
  | _, _, .member _ _ => fun _ => trivial
  | _, _, .index _ hx => fun _ =>
      (ExprSpelling.lies hx _).mono fun _ h => (h.append _).prepend
  | _, _, .call _ hx => fun _ =>
      (ArgumentsSpelling.lies hx _).mono fun _ h => (h.append _).prepend

/-- The spans of a primary lie in its text. -/
theorem PrimarySpelling.lies : {s : List Char} → {f : Nat → Expr} →
    PrimarySpelling ExprSpelling s f → ∀ o, (f o).Spans (·.LiesIn s o)
  | _, _, .literal h => fun o => .leaf_literal (spanOf_liesIn h.opens.ne_nil o)
  | _, _, .name h _ => fun o => .leaf_identifier (spanOf_liesIn h.opens.ne_nil o)
  | _, _, .array _ hx => fun o =>
      .array ((ArgumentsSpelling.lies hx _).mono fun _ h => (h.append _).prepend)
        (spanOf_liesIn (by simp) o)
  | _, _, .parenthesised _ hx => fun _ =>
      (ExprSpelling.lies hx _).mono fun _ h => (h.append _).prepend

/-- The spans of a list of expressions lie in its text. -/
theorem ArgumentsSpelling.lies : {s : List Char} → {fs : Nat → List Expr} →
    ArgumentsSpelling ExprSpelling s fs → ∀ o, SpansAll (·.LiesIn s o) (fs o)
  | _, _, .none => fun _ => .nil
  | _, _, .some hx hxs => fun o =>
      .cons ((ExprSpelling.lies hx o).mono fun _ h => h.append _)
        ((MoreArguments.lies hxs _).mono fun _ h => h.prepend)

/-- The spans of further arguments lie in their text. -/
theorem MoreArguments.lies : {s : List Char} → {fs : Nat → List Expr} →
    MoreArguments ExprSpelling s fs → ∀ o, SpansAll (·.LiesIn s o) (fs o)
  | _, _, .nil => fun _ => .nil
  | _, _, .cons _ hx hxs => fun _ =>
      .cons ((ExprSpelling.lies hx _).mono fun _ h => (h.append _).prepend)
        ((MoreArguments.lies hxs _).mono fun _ h => h.prepend.prepend)

end

end Grammar

/-- **The spans of an expression that is read lie in its source.** -/
theorem Expr.lies_of_parse {source : String} {e : Expr} (h : Expr.parse source = .ok e) :
    e.Spans (·.LiesIn source.toList 0) := by
  obtain ⟨w, s, f, -, hs, hsource, rfl⟩ := Grammar.parse_eq_ok_iff.mp h
  rw [hsource]
  refine (hs.lies _).mono fun span hspan => Span.LiesIn.prepend ?_
  rwa [Nat.zero_add]

end LineMarkup
