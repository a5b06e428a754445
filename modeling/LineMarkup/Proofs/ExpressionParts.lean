import LineMarkup.Proofs.ExpressionSpans
import LineMarkup.Proofs.PrintedReading

/-!
# The texts of the nodes of an expression

Every node of an expression is read from a text of its own, which stands somewhere in the text of the
expression.  A statement about all nodes then needs no induction over the grammar: it is shown for each
kind of node, from what the node is read from.

That text need not be what the span of the node covers.  Parentheses leave no node, so they belong to the
text of what stands around them; the operators in front of one operand make several nodes from one text; and
an operand takes the blanks behind it.

Two kinds of nodes have no rule of the grammar to themselves.  A suffix is attached to all that stands
before it, so its node is read from a part of a chain.  An operation is made by grouping, and its node is
read from a stretch of a sequence: that a grouped sequence lies flat in its operands and operators is what
`Expr.Listing.of_group` says, and a stretch of the sequence is found from a stretch of the list.

## Main Definitions

* `SpelledAt` — a text that spells a value where it stands
* `ReadFrom` — what the nodes of an expression are read from, by their kind
* `Reads` — each of all nodes is read from a part of a text

## Main Statements

* `restAt_append` — a sequence of operands, cut at an operator
* `holds_of_listing`, `holds_of_suffixes` — operations, and nodes with a suffix
* `ExprSpelling.reads` — every node of an expression is read from a part of its text
-/

namespace LineMarkup.Grammar

open LineMarkup.Expr Reader

/-- A text that spells a value where it stands. -/
def SpelledAt {α : Type} (S : Spelling α) (s : List Char) (o : Nat) (a : α) : Prop :=
  ∃ f, S s f ∧ f o = a

/-- A spelling can be put at any offset. -/
theorem spelledAt_of {α : Type} {S : Spelling α} {s : List Char} {f : Nat → α} (h : S s f) (o : Nat) :
    SpelledAt S s o (f o) :=
  ⟨f, h, rfl⟩

/-! ### Sequences of operands -/

section Sequences

variable {F : Spelling Expr}

/-- The first of further operands stands behind its operator, and the others stand behind it. -/
theorem restAt_cons {xs : List Char} {o : Nat} {op : BinaryOp} {e : Expr}
    {rest : List (BinaryOp × Expr)} (h : SpelledAt (RestSpelling F) xs o ((op, e) :: rest)) :
    ∃ w y ys, xs = op.symbol.toList ++ w ++ (y ++ ys) ∧ Blanks w ∧
      SpelledAt (OperandSpelling F) y (o + utf8Length (op.symbol.toList ++ w)) e ∧
      SpelledAt (RestSpelling F) ys (o + utf8Length (op.symbol.toList ++ w) + utf8Length y) rest := by
  obtain ⟨fs, hxs, heq⟩ := h
  cases hxs with
  | nil => cases heq
  | cons op' hw hy hys =>
      cases heq
      exact ⟨_, _, _, rfl, hw, spelledAt_of hy _, spelledAt_of hys _⟩

/-- An operator and an operand in front of further operands. -/
theorem restAt_of_cons {w y ys : List Char} {o : Nat} (op : BinaryOp) {e : Expr}
    {rest : List (BinaryOp × Expr)} (hw : Blanks w)
    (hy : SpelledAt (OperandSpelling F) y (o + utf8Length (op.symbol.toList ++ w)) e)
    (hys : SpelledAt (RestSpelling F) ys (o + utf8Length (op.symbol.toList ++ w) + utf8Length y) rest) :
    SpelledAt (RestSpelling F) (op.symbol.toList ++ w ++ (y ++ ys)) o ((op, e) :: rest) := by
  obtain ⟨f, hy, rfl⟩ := hy
  obtain ⟨fs, hys, rfl⟩ := hys
  exact ⟨_, .cons op hw hy hys, rfl⟩

/-- **A sequence of operands, cut at an operator.** -/
theorem restAt_append {before behind : List (BinaryOp × Expr)} {op : BinaryOp} {next : Expr}
    {xs : List Char} {o : Nat}
    (h : SpelledAt (RestSpelling F) xs o (before ++ (op, next) :: behind)) :
    ∃ x w y ys, xs = x ++ (op.symbol.toList ++ w ++ (y ++ ys)) ∧
      SpelledAt (RestSpelling F) x o before ∧ Blanks w ∧
      SpelledAt (OperandSpelling F) y (o + utf8Length x + utf8Length (op.symbol.toList ++ w)) next ∧
      SpelledAt (RestSpelling F) ys
        (o + utf8Length x + utf8Length (op.symbol.toList ++ w) + utf8Length y) behind := by
  induction before generalizing xs o with
  | nil =>
      obtain ⟨w, y, ys, rfl, hw, hy, hys⟩ := restAt_cons h
      exact ⟨[], w, y, ys, rfl, ⟨_, .nil, rfl⟩, hw, hy, hys⟩
  | cons m before ih =>
      obtain ⟨op', e⟩ := m
      obtain ⟨w', y', ys', rfl, hw', hy', hrest⟩ := restAt_cons h
      obtain ⟨x, w, y, ys, rfl, hx, hw, hy, hys⟩ := ih hrest
      refine ⟨op'.symbol.toList ++ w' ++ (y' ++ x), w, y, ys, by simp only [List.append_assoc],
        restAt_of_cons op' hw' hy' hx, hw, ?_, ?_⟩
      · simpa only [utf8Length_append, Nat.add_assoc] using hy
      · simpa only [utf8Length_append, Nat.add_assoc] using hys

/-- A listing of operands is spelled by a sequence of them. -/
theorem sequenceAt_of_listing {x xs : List Char} {o bound : Nat} {first e : Expr}
    {rest : List (BinaryOp × Expr)} (hx : SpelledAt (OperandSpelling F) x o first)
    (hxs : SpelledAt (RestSpelling F) xs (o + utf8Length x) rest) (h : Listing bound first rest e) :
    SpelledAt (SequenceSpelling F) (x ++ xs) o e := by
  obtain ⟨f, hx, rfl⟩ := hx
  obtain ⟨fs, hxs, rfl⟩ := hxs
  exact ⟨_, .mk hx hxs, h.group_eq⟩

/-- One operand is a sequence of operands. -/
theorem SpelledAt.sequence {x : List Char} {o : Nat} {e : Expr}
    (h : SpelledAt (OperandSpelling F) x o e) : SpelledAt (SequenceSpelling F) x o e := by
  have halone := sequenceAt_of_listing h ⟨_, .nil, rfl⟩ (@Listing.operand 0 e)
  rwa [List.append_nil] at halone

end Sequences

/-- A sequence of operands is an expression. -/
theorem SpelledAt.expr {x : List Char} {o : Nat} {e : Expr}
    (h : SpelledAt (SequenceSpelling ExprSpelling) x o e) : SpelledAt ExprSpelling x o e := by
  obtain ⟨f, hf, he⟩ := h
  exact ⟨f, .of (.sequence hf), he⟩

/-! ### Chains of suffixes -/

/-- Operands without operators in front. -/
inductive ChainAt : List Char → Nat → Expr → Prop where
  | mk {y w z : List Char} {o : Nat} {f : Nat → Expr} {fs : Nat → List (Suffix × Span)} :
      PrimarySpelling ExprSpelling y f → Blanks w → SuffixesSpelling ExprSpelling z fs →
      ChainAt (y ++ (w ++ z)) o ((fs (o + utf8Length y + utf8Length w)).foldl extend (f o))

namespace ChainAt

variable {c : List Char} {o : Nat} {object : Expr}

/-- A chain is an operand without operators in front. -/
theorem operand (h : ChainAt c o object) : SpelledAt (OperandSpelling ExprSpelling) c o object := by
  cases h with
  | mk hy hw hz => exact ⟨_, .mk .nil hy hw hz, rfl⟩

/-- A primary is a chain without suffixes. -/
theorem of_primary {y w : List Char} {f : Nat → Expr} (hy : PrimarySpelling ExprSpelling y f)
    (hw : Blanks w) (o : Nat) : ChainAt (y ++ w) o (f o) := by
  have h := ChainAt.mk (o := o) hy hw .nil
  rwa [List.append_nil] at h

/-- A chain is an expression. -/
theorem expr (h : ChainAt c o object) : SpelledAt ExprSpelling c o object :=
  h.operand.sequence.expr

/-- A chain with one more suffix. -/
theorem snoc {x v : List Char} {g : Nat → Suffix} (h : ChainAt c o object)
    (hx : SuffixSpelling ExprSpelling x g) (hv : Blanks v) :
    ChainAt (c ++ (x ++ v)) o
      (extend object (g (o + utf8Length c), spanOf x (o + utf8Length c))) := by
  cases h with
  | mk hy hw hz =>
      have h := ChainAt.mk (o := o) hy hw (hz.snoc hx hv)
      simpa only [List.append_assoc, utf8Length_append, Nat.add_assoc, List.foldl_append,
        List.foldl_cons, List.foldl_nil] using h

end ChainAt

/-- A primary by itself. -/
theorem SpelledAt.of_primary {y : List Char} {f : Nat → Expr} (hy : PrimarySpelling ExprSpelling y f)
    (o : Nat) : SpelledAt ExprSpelling y o (f o) := by
  have h := (ChainAt.of_primary hy blanks_nil o).expr
  rwa [List.append_nil] at h

/-! ### What nodes are read from -/

/-- A node among `all` nodes of an expression is read from a text at an offset.  The text of operators in
front is that of all of them, and the operation around one of them is there too. -/
inductive ReadFrom (all : List Expr) : List Char → Nat → Expr → Prop where
  | literal {s : List Char} {v : Value} (o : Nat) : AtomSpelling s v →
      ReadFrom all s o (.literal v (spanOf s o))
  | name {s : List Char} (o : Nat) : IsName s → s ∉ reservedWords →
      ReadFrom all s o (.identifier (String.ofList s) (spanOf s o))
  | array {w x : List Char} {fs : Nat → List Expr} (o : Nat) : Blanks w →
      ArgumentsSpelling ExprSpelling x fs →
      ReadFrom all ('[' :: w ++ (x ++ [']'])) o
        (.array (fs (o + utf8Length ('[' :: w))) (spanOf ('[' :: w ++ (x ++ [']'])) o))
  | suffix {c x : List Char} {o : Nat} {object : Expr} {g : Nat → Suffix} : ChainAt c o object →
      SuffixSpelling ExprSpelling x g →
      ReadFrom all (c ++ x) o (extend object (g (o + utf8Length c), spanOf x (o + utf8Length c)))
  | prefixed {x y w z : List Char} {before ops : List UnaryOp} {op : UnaryOp} {f : Nat → Expr}
      {fs : Nat → List (Suffix × Span)} {n : Expr} (o : Nat) : PrefixesSpelling x (before ++ op :: ops) →
      PrimarySpelling ExprSpelling y f → Blanks w → SuffixesSpelling ExprSpelling z fs →
      n = (let bare := o + utf8Length x + utf8Length y + utf8Length w
        operandTree (op :: ops) (f (o + utf8Length x)) (fs bare) ⟨o, operandStop bare (fs bare)⟩) →
      (before ≠ [] → ∃ op', .unary op' n n.span ∈ all) →
      ReadFrom all (x ++ (y ++ (w ++ z))) o n
  | operation {x w y : List Char} {o : Nat} {left right : Expr} {op : BinaryOp} :
      SpelledAt (SequenceSpelling ExprSpelling) x o left → Blanks w →
      SpelledAt (SequenceSpelling ExprSpelling) y
        (o + utf8Length x + utf8Length (op.symbol.toList ++ w)) right →
      SpelledAt (SequenceSpelling ExprSpelling) (x ++ (op.symbol.toList ++ w ++ y)) o
        (join left op right) →
      ReadFrom all (x ++ (op.symbol.toList ++ w ++ y)) o (join left op right)
  | conditional {x w y w' z : List Char} {f g h : Nat → Expr} (o : Nat) :
      SequenceSpelling ExprSpelling x f → Blanks w → ExprSpelling y g → Blanks w' →
      ExprSpelling z h →
      ReadFrom all (x ++ ('?' :: w ++ (y ++ (':' :: w' ++ z)))) o
        (let yes := o + utf8Length x + utf8Length ('?' :: w)
        let no := yes + utf8Length y + utf8Length (':' :: w')
        .conditional (f o) (g yes) (h no) (spanOf (x ++ ('?' :: w ++ (y ++ (':' :: w' ++ z)))) o))

/-- A node is read from a part of a text that stands at an offset. -/
def Holds (all : List Expr) (s : List Char) (o : Nat) (n : Expr) : Prop :=
  ∃ before t after, s = before ++ (t ++ after) ∧ ReadFrom all t (o + utf8Length before) n

/-- Each of all nodes is read from a part of a text that stands at an offset. -/
def Reads (s : List Char) (o : Nat) (all : List Expr) : Prop :=
  ∀ n ∈ all, Holds all s o n

section Reading

variable {all more : List Expr} {s : List Char} {o : Nat} {n : Expr}

/-- What is read from a text does not depend on how many nodes are spoken of. -/
theorem ReadFrom.mono (h : ReadFrom all s o n) (sub : all ⊆ more) : ReadFrom more s o n := by
  cases h with
  | literal o ha => exact .literal o ha
  | name o hname hword => exact .name o hname hword
  | array o hw hx => exact .array o hw hx
  | suffix hc hx => exact .suffix hc hx
  | prefixed o hops hy hw hz hn hfront =>
      refine .prefixed o hops hy hw hz hn fun hbefore => ?_
      obtain ⟨op, hop⟩ := hfront hbefore
      exact ⟨op, sub hop⟩
  | operation hx hw hy hall => exact .operation hx hw hy hall
  | conditional o hx hw hy hw' hz => exact .conditional o hx hw hy hw' hz

namespace Holds

/-- The text of a node is a part of itself. -/
theorem of_readFrom (h : ReadFrom all s o n) : Holds all s o n :=
  ⟨[], s, [], by rw [List.append_nil, List.nil_append], h⟩

/-- A node stays read from its part if there are more nodes. -/
theorem mono (h : Holds all s o n) (sub : all ⊆ more) : Holds more s o n := by
  obtain ⟨before, t, after, hs, ht⟩ := h
  exact ⟨before, t, after, hs, ht.mono sub⟩

/-- A node stays where it is read from with more text in front. -/
theorem prepend {w : List Char} (h : Holds all s (o + utf8Length w) n) : Holds all (w ++ s) o n := by
  obtain ⟨before, t, after, rfl, ht⟩ := h
  refine ⟨w ++ before, t, after, (List.append_assoc _ _ _).symm, ?_⟩
  rwa [utf8Length_append, ← Nat.add_assoc]

/-- A node stays where it is read from with more text behind. -/
theorem append (h : Holds all s o n) (z : List Char) : Holds all (s ++ z) o n := by
  obtain ⟨before, t, after, rfl, ht⟩ := h
  exact ⟨before, t, after ++ z, by simp only [List.append_assoc], ht⟩

end Holds

namespace Reads

theorem nil (s : List Char) (o : Nat) : Reads s o [] :=
  fun n hn => by cases hn

theorem cons (h : ReadFrom (n :: all) s o n) (hall : Reads s o all) : Reads s o (n :: all) :=
  List.forall_mem_cons.mpr
    ⟨.of_readFrom h, fun m hm => (hall m hm).mono (List.subset_cons_self _ _)⟩

/-- Two lists of nodes are read from a text if each is. -/
theorem both (h : Reads s o all) (h' : Reads s o more) : Reads s o (all ++ more) :=
  List.forall_mem_append.mpr
    ⟨fun m hm => (h m hm).mono (List.subset_append_left _ _),
      fun m hm => (h' m hm).mono (List.subset_append_right _ _)⟩

/-- Nodes stay where they are read from with more text in front. -/
theorem prepend {w : List Char} (h : Reads s (o + utf8Length w) all) : Reads (w ++ s) o all :=
  fun m hm => (h m hm).prepend

/-- Nodes stay where they are read from with more text behind. -/
theorem append (h : Reads s o all) (z : List Char) : Reads (s ++ z) o all :=
  fun m hm => (h m hm).append z

end Reads

end Reading

/-! ### Operations -/

/-- The operands that an operation is listed from are among its nodes. -/
theorem subexprs_subset_of_listing {bound : Nat} {first e : Expr} {rest : List (BinaryOp × Expr)}
    (h : Listing bound first rest e) :
    first.subexprs ⊆ e.subexprs ∧ ∀ r ∈ rest, r.2.subexprs ⊆ e.subexprs := by
  induction h with
  | operand e => exact ⟨List.Subset.refl _, List.forall_mem_nil _⟩
  | @operation bound op first next left right before behind hop hleft hright ihleft ihright =>
      have hl : left.subexprs ⊆ (join left op right).subexprs :=
        List.subset_cons_of_subset _ (List.subset_append_left _ _)
      have hr : right.subexprs ⊆ (join left op right).subexprs :=
        List.subset_cons_of_subset _ (List.subset_append_right _ _)
      refine ⟨List.Subset.trans ihleft.1 hl, List.forall_mem_append.mpr
        ⟨fun r hmem => List.Subset.trans (ihleft.2 r hmem) hl, ?_⟩⟩
      exact List.forall_mem_cons.mpr ⟨List.Subset.trans ihright.1 hr,
        fun r hmem => List.Subset.trans (ihright.2 r hmem) hr⟩

/-- **The nodes of a grouped sequence**: those of its operands, and the operations, each read from the
stretch of the sequence that stands for it. -/
theorem holds_of_listing {bound : Nat} {first e : Expr} {rest : List (BinaryOp × Expr)}
    (h : Listing bound first rest e) :
    ∀ {x xs : List Char} {o : Nat}, SpelledAt (OperandSpelling ExprSpelling) x o first →
      SpelledAt (RestSpelling ExprSpelling) xs (o + utf8Length x) rest →
      ∀ n ∈ e.subexprs,
        n ∈ first.subexprs ∨ (∃ r ∈ rest, n ∈ r.2.subexprs) ∨
          ∀ all, Holds all (x ++ xs) o n := by
  induction h with
  | operand e => exact fun _ _ n hn => .inl hn
  | @operation bound op first next left right before behind hop hleft hright ihleft ihright =>
      intro x xs o hx hxs n hn
      have hall := sequenceAt_of_listing hx hxs (.operation hop hleft hright)
      obtain ⟨xs, w, y, ys, rfl, hxs, hw, hy, hys⟩ := restAt_append hxs
      rcases List.mem_cons.mp hn with rfl | hn
      · refine .inr (.inr fun all => .of_readFrom ?_)
        show ReadFrom all _ o (join left op right)
        have hl := sequenceAt_of_listing hx hxs hleft
        have hr := sequenceAt_of_listing hy hys hright
        have hread : ReadFrom all (x ++ xs ++ (op.symbol.toList ++ w ++ (y ++ ys))) o
            (join left op right) :=
          .operation hl hw (by simpa only [utf8Length_append, Nat.add_assoc] using hr)
            (by simpa only [List.append_assoc] using hall)
        simpa only [List.append_assoc] using hread
      · rcases List.mem_append.mp hn with hn | hn
        · rcases ihleft hx hxs n hn with hn | ⟨r, hr, hn⟩ | hn
          · exact .inl hn
          · exact .inr (.inl ⟨r, List.mem_append_left _ hr, hn⟩)
          · refine .inr (.inr fun all => ?_)
            have := (hn all).append (op.symbol.toList ++ w ++ (y ++ ys))
            simpa only [List.append_assoc] using this
        · refine .inr ?_
          rcases ihright hy hys n hn with hn | ⟨r, hr, hn⟩ | hn
          · exact .inl ⟨_, List.mem_append_right _ List.mem_cons_self, hn⟩
          · exact .inl ⟨r, List.mem_append_right _ (List.mem_cons_of_mem _ hr), hn⟩
          · refine .inr fun all => ?_
            have := (((hn all).prepend (w := op.symbol.toList ++ w)).prepend (w := xs)).prepend (w := x)
            simpa only [List.append_assoc] using this

/-! ### Suffixes and prefixes -/

/-- The expressions in a suffix. -/
def Suffix.subexprs : Suffix → List Expr
  | .member _ => []
  | .index key => key.subexprs
  | .call args => subexprsAll args

/-- The nodes of a chain with one more suffix: a new one, those of the chain, and those in the
suffix. -/
theorem mem_subexprs_extend {object n : Expr} {a : Suffix × Span}
    (h : n ∈ (extend object a).subexprs) :
    n = extend object a ∨ n ∈ object.subexprs ∨ n ∈ a.1.subexprs := by
  obtain ⟨suffix, span⟩ := a
  cases suffix with
  | member property =>
      rcases List.mem_cons.mp h with h | h
      · exact .inl h
      · exact .inr (.inl h)
  | index key =>
      rcases List.mem_cons.mp h with h | h
      · exact .inl h
      · exact .inr (List.mem_append.mp h)
  | call args =>
      rcases List.mem_cons.mp h with h | h
      · exact .inl h
      · exact .inr (List.mem_append.mp h)

/-- A suffix keeps the nodes of the chain that it is put behind. -/
theorem subexprs_subset_extend (object : Expr) (a : Suffix × Span) :
    object.subexprs ⊆ (extend object a).subexprs ∧ a.1.subexprs ⊆ (extend object a).subexprs := by
  obtain ⟨suffix, span⟩ := a
  cases suffix with
  | member property => exact ⟨List.subset_cons_self _ _, List.nil_subset _⟩
  | index key =>
      exact ⟨List.subset_cons_of_subset _ (List.subset_append_left _ _),
        List.subset_cons_of_subset _ (List.subset_append_right _ _)⟩
  | call args =>
      exact ⟨List.subset_cons_of_subset _ (List.subset_append_left _ _),
        List.subset_cons_of_subset _ (List.subset_append_right _ _)⟩

/-- Suffixes keep the nodes of the primary, and their own. -/
theorem subexprs_subset_foldl_extend (suffixes : List (Suffix × Span)) :
    ∀ object : Expr, object.subexprs ⊆ (suffixes.foldl extend object).subexprs ∧
      ∀ a ∈ suffixes, a.1.subexprs ⊆ (suffixes.foldl extend object).subexprs := by
  induction suffixes with
  | nil => exact fun object => ⟨List.Subset.refl _, List.forall_mem_nil _⟩
  | cons a suffixes ih =>
      intro object
      obtain ⟨hobject, hsuffixes⟩ := ih (extend object a)
      obtain ⟨h, ha⟩ := subexprs_subset_extend object a
      exact ⟨List.Subset.trans h hobject,
        List.forall_mem_cons.mpr ⟨List.Subset.trans ha hobject, hsuffixes⟩⟩

/-- **The nodes of a chain**: those of its operand and of its suffixes, and one for each suffix, read from
all that stands before it and the suffix. -/
theorem holds_of_suffixes {z : List Char} {fs : Nat → List (Suffix × Span)}
    (h : SuffixesSpelling ExprSpelling z fs) :
    ∀ {c : List Char} {o : Nat} {object : Expr}, ChainAt c o object →
      ∀ n ∈ ((fs (o + utf8Length c)).foldl extend object).subexprs,
        n ∈ object.subexprs ∨ (∃ a ∈ fs (o + utf8Length c), n ∈ a.1.subexprs) ∨
          ∀ all, Holds all (c ++ z) o n := by
  induction h with
  | nil => exact fun _ n hn => .inl hn
  | @cons x w xs f fs hx hw hxs ih =>
      intro c o object hc n hn
      have hnext := hc.snoc hx hw
      have hoffset : o + utf8Length (c ++ (x ++ w)) = o + utf8Length c + utf8Length x + utf8Length w := by
        simp only [utf8Length_append, Nat.add_assoc]
      have hn' := ih hnext n (by rw [hoffset]; exact hn)
      rw [hoffset] at hn'
      rcases hn' with hn | ⟨a, ha, hn⟩ | hn
      · rcases mem_subexprs_extend hn with rfl | hn | hn
        · refine .inr (.inr fun all => ?_)
          have := (Holds.of_readFrom (.suffix hc hx : ReadFrom all _ _ _)).append (w ++ xs)
          simpa only [List.append_assoc] using this
        · exact .inl hn
        · exact .inr (.inl ⟨_, List.mem_cons_self, hn⟩)
      · exact .inr (.inl ⟨a, List.mem_cons_of_mem _ ha, hn⟩)
      · exact .inr (.inr fun all => by simpa only [List.append_assoc] using hn all)

/-- The nodes behind operators in front: one for each operator, in the one for the operator before it, and
those of the operand. -/
theorem mem_subexprs_operandTree {ops : List UnaryOp} {first n : Expr}
    {suffixes : List (Suffix × Span)} {span : Span}
    (h : n ∈ (operandTree ops first suffixes span).subexprs) :
    (∃ before op behind, ops = before ++ op :: behind ∧
      n = operandTree (op :: behind) first suffixes span ∧
      (before ≠ [] → ∃ op', .unary op' n n.span ∈ (operandTree ops first suffixes span).subexprs)) ∨
      n ∈ (suffixes.foldl extend first).subexprs := by
  induction ops with
  | nil => exact .inr h
  | cons op ops ih =>
      rcases List.mem_cons.mp h with h | h
      · exact .inl ⟨[], op, ops, rfl, h, fun hbefore => absurd rfl hbefore⟩
      · rcases ih h with ⟨before, op', behind, rfl, hn, hfront⟩ | hn
        · refine .inl ⟨op :: before, op', behind, rfl, hn, fun _ => ?_⟩
          cases before with
          | nil =>
              refine ⟨op, List.mem_cons.mpr (.inl ?_)⟩
              rw [hn]
              rfl
          | cons _ _ =>
              obtain ⟨op'', hop⟩ := hfront (List.cons_ne_nil _ _)
              exact ⟨op'', List.mem_cons_of_mem _ hop⟩
        · exact .inr hn

/-- Operators in front keep the nodes of the chain behind them. -/
theorem subexprs_subset_operandTree (ops : List UnaryOp) (first : Expr)
    (suffixes : List (Suffix × Span)) (span : Span) :
    first.subexprs ⊆ (operandTree ops first suffixes span).subexprs ∧
      ∀ a ∈ suffixes, a.1.subexprs ⊆ (operandTree ops first suffixes span).subexprs := by
  induction ops with
  | nil => exact subexprs_subset_foldl_extend suffixes first
  | cons op ops ih =>
      exact ⟨List.subset_cons_of_subset _ ih.1,
        fun a ha => List.subset_cons_of_subset _ (ih.2 a ha)⟩

/-! ### All nodes -/

mutual

/-- **Every node of an expression is read from a part of its text.** -/
theorem ExprSpelling.reads : {s : List Char} → {f : Nat → Expr} → ExprSpelling s f → ∀ o,
    Reads s o (f o).subexprs
  | _, _, .of h => ConditionalSpelling.reads h

/-- The nodes of a conditional are read from its text. -/
theorem ConditionalSpelling.reads : {s : List Char} → {f : Nat → Expr} →
    ConditionalSpelling ExprSpelling s f → ∀ o, Reads s o (f o).subexprs
  | _, _, .sequence h => SequenceSpelling.reads h
  | _, _, .conditional hx hw hy hw' hz => fun o =>
      .cons (.conditional o hx hw hy hw' hz)
        (((SequenceSpelling.reads hx o).append _).both
          ((((ExprSpelling.reads hy _).append _).prepend.prepend).both
            (ExprSpelling.reads hz _).prepend.prepend.prepend.prepend))

/-- The nodes of operators and operands are read from their text. -/
theorem SequenceSpelling.reads : {s : List Char} → {f : Nat → Expr} →
    SequenceSpelling ExprSpelling s f → ∀ o, Reads s o (f o).subexprs
  | _, _, @SequenceSpelling.mk _ x xs f fs hx hxs => by
      intro o n hn
      have hlisting := Listing.of_group (f o) (fs (o + utf8Length x))
      obtain ⟨hfirst, hrest⟩ := subexprs_subset_of_listing hlisting
      rcases holds_of_listing hlisting (spelledAt_of hx o) (spelledAt_of hxs _) n hn with
        hn | ⟨r, hr, hn⟩ | hn
      · exact ((OperandSpelling.reads hx o n hn).mono hfirst).append _
      · exact ((RestSpelling.reads hxs _ r hr n hn).mono (hrest r hr)).prepend
      · exact hn _

/-- The nodes of further operands are read from their text. -/
theorem RestSpelling.reads : {s : List Char} → {fs : Nat → List (BinaryOp × Expr)} →
    RestSpelling ExprSpelling s fs → ∀ o, ∀ r ∈ fs o, Reads s o r.2.subexprs
  | _, _, .nil => fun _ r hr => by cases hr
  | _, _, .cons op _ hx hxs => fun o =>
      List.forall_mem_cons.mpr ⟨((OperandSpelling.reads hx _).append _).prepend,
        fun r hr => (RestSpelling.reads hxs _ r hr).prepend.prepend⟩

/-- The nodes of an operand are read from its text. -/
theorem OperandSpelling.reads : {s : List Char} → {f : Nat → Expr} →
    OperandSpelling ExprSpelling s f → ∀ o, Reads s o (f o).subexprs
  | _, _, @OperandSpelling.mk _ x y w z ops f fs hops hy hw hz => by
      intro o n hn
      rcases mem_subexprs_operandTree hn with ⟨before, op, behind, rfl, hn, hfront⟩ | hn
      · exact .of_readFrom (.prefixed o hops hy hw hz hn hfront)
      · have hchain := ChainAt.of_primary hy hw (o + utf8Length x)
        have hoffset : o + utf8Length x + utf8Length (y ++ w) =
            o + utf8Length x + utf8Length y + utf8Length w := by
          rw [utf8Length_append, Nat.add_assoc _ (utf8Length y)]
        have hn' := holds_of_suffixes hz hchain n (by rw [hoffset]; exact hn)
        rw [hoffset] at hn'
        rcases hn' with hn | ⟨a, ha, hn⟩ | hn
        · refine Holds.prepend (((PrimarySpelling.reads hy _ n hn).mono ?_).append _)
          exact (subexprs_subset_operandTree _ _ _ _).1
        · refine Holds.prepend (((SuffixesSpelling.reads hz _ a ha n hn).mono ?_).prepend.prepend)
          exact (subexprs_subset_operandTree _ _ _ _).2 a ha
        · refine Holds.prepend ?_
          simpa only [List.append_assoc] using hn _

/-- The nodes in suffixes are read from their text. -/
theorem SuffixesSpelling.reads : {s : List Char} → {fs : Nat → List (Suffix × Span)} →
    SuffixesSpelling ExprSpelling s fs → ∀ o, ∀ a ∈ fs o, Reads s o a.1.subexprs
  | _, _, .nil => fun _ a ha => by cases ha
  | _, _, .cons hx _ hxs => fun o =>
      List.forall_mem_cons.mpr ⟨(SuffixSpelling.reads hx o).append _,
        fun a ha => (SuffixesSpelling.reads hxs _ a ha).prepend.prepend⟩

/-- The nodes in a suffix are read from its text. -/
theorem SuffixSpelling.reads : {s : List Char} → {f : Nat → Suffix} →
    SuffixSpelling ExprSpelling s f → ∀ o, Reads s o (f o).subexprs
  | _, _, .member _ _ => fun o => .nil _ o
  | _, _, .index _ hx => fun _ => ((ExprSpelling.reads hx _).append _).prepend
  | _, _, .call _ hx => fun _ => ((ArgumentsSpelling.reads hx _).append _).prepend

/-- The nodes of a primary are read from its text. -/
theorem PrimarySpelling.reads : {s : List Char} → {f : Nat → Expr} →
    PrimarySpelling ExprSpelling s f → ∀ o, Reads s o (f o).subexprs
  | _, _, .literal h => fun o => .cons (.literal o h) (.nil _ o)
  | _, _, .name h hword => fun o => .cons (.name o h hword) (.nil _ o)
  | _, _, .array hw hx => fun o =>
      .cons (.array o hw hx) ((ArgumentsSpelling.reads hx _).append _).prepend
  | _, _, .parenthesised _ hx => fun _ => ((ExprSpelling.reads hx _).append _).prepend

/-- The nodes of a list of expressions are read from its text. -/
theorem ArgumentsSpelling.reads : {s : List Char} → {fs : Nat → List Expr} →
    ArgumentsSpelling ExprSpelling s fs → ∀ o, Reads s o (subexprsAll (fs o))
  | _, _, .none => .nil []
  | _, _, .some hx hxs => fun o =>
      ((ExprSpelling.reads hx o).append _).both (MoreArguments.reads hxs _).prepend

/-- The nodes of further arguments are read from their text. -/
theorem MoreArguments.reads : {s : List Char} → {fs : Nat → List Expr} →
    MoreArguments ExprSpelling s fs → ∀ o, Reads s o (subexprsAll (fs o))
  | _, _, .nil => .nil []
  | _, _, .cons _ hx hxs => fun _ =>
      (((ExprSpelling.reads hx _).append _).prepend).both (MoreArguments.reads hxs _).prepend.prepend

end

end LineMarkup.Grammar
