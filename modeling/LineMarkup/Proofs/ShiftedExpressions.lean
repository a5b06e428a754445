import LineMarkup.Proofs.ExpressionPlaces
import LineMarkup.Proofs.Grouping

/-!
# Expressions that are moved

A text that stands further on in its source is read as the same tree, with all places moved by the same
distance.  This is sharper than that what an expression says does not depend on where it stands: the
places are not forgotten, and what is read from a part of a source can be found again in the whole.

Building a tree commutes with moving it, since the smallest span that covers two moved spans is the moved
one.  For the grouping of operators nothing has to be said about its stack: a listing that stands for a
tree, moved, stands for the moved tree, and grouping finds the tree that a listing stands for.

## Main Definitions

* `Span.shift`, `Expr.shift` — moved spans and trees
* `Moves` — a tree that moves along with its text

## Main Statements

* `Expr.shift_group` — grouping commutes with moving
* `ExprSpelling.moves` — a text further on spells the moved tree
-/

namespace LineMarkup

/-- A span, moved. -/
def Span.shift (k : Nat) (span : Span) : Span :=
  ⟨span.start + k, span.stop + k⟩

/-- Two spans that are moved together are covered by what covered them. -/
theorem Span.merge_shift (k : Nat) (a b : Span) :
    (a.shift k).merge (b.shift k) = (a.merge b).shift k := by
  simp only [Span.merge, Span.shift, Nat.add_min_add_right, Nat.add_max_add_right]

/-! ### Trees -/

namespace Expr

mutual

/-- An expression with all its places moved. -/
def shift (k : Nat) : Expr → Expr
  | literal v span => .literal v (span.shift k)
  | array es span => .array (shiftAll k es) (span.shift k)
  | identifier n span => .identifier n (span.shift k)
  | member object property span => .member (object.shift k) property (span.shift k)
  | index object key span => .index (object.shift k) (key.shift k) (span.shift k)
  | call callee args span => .call (callee.shift k) (shiftAll k args) (span.shift k)
  | binary left op right span => .binary (left.shift k) op (right.shift k) (span.shift k)
  | unary op operand span => .unary op (operand.shift k) (span.shift k)
  | conditional test yes no span =>
    .conditional (test.shift k) (yes.shift k) (no.shift k) (span.shift k)

/-- Several expressions, moved. -/
def shiftAll (k : Nat) : List Expr → List Expr
  | [] => []
  | e :: es => e.shift k :: shiftAll k es

end

/-- Operands behind operators, moved. -/
def shiftRest (k : Nat) (rest : List (BinaryOp × Expr)) : List (BinaryOp × Expr) :=
  rest.map fun r => (r.1, r.2.shift k)

/-- The span of a moved expression is the moved span. -/
theorem span_shift (k : Nat) (e : Expr) : (e.shift k).span = e.span.shift k := by
  cases e <;> rfl

/-- A moved operation has moved operands. -/
theorem shift_join (k : Nat) (left : Expr) (op : BinaryOp) (right : Expr) :
    (join left op right).shift k = join (left.shift k) op (right.shift k) := by
  rw [join, join, span_shift, span_shift, Span.merge_shift]
  rfl

/-- A listing, moved, stands for the moved tree. -/
theorem Listing.shift (k : Nat) {bound : Nat} {first e : Expr} {rest : List (BinaryOp × Expr)}
    (h : Listing bound first rest e) :
    Listing bound (first.shift k) (shiftRest k rest) (e.shift k) := by
  induction h with
  | operand e => exact .operand _
  | operation hop _ _ ihleft ihright =>
      rw [shift_join]
      simp only [shiftRest, List.map_append, List.map_cons]
      exact .operation hop ihleft ihright

/-- **Grouping commutes with moving.** -/
theorem shift_group (k : Nat) (first : Expr) (rest : List (BinaryOp × Expr)) :
    (group first rest).shift k = group (first.shift k) (shiftRest k rest) :=
  ((Listing.of_group first rest).shift k).group_eq.symm

end Expr

namespace Grammar

open Reader

/-! ### Suffixes and prefixes -/

/-- A suffix, moved. -/
def Suffix.shift (k : Nat) : Suffix → Suffix
  | member property => .member property
  | index key => .index (key.shift k)
  | call args => .call (Expr.shiftAll k args)

/-- Suffixes with their spans, moved. -/
def shiftSuffixes (k : Nat) (suffixes : List (Suffix × Span)) : List (Suffix × Span) :=
  suffixes.map fun a => (a.1.shift k, a.2.shift k)

/-- A moved chain is a moved chain with a moved suffix behind it. -/
theorem shift_extend (k : Nat) (object : Expr) (a : Suffix × Span) :
    (extend object a).shift k = extend (object.shift k) (a.1.shift k, a.2.shift k) := by
  obtain ⟨suffix, span⟩ := a
  unfold extend
  rw [Expr.span_shift, Span.merge_shift]
  cases suffix <;> rfl

/-- A moved operand has its parts moved. -/
theorem shift_operandTree (k : Nat) (ops : List UnaryOp) (first : Expr)
    (suffixes : List (Suffix × Span)) (span : Span) :
    (operandTree ops first suffixes span).shift k =
      operandTree ops (first.shift k) (shiftSuffixes k suffixes) (span.shift k) := by
  unfold operandTree
  induction ops with
  | cons op ops ih => exact congrArg (Expr.unary op · _) ih
  | nil =>
      show (suffixes.foldl extend first).shift k =
        (shiftSuffixes k suffixes).foldl extend (first.shift k)
      induction suffixes generalizing first with
      | nil => rfl
      | cons a suffixes ih =>
          rw [List.foldl_cons, ih, shift_extend]
          rfl

/-- A moved operand stops at the moved place. -/
theorem operandStop_shift (k bare : Nat) (suffixes : List (Suffix × Span)) :
    operandStop (bare + k) (shiftSuffixes k suffixes) = operandStop bare suffixes + k := by
  unfold operandStop shiftSuffixes
  rw [List.getLast?_map]
  cases suffixes.getLast? <;> rfl

/-! ### Spellings further on -/

/-- What is spelled further on is the same, moved. -/
def Moves {α : Type} (move : Nat → α → α) (f : Nat → α) : Prop :=
  ∀ k o, f (o + k) = move k (f o)

/-- The offset of a part of a text moves along with the text. -/
theorem Moves.part {α : Type} {move : Nat → α → α} {f : Nat → α} (h : Moves move f) (k o d : Nat) :
    f (o + k + d) = move k (f (o + d)) := by
  rw [Nat.add_right_comm]
  exact h k (o + d)

/-- A text that stands further on has a span that is moved. -/
theorem spanOf_shift (s : List Char) (k o : Nat) : spanOf s (o + k) = (spanOf s o).shift k := by
  unfold spanOf Span.shift
  rw [Nat.add_right_comm]

mutual

/-- **A text further on spells the moved tree.** -/
theorem ExprSpelling.moves : {s : List Char} → {f : Nat → Expr} → ExprSpelling s f →
    Moves Expr.shift f
  | _, _, .of h => ConditionalSpelling.moves h

/-- A conditional that stands further on is moved. -/
theorem ConditionalSpelling.moves : {s : List Char} → {f : Nat → Expr} →
    ConditionalSpelling ExprSpelling s f → Moves Expr.shift f
  | _, _, .sequence h => SequenceSpelling.moves h
  | _, _, .conditional hx _ hy _ hz => by
      intro k o
      have hyes := ExprSpelling.moves hy
      have hno := ExprSpelling.moves hz
      simp only [Expr.shift, Nat.add_right_comm _ k]
      rw [SequenceSpelling.moves hx k, hyes k, hno k, spanOf_shift]

/-- Operators and operands that stand further on are moved. -/
theorem SequenceSpelling.moves : {s : List Char} → {f : Nat → Expr} →
    SequenceSpelling ExprSpelling s f → Moves Expr.shift f
  | _, _, .mk hx hxs => by
      intro k o
      simp only [Expr.shift_group, Nat.add_right_comm _ k]
      rw [OperandSpelling.moves hx k, RestSpelling.moves hxs k]

/-- Further operands that stand further on are moved. -/
theorem RestSpelling.moves : {s : List Char} → {fs : Nat → List (BinaryOp × Expr)} →
    RestSpelling ExprSpelling s fs → Moves Expr.shiftRest fs
  | _, _, .nil => fun _ _ => rfl
  | _, _, .cons op _ hx hxs => by
      intro k o
      simp only [Nat.add_right_comm _ k]
      rw [OperandSpelling.moves hx k, RestSpelling.moves hxs k]
      rfl

/-- An operand that stands further on is moved, with the place where it stops. -/
theorem OperandSpelling.moves : {s : List Char} → {f : Nat → Expr} →
    OperandSpelling ExprSpelling s f → Moves Expr.shift f
  | _, _, .mk _ hy _ hz => by
      intro k o
      simp only [shift_operandTree, Nat.add_right_comm _ k]
      rw [PrimarySpelling.moves hy k, SuffixesSpelling.moves hz k, operandStop_shift]
      rfl

/-- Suffixes that stand further on are moved, with their spans. -/
theorem SuffixesSpelling.moves : {s : List Char} → {fs : Nat → List (Suffix × Span)} →
    SuffixesSpelling ExprSpelling s fs → Moves shiftSuffixes fs
  | _, _, .nil => fun _ _ => rfl
  | _, _, .cons hx _ hxs => by
      intro k o
      simp only [Nat.add_right_comm _ k]
      rw [SuffixSpelling.moves hx k, spanOf_shift, SuffixesSpelling.moves hxs k]
      rfl

/-- What is in a suffix that stands further on is moved. -/
theorem SuffixSpelling.moves : {s : List Char} → {f : Nat → Suffix} →
    SuffixSpelling ExprSpelling s f → Moves Suffix.shift f
  | _, _, .member _ _ => fun _ _ => rfl
  | _, _, .index _ hx => fun k o => congrArg Suffix.index ((ExprSpelling.moves hx).part k o _)
  | _, _, .call _ hx => fun k o => congrArg Suffix.call ((ArgumentsSpelling.moves hx).part k o _)

/-- A primary that stands further on is moved. -/
theorem PrimarySpelling.moves : {s : List Char} → {f : Nat → Expr} →
    PrimarySpelling ExprSpelling s f → Moves Expr.shift f
  | _, _, .literal _ => fun k o => congrArg (Expr.literal _) (spanOf_shift _ k o)
  | _, _, .name _ _ => fun k o => congrArg (Expr.identifier _) (spanOf_shift _ k o)
  | _, _, .array _ hx => fun k o =>
      congr (congrArg Expr.array ((ArgumentsSpelling.moves hx).part k o _)) (spanOf_shift _ k o)
  | _, _, .parenthesised _ hx => fun k o => (ExprSpelling.moves hx).part k o _

/-- A list of expressions that stands further on is moved. -/
theorem ArgumentsSpelling.moves : {s : List Char} → {fs : Nat → List Expr} →
    ArgumentsSpelling ExprSpelling s fs → Moves Expr.shiftAll fs
  | _, _, .none => fun _ _ => rfl
  | _, _, .some hx hxs => by
      intro k o
      simp only [Expr.shiftAll, Nat.add_right_comm _ k]
      rw [ExprSpelling.moves hx k, MoreArguments.moves hxs k]

/-- Further arguments that stand further on are moved. -/
theorem MoreArguments.moves : {s : List Char} → {fs : Nat → List Expr} →
    MoreArguments ExprSpelling s fs → Moves Expr.shiftAll fs
  | _, _, .nil => fun _ _ => rfl
  | _, _, .cons _ hx hxs => by
      intro k o
      simp only [Expr.shiftAll, Nat.add_right_comm _ k]
      rw [ExprSpelling.moves hx k, MoreArguments.moves hxs k]

end

end Grammar

end LineMarkup
