import LineMarkup.Proofs.PrintedReading

/-!
# Expressions and their places

What an expression says does not depend on where its text stands: a spelling gives trees that differ
in their places only, whatever offset they are read at.

Places come into a tree at three points.  Literals and names take their own span, suffixes and
operations the span that covers their parts, and prefixed operations and conditionals the span that
their reader measured.  None of them is looked at while a tree is built, so building commutes with
forgetting places.  The point that needs an argument is the grouping of operators, which goes over
a stack.

## Main Definitions

* `Suffix.unplaced` — a suffix without its places
* `Steady` — trees that are the same at every offset, their places aside

## Main Statements

* `Expr.unplaced_group` — grouping does not look at places
* `ExprSpelling.steady` — a spelling says the same at every offset
-/

namespace LineMarkup

/-! ### Building without places -/

namespace Expr

/-- Without places, all spans are the same. -/
theorem span_unplaced (e : Expr) : e.unplaced.span = default := by
  cases e <;> rfl

/-- An operation without its places is made of operands without theirs. -/
theorem unplaced_join (left : Expr) (op : BinaryOp) (right : Expr) :
    (join left op right).unplaced = join left.unplaced op right.unplaced := by
  unfold join
  rw [unplaced, span_unplaced, span_unplaced]
  rfl

/-- Operands that wait, without their places. -/
def unplacedWaiting (waiting : List (Expr × BinaryOp)) : List (Expr × BinaryOp) :=
  waiting.map fun w => (w.1.unplaced, w.2)

/-- Operands behind operators, without their places. -/
def unplacedRest (rest : List (BinaryOp × Expr)) : List (BinaryOp × Expr) :=
  rest.map fun r => (r.1, r.2.unplaced)

/-- Taking operands off the stack does not look at places. -/
theorem close_unplaced (bound : Nat) (waiting : List (Expr × BinaryOp)) :
    ∀ e : Expr, close bound (unplacedWaiting waiting) e.unplaced =
      (unplacedWaiting (close bound waiting e).1, (close bound waiting e).2.unplaced) := by
  induction waiting with
  | nil => exact fun e => rfl
  | cons w waiting ih =>
      intro e
      obtain ⟨left, op⟩ := w
      by_cases hop : bound ≤ op.precedence
      · show close bound ((left.unplaced, op) :: unplacedWaiting waiting) e.unplaced = _
        rw [close, if_pos hop, ← unplaced_join, ih, close, if_pos hop]
      · show close bound ((left.unplaced, op) :: unplacedWaiting waiting) e.unplaced = _
        rw [close, if_neg hop, close, if_neg hop]
        rfl

/-- Grouping does not look at places. -/
theorem unplaced_groupOnto (rest : List (BinaryOp × Expr)) :
    ∀ (waiting : List (Expr × BinaryOp)) (e : Expr),
      (groupOnto waiting e rest).unplaced =
        groupOnto (unplacedWaiting waiting) e.unplaced (unplacedRest rest) := by
  induction rest with
  | nil =>
      intro waiting e
      show (close 0 waiting e).2.unplaced = (close 0 (unplacedWaiting waiting) e.unplaced).2
      rw [close_unplaced]
  | cons r rest ih =>
      intro waiting e
      obtain ⟨op, next⟩ := r
      show (groupOnto _ next rest).unplaced =
        groupOnto ((_, op) :: (close op.precedence (unplacedWaiting waiting) e.unplaced).1)
          next.unplaced (unplacedRest rest)
      rw [ih, close_unplaced]
      rfl

/-- **Grouping does not look at places.** -/
theorem unplaced_group (first : Expr) (rest : List (BinaryOp × Expr)) :
    (group first rest).unplaced = group first.unplaced (unplacedRest rest) :=
  unplaced_groupOnto rest [] first

end Expr

namespace Grammar

open Reader

/-- A suffix without its places. -/
def Suffix.unplaced : Suffix → Suffix
  | member property => .member property
  | index key => .index key.unplaced
  | call args => .call (Expr.unplacedAll args)

/-- Suffixes without their places. -/
def unplacedSuffixes (suffixes : List (Suffix × Span)) : List (Suffix × Span) :=
  suffixes.map fun a => (a.1.unplaced, default)

/-- A chain without its places is made of parts without theirs. -/
theorem unplaced_extend (object : Expr) (a : Suffix × Span) :
    (extend object a).unplaced = extend object.unplaced (a.1.unplaced, default) := by
  obtain ⟨suffix, span⟩ := a
  unfold extend
  rw [Expr.span_unplaced]
  cases suffix <;> rfl

/-- Suffixes are put behind a primary whatever the places are. -/
theorem unplaced_foldl_extend (suffixes : List (Suffix × Span)) :
    ∀ first : Expr, (suffixes.foldl extend first).unplaced =
      (unplacedSuffixes suffixes).foldl extend first.unplaced := by
  induction suffixes with
  | nil => exact fun first => rfl
  | cons a suffixes ih =>
      intro first
      rw [List.foldl_cons, ih, unplaced_extend]
      rfl

/-! ### Spellings at any offset -/

/-- Trees that are the same at every offset, apart from what `view` forgets. -/
def Steady {α : Type} (view : α → α) (f : Nat → α) : Prop :=
  ∀ o o', view (f o) = view (f o')

mutual

/-- **A spelling says the same at every offset.** -/
theorem ExprSpelling.steady : {s : List Char} → {f : Nat → Expr} → ExprSpelling s f →
    Steady Expr.unplaced f
  | _, _, .of h => ConditionalSpelling.steady h

/-- A conditional says the same at every offset. -/
theorem ConditionalSpelling.steady : {s : List Char} → {f : Nat → Expr} →
    ConditionalSpelling ExprSpelling s f → Steady Expr.unplaced f
  | _, _, .sequence h => SequenceSpelling.steady h
  | _, _, .conditional hx _ hy _ hz => by
      intro o o'
      have htest := SequenceSpelling.steady hx o o'
      have hyes := ExprSpelling.steady hy
      have hno := ExprSpelling.steady hz
      simp only [Expr.unplaced]
      rw [htest, hyes _ _, hno _ _]

/-- Operators and operands say the same at every offset. -/
theorem SequenceSpelling.steady : {s : List Char} → {f : Nat → Expr} →
    SequenceSpelling ExprSpelling s f → Steady Expr.unplaced f
  | _, _, .mk hx hxs => by
      intro o o'
      simp only [Expr.unplaced_group]
      rw [OperandSpelling.steady hx o o', RestSpelling.steady hxs _ _]

/-- Further operands say the same at every offset. -/
theorem RestSpelling.steady : {s : List Char} → {fs : Nat → List (BinaryOp × Expr)} →
    RestSpelling ExprSpelling s fs → Steady Expr.unplacedRest fs
  | _, _, .nil => fun _ _ => rfl
  | _, _, .cons op _ hx hxs => by
      intro o o'
      show (op, _) :: _ = (op, _) :: _
      rw [OperandSpelling.steady hx _ _]
      exact congrArg _ (RestSpelling.steady hxs _ _)

/-- An operand says the same at every offset. -/
theorem OperandSpelling.steady : {s : List Char} → {f : Nat → Expr} →
    OperandSpelling ExprSpelling s f → Steady Expr.unplaced f
  | _, _, .mk _ hy _ hz => by
      intro o o'
      simp only [unplaced_operandTree, unplaced_foldl_extend]
      rw [PrimarySpelling.steady hy _ _, SuffixesSpelling.steady hz _ _]

/-- Suffixes say the same at every offset. -/
theorem SuffixesSpelling.steady : {s : List Char} → {fs : Nat → List (Suffix × Span)} →
    SuffixesSpelling ExprSpelling s fs → Steady unplacedSuffixes fs
  | _, _, .nil => fun _ _ => rfl
  | _, _, .cons hx _ hxs => by
      intro o o'
      show (_, default) :: _ = (_, default) :: _
      rw [SuffixSpelling.steady hx _ _]
      exact congrArg _ (SuffixesSpelling.steady hxs _ _)

/-- A suffix says the same at every offset. -/
theorem SuffixSpelling.steady : {s : List Char} → {f : Nat → Suffix} →
    SuffixSpelling ExprSpelling s f → Steady Suffix.unplaced f
  | _, _, .member _ _ => fun _ _ => rfl
  | _, _, .index _ hx => fun _ _ => congrArg Suffix.index (ExprSpelling.steady hx _ _)
  | _, _, .call _ hx => fun _ _ => congrArg Suffix.call (ArgumentsSpelling.steady hx _ _)

/-- A primary says the same at every offset. -/
theorem PrimarySpelling.steady : {s : List Char} → {f : Nat → Expr} →
    PrimarySpelling ExprSpelling s f → Steady Expr.unplaced f
  | _, _, .literal _ => fun _ _ => rfl
  | _, _, .name _ _ => fun _ _ => rfl
  | _, _, .array _ hx => fun _ _ =>
      congrArg (Expr.array · default) (ArgumentsSpelling.steady hx _ _)
  | _, _, .parenthesised _ hx => fun _ _ => ExprSpelling.steady hx _ _

/-- A list of expressions says the same at every offset. -/
theorem ArgumentsSpelling.steady : {s : List Char} → {fs : Nat → List Expr} →
    ArgumentsSpelling ExprSpelling s fs → Steady Expr.unplacedAll fs
  | _, _, .none => fun _ _ => rfl
  | _, _, .some hx hxs => by
      intro o o'
      rw [Expr.unplacedAll, Expr.unplacedAll, ExprSpelling.steady hx _ _]
      exact congrArg _ (MoreArguments.steady hxs _ _)

/-- Further arguments say the same at every offset. -/
theorem MoreArguments.steady : {s : List Char} → {fs : Nat → List Expr} →
    MoreArguments ExprSpelling s fs → Steady Expr.unplacedAll fs
  | _, _, .nil => fun _ _ => rfl
  | _, _, .cons _ hx hxs => by
      intro o o'
      rw [Expr.unplacedAll, Expr.unplacedAll, ExprSpelling.steady hx _ _]
      exact congrArg _ (MoreArguments.steady hxs _ _)

end

end Grammar

end LineMarkup
