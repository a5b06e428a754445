import LineMarkup.Proofs.SpanNesting

/-!
# Trees of operators

Which tree a sequence of operands and operators stands for can be said without an algorithm.  Its operands
and operators from left to right are the sequence, every operation binds at most as tightly as one on its
left and more loosely than one on its right, and every operation has the smallest span that covers both of
its operands.

There is only one such tree.  The operator at its root is the last one among those that bind most loosely:
none before it binds more loosely, and all behind it bind more tightly.  A sequence can be cut at one place
only in this way, and the same holds of both parts.  Climbing finds the tree, and so does grouping.

An operand may be an operation itself, one in parentheses.  So the operations that are built are told apart
from operands by a tree of their own, `Operations`, which has no spans.

## Main Definitions

* `Operations` — a tree of operators over operands
* `Operations.Grouped` — each operation is in its place by its precedence
* `Operations.Builds` — an expression with the operations of a tree, and with the smallest spans

## Main Statements

* `Operations.eq_of_grouped` — at most one tree is grouped for a sequence
* `climb_builds` — climbing gives that tree
-/

namespace LineMarkup

/-- The smallest span that covers two spans. -/
structure Span.IsHull (s a b : Span) : Prop where
  left : s.Covers a
  right : s.Covers b
  least : ∀ t : Span, t.Covers a → t.Covers b → t.Covers s

theorem Span.isHull_merge (a b : Span) : (a.merge b).IsHull a b where
  left := merge_covers_left a b
  right := merge_covers_right a b
  least := fun _ ha hb => ⟨Nat.le_min.mpr ⟨ha.1, hb.1⟩, Nat.max_le.mpr ⟨ha.2, hb.2⟩⟩

namespace Expr

/-- A tree of operators.  Its operands are kept whole, whatever expressions they are. -/
inductive Operations where
  | operand (e : Expr)
  | operation (left : Operations) (op : BinaryOp) (right : Operations)

namespace Operations

/-- The first operand from the left. -/
def first : Operations → Expr
  | operand e => e
  | operation left _ _ => left.first

/-- The operators from left to right, each with the operand behind it. -/
def rest : Operations → List (BinaryOp × Expr)
  | operand _ => []
  | operation left op right => left.rest ++ (op, right.first) :: right.rest

/-- The operator at the root. -/
def root? : Operations → Option BinaryOp
  | operand _ => none
  | operation _ op _ => some op

/-- Every operation binds at most as tightly as one that is its left operand, and more loosely than one that is
its right operand. -/
def Grouped : Operations → Prop
  | operand _ => True
  | operation left op right =>
    (left.Grouped ∧ ∀ o ∈ left.root?, op.precedence ≤ o.precedence) ∧
      right.Grouped ∧ ∀ o ∈ right.root?, op.precedence < o.precedence

/-- An expression has the operations of a tree, each with the smallest span that covers both operands. -/
inductive Builds : Operations → Expr → Prop where
  | operand (e : Expr) : Builds (operand e) e
  | operation {left right : Operations} {op : BinaryOp} {l r : Expr} {span : Span} :
      Builds left l → Builds right r → span.IsHull l.span r.span →
      Builds (operation left op right) (.binary l op r span)

/-! ### One tree for a sequence -/

/-- The root of a grouped tree binds most loosely. -/
theorem Grouped.le_of_mem {tree : Operations} (h : tree.Grouped) {bound : Nat}
    (hroot : ∀ o ∈ tree.root?, bound ≤ o.precedence) :
    ∀ m ∈ tree.rest, bound ≤ m.1.precedence := by
  induction tree with
  | operand e => simp [rest]
  | operation left op right ihleft ihright =>
      obtain ⟨⟨hleft, hleftRoot⟩, hright, hrightRoot⟩ := h
      have hop : bound ≤ op.precedence := hroot op rfl
      intro m hm
      rcases List.mem_append.mp hm with hm | hm
      · exact ihleft hleft (fun o ho => Nat.le_trans hop (hleftRoot o ho)) m hm
      · rcases List.mem_cons.mp hm with rfl | hm
        · exact hop
        · exact ihright hright (fun o ho => Nat.le_of_lt (Nat.lt_of_le_of_lt hop (hrightRoot o ho))) m hm

/-- A sequence is cut in one place only by an operator that binds at most as tightly as all before it and more
loosely than all behind it. -/
theorem cut_unique {before before' behind behind' : List (BinaryOp × Expr)} {m m' : BinaryOp × Expr}
    (h : before ++ m :: behind = before' ++ m' :: behind')
    (hbefore : ∀ x ∈ before, m.1.precedence ≤ x.1.precedence)
    (hbehind : ∀ x ∈ behind, m.1.precedence < x.1.precedence)
    (hbefore' : ∀ x ∈ before', m'.1.precedence ≤ x.1.precedence)
    (hbehind' : ∀ x ∈ behind', m'.1.precedence < x.1.precedence) :
    before = before' ∧ m = m' ∧ behind = behind' := by
  -- Of two different places, the operator at the first would bind more loosely than the one at the second,
  -- which does not bind more tightly than what stands before it.
  rcases List.append_eq_append_iff.mp h with ⟨between, rfl, hrest⟩ | ⟨between, rfl, hrest⟩
  · cases between with
    | nil => simpa using hrest
    | cons x between =>
        obtain ⟨rfl, rfl⟩ := List.cons.inj hrest
        have hlt : m.1.precedence < m'.1.precedence := hbehind m' (by simp)
        have hle : m'.1.precedence ≤ m.1.precedence := hbefore' m (by simp)
        omega
  · cases between with
    | nil => simpa [eq_comm] using hrest
    | cons x between =>
        obtain ⟨rfl, rfl⟩ := List.cons.inj hrest
        have hlt : m'.1.precedence < m.1.precedence := hbehind' m (by simp)
        have hle : m.1.precedence ≤ m'.1.precedence := hbefore m' (by simp)
        omega

/-- **At most one tree is grouped for a sequence.** -/
theorem eq_of_grouped {tree other : Operations} (h : tree.Grouped) (hother : other.Grouped)
    (hfirst : tree.first = other.first) (hrest : tree.rest = other.rest) : tree = other := by
  induction tree generalizing other with
  | operand e =>
      cases other with
      | operand e' => rw [show e = e' from hfirst]
      | operation left op right => simp [rest] at hrest
  | operation left op right ihleft ihright =>
      cases other with
      | operand e => simp [rest] at hrest
      | operation left' op' right' =>
          obtain ⟨⟨hl, hlroot⟩, hr, hrroot⟩ := h
          obtain ⟨⟨hl', hlroot'⟩, hr', hrroot'⟩ := hother
          obtain ⟨hbefore, hm, hbehind⟩ := cut_unique hrest (hl.le_of_mem hlroot)
            (hr.le_of_mem hrroot) (hl'.le_of_mem hlroot') (hr'.le_of_mem hrroot')
          obtain ⟨hop, hnext⟩ := Prod.mk.inj hm
          rw [ihleft hl hl' hfirst hbefore, hop, ihright hr hr' hnext hbehind]

/-! ### The tree of a sequence -/

/-- A listing comes from a grouped tree whose root binds at least as tightly as the bound. -/
theorem exists_of_listing {bound : Nat} {first e : Expr} {rest : List (BinaryOp × Expr)}
    (h : Listing bound first rest e) :
    ∃ tree : Operations, tree.first = first ∧ tree.rest = rest ∧ tree.Grouped ∧ tree.Builds e ∧
      ∀ o ∈ tree.root?, bound ≤ o.precedence := by
  induction h with
  | operand e => exact ⟨operand e, rfl, rfl, trivial, .operand e, by simp [root?]⟩
  | @operation bound op first next left right before behind hop _ _ ihleft ihright =>
      obtain ⟨l, hlfirst, hlrest, hl, hlbuilds, hlroot⟩ := ihleft
      obtain ⟨r, hrfirst, hrrest, hr, hrbuilds, hrroot⟩ := ihright
      refine ⟨operation l op r, hlfirst, ?_, ⟨⟨hl, hlroot⟩, hr, hrroot⟩, ?_, ?_⟩
      · show l.rest ++ (op, r.first) :: r.rest = before ++ (op, next) :: behind
        rw [hlrest, hrfirst, hrrest]
      · exact .operation hlbuilds hrbuilds (Span.isHull_merge _ _)
      · rintro o ⟨⟩
        exact hop

end Operations

/-- **Climbing at the lowest bound takes a whole sequence and gives its tree.**  The tree is the one that the
sequence is grouped to; no other tree reads as the sequence and is grouped. -/
theorem climb_builds (first : Expr) (rest : List (BinaryOp × Expr)) :
    (climb 0 first rest).2.1 = [] ∧ (climb 0 first rest).1 = group first rest ∧
      ∃ tree : Operations, tree.Builds (group first rest) ∧
        (tree.first = first ∧ tree.rest = rest ∧ tree.Grouped) ∧
        ∀ other : Operations, other.first = first ∧ other.rest = rest ∧ other.Grouped →
          other = tree := by
  obtain ⟨tree, hfirst, hrest, hgrouped, hbuilds, -⟩ :=
    Operations.exists_of_listing (Listing.of_group first rest)
  refine ⟨(climb_takes_all first rest).2, climb_eq_group first rest, tree, hbuilds,
    ⟨hfirst, hrest, hgrouped⟩, ?_⟩
  rintro other ⟨hfirst', hrest', hgrouped'⟩
  exact Operations.eq_of_grouped hgrouped' hgrouped (hfirst'.trans hfirst.symm)
    (hrest'.trans hrest.symm)

/-- `a - b + c * d` -/
example (a b c d : Expr) :
    group a [(.sub, b), (.add, c), (.mul, d)] = join (join a .sub b) .add (join c .mul d) := rfl

end Expr

end LineMarkup
