import LineMarkup.Proofs.Parentheses
import LineMarkup.Proofs.ShiftedExpressions
import LineMarkup.Proofs.SpanNesting

/-!
# What the span of a node quotes

A diagnostic quotes the part of the source that the span of a node covers.  Mostly that part is read by
itself as the node, with its places moved to the start.  There are two exceptions, and no others.

Parentheses leave no node, and the span of a suffix or of an operation is the smallest one that covers
those of its parts.  If the first part is parenthesised, the span starts behind the opening parenthesis,
and if the last one is, it ends before the closing one: `(a).b` has the span of `a).b`.  A part of the
source that is cut like this has a parenthesis without its partner, and is no expression.

Operators in front of one operand all have the span of the whole, so what is quoted for an operation
behind another operator is read as the outermost one.

## Main Definitions

* `OpensAt` — a node starts with its text, or the text from there on closes a parenthesis
* `ClosesAt` — up to the end of a node its text spells it, or leaves a parenthesis open
* `Fronted` — a node behind more operators with the same span

## Main Statements

* `ExprSpelling.opens_at` — the left end of an expression
* `SequenceSpelling.closes_at` — the right end of a sequence
* `ReadFrom.cut` — what the span of a node cuts out of its text
* `Expr.slice_of_parse` — a node is read back from its slice exactly if the slice is balanced and no
  operator stands before it
-/

namespace LineMarkup

namespace Grammar

open LineMarkup.Expr Reader

/-! ### The left end -/

/-- A place is the start of a text, or the text from there on closes a parenthesis before it. -/
def OpensAt (s : List Char) (o n : Nat) : Prop :=
  n = o ∨ ∃ a b, s = a ++ b ∧ n = o + utf8Length a ∧ Shuts b

/-- What is behind does not matter for a parenthesis that was closed too early. -/
theorem OpensAt.append {s : List Char} {o n : Nat} (h : OpensAt s o n) (z : List Char) :
    OpensAt (s ++ z) o n := by
  rcases h with rfl | ⟨a, b, rfl, rfl, hb⟩
  · exact .inl rfl
  · exact .inr ⟨a, b ++ z, List.append_assoc _ _ _, rfl, hb.append z⟩

/-- What starts inside of parentheses starts behind one that is closed later. -/
theorem OpensAt.parenthesised {w x : List Char} {o n : Nat} (hx : Balanced x)
    (h : OpensAt x (o + utf8Length ('(' :: w)) n) : OpensAt ('(' :: w ++ (x ++ [')'])) o n := by
  rcases h with rfl | ⟨a, b, rfl, rfl, hb⟩
  · exact .inr ⟨'(' :: w, x ++ [')'], rfl, rfl, .of_balanced hx⟩
  · refine .inr ⟨'(' :: w ++ a, b ++ [')'], by simp only [List.append_assoc], ?_, hb.append _⟩
    rw [utf8Length_append, ← Nat.add_assoc]

/-- The operands of a sequence stand one behind the other. -/
theorem RestSpelling.row {s : List Char} {fs : Nat → List (BinaryOp × Expr)}
    (h : RestSpelling ExprSpelling s fs) : ∀ o, RowIn s o ((fs o).map (·.2)) := by
  induction h with
  | nil => exact RowIn.nil []
  | cons op hw hx hxs ih => exact fun o => (RowIn.cons (hx.lies _).root (ih _)).prepend

/-- The last operand of a sequence. -/
def lastOperand (first : Expr) (rest : List (BinaryOp × Expr)) : Expr :=
  (rest.getLast?.map (·.2)).getD first

theorem lastOperand_cons (first next : Expr) (op : BinaryOp) (rest : List (BinaryOp × Expr)) :
    lastOperand first ((op, next) :: rest) = lastOperand next rest := by
  unfold lastOperand
  rw [List.getLast?_cons]
  cases rest.getLast? <;> rfl

theorem lastOperand_append (first next : Expr) (op : BinaryOp)
    (before behind : List (BinaryOp × Expr)) :
    lastOperand first (before ++ (op, next) :: behind) = lastOperand next behind := by
  unfold lastOperand
  rw [List.getLast?_append, List.getLast?_cons]
  cases behind.getLast? <;> rfl

/-- The last operand is one of the operands. -/
theorem lastOperand_mem (first : Expr) (rest : List (BinaryOp × Expr)) :
    lastOperand first rest ∈ first :: rest.map (·.2) := by
  unfold lastOperand
  cases hlast : rest.getLast? with
  | none => exact List.mem_cons_self
  | some r => exact List.mem_cons_of_mem _ (List.mem_map_of_mem (List.mem_of_getLast? hlast))

/-- **The span of grouped operands** goes from the first one to the last one. -/
theorem span_of_listing {bound : Nat} {first e : Expr} {rest : List (BinaryOp × Expr)}
    (h : Listing bound first rest e) :
    (∀ a ∈ first :: rest.map (·.2), a.span.start < a.span.stop) →
    (first :: rest.map (·.2)).Pairwise (fun a b => a.span.Precedes b.span) →
    e.span = ⟨first.span.start, (lastOperand first rest).span.stop⟩ := by
  induction h with
  | operand e => exact fun _ _ => rfl
  | @operation bound op first next left right before behind hop hleft hright ihleft ihright =>
      intro hne hrow
      have hsplit : first :: (before ++ (op, next) :: behind).map (·.2) =
          (first :: before.map (·.2)) ++ next :: behind.map (·.2) := by
        rw [List.map_append, List.map_cons, List.cons_append]
      rw [hsplit] at hne hrow
      obtain ⟨hneLeft, hneRight⟩ := List.forall_mem_append.mp hne
      obtain ⟨hrowLeft, hrowRight, hcross⟩ := List.pairwise_append.mp hrow
      have hlast := lastOperand_mem next behind
      have hstart : first.span.start ≤ next.span.start :=
        Nat.le_trans (Nat.le_of_lt (hneLeft _ List.mem_cons_self))
          (hcross _ List.mem_cons_self _ List.mem_cons_self)
      have hstop : (lastOperand first before).span.stop ≤ (lastOperand next behind).span.stop :=
        Nat.le_trans (hcross _ (lastOperand_mem _ _) _ hlast) (Nat.le_of_lt (hneRight _ hlast))
      rw [lastOperand_append]
      show left.span.merge right.span = _
      rw [ihleft hneLeft hrowLeft, ihright hneRight hrowRight]
      unfold Span.merge
      rw [Nat.min_eq_left hstart, Nat.max_eq_right hstop]

/-- The span of a sequence goes from its first operand to its last one. -/
theorem span_sequence {x xs : List Char} {f : Nat → Expr} {fs : Nat → List (BinaryOp × Expr)}
    (hx : OperandSpelling ExprSpelling x f) (hxs : RestSpelling ExprSpelling xs fs) (o : Nat) :
    (group (f o) (fs (o + utf8Length x))).span =
      ⟨(f o).span.start, (lastOperand (f o) (fs (o + utf8Length x))).span.stop⟩ := by
  have hrow := RowIn.cons (hx.lies o).root (hxs.row (o + utf8Length x))
  exact span_of_listing (Listing.of_group _ _) (fun a ha => (hrow.lies a ha).nonempty) hrow.ordered

mutual

/-- **The left end of an expression.** -/
theorem ExprSpelling.opens_at : {s : List Char} → {f : Nat → Expr} → ExprSpelling s f → ∀ o,
    OpensAt s o (f o).span.start
  | _, _, .of h => ConditionalSpelling.opens_at h

/-- A conditional starts where its test does. -/
theorem ConditionalSpelling.opens_at : {s : List Char} → {f : Nat → Expr} →
    ConditionalSpelling ExprSpelling s f → ∀ o, OpensAt s o (f o).span.start
  | _, _, .sequence h => SequenceSpelling.opens_at h
  | _, _, .conditional _ _ _ _ _ => fun _ => .inl rfl

/-- A sequence starts where its first operand does. -/
theorem SequenceSpelling.opens_at : {s : List Char} → {f : Nat → Expr} →
    SequenceSpelling ExprSpelling s f → ∀ o, OpensAt s o (f o).span.start
  | _, _, .mk hx hxs => fun o => by
      rw [span_sequence hx hxs]
      exact (OperandSpelling.opens_at hx o).append _

/-- An operand starts where its text does, or behind a parenthesis around its primary. -/
theorem OperandSpelling.opens_at : {s : List Char} → {f : Nat → Expr} →
    OperandSpelling ExprSpelling s f → ∀ o, OpensAt s o (f o).span.start
  | _, _, .mk (.cons _ _ _) _ _ _ => fun _ => .inl rfl
  | _, _, @OperandSpelling.mk _ _ y w z _ f fs .nil hy hw hz => fun o => by
      show OpensAt (y ++ (w ++ z)) o ((fs (o + utf8Length y + utf8Length w)).foldl extend (f o)).span.start
      rw [span_chain hy hz]
      exact (PrimarySpelling.opens_at hy o).append _

/-- A primary starts where its text does, or behind a parenthesis. -/
theorem PrimarySpelling.opens_at : {s : List Char} → {f : Nat → Expr} →
    PrimarySpelling ExprSpelling s f → ∀ o, OpensAt s o (f o).span.start
  | _, _, .literal _ => fun _ => .inl rfl
  | _, _, .name _ _ => fun _ => .inl rfl
  | _, _, .array _ _ => fun _ => .inl rfl
  | _, _, .parenthesised _ hx => fun _ => .parenthesised hx.balanced (ExprSpelling.opens_at hx _)

end

/-! ### The right end -/

/-- Up to a place a text spells what the whole text does, or is not balanced. -/
def ClosesAt {α : Type} (S : Spelling α) (s : List Char) (o stop : Nat) (a : α) : Prop :=
  ∃ t u, s = t ++ u ∧ stop = o + utf8Length t ∧ (SpelledAt S t o a ∨ ¬ Balanced t)

namespace ClosesAt

variable {α β : Type} {S : Spelling α} {T : Spelling β} {s : List Char} {o stop : Nat} {a : α} {b : β}

/-- A text that ends at the place spells what it does. -/
theorem whole (h : SpelledAt S s o a) (hstop : stop = o + utf8Length s) : ClosesAt S s o stop a :=
  ⟨s, [], (List.append_nil s).symm, hstop, .inl h⟩

/-- What is behind the place does not matter. -/
theorem append (h : ClosesAt S s o stop a) (after : List Char) : ClosesAt S (s ++ after) o stop a := by
  obtain ⟨t, u, rfl, hstop, ht⟩ := h
  exact ⟨t, u ++ after, List.append_assoc _ _ _, hstop, ht⟩

/-- Balanced text in front changes nothing, if it completes what is spelled. -/
theorem prepend {before : List Char} (h : ClosesAt S s (o + utf8Length before) stop a)
    (hbefore : Balanced before)
    (hspelled : ∀ t, SpelledAt S t (o + utf8Length before) a → SpelledAt T (before ++ t) o b) :
    ClosesAt T (before ++ s) o stop b := by
  obtain ⟨t, u, rfl, hstop, ht⟩ := h
  refine ⟨before ++ t, u, (List.append_assoc _ _ _).symm, ?_, ?_⟩
  · rw [hstop, utf8Length_append, Nat.add_assoc]
  · exact ht.imp (hspelled t) fun h => (not_congr hbefore.append_iff).mpr h

/-- What spells one thing may be taken for another that it spells too. -/
theorem mono {T : Spelling α} {c : α} (h : ClosesAt S s o stop a)
    (hspelled : ∀ t, SpelledAt S t o a → SpelledAt T t o c) : ClosesAt T s o stop c := by
  obtain ⟨t, u, hs, hstop, ht⟩ := h
  exact ⟨t, u, hs, hstop, ht.imp_left (hspelled t)⟩

end ClosesAt

/-- Up to where a primary stops its text spells it, or a parenthesis is still open. -/
theorem PrimarySpelling.closes_at {s : List Char} {f : Nat → Expr}
    (h : PrimarySpelling ExprSpelling s f) (o : Nat) :
    ClosesAt (PrimarySpelling ExprSpelling) s o (f o).span.stop (f o) := by
  have hwhole := spelledAt_of h o
  cases h with
  | literal ha => exact .whole hwhole rfl
  | name hn hword => exact .whole hwhole rfl
  | array hw hx => exact .whole hwhole rfl
  | @parenthesised w x f hw hx =>
      -- Wherever the inner expression ends, the parenthesis before it is still open there.
      obtain ⟨a, b, rfl, hstop⟩ := (hx.lies (o + utf8Length ('(' :: w))).root.stop
      refine ⟨'(' :: w ++ a, b ++ [')'], by simp only [List.append_assoc], ?_, .inr ?_⟩
      · rw [hstop, utf8Length_append, ← Nat.add_assoc]
      · exact not_balanced_of_open (balanced_of_blanks hw) hx.balanced

/-- The blanks behind the last suffix do not belong to it. -/
theorem SuffixesSpelling.cut {z : List Char} {fs : Nat → List (Suffix × Span)}
    (h : SuffixesSpelling ExprSpelling z fs) :
    (z = [] ∧ fs = fun _ => []) ∨ ∃ t u, z = t ++ u ∧ SuffixesSpelling ExprSpelling t fs ∧
      ∀ o bare, operandStop bare (fs o) = o + utf8Length t := by
  induction h with
  | nil => exact .inl ⟨rfl, rfl⟩
  | @cons x w xs f fs hx hw hxs ih =>
      refine .inr ?_
      rcases ih with ⟨rfl, rfl⟩ | ⟨t, u, rfl, ht, hstop⟩
      · have hlast := SuffixesSpelling.cons hx blanks_nil .nil
        rw [List.append_nil, List.append_nil] at hlast
        exact ⟨x, w ++ [], rfl, hlast, fun _ _ => rfl⟩
      · refine ⟨x ++ (w ++ t), u, by simp only [List.append_assoc], .cons hx hw ht, fun o bare => ?_⟩
        rw [operandStop_cons, hstop]
        simp only [utf8Length_append, Nat.add_assoc]

/-- Up to where an operand stops its text spells it, or a parenthesis is still open. -/
theorem OperandSpelling.closes_at {s : List Char} {f : Nat → Expr}
    (h : OperandSpelling ExprSpelling s f) (o : Nat) :
    ClosesAt (OperandSpelling ExprSpelling) s o (f o).span.stop (f o) := by
  have hwhole := spelledAt_of h o
  cases h with
  | @mk x y w z ops f fs hx hy hw hz =>
      rcases hz.cut with ⟨rfl, rfl⟩ | ⟨t, u, rfl, ht, hstop⟩
      · cases hx with
        | nil =>
            -- Without operators and suffixes the operand is a primary, and no blank belongs to it.
            refine ((hy.closes_at o).append (w ++ [])).mono fun t ht => ?_
            obtain ⟨g, hg, hgo⟩ := ht
            have hoperand := OperandSpelling.mk .nil hg blanks_nil .nil
            rw [List.append_nil, List.append_nil] at hoperand
            exact ⟨_, hoperand, hgo⟩
        | cons op _ _ =>
            refine .whole hwhole ?_
            show o + _ + _ + _ = _
            simp only [utf8Length_append, utf8Length_nil, Nat.add_assoc, Nat.add_zero]
      · refine ⟨x ++ (y ++ (w ++ t)), u, by simp only [List.append_assoc], ?_,
          .inl (spelledAt_of (OperandSpelling.mk hx hy hw ht) o)⟩
        simp only [utf8Length_append, ← Nat.add_assoc]
        -- The last suffix is where the operand ends, with operators in front and without.
        cases ops with
        | nil =>
            show (List.foldl extend _ _).span.stop = _
            rw [span_chain hy hz]
            exact hstop _ _
        | cons op ops => exact hstop _ _

/-- Operands behind operators end where the last one does. -/
theorem RestSpelling.closes_at {xs : List Char} {fs : Nat → List (BinaryOp × Expr)}
    (h : RestSpelling ExprSpelling xs fs) :
    (xs = [] ∧ fs = fun _ => []) ∨ ∀ first o,
      ClosesAt (RestSpelling ExprSpelling) xs o (lastOperand first (fs o)).span.stop (fs o) := by
  induction h with
  | nil => exact .inl ⟨rfl, rfl⟩
  | @cons w x xs f fs op hw hx hxs ih =>
      refine .inr fun first o => ?_
      have hbefore : Balanced (op.symbol.toList ++ w) :=
        (BinaryOp.balanced op).append (balanced_of_blanks hw)
      rw [lastOperand_cons]
      rcases ih with ⟨rfl, rfl⟩ | ih
      · refine ((hx.closes_at _).append []).prepend hbefore fun t ht => ?_
        have hlast := restAt_of_cons op hw ht ⟨_, .nil, rfl⟩
        rwa [List.append_nil] at hlast
      · have hrest := ih (f (o + utf8Length (op.symbol.toList ++ w)))
          (o + utf8Length (op.symbol.toList ++ w) + utf8Length x)
        rw [Nat.add_assoc, ← utf8Length_append] at hrest
        rw [← List.append_assoc, Nat.add_assoc, ← utf8Length_append]
        refine hrest.prepend (hbefore.append hx.balanced) fun t ht => ?_
        rw [utf8Length_append, ← Nat.add_assoc] at ht
        rw [List.append_assoc]
        exact restAt_of_cons op hw (spelledAt_of hx _) ht

/-- **The right end of a sequence.** -/
theorem SequenceSpelling.closes_at {s : List Char} {f : Nat → Expr}
    (h : SequenceSpelling ExprSpelling s f) (o : Nat) :
    ClosesAt (SequenceSpelling ExprSpelling) s o (f o).span.stop (f o) := by
  cases h with
  | @mk x xs f fs hx hxs =>
      rw [span_sequence hx hxs]
      rcases hxs.closes_at with ⟨rfl, rfl⟩ | hrest
      · exact ((hx.closes_at o).append []).mono fun t ht => ht.sequence
      · exact (hrest (f o) _).prepend hx.balanced fun t ht =>
          sequenceAt_of_listing (spelledAt_of hx o) ht (Listing.of_group _ _)

/-! ### What a span cuts out -/

/-- A node behind more operators that all have its span.  If there are any, the first operation around the
node is among `all` nodes. -/
def Fronted (all : List Expr) (n whole : Expr) : Prop :=
  ∃ ops : List UnaryOp, whole = ops.foldr (fun op e => .unary op e n.span) n ∧
    (ops ≠ [] → ∃ op, .unary op n n.span ∈ all)

/-- A node without further operators is itself. -/
theorem Fronted.self (all : List Expr) (n : Expr) : Fronted all n n :=
  ⟨[], rfl, fun h => absurd rfl h⟩

/-- The span of a node cuts a part out of a text, and that part spells the node, perhaps behind more
operators, or is not balanced. -/
def CutsOut (all : List Expr) (s : List Char) (o : Nat) (n : Expr) : Prop :=
  ∃ a b c, s = a ++ (b ++ c) ∧ n.span = spanOf b (o + utf8Length a) ∧
    ((∃ whole, Fronted all n whole ∧ SpelledAt ExprSpelling b (o + utf8Length a) whole) ∨ ¬ Balanced b)

section Cutting

variable {all : List Expr} {s : List Char} {o : Nat} {n : Expr}

/-- A node whose span is that of its whole text is cut out with that text. -/
theorem CutsOut.whole (hspan : n.span = spanOf s o) (h : SpelledAt ExprSpelling s o n) :
    CutsOut all s o n :=
  ⟨[], s, [], by rw [List.append_nil, List.nil_append], hspan, .inl ⟨n, .self all n, h⟩⟩

/-- A node with a suffix ends with its text. -/
theorem ChainAt.cut {c x : List Char} {object : Expr} {g : Nat → Suffix} (hc : ChainAt c o object)
    (hx : SuffixSpelling ExprSpelling x g) :
    CutsOut all (c ++ x) o (extend object (g (o + utf8Length c), spanOf x (o + utf8Length c))) := by
  have hobject := hc.lies
  have hspan : (extend object (g (o + utf8Length c), spanOf x (o + utf8Length c))).span =
      ⟨object.span.start, o + utf8Length c + utf8Length x⟩ := by
    rw [span_extend]
    exact congr (congrArg Span.mk (Nat.min_eq_left hobject.start.le_last))
      (Nat.max_eq_right (Nat.le_trans hobject.stop.le_last (Nat.le_add_right _ _)))
  obtain ⟨f, hf, hfo⟩ := hc.operand
  have hopens : OpensAt c o object.span.start := hfo ▸ hf.opens_at o
  rcases hopens with hstart | ⟨a, b, rfl, hstart, hb⟩
  · refine .whole ?_ ?_
    · rw [hspan, hstart, spanOf, utf8Length_append, Nat.add_assoc]
    · have := (hc.snoc hx blanks_nil).expr
      rwa [List.append_nil] at this
  · refine ⟨a, b ++ x, [], by simp only [List.append_assoc, List.append_nil], ?_, .inr ?_⟩
    · rw [hspan, hstart, spanOf, utf8Length_append, utf8Length_append]
      simp only [Nat.add_assoc]
    · exact (hb.append x).not_balanced

/-- Operators in front start with their text, and the text of all of them spells the outermost one. -/
private theorem cut_prefixed {before ops : List UnaryOp} {op : UnaryOp} {first : Expr}
    {suffixes : List (Suffix × Span)} {stop : Nat}
    (hwhole : ClosesAt (OperandSpelling ExprSpelling) s o
      (operandTree (before ++ op :: ops) first suffixes ⟨o, stop⟩).span.stop
      (operandTree (before ++ op :: ops) first suffixes ⟨o, stop⟩))
    (hn : n = operandTree (op :: ops) first suffixes ⟨o, stop⟩)
    (hfront : before ≠ [] → ∃ op', .unary op' n n.span ∈ all) : CutsOut all s o n := by
  have hfold : operandTree (before ++ op :: ops) first suffixes ⟨o, stop⟩ =
      before.foldr (fun op e => .unary op e n.span) n := by
    rw [hn]
    exact List.foldr_append
  have hstop : (operandTree (before ++ op :: ops) first suffixes ⟨o, stop⟩).span.stop = stop := by
    cases before <;> rfl
  obtain ⟨t, u, hs, ht, hcut⟩ := hwhole
  rw [hstop] at ht
  refine ⟨[], t, u, hs, ?_, hcut.imp_left fun ht => ⟨_, ⟨before, hfold, hfront⟩, ht.sequence.expr⟩⟩
  rw [hn, ht]
  rfl

/-- An operation has both of its ends from its operands. -/
private theorem cut_operation {x w y : List Char} {left right : Expr} {op : BinaryOp}
    (hx : SpelledAt (SequenceSpelling ExprSpelling) x o left)
    (hy : SpelledAt (SequenceSpelling ExprSpelling) y
      (o + utf8Length x + utf8Length (op.symbol.toList ++ w)) right)
    (hall : SpelledAt (SequenceSpelling ExprSpelling) (x ++ (op.symbol.toList ++ w ++ y)) o
      (join left op right)) :
    CutsOut all (x ++ (op.symbol.toList ++ w ++ y)) o (join left op right) := by
  obtain ⟨f, hf, rfl⟩ := hx
  obtain ⟨g, hg, rfl⟩ := hy
  obtain ⟨h, hh, hjoin⟩ := hall
  have hleft := (hf.lies o).root
  have hright := (hg.lies (o + utf8Length x + utf8Length (op.symbol.toList ++ w))).root
  have horder := hleft.precedes hright (Nat.le_add_right _ _)
  have hspan : (join (f o) op (g (o + utf8Length x + utf8Length (op.symbol.toList ++ w)))).span =
      ⟨(f o).span.start, (g (o + utf8Length x + utf8Length (op.symbol.toList ++ w))).span.stop⟩ :=
    congr (congrArg Span.mk (Nat.min_eq_left (Nat.le_trans (Nat.le_of_lt hleft.nonempty) horder)))
      (Nat.max_eq_right (Nat.le_trans horder (Nat.le_of_lt hright.nonempty)))
  rcases hf.opens_at o with hstart | ⟨a, b, rfl, hstart, hb⟩
  · obtain ⟨t, u, hs, hstop, hcut⟩ := hh.closes_at o
    rw [hjoin] at hstop hcut
    refine ⟨[], t, u, hs, ?_, hcut.imp_left fun ht => ⟨_, .self all _, ht.expr⟩⟩
    rw [hspan] at hstop ⊢
    rw [hstart]
    exact congrArg (Span.mk o) hstop
  · -- The parenthesis that is closed too early belongs to the left operand.
    obtain ⟨y₁, y₂, rfl, hstop⟩ := hright.stop
    refine ⟨a, b ++ (op.symbol.toList ++ w ++ y₁), y₂, by simp only [List.append_assoc], ?_,
      .inr (hb.append _).not_balanced⟩
    rw [hspan, hstart, hstop, spanOf]
    simp only [utf8Length_append, Nat.add_assoc]

/-- **What the span of a node cuts out of the text that the node is read from.** -/
theorem ReadFrom.cut (h : ReadFrom all s o n) : CutsOut all s o n := by
  cases h with
  | literal o ha => exact .whole rfl (.of_primary (.literal ha) o)
  | name o hname hword => exact .whole rfl (.of_primary (.name hname hword) o)
  | array o hw hx => exact .whole rfl (.of_primary (.array hw hx) o)
  | conditional o hx hw hy hw' hz =>
      exact .whole rfl (spelledAt_of (ExprSpelling.of (.conditional hx hw hy hw' hz)) o)
  | suffix hc hx => exact hc.cut hx
  | prefixed o hops hy hw hz hn hfront =>
      exact cut_prefixed ((OperandSpelling.mk hops hy hw hz).closes_at o) hn hfront
  | operation hx hw hy hall => exact cut_operation hx hy hall

/-- A node is cut out of a longer text where it is cut out of a part of it. -/
theorem CutsOut.within {before after : List Char} (h : CutsOut all s (o + utf8Length before) n) :
    CutsOut all (before ++ (s ++ after)) o n := by
  obtain ⟨a, b, c, rfl, hspan, hb⟩ := h
  rw [Nat.add_assoc, ← utf8Length_append] at hspan hb
  exact ⟨before ++ a, b, c ++ after, by simp only [List.append_assoc], hspan, hb⟩

end Cutting

end Grammar

/-! ### Slices of a source -/

namespace Expr

open Grammar

variable {source : String} {e n : Expr}

/-- The span of a node cuts a part out of the source. -/
theorem cutsOut_of_parse (h : Expr.parse source = .ok e) (hn : n ∈ e.subexprs) :
    CutsOut e.subexprs source.toList 0 n := by
  obtain ⟨w, s, f, -, hs, hsource, rfl⟩ := parse_eq_ok_iff.mp h
  obtain ⟨before, t, after, rfl, ht⟩ := hs.reads _ n hn
  rw [hsource, ← List.append_assoc]
  refine CutsOut.within ?_
  rw [Nat.zero_add, utf8Length_append]
  exact ht.cut

/-- A text that is an expression is balanced. -/
theorem balanced_of_parse (h : Expr.parse source = .ok e) : Balanced source.toList := by
  obtain ⟨w, s, f, hw, hs, hsource, -⟩ := parse_eq_ok_iff.mp h
  rw [hsource]
  exact (balanced_of_blanks hw).append hs.balanced

/-- A slice that is balanced is read as the node, perhaps behind more operators. -/
theorem parse_slice (h : Expr.parse source = .ok e) (hn : n ∈ e.subexprs)
    (hbalanced : Balanced (n.span.slice source).toList) :
    ∃ m, Expr.parse (n.span.slice source) = .ok m ∧
      Fronted e.subexprs n (m.shift n.span.start) := by
  obtain ⟨a, b, c, hsource, hspan, hb⟩ := cutsOut_of_parse h hn
  rw [Nat.zero_add] at hspan hb
  have hslice : n.span.slice source = String.ofList b := hspan ▸ slice_spanOf hsource
  rw [hslice, String.toList_ofList] at hbalanced
  rcases hb with ⟨whole, hfront, f, hf, hwhole⟩ | hb
  · refine ⟨f 0, ?_, ?_⟩
    · rw [hslice]
      exact parse_eq_ok_iff.mpr ⟨[], b, f, Reader.blanks_nil, hf, String.toList_ofList, rfl⟩
    · have hmoves := hf.moves (utf8Length a) 0
      rw [Nat.zero_add] at hmoves
      rw [hspan]
      show Fronted _ n ((f 0).shift (utf8Length a))
      rwa [← hmoves, hwhole]
  · exact absurd hbalanced hb

/-- Operators in front make a larger tree. -/
theorem sizeOf_le_fronted {all : List Expr} {n whole : Expr} (h : Fronted all n whole) :
    sizeOf n ≤ sizeOf whole := by
  obtain ⟨ops, rfl, -⟩ := h
  induction ops with
  | nil => exact Nat.le_refl _
  | cons op ops ih =>
      rw [List.foldr_cons, unary.sizeOf_spec]
      omega

/-- **What the span of a node quotes.**  The slice of the source under the span of a node is an expression
exactly if its parentheses are balanced.  It is read back as the node, with its places moved, exactly if
also no operator with the same span stands before the node. -/
theorem slice_of_parse (h : Expr.parse source = .ok e) (hn : n ∈ e.subexprs) :
    ((∃ m, Expr.parse (n.span.slice source) = .ok m) ↔ Balanced (n.span.slice source).toList) ∧
      ((∃ m, Expr.parse (n.span.slice source) = .ok m ∧ m.shift n.span.start = n) ↔
        Balanced (n.span.slice source).toList ∧ ∀ op, .unary op n n.span ∉ e.subexprs) := by
  refine ⟨⟨?_, fun hbalanced => ?_⟩, ⟨?_, ?_⟩⟩
  · rintro ⟨m, hm⟩
    exact balanced_of_parse hm
  · obtain ⟨m, hm, -⟩ := parse_slice h hn hbalanced
    exact ⟨m, hm⟩
  · rintro ⟨m, hm, hback⟩
    refine ⟨balanced_of_parse hm, fun op hop => ?_⟩
    -- The operation has the same slice, which would be read as something larger.
    obtain ⟨m', hm', hfront⟩ := parse_slice h hop (balanced_of_parse hm)
    have hsame : m' = m := Except.ok.inj (hm'.symm.trans hm)
    have hsize := sizeOf_le_fronted hfront
    rw [hsame] at hsize
    have hback' : m.shift (unary op n n.span).span.start = n := hback
    rw [hback', unary.sizeOf_spec] at hsize
    omega
  · rintro ⟨hbalanced, hnone⟩
    obtain ⟨m, hm, ops, hwhole, hops⟩ := parse_slice h hn hbalanced
    refine ⟨m, hm, ?_⟩
    cases ops with
    | nil => exact hwhole
    | cons op ops =>
        obtain ⟨op', hop'⟩ := hops (List.cons_ne_nil _ _)
        exact absurd hop' (hnone op')

/-- A call keeps its own parentheses; a parenthesised operand does not. -/
theorem slice_of_parse_sum :
    ∃ e e', (Expr.parse "f(x)" = .ok e ∧ ∃ m, Expr.parse (e.span.slice "f(x)") = .ok m) ∧
      Expr.parse "(a) + b" = .ok e' ∧ ¬ ∃ m, Expr.parse (e'.span.slice "(a) + b") = .ok m := by
  have hcall : ((Expr.parse "f(x)").map fun e => e.span.slice "f(x)").toOption = some "f(x)" := by
    decide +kernel
  have hsum : ((Expr.parse "(a) + b").map fun e => e.span.slice "(a) + b").toOption =
      some "a) + b" := by decide +kernel
  cases hparse : Expr.parse "f(x)" with
  | error err =>
      rw [hparse] at hcall
      cases hcall
  | ok e =>
      cases hparse' : Expr.parse "(a) + b" with
      | error err =>
          rw [hparse'] at hsum
          cases hsum
      | ok e' =>
          rw [hparse] at hcall
          rw [hparse'] at hsum
          have hslice : e.span.slice "f(x)" = "f(x)" := Option.some.inj hcall
          have hslice' : e'.span.slice "(a) + b" = "a) + b" := Option.some.inj hsum
          refine ⟨e, e', ⟨rfl, (slice_of_parse hparse (mem_subexprs_self e)).1.mpr ?_⟩, rfl, fun hm => ?_⟩
          · rw [hslice]
            decide
          · have hbalanced := (slice_of_parse hparse' (mem_subexprs_self e')).1.mp hm
            rw [hslice'] at hbalanced
            exact absurd hbalanced (by decide)

/-- The span of `(a).b` is that of `a).b`, and both operators of `!!a` have the span of the whole. -/
theorem slice_ne_node :
    (∃ e, Expr.parse "(a).b" = .ok e ∧ e ∈ e.subexprs ∧
      ¬ ∃ m, Expr.parse (e.span.slice "(a).b") = .ok m ∧ m.shift e.span.start = e) ∧
    ∃ e n, Expr.parse "!!a" = .ok e ∧ n ∈ e.subexprs ∧
      ¬ ∃ m, Expr.parse (n.span.slice "!!a") = .ok m ∧ m.shift n.span.start = n := by
  refine ⟨?_, ?_⟩
  · have hslice : ((Expr.parse "(a).b").map fun e => e.span.slice "(a).b").toOption = some "a).b" := by
      decide +kernel
    have hfails : (Expr.parse "a).b").isOk = false := by decide +kernel
    cases hparse : Expr.parse "(a).b" with
    | error err =>
        rw [hparse] at hslice
        cases hslice
    | ok e =>
        rw [hparse] at hslice
        refine ⟨e, rfl, mem_subexprs_self e, ?_⟩
        rintro ⟨m, hm, -⟩
        have hslice' : e.span.slice "(a).b" = "a).b" := Option.some.inj hslice
        rw [hslice'] at hm
        rw [hm] at hfails
        cases hfails
  · have hparse : Expr.parse "!!a" =
        .ok (.unary .not (.unary .not (.identifier "a" ⟨2, 3⟩) ⟨0, 3⟩) ⟨0, 3⟩) := by
      have hprefixes := PrefixesSpelling.cons .not Reader.blanks_nil
        (.cons .not Reader.blanks_nil .nil)
      have hname : PrimarySpelling ExprSpelling ['a'] _ :=
        .name ⟨rfl, List.forall_mem_nil _⟩ (by decide)
      have hoperand := OperandSpelling.mk hprefixes hname Reader.blanks_nil .nil
      exact parse_eq_ok_iff.mpr ⟨[], _, _, Reader.blanks_nil, .of (.sequence (.mk hoperand .nil)),
        by decide, rfl⟩
    refine ⟨_, .unary .not (.identifier "a" ⟨2, 3⟩) ⟨0, 3⟩, hparse, ?_, ?_⟩
    · exact List.mem_cons_of_mem _ List.mem_cons_self
    · rintro ⟨m, hm, hback⟩
      have hslice : Span.slice ⟨0, 3⟩ "!!a" = "!!a" := by decide
      rw [span, hslice, hparse] at hm
      cases hm
      cases hback

end Expr

end LineMarkup
