import LineMarkup.Expr.Grouping

/-!
# Grouping of operators, inverted

A tree of operations lies flat when its operands and operators are listed from left to right.  The
listing stands for the tree at a bound if every operation in it binds at least as tightly as the
bound, its left operand at least as tightly as itself, and its right operand more tightly.

Grouping the listing gives back the tree.  The invariant speaks of a listing inside a longer one:
the operators that wait to its left bind more loosely than the bound, and the one that comes next to
its right not more tightly, so reading the listing is the same as having read its tree as one
operand.

Climbing finds such a listing in every sequence.  It needs no stack: from an operand that was read it goes
on as long as operators bind at least as tightly as a bound, and for the right operand of each of them it
climbs again, with a higher bound.  What it takes at a bound is a listing at that bound, so climbing a
whole sequence and grouping it are the same.

## Main Definitions

* `Listing` — a sequence of operands and operators that stands for a tree at a bound
* `climb`, `reach` — climbing from an operand, and climbing for the right operand of an operator

## Main Statements

* `Listing.groupOnto_append` — a listing inside a longer one
* `Listing.group_eq` — a whole listing
* `Listing.extends_climb` — what climbing takes
* `climb_eq_group` — climbing a whole sequence
* `Listing.of_group` — every sequence is a listing of the tree it is grouped to
-/

namespace LineMarkup.Expr

/-- What stands for a tree at a bound: the first operand, and the operators with the operands behind
them. -/
inductive Listing : Nat → Expr → List (BinaryOp × Expr) → Expr → Prop where
  | operand {bound : Nat} (e : Expr) : Listing bound e [] e
  | operation {bound : Nat} {op : BinaryOp} {first next left right : Expr}
      {before behind : List (BinaryOp × Expr)} : bound ≤ op.precedence →
      Listing op.precedence first before left →
      Listing (op.precedence + 1) next behind right →
      Listing bound first (before ++ (op, next) :: behind) (join left op right)

/-- The operators that wait all the way to the left bind more loosely than a bound. -/
def Waits (bound : Nat) (waiting : List (Expr × BinaryOp)) : Prop :=
  ∀ w ∈ waiting.head?, w.2.precedence < bound

/-- The operator that comes next does not bind more tightly than a bound. -/
def Yields (bound : Nat) (more : List (BinaryOp × Expr)) : Prop :=
  ∀ m ∈ more.head?, m.1.precedence ≤ bound

section

variable {bound : Nat} {waiting : List (Expr × BinaryOp)} {more : List (BinaryOp × Expr)}

/-- Nothing that waits is closed by an operator that binds more tightly. -/
theorem close_eq_of_waits (h : Waits bound waiting) {p : Nat} (hp : bound ≤ p) (e : Expr) :
    close p waiting e = (waiting, e) := by
  cases waiting with
  | nil => rfl
  | cons w waiting =>
      obtain ⟨left, op⟩ := w
      have hop : op.precedence < bound := h (left, op) rfl
      rw [close, if_neg (by omega)]

/-- An operation that waits on top is closed by whatever does not bind more tightly. -/
theorem groupOnto_cons {left right : Expr} {op : BinaryOp} (h : Yields op.precedence more) :
    groupOnto ((left, op) :: waiting) right more =
      groupOnto waiting (join left op right) more := by
  cases more with
  | nil => simp [groupOnto, close]
  | cons m more =>
      obtain ⟨next, e⟩ := m
      have hnext : next.precedence ≤ op.precedence := h (next, e) rfl
      rw [groupOnto, groupOnto, close, if_pos hnext]

namespace Listing

/-- A listing at a bound stands for the same tree at a lower one. -/
theorem mono {first e : Expr} {rest : List (BinaryOp × Expr)} {lower : Nat}
    (h : Listing bound first rest e) (hle : lower ≤ bound) : Listing lower first rest e := by
  cases h with
  | operand => exact .operand _
  | operation hop hleft hright => exact .operation (Nat.le_trans hle hop) hleft hright

/-- **Reading a listing inside a longer one is reading its tree as one operand.** -/
theorem groupOnto_append {first e : Expr} {rest : List (BinaryOp × Expr)}
    (h : Listing bound first rest e) :
    ∀ {waiting : List (Expr × BinaryOp)} {more : List (BinaryOp × Expr)},
      Waits bound waiting → Yields bound more →
      groupOnto waiting first (rest ++ more) = groupOnto waiting e more := by
  induction h with
  | operand => intro waiting more _ _; rfl
  | @operation bound op first next left right before behind hop hleft hright ihleft ihright =>
      intro waiting more hwaits hyields
      have hleftWaits : Waits op.precedence waiting :=
        fun w hw => Nat.lt_of_lt_of_le (hwaits w hw) hop
      have hrightWaits : Waits (op.precedence + 1) ((left, op) :: waiting) := by
        rintro w ⟨⟩
        exact Nat.lt_succ_self _
      have hopYields : Yields op.precedence more :=
        fun m hm => Nat.le_trans (hyields m hm) hop
      have hrightYields : Yields (op.precedence + 1) more :=
        fun m hm => Nat.le_succ_of_le (hopYields m hm)
      calc groupOnto waiting first ((before ++ (op, next) :: behind) ++ more)
          = groupOnto waiting first (before ++ (op, next) :: (behind ++ more)) := by
            rw [List.append_assoc, List.cons_append]
        _ = groupOnto waiting left ((op, next) :: (behind ++ more)) := by
            refine ihleft hleftWaits ?_
            rintro m ⟨⟩
            exact Nat.le_refl _
        _ = groupOnto ((left, op) :: waiting) next (behind ++ more) := by
            rw [groupOnto, close_eq_of_waits hleftWaits (Nat.le_refl _)]
        _ = groupOnto ((left, op) :: waiting) right more := ihright hrightWaits hrightYields
        _ = groupOnto waiting (join left op right) more := groupOnto_cons hopYields

/-- **Grouping a listing gives the tree that it stands for.** -/
theorem group_eq {first e : Expr} {rest : List (BinaryOp × Expr)}
    (h : Listing bound first rest e) : group first rest = e := by
  have hempty : groupOnto [] first (rest ++ []) = groupOnto [] e [] :=
    h.groupOnto_append (by simp [Waits]) (by simp [Yields])
  rw [List.append_nil] at hempty
  rw [group, hempty]
  rfl

end Listing

end

/-! ### Climbing -/

/-- What may be left when operators that bind at least as tightly as `bound` are taken from a sequence: a shorter
one, or all of it if none stands in front. -/
def LeftBehind (bound : Nat) (rest behind : List (BinaryOp × Expr)) : Prop :=
  behind.length < rest.length ∨ behind = rest ∧ ∀ m ∈ rest.head?, m.1.precedence < bound

theorem LeftBehind.length_le {bound : Nat} {rest behind : List (BinaryOp × Expr)}
    (h : LeftBehind bound rest behind) : behind.length ≤ rest.length := by
  rcases h with h | ⟨rfl, -⟩
  · exact Nat.le_of_lt h
  · exact Nat.le_refl _

mutual

/-- Climb from an operand that was read: take the operators in front of `rest` as long as they bind at
least as tightly as `bound`, each with the right operand that `reach` finds. -/
def climb (bound : Nat) (left : Expr) (rest : List (BinaryOp × Expr)) :
    Expr × { behind : List (BinaryOp × Expr) // LeftBehind bound rest behind } :=
  match rest with
  | [] => (left, ⟨[], .inr ⟨rfl, by simp⟩⟩)
  | (op, next) :: more =>
    if h : bound ≤ op.precedence then
      let right := reach op next more
      let e := climb bound (join left op right.1) right.2.1
      (e.1, ⟨e.2.1, .inl (Nat.lt_succ_of_le (Nat.le_trans e.2.2.length_le right.2.2))⟩)
    else
      (left, ⟨(op, next) :: more, .inr ⟨rfl, by simpa using h⟩⟩)
termination_by (rest.length, 0)
decreasing_by
  · exact Prod.Lex.left _ _ (Nat.lt_succ_self _)
  · exact Prod.Lex.left _ _ (Nat.lt_succ_of_le right.2.2)

/-- The right operand of an operator: what was read grows as long as the next operator binds more tightly. -/
def reach (op : BinaryOp) (right : Expr) (rest : List (BinaryOp × Expr)) :
    Expr × { behind : List (BinaryOp × Expr) // behind.length ≤ rest.length } :=
  match rest with
  | [] => (right, ⟨[], Nat.le_refl _⟩)
  | (next, e) :: more =>
    if h : op.precedence < next.precedence then
      let grown := climb (op.precedence + 1) right ((next, e) :: more)
      have shorter : grown.2.1.length < ((next, e) :: more).length :=
        grown.2.2.resolve_right fun hall => Nat.not_lt.mpr h (hall.2 (next, e) rfl)
      let last := reach op grown.1 grown.2.1
      (last.1, ⟨last.2.1, Nat.le_trans last.2.2 (Nat.le_of_lt shorter)⟩)
    else
      (right, ⟨(next, e) :: more, Nat.le_refl _⟩)
termination_by (rest.length, 1)
decreasing_by
  · exact Prod.Lex.right _ (Nat.lt_succ_self _)
  · exact Prod.Lex.left _ _ shorter

end

/-- A listing that was read goes on in a sequence: it becomes the listing of a larger tree at a bound, and the
next operator binds more loosely than the bound. -/
def Extends (bound : Nat) (first : Expr) (before rest : List (BinaryOp × Expr)) (e : Expr)
    (behind : List (BinaryOp × Expr)) : Prop :=
  ∃ taken, rest = taken ++ behind ∧ Listing bound first (before ++ taken) e ∧
    ∀ m ∈ behind.head?, m.1.precedence < bound

/-- Nothing is taken in front of an operator that binds too loosely. -/
theorem Extends.here {read bound : Nat} {first e : Expr} {before rest : List (BinaryOp × Expr)}
    (h : Listing read first before e) (hbound : bound ≤ read)
    (hrest : ∀ m ∈ rest.head?, m.1.precedence < bound) :
    Extends bound first before rest e rest := by
  refine ⟨[], rfl, ?_, hrest⟩
  rw [List.append_nil]
  exact h.mono hbound

/-- What is taken first and what is taken next are taken together. -/
theorem Extends.append {bound : Nat} {first e : Expr} {before inner rest behind : List (BinaryOp × Expr)}
    (h : Extends bound first (before ++ inner) rest e behind) :
    Extends bound first before (inner ++ rest) e behind := by
  obtain ⟨taken, rfl, he, hbehind⟩ := h
  refine ⟨inner ++ taken, (List.append_assoc ..).symm, ?_, hbehind⟩
  rwa [← List.append_assoc]

mutual

/-- **Climbing goes on from a listing to one at its bound.**  What was read must bind at least as tightly as
the operator that comes next. -/
theorem Listing.extends_climb {read bound : Nat} {first left : Expr}
    {before : List (BinaryOp × Expr)} (h : Listing read first before left)
    (rest : List (BinaryOp × Expr)) (hyields : Yields read rest) (hbound : bound ≤ read) :
    Extends bound first before rest (climb bound left rest).1 (climb bound left rest).2.1 := by
  match rest with
  | [] =>
      rw [climb]
      exact .here h hbound (by simp)
  | (op, next) :: more =>
      have hop : op.precedence ≤ read := hyields (op, next) rfl
      rw [climb]
      split
      case isFalse hstop =>
        refine .here h hbound ?_
        rintro m ⟨⟩
        exact Nat.not_le.mp hstop
      case isTrue hgo =>
        obtain ⟨inner, hmore, hright, hnext⟩ :=
          (@operand (max (op.precedence + 1) (more.head?.elim 0 (·.1.precedence))) next).extends_reach
            op more (fun m hm => by rw [hm]; exact Nat.le_max_right _ _) (Nat.le_max_left _ _)
        have hjoin : Listing op.precedence first (before ++ (op, next) :: inner)
            (join left op (reach op next more).1) :=
          .operation (Nat.le_refl _) (h.mono hop) hright
        have hshorter : (reach op next more).2.1.length < ((op, next) :: more).length :=
          Nat.lt_succ_of_le (reach op next more).2.2
        have hlast := (hjoin.extends_climb (reach op next more).2.1
          (fun m hm => Nat.le_of_lt_succ (hnext m hm)) hgo).append
        rwa [List.cons_append, ← hmore] at hlast
termination_by (rest.length, 0)
decreasing_by
  · exact Prod.Lex.left _ _ (Nat.lt_succ_self more.length)
  · exact Prod.Lex.left _ _ hshorter

/-- The right operand of an operator is listed more tightly than the operator. -/
theorem Listing.extends_reach {read : Nat} {first right : Expr} {before : List (BinaryOp × Expr)}
    (h : Listing read first before right) (op : BinaryOp) (rest : List (BinaryOp × Expr))
    (hyields : Yields read rest) (hbound : op.precedence + 1 ≤ read) :
    Extends (op.precedence + 1) first before rest (reach op right rest).1
      (reach op right rest).2.1 := by
  match rest with
  | [] =>
      rw [reach]
      exact .here h hbound (by simp)
  | (next, e) :: more =>
      rw [reach]
      split
      case isFalse hstop =>
        refine .here h hbound ?_
        rintro m ⟨⟩
        exact Nat.lt_succ_of_le (Nat.not_lt.mp hstop)
      case isTrue hgo =>
        obtain ⟨inner, hmore, hgrown, hnext⟩ := h.extends_climb ((next, e) :: more) hyields hbound
        have hshorter : (climb (op.precedence + 1) right ((next, e) :: more)).2.1.length <
            ((next, e) :: more).length :=
          (climb (op.precedence + 1) right ((next, e) :: more)).2.2.resolve_right fun hall =>
            Nat.not_lt.mpr hgo (hall.2 (next, e) rfl)
        have hlast := (hgrown.extends_reach op _ (fun m hm => Nat.le_of_lt (hnext m hm))
          (Nat.le_refl _)).append
        rwa [← hmore] at hlast
termination_by (rest.length, 1)
decreasing_by
  · exact Prod.Lex.right _ (Nat.lt_succ_self _)
  · exact Prod.Lex.left _ _ hshorter

end

/-- Climbing at the lowest bound takes the whole of a sequence. -/
theorem climb_takes_all (first : Expr) (rest : List (BinaryOp × Expr)) :
    Listing 0 first rest (climb 0 first rest).1 ∧ (climb 0 first rest).2.1 = [] := by
  obtain ⟨taken, hrest, he, hbehind⟩ :=
    (@Listing.operand (rest.head?.elim 0 (·.1.precedence)) first).extends_climb rest
      (fun m hm => by rw [hm]; exact Nat.le_refl _) (Nat.zero_le _)
  have hall : (climb 0 first rest).2.1 = [] := by
    rw [← List.head?_eq_none_iff]
    exact Option.eq_none_iff_forall_not_mem.mpr fun m hm => Nat.not_lt_zero _ (hbehind m hm)
  rw [hall, List.append_nil] at hrest
  rw [List.nil_append, ← hrest] at he
  exact ⟨he, hall⟩

/-- **Climbing and the stack give the same tree.** -/
theorem climb_eq_group (first : Expr) (rest : List (BinaryOp × Expr)) :
    (climb 0 first rest).1 = group first rest :=
  (climb_takes_all first rest).1.group_eq.symm

/-- **Grouping gives a tree that the sequence stands for.** -/
theorem Listing.of_group (first : Expr) (rest : List (BinaryOp × Expr)) :
    Listing 0 first rest (group first rest) := by
  rw [← climb_eq_group]
  exact (climb_takes_all first rest).1

end LineMarkup.Expr
