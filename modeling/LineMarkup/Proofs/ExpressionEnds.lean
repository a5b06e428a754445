import LineMarkup.Proofs.ExpressionPlaces
import LineMarkup.Proofs.SourceReading

/-!
# Where expressions end

An expression takes the blanks behind it, since it looks for an operator there.  These blanks say
nothing: without them the text spells the same tree, its places aside.

So the text of an expression has a last token, and that token has no blank in it.  Cutting off blanks
at both ends of the text, which goes by the wide notion of a blank, therefore stops at the first and at
the last token, and what is left is read as the same expression.

## Main Definitions

* `EndsSolid` — texts whose last character is no blank
* `Trims` — a text that spells the same without the blanks behind it

## Main Statements

* `ExprSpelling.trims` — the blanks behind an expression say nothing
* `ExprSpelling.parse_trim` — the trimmed text of an expression is read as that expression
-/

namespace LineMarkup

namespace Grammar

open Reader

/-! ### Characters that are no blanks -/

/-- Visible characters of the first block are no blanks. -/
theorem not_isBlank_of_toNat {x : Char} (hlow : 0x21 ≤ x.toNat) (hhigh : x.toNat ≤ 0x7E) :
    Text.isBlank x = false := by
  unfold Text.isBlank
  simp
  omega

/-- No character of a name is a blank, not even one that expressions do not skip. -/
theorem not_isBlank_of_isIdentChar {x : Char} (h : isIdentChar x = true) :
    Text.isBlank x = false := by
  unfold isIdentChar at h
  simp only [Bool.or_eq_true, beq_iff_eq] at h
  rcases h with (h | rfl) | rfl
  · have hletter : ((decide (x.val ≥ 'A'.val ∧ x.val ≤ 'Z'.val) ||
        (decide (x.val ≥ 'a'.val) && decide (x.val ≤ 'z'.val))) ||
        (decide (x.val ≥ '0'.val) && decide (x.val ≤ '9'.val))) = true := h
    have hbounds : '0'.val.toNat = 48 ∧ '9'.val.toNat = 57 ∧ 'A'.val.toNat = 65 ∧
        'Z'.val.toNat = 90 ∧ 'a'.val.toNat = 97 ∧ 'z'.val.toNat = 122 := by decide
    simp only [Bool.or_eq_true, Bool.and_eq_true, decide_eq_true_eq, ge_iff_le,
      UInt32.le_iff_toNat_le] at hletter
    have hrange : 0x21 ≤ x.val.toNat ∧ x.val.toNat ≤ 0x7E := by omega
    exact not_isBlank_of_toNat hrange.1 hrange.2
  · decide
  · decide

/-- No operand begins with a blank, not even one that expressions do not skip. -/
theorem not_isBlank_of_opensOperand {x : Char} (h : opensOperand x = true) :
    Text.isBlank x = false := by
  unfold opensOperand opensPrimary at h
  simp only [Bool.or_eq_true, beq_iff_eq] at h
  rcases h with (((((((h | h) | rfl) | rfl) | rfl) | rfl) | rfl) | rfl)
  · exact not_isBlank_of_isIdentChar (isIdentChar_of_isDigit h)
  · exact not_isBlank_of_isIdentChar (isIdentChar_of_isIdentStart h)
  all_goals decide

/-! ### Texts that end with no blank -/

/-- The last character is no blank. -/
def EndsSolid (s : List Char) : Prop :=
  ∃ t x, s = t ++ [x] ∧ Text.isBlank x = false

/-- How a text ends does not depend on what is in front. -/
theorem EndsSolid.prepend {s : List Char} (h : EndsSolid s) (t : List Char) :
    EndsSolid (t ++ s) := by
  obtain ⟨r, x, rfl, hx⟩ := h
  exact ⟨t ++ r, x, (List.append_assoc t r [x]).symm, hx⟩

theorem EndsSolid.of_bracket {s : List Char} {x : Char} (hx : Text.isBlank x = false) :
    EndsSolid (s ++ [x]) :=
  ⟨s, x, rfl, hx⟩

/-- A text of characters of names does not end with a blank. -/
theorem EndsSolid.of_forall {s : List Char} (hs : s ≠ [])
    (h : ∀ x ∈ s, isIdentChar x = true) : EndsSolid s := by
  refine ⟨s.dropLast, s.getLast hs, (List.dropLast_concat_getLast hs).symm, ?_⟩
  exact not_isBlank_of_isIdentChar (h _ (List.getLast_mem hs))

/-- Blanks behind a text that neither starts nor ends with one are all that is cut off. -/
theorem trimList_append_blanks {t w : List Char} (hopens : Opens opensOperand t) (hends : EndsSolid t)
    (hw : Blanks w) : Text.trimList (t ++ w) = t := by
  have hfirst : (t ++ w).dropWhile Text.isBlank = t ++ w := by
    refine Text.dropWhile_eq_of_head? fun x hx => ?_
    exact not_isBlank_of_opensOperand ((hopens.append w).startsWith x hx)
  obtain ⟨r, x, rfl, hx⟩ := hends
  have hlast : ((r ++ [x]) ++ w).reverse.dropWhile Text.isBlank = (r ++ [x]).reverse := by
    rw [List.reverse_append]
    refine (takeWhile_append_of_startsWith (fun y hy => ?_) ?_).2
    · exact isBlank_of_isSpace (hw y (List.mem_reverse.mp hy))
    · rw [List.reverse_append]
      show StartsWith _ (x :: r.reverse)
      rw [startsWith_cons, hx]
      rfl
  rw [Text.trimList, hfirst, hlast, List.reverse_reverse]

/-! ### The last token -/

section LastToken

variable {F : Spelling Expr} {s : List Char}

theorem IsDigits.endsSolid (h : IsDigits s) : EndsSolid s :=
  .of_forall h.1 fun x hx => isIdentChar_of_isDigit (h.2 x hx)

theorem IsName.endsSolid (h : IsName s) : EndsSolid s :=
  .of_forall h.opens.ne_nil h.isIdentChar

/-- Numbers, words and texts do not end with a blank. -/
theorem AtomSpelling.endsSolid {v : Value} (h : AtomSpelling s v) : EndsSolid s := by
  cases h with
  | number h =>
      cases h with
      | whole hds => exact hds.endsSolid
      | point _ hes => exact hes.endsSolid.prepend ['.'] |>.prepend _
  | string hq _ =>
      refine .of_bracket ?_
      rcases hq with rfl | rfl
      · decide
      · decide
  | true => exact ⟨['t', 'r', 'u'], 'e', rfl, by decide⟩
  | false => exact ⟨['f', 'a', 'l', 's'], 'e', rfl, by decide⟩
  | null => exact ⟨['n', 'u', 'l'], 'l', rfl, by decide⟩
  | undefined => exact ⟨['u', 'n', 'd', 'e', 'f', 'i', 'n', 'e'], 'd', rfl, by decide⟩

/-- A primary does not end with a blank. -/
theorem PrimarySpelling.endsSolid {f : Nat → Expr} (h : PrimarySpelling F s f) : EndsSolid s := by
  cases h with
  | literal h => exact h.endsSolid
  | name h _ => exact h.endsSolid
  | @array w x _ _ _ => exact (EndsSolid.of_bracket (s := x) (x := ']') (by decide)).prepend _
  | @parenthesised w x _ _ _ =>
      exact (EndsSolid.of_bracket (s := x) (x := ')') (by decide)).prepend _

/-- A suffix does not end with a blank. -/
theorem SuffixSpelling.endsSolid {f : Nat → Suffix} (h : SuffixSpelling F s f) : EndsSolid s := by
  cases h with
  | member _ h => exact h.endsSolid.prepend _
  | @index w x _ _ _ => exact (EndsSolid.of_bracket (s := x) (x := ']') (by decide)).prepend _
  | @call w x _ _ _ => exact (EndsSolid.of_bracket (s := x) (x := ')') (by decide)).prepend _

end LastToken

/-! ### The blanks behind an expression -/

/-- Without the blanks behind it the text spells the same, its places aside. -/
def Trims (S : Spelling Expr) (s : List Char) (f : Nat → Expr) : Prop :=
  ∃ t w g, s = t ++ w ∧ Blanks w ∧ EndsSolid t ∧ S t g ∧ ∀ o o', (g o).unplaced = (f o').unplaced

/-- The blanks in front of suffixes and those behind the last one.  If there is no suffix, all blanks
count as standing behind, so that what is kept ends as solidly as what stands in front. -/
theorem SuffixesSpelling.trims {z : List Char} {fs : Nat → List (Suffix × Span)}
    (hz : SuffixesSpelling ExprSpelling z fs) :
    ∀ {w : List Char}, Blanks w → ∃ v z' w' gs, w ++ z = v ++ (z' ++ w') ∧ Blanks v ∧ Blanks w' ∧
      SuffixesSpelling ExprSpelling z' gs ∧ (∀ y, EndsSolid y → EndsSolid (y ++ (v ++ z'))) ∧
      ∀ o o', unplacedSuffixes (gs o) = unplacedSuffixes (fs o') := by
  -- What stands behind one suffix stands in front of the next: `w` changes from turn to turn.
  induction hz with
  | nil =>
      intro w hw
      refine ⟨[], [], w, fun _ => [], ?_, blanks_nil, hw, .nil, ?_, fun _ _ => rfl⟩
      · rw [List.append_nil]
        rfl
      · intro y hy
        rwa [List.append_nil, List.append_nil]
  | @cons x w₁ xs f fs hx hw₁ _ ih =>
      intro w hw
      obtain ⟨v, z', w', gs, hsplit, hv, hw', hz', hends, hgs⟩ := ih hw₁
      refine ⟨w, x ++ (v ++ z'), w', _, ?_, hw, hw', .cons hx hv hz', ?_, ?_⟩
      · rw [hsplit]
        simp only [List.append_assoc]
      · intro y _
        exact ((hends x hx.endsSolid).prepend w).prepend y
      · intro o o'
        show (_, default) :: _ = (_, default) :: _
        rw [SuffixSpelling.steady hx o o']
        exact congrArg _ (hgs _ _)

/-- The blanks behind an operand are not needed. -/
theorem OperandSpelling.trims {s : List Char} {f : Nat → Expr}
    (h : OperandSpelling ExprSpelling s f) : Trims (OperandSpelling ExprSpelling) s f := by
  cases h with
  | @mk x y w z ops f fs hx hy hw hz =>
      obtain ⟨v, z', w', gs, hsplit, hv, hw', hz', hends, hgs⟩ := hz.trims hw
      refine ⟨x ++ (y ++ (v ++ z')), w', _, ?_, hw', ?_, .mk hx hy hv hz', ?_⟩
      · rw [hsplit]
        simp only [List.append_assoc]
      · exact (hends y hy.endsSolid).prepend x
      · intro o o'
        simp only [unplaced_operandTree, unplaced_foldl_extend]
        rw [hgs _ _, PrimarySpelling.steady hy _ _]

/-- An operand and what stands behind operators, up to the last token of both. -/
theorem RestSpelling.trims {xs : List Char} {fs : Nat → List (BinaryOp × Expr)}
    (hxs : RestSpelling ExprSpelling xs fs) :
    ∀ {x : List Char} {f : Nat → Expr}, OperandSpelling ExprSpelling x f →
      ∃ y ys w g gs, x ++ xs = (y ++ ys) ++ w ∧ Blanks w ∧ EndsSolid (y ++ ys) ∧
        OperandSpelling ExprSpelling y g ∧ RestSpelling ExprSpelling ys gs ∧
        (∀ o o', (g o).unplaced = (f o').unplaced) ∧
        ∀ o o', Expr.unplacedRest (gs o) = Expr.unplacedRest (fs o') := by
  -- The blanks to cut off are behind the last operand, so the operand in front is carried along.
  induction hxs with
  | nil =>
      intro x f hx
      obtain ⟨t, w, g, rfl, hw, hends, ht, hg⟩ := hx.trims
      refine ⟨t, [], w, g, fun _ => [], ?_, hw, ?_, ht, .nil, hg, fun _ _ => rfl⟩
      · simp only [List.append_nil]
      · rwa [List.append_nil]
  | @cons w₀ x₁ xs f₁ fs op hw₀ hx₁ _ ih =>
      intro x f hx
      obtain ⟨y, ys, w, g, gs, hsplit, hw, hends, hy, hys, hg, hgs⟩ := ih hx₁
      refine ⟨x, op.symbol.toList ++ w₀ ++ (y ++ ys), w, f, _, ?_, hw, ?_, hx, .cons op hw₀ hy hys,
        OperandSpelling.steady hx, ?_⟩
      · rw [hsplit]
        simp only [List.append_assoc]
      · exact (hends.prepend _).prepend x
      · intro o o'
        show (op, _) :: _ = (op, _) :: _
        rw [hg _ _]
        exact congrArg _ (hgs _ _)

/-- The blanks behind operators and operands are not needed. -/
theorem SequenceSpelling.trims {s : List Char} {f : Nat → Expr}
    (h : SequenceSpelling ExprSpelling s f) : Trims (SequenceSpelling ExprSpelling) s f := by
  cases h with
  | mk hx hxs =>
      obtain ⟨y, ys, w, g, gs, hsplit, hw, hends, hy, hys, hg, hgs⟩ := hxs.trims hx
      refine ⟨y ++ ys, w, _, hsplit, hw, hends, .mk hy hys, ?_⟩
      intro o o'
      simp only [Expr.unplaced_group]
      rw [hg _ _, hgs _ _]

mutual

/-- **The blanks behind an expression say nothing.** -/
theorem ExprSpelling.trims : {s : List Char} → {f : Nat → Expr} → ExprSpelling s f →
    Trims ExprSpelling s f
  | _, _, .of h => by
      obtain ⟨t, w, g, hs, hw, hends, ht, hg⟩ := ConditionalSpelling.trims h
      exact ⟨t, w, g, hs, hw, hends, .of ht, hg⟩

/-- The blanks behind a conditional are not needed: they stand behind its last branch. -/
theorem ConditionalSpelling.trims : {s : List Char} → {f : Nat → Expr} →
    ConditionalSpelling ExprSpelling s f → Trims (ConditionalSpelling ExprSpelling) s f
  | _, _, .sequence h => by
      obtain ⟨t, w, g, hs, hw, hends, ht, hg⟩ := h.trims
      exact ⟨t, w, g, hs, hw, hends, .sequence ht, hg⟩
  | _, _, @ConditionalSpelling.conditional _ x v y v' _ _ _ _ hx hv hy hv' hz => by
      -- Only the last branch can end in blanks that belong to the whole.
      obtain ⟨t, w, g, rfl, hw, hends, ht, hg⟩ := ExprSpelling.trims hz
      refine ⟨x ++ ('?' :: v ++ (y ++ (':' :: v' ++ t))), w, _, ?_, hw, ?_,
        .conditional hx hv hy hv' ht, ?_⟩
      · simp only [List.append_assoc, List.cons_append]
      · exact (((hends.prepend _).prepend y).prepend _).prepend x
      · intro o o'
        have htest := SequenceSpelling.steady hx o o'
        have hyes := ExprSpelling.steady hy
        simp only [Expr.unplaced]
        rw [htest, hyes _ _, hg _ _]

end

/-- **The trimmed text of an expression is read as that expression**, its places aside. -/
theorem ExprSpelling.parse_trim {s : List Char} {f : Nat → Expr} (h : ExprSpelling s f) :
    ∃ e, Expr.parse (String.ofList (Text.trimList s)) = .ok e ∧ ∀ o, e.unplaced = (f o).unplaced := by
  obtain ⟨t, w, g, rfl, hw, hends, ht, hg⟩ := h.trims
  refine ⟨g 0, ?_, hg 0⟩
  rw [trimList_append_blanks ht.opens hends hw, parse_eq_ok_iff]
  exact ⟨[], t, g, blanks_nil, ht, String.toList_ofList, rfl⟩

end Grammar

end LineMarkup
