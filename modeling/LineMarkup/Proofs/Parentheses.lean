import LineMarkup.Proofs.ExpressionCompleteness

/-!
# Parentheses outside of quoted texts

Whether the parentheses of a text are balanced is found by going over it once.  What counts is how many of
them are open; a parenthesis in a quoted text does not count, so the scan also knows the quote it is in,
and that the next character stands behind a backslash.

The text of every expression is balanced.  So a part of a source can only be an expression if it is
balanced, and there are two ways not to be: the part closes a parenthesis that was opened before it, or it
leaves one open.

## Main Definitions

* `Scan`, `Scan.step`, `scan` — the scan of a text
* `Balanced` — no parenthesis of a text is without its partner
* `Shuts` — a text closes a parenthesis that it did not open

## Main Statements

* `scan_deeper` — a scan that succeeds also does so with more open parentheses
* `not_balanced_of_open` — a start of a balanced text does not close a parenthesis before it
* `ExprSpelling.balanced` — the text of an expression is balanced
-/

namespace LineMarkup.Grammar

open Reader

/-! ### Scanning -/

/-- Where the scan of a text stands, with the number of open parentheses: outside of quoted texts, in one,
or behind a backslash in one. -/
inductive Scan where
  | outside (depth : Nat)
  | inside (quote : Char) (depth : Nat)
  | escaped (quote : Char) (depth : Nat)
deriving DecidableEq, Repr

namespace Scan

/-- The scan past one more character.  It fails at a parenthesis that closes none. -/
def step : Scan → Char → Option Scan
  | outside depth, c =>
    if c = '(' then
      some (outside (depth + 1))
    else if c = ')' then
      if depth = 0 then none else some (outside (depth - 1))
    else if c = '"' ∨ c = '\'' then
      some (inside c depth)
    else
      some (outside depth)
  | inside quote depth, c =>
    if c = quote then
      some (outside depth)
    else if c = '\\' then
      some (escaped quote depth)
    else
      some (inside quote depth)
  | escaped quote depth, _ => some (inside quote depth)

/-- The same place with one more open parenthesis. -/
def deeper : Scan → Scan
  | outside depth => outside (depth + 1)
  | inside quote depth => inside quote (depth + 1)
  | escaped quote depth => escaped quote (depth + 1)

/-- A step that is possible stays so with one more open parenthesis. -/
theorem step_deeper {st st' : Scan} {c : Char} (h : st.step c = some st') :
    st.deeper.step c = some st'.deeper := by
  cases st with
  | outside depth =>
      rw [step] at h
      rw [deeper, step]
      by_cases hopen : c = '('
      · rw [if_pos hopen] at h ⊢
        cases h
        rfl
      rw [if_neg hopen] at h ⊢
      by_cases hclose : c = ')'
      · rw [if_pos hclose] at h ⊢
        cases depth with
        | zero => cases h
        | succ depth =>
            cases h
            rfl
      rw [if_neg hclose] at h ⊢
      by_cases hquote : c = '"' ∨ c = '\''
      · rw [if_pos hquote] at h ⊢
        cases h
        rfl
      · rw [if_neg hquote] at h ⊢
        cases h
        rfl
  | inside quote depth =>
      rw [step] at h
      rw [deeper, step]
      by_cases hquote : c = quote
      · rw [if_pos hquote] at h ⊢
        cases h
        rfl
      rw [if_neg hquote] at h ⊢
      by_cases hescape : c = '\\'
      · rw [if_pos hescape] at h ⊢
        cases h
        rfl
      · rw [if_neg hescape] at h ⊢
        cases h
        rfl
  | escaped quote depth =>
      cases h
      rfl

end Scan

/-- The scan of a text from a place on. -/
def scan (st : Scan) (s : List Char) : Option Scan :=
  s.foldlM Scan.step st

/-- No parenthesis of a text is without its partner, and no quoted text is left open. -/
def Balanced (s : List Char) : Prop :=
  scan (.outside 0) s = some (.outside 0)

instance : DecidablePred Balanced :=
  fun s => inferInstanceAs (Decidable (scan (.outside 0) s = some (.outside 0)))

/-- A text closes a parenthesis that it did not open. -/
def Shuts (s : List Char) : Prop :=
  scan (.outside 0) s = none

section Scanning

variable {s t u w : List Char} {st st' : Scan}

@[simp] theorem scan_nil (st : Scan) : scan st [] = some st := rfl

/-- A scan goes on character by character. -/
theorem scan_cons (st : Scan) (c : Char) (s : List Char) :
    scan st (c :: s) = (st.step c).bind fun st' => scan st' s := rfl

/-- A text behind another one is scanned from where the first one has led. -/
theorem scan_append (st : Scan) (s t : List Char) :
    scan st (s ++ t) = (scan st s).bind fun st' => scan st' t :=
  List.foldlM_append

/-- **A scan that succeeds also does so with more open parentheses.** -/
theorem scan_deeper (h : scan st s = some st') : scan st.deeper s = some st'.deeper := by
  induction s generalizing st with
  | nil =>
      cases h
      rfl
  | cons c s ih =>
      rw [scan_cons, Option.bind_eq_some_iff] at h
      obtain ⟨mid, hmid, h⟩ := h
      rw [scan_cons, Scan.step_deeper hmid]
      exact ih h

namespace Balanced

theorem nil : Balanced [] := rfl

/-- Balanced texts are passed at any depth. -/
theorem scan_eq (h : Balanced s) (depth : Nat) : scan (.outside depth) s = some (.outside depth) := by
  induction depth with
  | zero => exact h
  | succ depth ih => exact scan_deeper ih

/-- A balanced text in front of another one makes no difference. -/
theorem append_iff (h : Balanced s) : Balanced (s ++ t) ↔ Balanced t := by
  unfold Balanced
  rw [scan_append, h.scan_eq]
  rfl

/-- Two balanced texts in a row are balanced. -/
theorem append (h : Balanced s) (h' : Balanced t) : Balanced (s ++ t) :=
  h.append_iff.mpr h'

/-- A balanced text in parentheses is balanced. -/
theorem parenthesised (h : Balanced s) : Balanced ('(' :: (s ++ [')'])) := by
  unfold Balanced
  rw [scan_cons]
  show scan (.outside 1) (s ++ [')']) = _
  rw [scan_append, h.scan_eq]
  rfl

/-- Other characters than parentheses and quotes do not count. -/
theorem of_forall (h : ∀ c ∈ s, c ≠ '(' ∧ c ≠ ')' ∧ c ≠ '"' ∧ c ≠ '\'') : Balanced s := by
  induction s with
  | nil => exact nil
  | cons c s ih =>
      obtain ⟨⟨hopen, hclose, hdouble, hsingle⟩, hs⟩ := List.forall_mem_cons.mp h
      unfold Balanced
      rw [scan_cons]
      have hstep : (Scan.outside 0).step c = some (.outside 0) := by
        simp only [Scan.step, if_neg hopen, if_neg hclose, hdouble, hsingle, or_self, if_false]
      rw [hstep]
      exact ih hs

/-- A balanced text behind a character that is neither a parenthesis nor a quotation mark. -/
theorem cons {c : Char} (h : Balanced s) (hc : Balanced [c]) : Balanced (c :: s) :=
  hc.append h

end Balanced

namespace Shuts

/-- Nothing that comes behind opens a parenthesis that was closed too early. -/
theorem append (h : Shuts s) (t : List Char) : Shuts (s ++ t) := by
  unfold Shuts
  rw [scan_append, h]
  rfl

/-- A text that closes what it did not open is not balanced. -/
theorem not_balanced (h : Shuts s) : ¬ Balanced s := by
  unfold Balanced
  rw [h]
  exact fun h => by cases h

/-- A parenthesis behind a balanced text closes none of it. -/
theorem of_balanced (h : Balanced s) : Shuts (s ++ [')']) := by
  unfold Shuts
  rw [scan_append, h]
  rfl

end Shuts

/-- **A start of a balanced text does not close a parenthesis before it.** -/
theorem not_balanced_of_open (hw : Balanced w) (h : Balanced (t ++ u)) : ¬ Balanced ('(' :: w ++ t) := by
  intro hopen
  unfold Balanced at hopen h
  rw [scan_append, Option.bind_eq_some_iff] at h
  obtain ⟨st, ht, -⟩ := h
  have hdeeper : scan (.outside 1) t = some st.deeper := scan_deeper ht
  rw [List.cons_append, scan_cons] at hopen
  have hopen' : scan (.outside 1) (w ++ t) = some (.outside 0) := hopen
  rw [scan_append, hw.scan_eq, Option.bind_some, hdeeper] at hopen'
  cases st <;> cases hopen'

end Scanning

/-! ### Tokens -/

theorem balanced_of_blanks {w : List Char} (h : Blanks w) : Balanced w :=
  .of_forall fun c hc => by
    have hspace := h c hc
    simp only [isSpace, Bool.or_eq_true, beq_iff_eq] at hspace
    obtain ((rfl | rfl) | rfl) | rfl := hspace <;> decide

/-- Characters of names are neither parentheses nor quotation marks. -/
theorem balanced_of_isIdentChar {s : List Char} (h : ∀ c ∈ s, isIdentChar c = true) : Balanced s :=
  .of_forall fun c hc => by
    refine ⟨?_, ?_, ?_, ?_⟩ <;> exact bne_iff_ne.mp (bne_of_class (h c hc) (by decide))

theorem IsDigits.balanced {ds : List Char} (h : IsDigits ds) : Balanced ds :=
  balanced_of_isIdentChar fun c hc => isIdentChar_of_isDigit (h.2 c hc)

theorem IsName.balanced {n : List Char} (h : IsName n) : Balanced n :=
  balanced_of_isIdentChar h.isIdentChar

/-- The symbols of operators have no parentheses. -/
theorem BinaryOp.balanced (op : BinaryOp) : Balanced op.symbol.toList := by
  cases op <;> decide

/-- The symbols of prefixed operators have no parentheses. -/
theorem UnaryOp.balanced (op : UnaryOp) : Balanced op.symbol.toList := by
  cases op <;> decide

/-- The inside of a quoted text is passed without leaving it. -/
theorem Inside.scan_eq {q : Char} {s : List Char} (hq : q ≠ '\\') (h : Inside q s) :
    scan (.inside q 0) s = some (.inside q 0) := by
  induction h with
  | nil => rfl
  | @pair s x h ih =>
      rw [scan_cons, Scan.step, if_neg (Ne.symm hq), if_pos rfl]
      exact ih
  | @plain s x hquote hescape h ih =>
      rw [scan_cons, Scan.step, if_neg hquote, if_neg hescape]
      exact ih

/-- A text in quotes is balanced, whatever is in it. -/
theorem balanced_quoted {q : Char} {s : List Char} (hq : q = '"' ∨ q = '\'') (h : Inside q s) :
    Balanced (q :: s ++ [q]) := by
  have hopen : (Scan.outside 0).step q = some (.inside q 0) := by
    obtain rfl | rfl := hq <;> rfl
  have hescape : q ≠ '\\' := by
    obtain rfl | rfl := hq <;> decide
  have hclose : scan (.inside q 0) [q] = some (.outside 0) := by
    rw [scan_cons, Scan.step, if_pos rfl]
    rfl
  unfold Balanced
  rw [List.cons_append, scan_cons, hopen, Option.bind_some, scan_append, h.scan_eq hescape,
    Option.bind_some, hclose]

/-- Numbers, words and texts are balanced. -/
theorem AtomSpelling.balanced {s : List Char} {v : Value} (h : AtomSpelling s v) : Balanced s := by
  cases h with
  | number hx =>
      cases hx with
      | whole hds => exact hds.balanced
      | point hds hes => exact hds.balanced.append (hes.balanced.cons (by decide))
  | string hq hs => exact balanced_quoted hq hs
  | true | false | null | undefined => decide

/-! ### Expressions -/

/-- Prefixed operators have no parentheses. -/
theorem PrefixesSpelling.balanced {x : List Char} {ops : List UnaryOp} (h : PrefixesSpelling x ops) :
    Balanced x := by
  induction h with
  | nil => exact .nil
  | cons op hw _ ih => exact (UnaryOp.balanced op).append ((balanced_of_blanks hw).append ih)

/-- A text between brackets. -/
private theorem Balanced.brackets {w x : List Char} (hw : Blanks w) (hx : Balanced x) :
    Balanced ('[' :: w ++ (x ++ [']'])) :=
  ((balanced_of_blanks hw).cons (by decide)).append (hx.append (by decide))

/-- A text between parentheses. -/
private theorem Balanced.parentheses {w x : List Char} (hw : Blanks w) (hx : Balanced x) :
    Balanced ('(' :: w ++ (x ++ [')'])) := by
  have := ((balanced_of_blanks hw).append hx).parenthesised
  rwa [List.append_assoc] at this

mutual

/-- **The text of an expression is balanced.** -/
theorem ExprSpelling.balanced : {s : List Char} → {f : Nat → Expr} → ExprSpelling s f → Balanced s
  | _, _, .of h => ConditionalSpelling.balanced h

/-- The text of a conditional is balanced. -/
theorem ConditionalSpelling.balanced : {s : List Char} → {f : Nat → Expr} →
    ConditionalSpelling ExprSpelling s f → Balanced s
  | _, _, .sequence h => SequenceSpelling.balanced h
  | _, _, .conditional hx hw hy hw' hz =>
      have hno := ((balanced_of_blanks hw').cons (by decide)).append (ExprSpelling.balanced hz)
      have hyes := ((balanced_of_blanks hw).cons (by decide)).append
        ((ExprSpelling.balanced hy).append hno)
      (SequenceSpelling.balanced hx).append hyes

/-- The text of operators and operands is balanced. -/
theorem SequenceSpelling.balanced : {s : List Char} → {f : Nat → Expr} →
    SequenceSpelling ExprSpelling s f → Balanced s
  | _, _, .mk hx hxs => (OperandSpelling.balanced hx).append (RestSpelling.balanced hxs)

/-- The text of further operands is balanced. -/
theorem RestSpelling.balanced : {s : List Char} → {fs : Nat → List (BinaryOp × Expr)} →
    RestSpelling ExprSpelling s fs → Balanced s
  | _, _, .nil => .nil
  | _, _, .cons op hw hx hxs =>
      ((BinaryOp.balanced op).append (balanced_of_blanks hw)).append
        ((OperandSpelling.balanced hx).append (RestSpelling.balanced hxs))

/-- The text of an operand is balanced. -/
theorem OperandSpelling.balanced : {s : List Char} → {f : Nat → Expr} →
    OperandSpelling ExprSpelling s f → Balanced s
  | _, _, .mk hx hy hw hz =>
      hx.balanced.append ((PrimarySpelling.balanced hy).append
        ((balanced_of_blanks hw).append (SuffixesSpelling.balanced hz)))

/-- The text of suffixes is balanced. -/
theorem SuffixesSpelling.balanced : {s : List Char} → {fs : Nat → List (Suffix × Span)} →
    SuffixesSpelling ExprSpelling s fs → Balanced s
  | _, _, .nil => .nil
  | _, _, .cons hx hw hxs =>
      (SuffixSpelling.balanced hx).append
        ((balanced_of_blanks hw).append (SuffixesSpelling.balanced hxs))

/-- The text of a suffix is balanced: the parentheses of a call are partners. -/
theorem SuffixSpelling.balanced : {s : List Char} → {f : Nat → Suffix} →
    SuffixSpelling ExprSpelling s f → Balanced s
  | _, _, .member hw hn => ((balanced_of_blanks hw).cons (by decide)).append hn.balanced
  | _, _, .index hw hx => .brackets hw (ExprSpelling.balanced hx)
  | _, _, .call hw hx => .parentheses hw (ArgumentsSpelling.balanced hx)

/-- The text of a primary is balanced: those around an expression are partners. -/
theorem PrimarySpelling.balanced : {s : List Char} → {f : Nat → Expr} →
    PrimarySpelling ExprSpelling s f → Balanced s
  | _, _, .literal h => h.balanced
  | _, _, .name h _ => h.balanced
  | _, _, .array hw hx => .brackets hw (ArgumentsSpelling.balanced hx)
  | _, _, .parenthesised hw hx => .parentheses hw (ExprSpelling.balanced hx)

/-- The text of a list of expressions is balanced. -/
theorem ArgumentsSpelling.balanced : {s : List Char} → {fs : Nat → List Expr} →
    ArgumentsSpelling ExprSpelling s fs → Balanced s
  | _, _, .none => .nil
  | _, _, .some hx hxs => (ExprSpelling.balanced hx).append (MoreArguments.balanced hxs)

/-- The text of further arguments is balanced. -/
theorem MoreArguments.balanced : {s : List Char} → {fs : Nat → List Expr} →
    MoreArguments ExprSpelling s fs → Balanced s
  | _, _, .nil => .nil
  | _, _, .cons hw hx hxs =>
      ((balanced_of_blanks hw).cons (by decide)).append
        ((ExprSpelling.balanced hx).append (MoreArguments.balanced hxs))

end

end LineMarkup.Grammar
