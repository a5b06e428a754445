import LineMarkup.Proofs.ExpressionSoundness

/-!
# An expression is taken whole

Wherever a spelled expression stands and something comes behind it that may, reading takes exactly
that expression.  What may come behind is a class of characters at every level, and the place behind
the last blank is the only one that the statements speak of: a repetition that skips blanks first
leaves the last blanks to the level above, which skips them.

### Why the order of alternatives does no harm

Each alternative is recognised by its first character, names and words apart.  A word is taken for
one only if no name goes on behind it, and the longer operator is tried before the shorter one.

## Main Statements

* `primary_complete`, `operand_complete`, `sequence_complete`, `conditional_complete` — the levels
* `exprWithin_complete` — expressions
-/

namespace LineMarkup.Grammar

open Reader

/-! ### Classes of characters -/

/-- What may come behind a primary or a suffix. -/
def followsPrimary (x : Char) : Bool :=
  isSpace x || opensSuffix x || followsOperand x

section Classes

variable {x : Char}

/-- No operand begins with a blank. -/
theorem not_opensOperand_of_isSpace (h : isSpace x = true) : opensOperand x = false := by
  simp only [isSpace, Bool.or_eq_true, beq_iff_eq] at h
  obtain ((rfl | rfl) | rfl) | rfl := h <;> decide

theorem not_isSpace_of_opensOperand (h : opensOperand x = true) : (!isSpace x) = true := by
  cases hx : isSpace x with
  | false => rfl
  | true => rw [not_opensOperand_of_isSpace hx] at h; simp at h

/-- An operand may begin with its primary. -/
theorem opensOperand_of_opensPrimary (h : opensPrimary x = true) : opensOperand x = true := by
  simp [opensOperand, h]

/-- An operand does not make the symbol in front of it longer. -/
theorem ne_equals_of_opensOperand (h : opensOperand x = true) : (x != '=') = true := by
  rw [bne_iff_ne]
  rintro rfl
  exact absurd h (by decide)

/-- A primary is not mistaken for a prefixed operator. -/
theorem not_prefix_of_opensPrimary (h : opensPrimary x = true) :
    (x != '!' && x != '-') = true := by
  rw [Bool.and_eq_true, bne_iff_ne, bne_iff_ne]
  constructor
  · rintro rfl
    exact absurd h (by decide)
  · rintro rfl
    exact absurd h (by decide)

/-- What may come behind an expression begins no operand. -/
theorem not_opensOperand_of_closesExpr :
    ∀ x, closesExpr x = true → opensOperand x = false := by
  simp [closesExpr, or_imp, forall_and]
  decide

/-- What may come behind a list of expressions may come behind its last one. -/
theorem closesExpr_of_closesArguments : ∀ x, closesArguments x = true → closesExpr x = true := by
  simp [closesArguments, or_imp, forall_and]
  decide

theorem ne_comma_of_closesArguments : ∀ x, closesArguments x = true → (x != ',') = true := by
  simp [closesArguments, or_imp, forall_and]

/-- What may come behind an expression may come behind its operators and operands. -/
theorem followsSequence_of_closesExpr (h : closesExpr x = true) : followsSequence x = true := by
  simp [followsSequence, h]

/-- Behind an expression no conditional goes on. -/
theorem ne_question_of_closesExpr : ∀ x, closesExpr x = true → (x != '?') = true := by
  simp [closesExpr, or_imp, forall_and]

/-- What may come behind operators and operands may come behind the last operand. -/
theorem followsOperand_of_followsSequence (h : followsSequence x = true) :
    followsOperand x = true := by
  simp [followsOperand, h]

/-- Behind the last operand no further operator comes. -/
theorem not_opensBinaryOp_of_followsSequence :
    ∀ x, followsSequence x = true → (!opensBinaryOp x) = true := by
  simp [followsSequence, closesExpr, or_imp, forall_and]
  decide

/-- The blanks behind an operand have been passed when its successor is looked at. -/
theorem not_isSpace_of_followsOperand :
    ∀ x, followsOperand x = true → (!isSpace x) = true := by
  simp [followsOperand, followsSequence, closesExpr, opensBinaryOp, or_imp, forall_and]
  decide

/-- The blanks behind an expression have been passed when its successor is looked at. -/
theorem not_isSpace_of_closesExpr (x : Char) (h : closesExpr x = true) : (!isSpace x) = true :=
  not_isSpace_of_followsOperand x (followsOperand_of_followsSequence
    (followsSequence_of_closesExpr h))

theorem isSpace_of_closesArguments (h : closesArguments x = true) : isSpace x = false := by
  have hspace := not_isSpace_of_closesExpr x (closesExpr_of_closesArguments x h)
  rwa [Bool.not_eq_true'] at hspace

theorem not_isSpace_of_opensSuffix : ∀ x, opensSuffix x = true → (!isSpace x) = true := by
  simp [opensSuffix, or_imp, forall_and]
  decide

/-- What comes behind a primary does not make a name longer. -/
theorem not_isIdentChar_of_followsPrimary :
    ∀ x, followsPrimary x = true → (!isIdentChar x) = true := by
  simp [followsPrimary, isSpace, opensSuffix, followsOperand, followsSequence, closesExpr,
    opensBinaryOp, or_imp, forall_and]
  decide

theorem isIdentChar_of_isDigit (h : x.isDigit = true) : isIdentChar x = true := by
  simp [isIdentChar, Char.isAlphanum, h]

theorem isIdentChar_of_isIdentStart (h : isIdentStart x = true) : isIdentChar x = true := by
  simp only [isIdentStart, Bool.or_eq_true] at h
  rcases h with (h | h) | h <;> simp [isIdentChar, Char.isAlphanum, h]

/-- A name is not mistaken for a number. -/
theorem not_isDigit_of_isIdentStart (h : isIdentStart x = true) : (!x.isDigit) = true := by
  simp only [isIdentStart, Bool.or_eq_true, beq_iff_eq] at h
  rcases h with (h | rfl) | rfl
  · have hletter : (decide (x.val ≥ 'A'.val ∧ x.val ≤ 'Z'.val) ||
        (decide (x.val ≥ 'a'.val) && decide (x.val ≤ 'z'.val))) = true := h
    simp only [Bool.or_eq_true, Bool.and_eq_true, decide_eq_true_eq] at hletter
    grind [Char.isDigit]
  · decide
  · decide

/-- Characters are different if a class holds one of them only. -/
theorem bne_of_class {p : Char → Bool} {y : Char} (hx : p x = true) (hy : p y = false) :
    (x != y) = true := by
  rw [bne_iff_ne]
  rintro rfl
  rw [hx] at hy
  exact absurd hy (by decide)

end Classes

/-! ### First characters of spellings -/

/-- A text that starts with a character of a class. -/
structure Opens (p : Char → Bool) (s : List Char) : Prop where
  ne_nil : s ≠ []
  startsWith : StartsWith p s

/-- The first character decides how a text opens. -/
theorem opens_cons_iff {p : Char → Bool} {x : Char} {s : List Char} :
    Opens p (x :: s) ↔ p x = true :=
  ⟨fun h => startsWith_cons.mp h.startsWith, fun h => ⟨by simp, startsWith_cons.mpr h⟩⟩

/-- How a text opens does not depend on what is behind it. -/
theorem Opens.append {p : Char → Bool} {s : List Char} (h : Opens p s) (t : List Char) :
    Opens p (s ++ t) := by
  cases s with
  | nil => exact absurd rfl h.ne_nil
  | cons x s => exact opens_cons_iff.mpr (opens_cons_iff.mp h)

/-- A class may be replaced by a larger one. -/
theorem Opens.mono {p q : Char → Bool} {s : List Char} (h : Opens p s)
    (sub : ∀ x, p x = true → q x = true) : Opens q s :=
  ⟨h.ne_nil, h.startsWith.mono sub⟩

/-- In front of a text that is empty or starts right, any start will do that is right itself. -/
theorem StartsWith.append {p : Char → Bool} {s t : List Char} (hs : StartsWith p s)
    (ht : StartsWith p t) : StartsWith p (s ++ t) := by
  cases s with
  | nil => exact ht
  | cons x s => exact startsWith_cons.mpr (startsWith_cons.mp hs)

/-- What a text starts with is what comes next where it stands. -/
theorem Cursor.Leads.startsWith {c d : Cursor} {p : Char → Bool} {s : List Char}
    (h : c.Leads s d) (hs : Opens p s) : StartsWith p c.rest := by
  rw [h.rest]
  exact (hs.append d.rest).startsWith

section FirstCharacters

variable {F : Spelling Expr} {s : List Char}

/-- Digits open with a digit. -/
theorem IsDigits.opens {ds : List Char} (h : IsDigits ds) : Opens Char.isDigit ds := by
  cases ds with
  | nil => exact absurd rfl h.1
  | cons x ds => exact opens_cons_iff.mpr (h.2 x List.mem_cons_self)

/-- A number opens with a digit. -/
theorem NumberSpelling.opens {x : Float} (h : NumberSpelling s x) : Opens Char.isDigit s := by
  cases h with
  | whole hds => exact hds.opens
  | point hds _ => exact hds.opens.append _

/-- A name opens with a character that names begin with. -/
theorem IsName.opens {n : List Char} (h : IsName n) : Opens isIdentStart n := by
  cases n with
  | nil => exact h.elim
  | cons x n => exact opens_cons_iff.mpr h.1

/-- All of a name are characters of names. -/
theorem IsName.isIdentChar {n : List Char} (h : IsName n) : ∀ x ∈ n, isIdentChar x = true := by
  cases n with
  | nil => exact h.elim
  | cons x n =>
      intro y hy
      rcases List.mem_cons.mp hy with rfl | hy
      · exact isIdentChar_of_isIdentStart h.1
      · exact h.2 y hy

/-- Numbers, words and texts open as primaries do. -/
theorem AtomSpelling.opens {v : Value} (h : AtomSpelling s v) : Opens opensPrimary s := by
  cases h with
  | number h => exact h.opens.mono fun x hx => by simp [opensPrimary, hx]
  | string hq _ =>
      rw [List.cons_append, opens_cons_iff]
      rcases hq with rfl | rfl <;> decide
  | true => exact opens_cons_iff.mpr (by decide)
  | false => exact opens_cons_iff.mpr (by decide)
  | null => exact opens_cons_iff.mpr (by decide)
  | undefined => exact opens_cons_iff.mpr (by decide)

/-- A primary opens with a character that tells its alternative. -/
theorem PrimarySpelling.opens {f : Nat → Expr} (h : PrimarySpelling F s f) :
    Opens opensPrimary s := by
  cases h with
  | literal h => exact h.opens
  | name h _ => exact h.opens.mono fun x hx => by simp [opensPrimary, hx]
  | array _ _ => exact opens_cons_iff.mpr (by decide)
  | parenthesised _ _ => exact opens_cons_iff.mpr (by decide)

/-- A suffix opens with a dot or a bracket. -/
theorem SuffixSpelling.opens {f : Nat → Suffix} (h : SuffixSpelling F s f) :
    Opens opensSuffix s := by
  cases h with
  | member _ _ => exact opens_cons_iff.mpr (by decide)
  | index _ _ => exact opens_cons_iff.mpr (by decide)
  | call _ _ => exact opens_cons_iff.mpr (by decide)

/-- Suffixes, if there are any, open with a dot or a bracket. -/
theorem SuffixesSpelling.startsWith {fs : Nat → List (Suffix × Span)}
    (h : SuffixesSpelling F s fs) : StartsWith opensSuffix s := by
  cases h with
  | nil => exact startsWith_nil
  | cons h _ _ => exact (h.opens.append _).startsWith

/-- The symbol of a prefixed operator opens an operand. -/
theorem UnaryOp.symbol_opens (op : UnaryOp) : Opens opensOperand op.symbol.toList := by
  cases op <;> exact opens_cons_iff.mpr (by decide)

/-- Prefixed operators, if there are any, open an operand. -/
theorem PrefixesSpelling.startsWith {ops : List UnaryOp} (h : PrefixesSpelling s ops) :
    StartsWith opensOperand s := by
  cases h with
  | nil => exact startsWith_nil
  | cons op _ _ => exact ((UnaryOp.symbol_opens op).append _).startsWith

/-- An operand opens with a prefixed operator or its primary. -/
theorem OperandSpelling.opens {f : Nat → Expr} (h : OperandSpelling F s f) :
    Opens opensOperand s := by
  cases h with
  | mk hops hfirst _ _ =>
      have hopens := hfirst.opens.mono fun _ => opensOperand_of_opensPrimary
      refine ⟨by simp [hopens.ne_nil], ?_⟩
      exact hops.startsWith.append (hopens.append _).startsWith

/-- The symbol of an operator opens as operators between operands do. -/
theorem BinaryOp.symbol_opens (op : BinaryOp) : Opens opensBinaryOp op.symbol.toList := by
  cases op <;> exact opens_cons_iff.mpr (by decide)

/-- What goes on behind the first operand opens with an operator. -/
theorem RestSpelling.startsWith {fs : Nat → List (BinaryOp × Expr)} (h : RestSpelling F s fs) :
    StartsWith opensBinaryOp s := by
  cases h with
  | nil => exact startsWith_nil
  | cons op _ _ _ =>
      rw [List.append_assoc]
      exact ((BinaryOp.symbol_opens op).append _).startsWith

/-- Operators and operands open with their first operand. -/
theorem SequenceSpelling.opens {f : Nat → Expr} (h : SequenceSpelling F s f) :
    Opens opensOperand s := by
  cases h with
  | mk hfirst _ => exact hfirst.opens.append _

/-- A conditional opens with its test. -/
theorem ConditionalSpelling.opens {f : Nat → Expr} (h : ConditionalSpelling F s f) :
    Opens opensOperand s := by
  cases h with
  | sequence h => exact h.opens
  | conditional h _ _ _ _ => exact h.opens.append _

/-- An expression opens with an operand. -/
theorem ExprSpelling.opens {f : Nat → Expr} (h : ExprSpelling s f) : Opens opensOperand s := by
  cases h with
  | of h => exact h.opens

end FirstCharacters

/-! ### What is asked of nested expressions -/

/-- Texts of `F` of at most `n` characters are taken whole wherever a nested expression may end,
and nothing is taken where one has ended. -/
structure CompleteFor (nested : Reader Expr) (F : Spelling Expr) (n : Nat) : Prop where
  opens : ∀ {s : List Char} {f : Nat → Expr}, F s f → Opens opensOperand s
  taken : ∀ {s : List Char} {f : Nat → Expr} {c d : Cursor}, F s f → s.length ≤ n →
    c.Leads s d → StartsWith closesExpr d.rest → nested.found c = some (f c.offset, d)
  missed : ∀ {c : Cursor}, StartsWith closesExpr c.rest → nested.found c = none

section Levels

variable {nested : Reader Expr} {F : Spelling Expr} {n : Nat} {c d : Cursor} {s : List Char}

/-! ### Brackets and arguments -/

/-- In front of an operand no blanks are left to be skipped. -/
theorem noBlank_of_opens {t : List Char} (h : Opens opensOperand s) : NoBlank (s ++ t) :=
  (h.append t).startsWith.mono fun _ => not_isSpace_of_opensOperand

/-- An opening character and the blanks behind it. -/
private theorem open_skip {x : Char} {w : List Char} (hw : Blanks w) (h : c.Leads (x :: w) d)
    (hd : NoBlank d.rest) : ∃ e, c.Leads [x] e ∧ e.dropWhile isSpace = d := by
  obtain ⟨e, hopen, hlead⟩ := Cursor.leads_cons_iff.mp h
  exact ⟨e, hopen, dropWhile_isSpace_eq hlead hw hd⟩

/-- Two brackets, the blanks behind the first one, and what stands between. -/
private theorem brackets_complete {α β : Type} {p : Reader α} {l r : String} {x y : Char}
    {g : α → β} {a : α} {w : List Char} (hl : l.toList = [x]) (hr : r.toList = [y])
    (hy : isSpace y = false) (hs : NoBlank s) (hw : Blanks w)
    (hlead : c.Leads (x :: w ++ (s ++ [y])) d)
    (hp : ∀ {c₁ d₁}, c₁.offset = c.offset + utf8Length (x :: w) → c₁.Leads s d₁ →
      StartsWith (fun z => z == y) d₁.rest → p.found c₁ = some (a, d₁)) :
    (do lit l; skip; let a ← p; token r; return g a : Reader β).found c = some (g a, d) := by
  obtain ⟨c₁, hopen, hlead⟩ := Cursor.leads_append_iff.mp hlead
  obtain ⟨c₂, hbody, hclose⟩ := Cursor.leads_append_iff.mp hlead
  have hbehind : StartsWith (fun z => z == y) c₂.rest := by
    rw [hclose.rest]
    simp
  have hblank₂ : NoBlank c₂.rest := hbehind.mono fun z hz => by rw [eq_of_beq hz, hy]; rfl
  have hblank₁ : NoBlank c₁.rest := by
    rw [hbody.rest]
    exact hs.append hblank₂
  obtain ⟨e, hx, hskip⟩ := open_skip hw hopen hblank₁
  have hfirst : (lit l).found c = some ((), e) := found_lit_iff.mpr (by rw [hl]; exact hx)
  have hlast : (token r).found c₂ = some ((), d) :=
    (found_token_iff hblank₂).mpr (by rw [hr]; exact hclose)
  simp only [found_bind, hfirst, found_skip, hskip, hp hopen.offset hbody hbehind, hlast,
    Option.bind_some, found_pure]

/-- Further arguments open with a comma, which may come behind an expression. -/
private theorem moreArguments_startsWith {fs : Nat → List Expr} (h : MoreArguments F s fs) :
    StartsWith closesExpr s := by
  cases h with
  | nil => exact startsWith_nil
  | cons _ _ _ => exact startsWith_cons.mpr (by decide)

/-- Further arguments are found one by one, up to the bracket that closes them. -/
private theorem moreArguments_complete (hn : CompleteFor nested F n) {fs : Nat → List Expr}
    (h : MoreArguments F s fs) :
    ∀ {c : Cursor}, s.length ≤ n → c.Leads s d → StartsWith closesArguments d.rest →
      Repeats (do token ","; skip; nested) c (fs c.offset) d := by
  induction h with
  | nil =>
      intro c _ hlead hend
      obtain rfl := Cursor.leads_nil_iff.mp hlead
      have hblank : NoBlank d.rest :=
        hend.mono fun x hx => not_isSpace_of_closesExpr x (closesExpr_of_closesArguments x hx)
      refine .stop ?_
      rw [token, found_bind, found_bind, found_skip, dropWhile_isSpace_of_noBlank hblank,
        Option.bind_some, found_lit_eq_none_of_startsWith "," rfl
          (hend.mono ne_comma_of_closesArguments)]
      rfl
  | @cons w x xs f fs hw hx hxs ih =>
      intro c hs hlead hend
      obtain ⟨c₁, hopen, hlead'⟩ := Cursor.leads_append_iff.mp hlead
      obtain ⟨c₂, hfirst, hothers⟩ := Cursor.leads_append_iff.mp hlead'
      have hblank : NoBlank c₁.rest := by
        rw [hfirst.rest]
        exact noBlank_of_opens (hn.opens hx)
      obtain ⟨e, hcomma, hskip⟩ := open_skip hw hopen hblank
      have hnext : NoBlank c.rest := by
        rw [hcomma.rest]
        exact startsWith_cons.mpr (by decide)
      have hcomma' : (token ",").found c = some ((), e) := (found_token_iff hnext).mpr hcomma
      have hbehind : StartsWith closesExpr c₂.rest := by
        rw [hothers.rest]
        exact (moreArguments_startsWith hxs).append (hend.mono closesExpr_of_closesArguments)
      simp only [List.length_append, List.length_cons] at hs
      have hfound := hn.taken hx (by omega) hfirst hbehind
      have hturn : (do token ","; skip; nested : Reader Expr).found c =
          some (f c₁.offset, c₂) := by
        simp only [found_bind, hcomma', found_skip, hskip, hfound, Option.bind_some]
      have hrest := ih (by omega) hothers hend
      rw [hfirst.offset, hopen.offset] at hrest
      rw [hopen.offset] at hturn
      refine .turn hturn ?_ hrest
      rw [hopen.length, hfirst.length, List.length_cons]
      omega

/-- A list of expressions is read up to the bracket that closes it. -/
theorem arguments_complete (hn : CompleteFor nested F n) {fs : Nat → List Expr}
    (h : ArgumentsSpelling F s fs) (hs : s.length ≤ n) (hlead : c.Leads s d)
    (hend : StartsWith closesArguments d.rest) :
    (arguments nested).found c = some (fs c.offset, d) := by
  rw [arguments, found_bind, found_option, Option.bind_some, found_pure]
  cases h with
  | none =>
      obtain rfl := Cursor.leads_nil_iff.mp hlead
      rw [found_bind, hn.missed (hend.mono closesExpr_of_closesArguments)]
      rfl
  | @some x xs f fs hx hxs =>
      obtain ⟨c₁, hfirst, hothers⟩ := Cursor.leads_append_iff.mp hlead
      rw [List.length_append] at hs
      have hbehind : StartsWith closesExpr c₁.rest := by
        rw [hothers.rest]
        exact (moreArguments_startsWith hxs).append (hend.mono closesExpr_of_closesArguments)
      have hmany := found_many_of_repeats (moreArguments_complete hn hxs (by omega) hothers hend)
      rw [found_bind, hn.taken hx (by omega) hfirst hbehind, Option.bind_some, found_bind, hmany,
        hfirst.offset]
      rfl

/-! ### Primaries and suffixes -/

/-- Nothing that comes next can belong to the primary before it. -/
structure PrimaryEnds (t : List Char) : Prop where
  /-- No name goes on. -/
  name : StartsWith (fun x => !isIdentChar x) t
  /-- No point with a digit behind it comes next. -/
  point : ∀ r, t = '.' :: r → StartsWith (fun x => !x.isDigit) r

/-- Where a primary may end, a number may. -/
theorem PrimaryEnds.number {t : List Char} (h : PrimaryEnds t) : NumberEnds t where
  digit := h.name.mono fun x hx => by
    cases hd : x.isDigit with
    | false => rfl
    | true => rw [isIdentChar_of_isDigit hd] at hx; simp at hx
  point := h.point

/-- Another first character rules out the truth values. -/
private theorem found_boolLiteral_eq_none
    (h : StartsWith (fun x => x != 't' && x != 'f') c.rest) :
    boolLiteral.found c = none := by
  cases hfound : boolLiteral.found c with
  | none => rfl
  | some r =>
      obtain ⟨b, e⟩ := r
      obtain ⟨hlead, -⟩ := found_boolLiteral_iff.mp hfound
      rw [hlead.rest] at h
      cases b <;> exact absurd (startsWith_cons.mp h) (by decide)

/-- Another first character rules out the words for null. -/
private theorem found_nullLiteral_eq_none (h : StartsWith (fun x => !isIdentStart x) c.rest) :
    nullLiteral.found c = none := by
  cases hfound : nullLiteral.found c with
  | none => rfl
  | some r =>
      obtain ⟨_, e⟩ := r
      obtain ⟨hlead | hlead, -⟩ := found_nullLiteral_iff.mp hfound
      · rw [hlead.rest] at h
        exact absurd (startsWith_cons.mp h) (by decide)
      · rw [hlead.rest] at h
        exact absurd (startsWith_cons.mp h) (by decide)

/-- Another first character rules out a list. -/
private theorem found_arrayLiteral_eq_none (h : StartsWith (fun x => x != '[') c.rest) :
    (arrayLiteral nested).found c = none := by
  rw [arrayLiteral, found_bind, spanned, found_bind, found_here, Option.bind_some, found_bind,
    found_call, found_bind, found_lit_eq_none_of_startsWith "[" rfl h]
  rfl

/-- Another first character rules out a name. -/
private theorem found_variableName_eq_none (h : StartsWith (fun x => !isIdentStart x) c.rest) :
    variableName.found c = none := by
  rw [variableName, found_bind, spanned, found_bind, found_here, Option.bind_some, found_bind,
    found_identifier_eq_none h]
  rfl

/-- Two words that both end where no name goes on are the same word. -/
private theorem word_unique {m : List Char} {e : Cursor} (hs : c.Leads s d)
    (hs' : ∀ x ∈ s, isIdentChar x = true) (hd : StartsWith (fun x => !isIdentChar x) d.rest)
    (hm : c.Leads m e) (hm' : ∀ x ∈ m, isIdentChar x = true)
    (he : StartsWith (fun x => !isIdentChar x) e.rest) : s = m :=
  (hs.dropWhile_eq hs' hd).1.symm.trans (hm.dropWhile_eq hm' he).1

/-- The reserved words are made of characters of names. -/
private theorem reservedWords_isIdentChar :
    ∀ m ∈ reservedWords, ∀ x ∈ m, isIdentChar x = true := by
  have hall : reservedWords.all (fun m => m.all isIdentChar) = true := by decide +kernel
  simpa only [List.all_eq_true] using hall

/-- A name that is no reserved word is not read as one. -/
private theorem name_not_word (hname : IsName s) (hword : s ∉ reservedWords) (hlead : c.Leads s d)
    (hend : StartsWith (fun x => !isIdentChar x) d.rest) :
    boolLiteral.found c = none ∧ nullLiteral.found c = none := by
  have hmiss {m : List Char} {e : Cursor} (hm : m ∈ reservedWords) (hlead' : c.Leads m e)
      (hend' : StartsWith (fun x => !isIdentChar x) e.rest) : False := by
    have := word_unique hlead hname.isIdentChar hend hlead' (reservedWords_isIdentChar m hm) hend'
    exact hword (this ▸ hm)
  constructor
  · cases hfound : boolLiteral.found c with
    | none => rfl
    | some r =>
        obtain ⟨b, e⟩ := r
        obtain ⟨hlead', hend'⟩ := found_boolLiteral_iff.mp hfound
        exact (hmiss (by cases b <;> decide) hlead' hend').elim
  · cases hfound : nullLiteral.found c with
    | none => rfl
    | some r =>
        obtain ⟨_, e⟩ := r
        obtain ⟨hlead' | hlead', hend'⟩ := found_nullLiteral_iff.mp hfound
        · exact (hmiss (by decide) hlead' hend').elim
        · exact (hmiss (by decide) hlead' hend').elim

/-- The literals are told apart by how they start. -/
private theorem literal_complete {v : Value} (h : AtomSpelling s v) (hlead : c.Leads s d)
    (hend : PrimaryEnds d.rest) :
    (primary nested).found c = some (.literal v (spanOf s c.offset), d) := by
  simp only [primary, found_firstOf_cons]
  rw [← hlead.span]
  have hnumber {s : List Char} {x : Char} (hx : x.isDigit = false) (h : c.Leads (x :: s) d) :
      number.found c = none :=
    found_number_eq_none (h.startsWith (opens_cons_iff.mpr (by simp [hx])))
  have hbool {s : List Char} {x : Char} (hx : (x != 't' && x != 'f') = true)
      (h : c.Leads (x :: s) d) : boolLiteral.found c = none :=
    found_boolLiteral_eq_none (h.startsWith (opens_cons_iff.mpr hx))
  have hstring {s : List Char} {x : Char} (hx : (x != '"' && x != '\'') = true)
      (h : c.Leads (x :: s) d) : string.found c = none :=
    found_string_eq_none (h.startsWith (opens_cons_iff.mpr hx))
  cases h with
  | number h =>
      rw [found_literal_iff.mpr ⟨_, found_number_of_spelling h hlead hend.number, rfl⟩,
        Option.some_or]
  | @string q s hq h =>
      have hdigit : q.isDigit = false := by rcases hq with rfl | rfl <;> rfl
      rw [found_literal_eq_none_iff.mpr (hnumber hdigit hlead),
        found_literal_iff.mpr ⟨_, found_string_iff.mpr ⟨q, s, hq, h, rfl, hlead⟩, rfl⟩,
        Option.none_or, Option.some_or]
  | true =>
      rw [found_literal_eq_none_iff.mpr (hnumber rfl hlead),
        found_literal_eq_none_iff.mpr (hstring rfl hlead),
        found_literal_iff.mpr ⟨_, (found_boolLiteral_iff (b := true)).mpr ⟨hlead, hend.name⟩, rfl⟩,
        Option.none_or, Option.none_or, Option.some_or]
  | false =>
      rw [found_literal_eq_none_iff.mpr (hnumber rfl hlead),
        found_literal_eq_none_iff.mpr (hstring rfl hlead),
        found_literal_iff.mpr ⟨_, (found_boolLiteral_iff (b := false)).mpr ⟨hlead, hend.name⟩, rfl⟩,
        Option.none_or, Option.none_or, Option.some_or]
  | null =>
      rw [found_literal_eq_none_iff.mpr (hnumber rfl hlead),
        found_literal_eq_none_iff.mpr (hstring rfl hlead),
        found_literal_eq_none_iff.mpr (hbool rfl hlead),
        found_literal_iff.mpr ⟨_, found_nullLiteral_iff.mpr ⟨.inl hlead, hend.name⟩, rfl⟩,
        Option.none_or, Option.none_or, Option.none_or, Option.some_or]
  | undefined =>
      rw [found_literal_eq_none_iff.mpr (hnumber rfl hlead),
        found_literal_eq_none_iff.mpr (hstring rfl hlead),
        found_literal_eq_none_iff.mpr (hbool rfl hlead),
        found_literal_iff.mpr ⟨_, found_nullLiteral_iff.mpr ⟨.inr hlead, hend.name⟩, rfl⟩,
        Option.none_or, Option.none_or, Option.none_or, Option.some_or]

/-- A list of expressions does not begin with a blank. -/
private theorem arguments_noBlank (hn : CompleteFor nested F n) {fs : Nat → List Expr}
    (h : ArgumentsSpelling F s fs) : NoBlank s := by
  cases h with
  | none => exact startsWith_nil
  | some hx _ => exact noBlank_of_opens (hn.opens hx)

/-- Arguments between brackets. -/
private theorem bracketed_arguments {α : Type} {l r : String} {x y : Char}
    {g : List Expr → α} {w : List Char} {fs : Nat → List Expr} (hn : CompleteFor nested F n)
    (hl : l.toList = [x]) (hr : r.toList = [y]) (hy : closesArguments y = true) (hw : Blanks w)
    (h : ArgumentsSpelling F s fs) (hs : s.length ≤ n)
    (hlead : c.Leads (x :: w ++ (s ++ [y])) d) :
    (do lit l; skip; let a ← arguments nested; token r; return g a : Reader α).found c =
      some (g (fs (c.offset + utf8Length (x :: w))), d) := by
  have hspace := isSpace_of_closesArguments hy
  refine brackets_complete hl hr hspace (arguments_noBlank hn h) hw hlead ?_
  intro c₁ d₁ hoffset hbody hbehind
  rw [← hoffset]
  exact arguments_complete hn h hs hbody (hbehind.mono fun z hz => by rw [eq_of_beq hz, hy])

/-- A nested expression between brackets. -/
private theorem bracketed_nested {α : Type} {l r : String} {x y : Char} {g : Expr → α}
    {w : List Char} {f : Nat → Expr} (hn : CompleteFor nested F n) (hl : l.toList = [x])
    (hr : r.toList = [y]) (hy : closesArguments y = true) (hw : Blanks w) (h : F s f)
    (hs : s.length ≤ n) (hlead : c.Leads (x :: w ++ (s ++ [y])) d) :
    (do lit l; skip; let a ← nested; token r; return g a : Reader α).found c =
      some (g (f (c.offset + utf8Length (x :: w))), d) := by
  have hclose := closesExpr_of_closesArguments y hy
  have hblank : NoBlank s := (hn.opens h).startsWith.mono fun _ => not_isSpace_of_opensOperand
  refine brackets_complete hl hr (isSpace_of_closesArguments hy) hblank hw hlead ?_
  intro c₁ d₁ hoffset hbody hbehind
  rw [← hoffset]
  exact hn.taken h hs hbody (hbehind.mono fun z hz => by rw [eq_of_beq hz, hclose])

/-- **A primary is read whole**: the alternatives in front of its own find nothing. -/
theorem primary_complete (hn : CompleteFor nested F n) {f : Nat → Expr}
    (h : PrimarySpelling F s f) (hs : s.length ≤ n + 1) (hlead : c.Leads s d)
    (hend : PrimaryEnds d.rest) : (primary nested).found c = some (f c.offset, d) := by
  have hopens {q : Char → Bool} {x : Char} {t : List Char} (h : c.Leads (x :: t) d)
      (hx : q x = true) : StartsWith q c.rest :=
    h.startsWith (opens_cons_iff.mpr hx)
  cases h with
  | literal h => exact literal_complete h hlead hend
  | name hname hword =>
      have hstart : StartsWith isIdentStart c.rest := hlead.startsWith hname.opens
      have hnumber := found_number_eq_none (hstart.mono fun _ => not_isDigit_of_isIdentStart)
      have hstring : string.found c = none :=
        found_string_eq_none (hstart.mono fun x hx => by
          rw [bne_of_class hx (by decide), bne_of_class hx (by decide)]
          rfl)
      -- A keyword at the start of a longer name does not count, so only reserved words are lost.
      obtain ⟨hbool, hnull⟩ := name_not_word hname hword hlead hend.name
      have harray : (arrayLiteral nested).found c = none :=
        found_arrayLiteral_eq_none (hstart.mono fun x hx => bne_of_class hx (by decide))
      have hname' := found_identifier_iff.mpr ⟨s, hname, rfl, hlead, hend.name⟩
      have hvariable : variableName.found c =
          some (.identifier (String.ofList s) (spanOf s c.offset), d) := by
        rw [variableName, found_bind, found_spanned_iff.mpr ⟨_, hname', rfl⟩, Option.bind_some,
          found_pure, hlead.span]
      simp only [primary, found_firstOf_cons, found_literal_eq_none_iff.mpr hnumber,
        found_literal_eq_none_iff.mpr hstring, found_literal_eq_none_iff.mpr hbool,
        found_literal_eq_none_iff.mpr hnull, harray, hvariable, Option.none_or, Option.some_or]
  | @array w x fs hw hx =>
      simp only [List.length_append, List.length_cons, List.length_nil] at hs
      have hbody := bracketed_arguments (l := "[") (r := "]") (x := '[') (y := ']')
        (g := fun es => es) hn rfl rfl (by decide) hw hx (by omega) hlead
      rw [← found_call .arrayLiteral] at hbody
      have harray : (arrayLiteral nested).found c =
          some (.array (fs (c.offset + utf8Length ('[' :: w)))
            (spanOf ('[' :: w ++ (x ++ [']'])) c.offset), d) := by
        rw [arrayLiteral, found_bind, found_spanned_iff.mpr ⟨_, hbody, rfl⟩, Option.bind_some,
          found_pure, hlead.span]
      simp only [primary, found_firstOf_cons, harray, Option.none_or, Option.some_or,
        found_literal_eq_none_iff.mpr (found_number_eq_none (hopens hlead (by decide))),
        found_literal_eq_none_iff.mpr (found_string_eq_none (hopens hlead (by decide))),
        found_literal_eq_none_iff.mpr (found_boolLiteral_eq_none (hopens hlead (by decide))),
        found_literal_eq_none_iff.mpr (found_nullLiteral_eq_none (hopens hlead (by decide)))]
  | @parenthesised w x f hw hx =>
      simp only [List.length_append, List.length_cons, List.length_nil] at hs
      have hbody : (parenthesised nested).found c =
          some (f (c.offset + utf8Length ('(' :: w)), d) :=
        bracketed_nested (g := fun e => e) hn rfl rfl (by decide) hw hx (by omega) hlead
      simp only [primary, found_firstOf_cons, hbody, Option.none_or, Option.some_or,
        found_literal_eq_none_iff.mpr (found_number_eq_none (hopens hlead (by decide))),
        found_literal_eq_none_iff.mpr (found_string_eq_none (hopens hlead (by decide))),
        found_literal_eq_none_iff.mpr (found_boolLiteral_eq_none (hopens hlead (by decide))),
        found_literal_eq_none_iff.mpr (found_nullLiteral_eq_none (hopens hlead (by decide))),
        found_arrayLiteral_eq_none (hopens hlead (by decide)),
        found_variableName_eq_none (hopens hlead (by decide))]

/-- **A suffix is read whole.** -/
theorem suffix_complete (hn : CompleteFor nested F n) {f : Nat → Suffix}
    (h : SuffixSpelling F s f) (hs : s.length ≤ n + 1) (hlead : c.Leads s d)
    (hend : StartsWith (fun x => !isIdentChar x) d.rest) :
    (suffix nested).found c = some (f c.offset, d) := by
  simp only [suffix, found_firstOf_cons, found_call]
  have hmiss {β : Type} {text : String} {x : Char} {q : Unit → Reader β}
      (htext : text.toList = [x]) (h : StartsWith (fun y => y != x) c.rest) :
      (lit text >>= q).found c = none := by
    rw [found_bind, found_lit_eq_none_of_startsWith _ htext h]
    rfl
  cases h with
  | @member w name hw hname =>
      obtain ⟨c₁, hopen, hlead⟩ := Cursor.leads_append_iff.mp hlead
      have hstart : NoBlank c₁.rest := (hlead.startsWith hname.opens).mono fun x hx =>
        not_isSpace_of_opensOperand (by simp [opensOperand, opensPrimary, hx])
      obtain ⟨e, hpoint, hskip⟩ := open_skip hw hopen hstart
      have hpoint' : (lit ".").found c = some ((), e) := found_lit_iff.mpr hpoint
      have hname' := found_identifier_iff.mpr ⟨name, hname, rfl, hlead, hend⟩
      simp only [found_bind, hpoint', found_skip, hskip, hname', Option.bind_some, found_pure,
        Option.some_or]
  | @index w x f hw hx =>
      simp only [List.length_append, List.length_cons, List.length_nil] at hs
      have hbody := bracketed_nested (l := "[") (r := "]") (x := '[') (y := ']')
        (g := Suffix.index) hn rfl rfl (by decide) hw hx (by omega) hlead
      rw [hmiss rfl (hlead.startsWith (opens_cons_iff.mpr (by decide))), hbody, Option.none_or,
        Option.some_or]
  | @call w x fs hw hx =>
      simp only [List.length_append, List.length_cons, List.length_nil] at hs
      have hbody := bracketed_arguments (l := "(") (r := ")") (x := '(') (y := ')')
        (g := Suffix.call) hn rfl rfl (by decide) hw hx (by omega) hlead
      rw [hmiss rfl (hlead.startsWith (opens_cons_iff.mpr (by decide))),
        hmiss rfl (hlead.startsWith (opens_cons_iff.mpr (by decide))), hbody, Option.none_or,
        Option.none_or, Option.some_or]

/-! ### Operands

A repetition that skips blanks first may start at any place whose blanks lead where its first turn
stands, and it ends somewhere before the blanks that lead on. -/

/-- Prefixed operators are found one by one, up to the primary. -/
private theorem prefixes_complete {ops : List UnaryOp} (h : PrefixesSpelling s ops) :
    ∀ {c : Cursor}, (c.dropWhile isSpace).Leads s d → StartsWith opensPrimary d.rest →
      ∃ e, Repeats (do skip; unaryOp) c ops e ∧ e.dropWhile isSpace = d := by
  induction h with
  | nil =>
      intro c hlead hend
      obtain rfl := Cursor.leads_nil_iff.mp hlead
      refine ⟨c, .stop ?_, rfl⟩
      rw [found_bind, found_skip, Option.bind_some]
      exact found_unaryOp_eq_none (hend.mono fun _ => not_prefix_of_opensPrimary)
  | @cons w xs ops op hw hxs ih =>
      intro c hlead hend
      obtain ⟨c₁, hop, hlead'⟩ := Cursor.leads_append_iff.mp hlead
      obtain ⟨c₂, hskip, hothers⟩ := Cursor.leads_append_iff.mp hlead'
      have hblank : NoBlank c₂.rest := by
        rw [hothers.rest]
        refine (hxs.startsWith.append ?_).mono fun _ => not_isSpace_of_opensOperand
        exact hend.mono fun _ => opensOperand_of_opensPrimary
      have hdrop := dropWhile_isSpace_eq hskip hw hblank
      rw [← hdrop] at hothers
      obtain ⟨e, hrepeats, he⟩ := ih hothers hend
      have hturn : (do skip; unaryOp : Reader UnaryOp).found c = some (op, c₁) := by
        rw [found_bind, found_skip, Option.bind_some]
        exact found_unaryOp_iff.mpr hop
      refine ⟨e, .turn hturn ?_ hrepeats, he⟩
      have := (c.leads_dropWhile isSpace).length
      have := hop.length
      have := List.length_pos_iff.mpr (UnaryOp.symbol_opens op).ne_nil
      omega

/-- What comes behind a primary or a suffix inside its operand. -/
private theorem primaryEnds {w z : List Char} {fs : Nat → List (Suffix × Span)} (hw : Blanks w)
    (hz : SuffixesSpelling F z fs) {t : List Char} (ht : StartsWith followsOperand t) :
    PrimaryEnds (w ++ (z ++ t)) := by
  have hspace : StartsWith (fun x => isSpace x) w := fun x hx => hw x (List.mem_of_mem_head? hx)
  refine ⟨StartsWith.mono (p := followsPrimary) ?_ not_isIdentChar_of_followsPrimary, ?_⟩
  · refine (hspace.mono fun x hx => ?_).append
      ((hz.startsWith.mono fun x hx => ?_).append (ht.mono fun x hx => ?_))
    · simp [followsPrimary, hx]
    · simp [followsPrimary, hx]
    · simp [followsPrimary, hx]
  · intro r hr
    cases w with
    | cons x w =>
        rw [List.cons_append, List.cons.injEq] at hr
        have := hw x List.mem_cons_self
        rw [hr.1] at this
        exact absurd this (by decide)
    | nil =>
        cases hz with
        | nil =>
            rw [List.nil_append, List.nil_append] at hr
            rw [hr] at ht
            exact absurd (startsWith_cons.mp ht) (by decide)
        | cons hx hw' hxs =>
            cases hx with
            | @member v m hv hm =>
                simp only [List.nil_append, List.cons_append, List.append_assoc,
                  List.cons.injEq, true_and] at hr
                rw [← hr]
                have hdigit : StartsWith (fun x => !x.isDigit) v := fun x hx => by
                  have := hv x (List.mem_of_mem_head? hx)
                  simp only [isSpace, Bool.or_eq_true, beq_iff_eq] at this
                  obtain ((rfl | rfl) | rfl) | rfl := this <;> rfl
                refine hdigit.append ((hm.opens.mono ?_).append _).startsWith
                exact fun _ => not_isDigit_of_isIdentStart
            | index _ _ => simp at hr
            | call _ _ => simp at hr

/-- What may come behind an operand is not a suffix. -/
private theorem found_suffix_eq_none (h : StartsWith followsOperand c.rest) :
    (suffix nested).found c = none := by
  simp only [suffix, found_firstOf_cons, found_firstOf_nil, found_call, found_bind]
  rw [found_lit_eq_none_of_startsWith "." rfl
      (h.mono fun x hx => bne_of_class hx (by decide)),
    found_lit_eq_none_of_startsWith "[" rfl
      (h.mono fun x hx => bne_of_class hx (by decide)),
    found_lit_eq_none_of_startsWith "(" rfl
      (h.mono fun x hx => bne_of_class hx (by decide))]
  rfl

/-- Suffixes are found one by one, each with its span. -/
private theorem suffixes_complete (hn : CompleteFor nested F n)
    {fs : Nat → List (Suffix × Span)} (h : SuffixesSpelling F s fs) :
    ∀ {c : Cursor}, s.length ≤ n + 1 → (c.dropWhile isSpace).Leads s d →
      StartsWith followsOperand d.rest →
      ∃ e, Repeats (do skip; spanned (suffix nested)) c (fs (c.dropWhile isSpace).offset) e ∧
        e.dropWhile isSpace = d ∧
        e.offset = operandStop c.offset (fs (c.dropWhile isSpace).offset) := by
  induction h with
  | nil =>
      intro c _ hlead hend
      obtain rfl := Cursor.leads_nil_iff.mp hlead
      refine ⟨c, .stop ?_, rfl, rfl⟩
      simp only [found_bind, found_skip, Option.bind_some, spanned, found_here]
      rw [found_suffix_eq_none hend]
      rfl
  | @cons x w xs f fs hx hw hxs ih =>
      intro c hs hlead hend
      simp only [List.length_append] at hs
      obtain ⟨c₁, hfirst, hlead'⟩ := Cursor.leads_append_iff.mp hlead
      obtain ⟨c₂, hskip, hothers⟩ := Cursor.leads_append_iff.mp hlead'
      have hbehind : StartsWith (fun x => !isIdentChar x) c₁.rest := by
        rw [hlead'.rest, List.append_assoc]
        exact (primaryEnds hw hxs hend).name
      have hblank : NoBlank c₂.rest := by
        rw [hothers.rest]
        exact (hxs.startsWith.mono not_isSpace_of_opensSuffix).append
          (hend.mono not_isSpace_of_followsOperand)
      have hdrop := dropWhile_isSpace_eq hskip hw hblank
      rw [← hdrop] at hothers
      obtain ⟨e, hrepeats, he, hstop⟩ := ih (by omega) hothers hend
      have hturn : (do skip; spanned (suffix nested) : Reader (Suffix × Span)).found c =
          some ((f (c.dropWhile isSpace).offset, spanOf x (c.dropWhile isSpace).offset), c₁) := by
        rw [found_bind, found_skip, Option.bind_some]
        have hfound := suffix_complete hn hx (by omega) hfirst hbehind
        exact found_spanned_iff.mpr ⟨_, hfound, by rw [hfirst.span]⟩
      have hoffset : (c₁.dropWhile isSpace).offset =
          (c.dropWhile isSpace).offset + utf8Length x + utf8Length w := by
        rw [hdrop, hskip.offset, hfirst.offset]
      rw [hoffset] at hrepeats hstop
      refine ⟨e, .turn hturn ?_ hrepeats, he, ?_⟩
      · have := (c.leads_dropWhile isSpace).length
        have := hfirst.length
        have := List.length_pos_iff.mpr hx.opens.ne_nil
        omega
      · rw [hstop, operandStop_cons, spanOf, hfirst.offset]

/-- **An operand is read whole**, up to the blanks behind it. -/
theorem operand_complete (hn : CompleteFor nested F n) {f : Nat → Expr}
    (h : OperandSpelling F s f) (hs : s.length ≤ n + 1) (hlead : c.Leads s d)
    (hend : StartsWith followsOperand d.rest) :
    ∃ e, (unary nested).found c = some (f c.offset, e) ∧ e.dropWhile isSpace = d ∧
      e.rest.length ≤ c.rest.length := by
  have hblank : NoBlank c.rest := by
    rw [hlead.rest]
    exact noBlank_of_opens h.opens
  cases h with
  | @mk x y w z ops f fs hx hy hw hz =>
      simp only [List.length_append] at hs
      obtain ⟨c₁, hprefixes, hlead⟩ := Cursor.leads_append_iff.mp hlead
      obtain ⟨c₂, hprimary, hlead⟩ := Cursor.leads_append_iff.mp hlead
      obtain ⟨c₃, hskip, hsuffixes⟩ := Cursor.leads_append_iff.mp hlead
      have hstart : StartsWith opensPrimary c₁.rest := hprimary.startsWith hy.opens
      have hends : PrimaryEnds c₂.rest := by
        rw [hlead.rest, List.append_assoc]
        exact primaryEnds hw hz hend
      have hblank₃ : NoBlank c₃.rest := by
        rw [hsuffixes.rest]
        exact (hz.startsWith.mono not_isSpace_of_opensSuffix).append
          (hend.mono not_isSpace_of_followsOperand)
      have hdrop₂ := dropWhile_isSpace_eq hskip hw hblank₃
      have hdrop₃ := dropWhile_isSpace_of_noBlank hblank₃
      rw [← dropWhile_isSpace_of_noBlank hblank] at hprefixes
      obtain ⟨e₁, hops, he₁⟩ := prefixes_complete hx hprefixes hstart
      rw [← hdrop₃] at hsuffixes
      obtain ⟨e, hl, he, hstop⟩ := suffixes_complete hn hz (by omega) hsuffixes hend
      have hfirst := primary_complete hn hy (by omega) hprimary hends
      have hchain : (chain nested).found c₁ =
          some ((fs c₃.offset).foldl extend (f c₁.offset), e) := by
        rw [hdrop₃] at hl
        simp only [chain, found_call, found_bind, hfirst, found_skip, hdrop₂,
          found_many_of_repeats hl, Option.bind_some, found_pure]
      refine ⟨e, ?_, he, ?_⟩
      · rw [hdrop₃] at hstop
        simp only [unary, spanned, found_bind, found_call, found_here, found_skip,
          found_many_of_repeats hops, he₁, hchain, Option.bind_some, found_pure]
        rw [hstop, hskip.offset, hprimary.offset, hprefixes.offset,
          dropWhile_isSpace_of_noBlank hblank]
        rfl
      · have := hl.length_le
        have := hskip.length
        have := hprimary.length
        have := hprefixes.length
        rw [dropWhile_isSpace_of_noBlank hblank] at this
        omega

/-! ### Sequences and conditionals -/

/-- Operators with their operands are found one by one. -/
private theorem rest_complete (hn : CompleteFor nested F n) {fs : Nat → List (BinaryOp × Expr)}
    (h : RestSpelling F s fs) :
    ∀ {c : Cursor}, s.length ≤ n + 1 → (c.dropWhile isSpace).Leads s d →
      StartsWith followsSequence d.rest →
      ∃ e, Repeats (do skip; let op ← binaryOp; skip; let e ← unary nested; return (op, e)) c
          (fs (c.dropWhile isSpace).offset) e ∧ e.dropWhile isSpace = d := by
  induction h with
  | nil =>
      intro c _ hlead hend
      obtain rfl := Cursor.leads_nil_iff.mp hlead
      refine ⟨c, .stop ?_, rfl⟩
      rw [found_bind, found_skip, Option.bind_some, found_bind,
        found_binaryOp_eq_none (hend.mono not_opensBinaryOp_of_followsSequence)]
      rfl
  | @cons w x xs f fs op hw hx hxs ih =>
      intro c hs hlead hend
      simp only [List.length_append] at hs
      obtain ⟨c₁, hsymbol, hlead'⟩ := Cursor.leads_append_iff.mp hlead
      obtain ⟨c₂, hoperand, hothers⟩ := Cursor.leads_append_iff.mp hlead'
      obtain ⟨c₀, hop, hskip⟩ := Cursor.leads_append_iff.mp hsymbol
      have hstart : StartsWith opensOperand c₁.rest := hoperand.startsWith hx.opens
      have hdrop := dropWhile_isSpace_eq hskip hw
        (hstart.mono fun _ => not_isSpace_of_opensOperand)
      have hbehind : StartsWith followsOperand c₂.rest := by
        rw [hothers.rest]
        exact (hxs.startsWith.mono fun x hx => by simp [followsOperand, hx]).append
          (hend.mono fun _ => followsOperand_of_followsSequence)
      -- Without this a shorter symbol could be the start of a longer one: `<` of `<=`.
      have hequals : StartsWith (fun x => x != '=') c₀.rest := by
        rw [hskip.rest]
        refine StartsWith.append (fun x hx => ?_)
          (hstart.mono fun _ => ne_equals_of_opensOperand)
        have := hw x (List.mem_of_mem_head? hx)
        rw [bne_iff_ne]
        rintro rfl
        exact absurd this (by decide)
      obtain ⟨e, hfound, he, hle⟩ := operand_complete hn hx (by omega) hoperand hbehind
      rw [← he] at hothers
      obtain ⟨e', hrepeats, he'⟩ := ih (by omega) hothers hend
      have hturn : (do skip; let op ← binaryOp; skip; let e ← unary nested; return (op, e) :
          Reader (BinaryOp × Expr)).found c = some ((op, f c₁.offset), e) := by
        simp only [found_bind, found_skip, found_binaryOp_of_leads hop hequals, hdrop, hfound,
          Option.bind_some, found_pure]
      rw [he, hoperand.offset, hsymbol.offset] at hrepeats
      rw [hsymbol.offset] at hturn
      refine ⟨e', .turn hturn ?_ hrepeats, he'⟩
      have := (c.leads_dropWhile isSpace).length
      have := hop.length
      have := hskip.length
      have := List.length_pos_iff.mpr (BinaryOp.symbol_opens op).ne_nil
      omega

/-- **Operators and operands are read whole**, up to the blanks behind them. -/
theorem sequence_complete (hn : CompleteFor nested F n) {f : Nat → Expr}
    (h : SequenceSpelling F s f) (hs : s.length ≤ n + 1) (hlead : c.Leads s d)
    (hend : StartsWith followsSequence d.rest) :
    ∃ e, (binary nested).found c = some (f c.offset, e) ∧ e.dropWhile isSpace = d := by
  cases h with
  | @mk x xs f fs hx hxs =>
      rw [List.length_append] at hs
      obtain ⟨c₁, hoperand, hothers⟩ := Cursor.leads_append_iff.mp hlead
      have hbehind : StartsWith followsOperand c₁.rest := by
        rw [hothers.rest]
        exact (hxs.startsWith.mono fun x hx => by simp [followsOperand, hx]).append
          (hend.mono fun _ => followsOperand_of_followsSequence)
      have hdrop := dropWhile_isSpace_of_noBlank (hbehind.mono not_isSpace_of_followsOperand)
      obtain ⟨e, hfound, he, -⟩ := operand_complete hn hx (by omega) hoperand hbehind
      rw [← hdrop] at hothers
      obtain ⟨e', hrepeats, he'⟩ := rest_complete hn hxs (by omega) hothers hend
      rw [hdrop, hoperand.offset] at hrepeats
      refine ⟨e', ?_, he'⟩
      simp only [binary, found_call, found_bind, hfound, found_skip, he,
        found_many_of_repeats hrepeats, Option.bind_some, found_pure]

/-- The two branches of a conditional are read whole. -/
private theorem branches_complete (hn : CompleteFor nested F n) {w y w' z : List Char}
    {g k : Nat → Expr} (hw : Blanks w) (hy : F y g) (hw' : Blanks w') (hz : F z k)
    (hs : y.length ≤ n ∧ z.length ≤ n)
    (hlead : c.Leads ('?' :: w ++ (y ++ (':' :: w' ++ z))) d)
    (hend : StartsWith closesExpr d.rest) :
    (branches nested).found c = some ((g (c.offset + utf8Length ('?' :: w)),
      k (c.offset + utf8Length ('?' :: w) + utf8Length y + utf8Length (':' :: w'))), d) := by
  obtain ⟨c₁, hopen, hlead⟩ := Cursor.leads_append_iff.mp hlead
  obtain ⟨c₂, hyes, hlead⟩ := Cursor.leads_append_iff.mp hlead
  obtain ⟨c₃, hcolon, hno⟩ := Cursor.leads_append_iff.mp hlead
  have hblank₁ : NoBlank c₁.rest := by
    rw [hyes.rest]
    exact noBlank_of_opens (hn.opens hy)
  have hblank₃ : NoBlank c₃.rest := by
    rw [hno.rest]
    exact noBlank_of_opens (hn.opens hz)
  have hcloses : StartsWith closesExpr c₂.rest := by
    rw [hcolon.rest]
    exact startsWith_cons.mpr (by decide)
  have hblank₂ : NoBlank c₂.rest := by
    rw [hcolon.rest]
    exact startsWith_cons.mpr (by decide)
  obtain ⟨e₁, hquestion, hskip₁⟩ := open_skip hw hopen hblank₁
  obtain ⟨e₃, hcolon', hskip₃⟩ := open_skip hw' hcolon hblank₃
  have hquestion' : (lit "?").found c = some ((), e₁) := found_lit_iff.mpr hquestion
  have hcolon'' : (token ":").found c₂ = some ((), e₃) := (found_token_iff hblank₂).mpr hcolon'
  rw [← hopen.offset, ← hyes.offset, ← hcolon.offset]
  simp only [branches, found_bind, hquestion', found_skip, hskip₁,
    hn.taken hy hs.1 hyes hcloses, hcolon'', hskip₃, hn.taken hz hs.2 hno hend, Option.bind_some,
    found_pure]

/-- **A conditional is read whole**, and so is an expression that is none. -/
theorem conditional_complete (hn : CompleteFor nested F n) {f : Nat → Expr}
    (h : ConditionalSpelling F s f) (hs : s.length ≤ n + 1) (hlead : c.Leads s d)
    (hend : StartsWith closesExpr d.rest) :
    (conditional nested).found c = some (f c.offset, d) := by
  cases h with
  | sequence h =>
      have hbehind := hend.mono fun _ => followsSequence_of_closesExpr
      obtain ⟨e, hfound, he⟩ := sequence_complete hn h hs hlead hbehind
      have hquestion : (branches nested).found d = none := by
        rw [branches, found_bind, found_lit_eq_none_of_startsWith "?" rfl
          (hend.mono ne_question_of_closesExpr)]
        rfl
      simp only [conditional, spanned, found_bind, found_here, found_call, hfound, found_skip, he,
        found_option, hquestion, Option.bind_some, Option.elim_none, found_pure]
  | @conditional x w y w' z f g k hx hw hy hw' hz =>
      have hspan := hlead.span
      simp only [List.length_append, List.length_cons] at hs
      obtain ⟨c₁, htest, hlead⟩ := Cursor.leads_append_iff.mp hlead
      have hbehind : StartsWith followsSequence c₁.rest := by
        rw [hlead.rest]
        exact startsWith_cons.mpr (by decide)
      obtain ⟨e, hfound, he⟩ := sequence_complete hn hx (by omega) htest hbehind
      have hbranches := branches_complete hn hw hy hw' hz (by omega) hlead hend
      simp only [conditional, spanned, found_bind, found_here, found_call, hfound, found_skip, he,
        found_option, hbranches, Option.bind_some, Option.elim_some, found_pure]
      rw [hspan, htest.offset]

end Levels

/-- What `exprWithin` takes starts with an operand. -/
private theorem exprWithin_missed {deeper : List Char} {c : Cursor}
    (h : StartsWith closesExpr c.rest) : (exprWithin deeper).found c = none := by
  cases hfound : (exprWithin deeper).found c with
  | none => rfl
  | some r =>
      obtain ⟨e, d⟩ := r
      have hblank : NoBlank c.rest := h.mono not_isSpace_of_closesExpr
      obtain ⟨s, f, hs, hlead, -, -⟩ := exprWithin_sound deeper hblank hfound
      have hopens := hs.opens
      cases s with
      | nil => exact absurd rfl hopens.ne_nil
      | cons x s =>
          rw [hlead.rest] at h
          have := not_opensOperand_of_closesExpr x (startsWith_cons.mp h)
          rw [opens_cons_iff.mp hopens] at this
          simp at this

/-- **An expression is taken whole.**  The budget that matters is its length: what is nested in an
expression is shorter than it. -/
theorem exprWithin_complete (deeper : List Char) :
    CompleteFor (exprWithin deeper) ExprSpelling deeper.length := by
  induction deeper with
  | nil =>
      refine ⟨ExprSpelling.opens, ?_, exprWithin_missed⟩
      intro s f c d h hs _ _
      -- Without any budget left there is no text that is short enough.
      rw [List.length_nil, Nat.le_zero, List.length_eq_zero_iff] at hs
      exact absurd hs h.opens.ne_nil
  | cons _ deeper ih =>
      refine ⟨ExprSpelling.opens, ?_, exprWithin_missed⟩
      intro s f c d h hs hlead hend
      cases h with
      | of h => exact conditional_complete ih h hs hlead hend

end LineMarkup.Grammar
