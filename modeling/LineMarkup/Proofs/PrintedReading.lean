import LineMarkup.Proofs.ExpressionReading
import LineMarkup.Proofs.Printing

/-!
# Printed expressions are read back

Whatever blanks a writer puts around the tokens of a term, the text is read as the tree that the
term means, its places aside.

The proof turns the tokens of a term into a spelling.  What a place in a construct asks for is a
spelling of some shape: a chain of suffixes, an operand, a listing of operands at a bound, or just
an expression.  Each shape serves where a looser one is asked for, and parentheses turn the loosest
into the tightest.

## Main Definitions

* `Expr.unplaced` — a tree without its places
* `Laid` — a text that is tokens with blanks behind each of them
* `TextAt` — a text of a term that serves where a level is asked for

## Main Statements

* `textAt_of_laid` — laid out tokens serve at the level of their term
* `parse_layOut` — printed expressions are read back
-/

namespace LineMarkup

/-! ### Trees without places -/

namespace Expr

mutual

/-- The tree with all its places at the start of the text. -/
def unplaced : Expr → Expr
  | literal v _ => .literal v default
  | array es _ => .array (unplacedAll es) default
  | identifier n _ => .identifier n default
  | member object property _ => .member object.unplaced property default
  | index object key _ => .index object.unplaced key.unplaced default
  | call callee args _ => .call callee.unplaced (unplacedAll args) default
  | binary left op right _ => .binary left.unplaced op right.unplaced default
  | unary op operand _ => .unary op operand.unplaced default
  | conditional test yes no _ => .conditional test.unplaced yes.unplaced no.unplaced default

/-- Several trees without places. -/
def unplacedAll : List Expr → List Expr
  | [] => []
  | e :: es => e.unplaced :: unplacedAll es

end

end Expr

namespace Grammar

open Reader Term

/-- Operators in front stand around their operand. -/
theorem unplaced_operandTree (ops : List UnaryOp) (first : Expr) (suffixes : List (Suffix × Span))
    (span : Span) :
    (operandTree ops first suffixes span).unplaced =
      ops.foldr (fun op e => .unary op e default) (suffixes.foldl extend first).unplaced := by
  induction ops with
  | nil => rfl
  | cons op ops ih =>
      rw [operandTree] at ih
      rw [operandTree, List.foldr_cons, List.foldr_cons, Expr.unplaced, ih]

/-! ### Laid out tokens -/

/-- A text that is tokens with blanks behind each of them. -/
inductive Laid : List (List Char) → List Char → Prop where
  | nil : Laid [] []
  | cons {token w s : List Char} {tokens : List (List Char)} : Blanks w → Laid tokens s →
      Laid (token :: tokens) (token ++ (w ++ s))

/-- Tokens are laid out one by one, with blanks behind each. -/
theorem laid_cons_iff {token s : List Char} {tokens : List (List Char)} :
    Laid (token :: tokens) s ↔ ∃ w r, Blanks w ∧ Laid tokens r ∧ s = token ++ (w ++ r) := by
  constructor
  · intro h
    cases h with
    | cons hw h => exact ⟨_, _, hw, h, rfl⟩
  · rintro ⟨w, r, hw, h, rfl⟩
    exact .cons hw h

/-- One token is laid out with blanks behind it. -/
theorem laid_singleton_iff {token s : List Char} :
    Laid [token] s ↔ ∃ w, Blanks w ∧ s = token ++ w := by
  rw [laid_cons_iff]
  constructor
  · rintro ⟨w, r, hw, h, rfl⟩
    cases h
    exact ⟨w, hw, by rw [List.append_nil]⟩
  · rintro ⟨w, hw, rfl⟩
    exact ⟨w, [], hw, .nil, by rw [List.append_nil]⟩

/-- Tokens in two parts are laid out in two parts. -/
theorem laid_append_iff {ts us : List (List Char)} {s : List Char} :
    Laid (ts ++ us) s ↔ ∃ a b, Laid ts a ∧ Laid us b ∧ s = a ++ b := by
  induction ts generalizing s with
  | nil =>
      constructor
      · intro h
        exact ⟨[], s, .nil, h, rfl⟩
      · rintro ⟨a, b, ha, hb, rfl⟩
        cases ha
        exact hb
  | cons t ts ih =>
      simp only [List.cons_append, laid_cons_iff, ih]
      constructor
      · rintro ⟨w, r, hw, ⟨a, b, ha, hb, rfl⟩, rfl⟩
        exact ⟨_, b, ⟨w, a, hw, ha, rfl⟩, hb, by simp only [List.append_assoc]⟩
      · rintro ⟨_, b, ⟨w, a, hw, ha, rfl⟩, hb, rfl⟩
        exact ⟨w, a ++ b, hw, ⟨a, b, ha, hb, rfl⟩, by simp only [List.append_assoc]⟩

/-- Tokens in brackets: the blanks behind the first bracket, the tokens, the blanks behind the
last one. -/
theorem laid_brackets {x y : Char} {ts : List (List Char)} {s : List Char}
    (h : Laid ([x] :: ts ++ [[y]]) s) :
    ∃ w b w', Blanks w ∧ Laid ts b ∧ Blanks w' ∧ s = (x :: w ++ (b ++ [y])) ++ w' := by
  rw [List.cons_append, laid_cons_iff] at h
  obtain ⟨w, r, hw, h, rfl⟩ := h
  obtain ⟨b, c, hb, hc, rfl⟩ := laid_append_iff.mp h
  obtain ⟨w', hw', rfl⟩ := laid_singleton_iff.mp hc
  exact ⟨w, b, w', hw, hb, hw', by simp⟩

private theorem blanks_map_char (bs : List Blank) : Blanks (bs.map Blank.char) := by
  intro x hx
  obtain ⟨b, -, rfl⟩ := List.mem_map.mp hx
  cases b <;> rfl

/-- Behind the blanks at the start, layout lays the tokens out. -/
theorem exists_laid_layOut (tokens : List (List Char)) :
    ∀ gap : Nat → List Blank, ∃ w s, Blanks w ∧ Laid tokens s ∧ layOut gap tokens = w ++ s := by
  induction tokens with
  | nil => exact fun gap => ⟨_, [], blanks_map_char (gap 0), .nil, by rw [layOut, List.append_nil]⟩
  | cons token tokens ih =>
      intro gap
      obtain ⟨w, s, hw, hs, hlay⟩ := ih fun i => gap (i + 1)
      refine ⟨_, _, blanks_map_char (gap 0), .cons hw hs, ?_⟩
      rw [layOut, hlay, List.append_assoc]

/-! ### Spellings that go on -/

section

variable {F : Spelling Expr}

/-- Suffixes with one more suffix behind them. -/
theorem SuffixesSpelling.snoc {z x w : List Char} {fs : Nat → List (Suffix × Span)}
    {g : Nat → Suffix} (hz : SuffixesSpelling F z fs) (hx : SuffixSpelling F x g)
    (hw : Blanks w) :
    SuffixesSpelling F (z ++ (x ++ w)) fun o =>
      fs o ++ [(g (o + utf8Length z), spanOf x (o + utf8Length z))] := by
  induction hz with
  | nil => simpa using SuffixesSpelling.cons hx hw .nil
  | cons hx' hw' _ ih =>
      have h := SuffixesSpelling.cons hx' hw' ih
      simpa only [List.append_assoc, List.cons_append, utf8Length_append, Nat.add_assoc] using h

/-- Operands behind operators, and more of them. -/
theorem RestSpelling.append {xs ys : List Char} {fs gs : Nat → List (BinaryOp × Expr)}
    (hxs : RestSpelling F xs fs) (hys : RestSpelling F ys gs) :
    RestSpelling F (xs ++ ys) fun o => fs o ++ gs (o + utf8Length xs) := by
  induction hxs with
  | nil => simpa using hys
  | cons op hw hx _ ih =>
      have h := RestSpelling.cons op hw hx ih
      simpa only [List.append_assoc, List.cons_append, utf8Length_append, Nat.add_assoc] using h

end

/-! ### Texts of terms -/

/-- A text of a term as an expression. -/
def ExprText (t : Term) (s : List Char) : Prop :=
  ∃ f, ExprSpelling s f ∧ ∀ o, (f o).unplaced = t.toExpr

/-- A text of a term as a listing of operands at a bound. -/
def ListingText (bound : Nat) (t : Term) (s : List Char) : Prop :=
  ∃ x xs f fs, OperandSpelling ExprSpelling x f ∧ RestSpelling ExprSpelling xs fs ∧ s = x ++ xs ∧
    ∀ o o', ∃ e, Expr.Listing bound (f o) (fs o') e ∧ e.unplaced = t.toExpr

/-- A text of a term as an operand. -/
def OperandText (t : Term) (s : List Char) : Prop :=
  ∃ f, OperandSpelling ExprSpelling s f ∧ ∀ o, (f o).unplaced = t.toExpr

/-- A text of a term as a primary with suffixes. -/
def ChainText (t : Term) (s : List Char) : Prop :=
  ∃ y w z f fs, PrimarySpelling ExprSpelling y f ∧ Blanks w ∧ SuffixesSpelling ExprSpelling z fs ∧
    s = y ++ (w ++ z) ∧ ∀ o o', ((fs o').foldl extend (f o)).unplaced = t.toExpr

/-- A text of a term that serves where a level is asked for. -/
structure TextAt (asked : Nat) (t : Term) (s : List Char) : Prop where
  expr : ExprText t s
  listing : 0 < asked → ListingText asked t s
  operand : prefixLevel ≤ asked → OperandText t s
  chain : suffixLevel ≤ asked → ChainText t s

section

variable {t : Term} {s : List Char} {bound asked lower : Nat}

/-- A text of a chain is one of an operand. -/
theorem ChainText.operand (h : ChainText t s) : OperandText t s := by
  obtain ⟨y, w, z, f, fs, hy, hw, hz, rfl, hmeans⟩ := h
  refine ⟨_, .mk .nil hy hw hz, fun o => ?_⟩
  rw [unplaced_operandTree]
  exact hmeans _ _

/-- A text of an operand is one of a sequence, whatever its operators must bind. -/
theorem OperandText.listing (h : OperandText t s) (bound : Nat) : ListingText bound t s := by
  obtain ⟨f, hs, hmeans⟩ := h
  exact ⟨s, [], f, _, hs, .nil, (List.append_nil s).symm,
    fun o _ => ⟨f o, .operand (f o), hmeans o⟩⟩

/-- A sequence of operators that bind tightly is one of operators that bind at least as loosely. -/
theorem ListingText.mono (h : ListingText bound t s) (hle : lower ≤ bound) :
    ListingText lower t s := by
  obtain ⟨x, xs, f, fs, hx, hxs, hs, hlisting⟩ := h
  refine ⟨x, xs, f, fs, hx, hxs, hs, fun o o' => ?_⟩
  obtain ⟨e, he, hmeans⟩ := hlisting o o'
  exact ⟨e, he.mono hle, hmeans⟩

/-- A listing spells the tree that it is grouped to. -/
theorem ListingText.sequence (h : ListingText bound t s) :
    ∃ f, SequenceSpelling ExprSpelling s f ∧ ∀ o, (f o).unplaced = t.toExpr := by
  obtain ⟨x, xs, f, fs, hx, hxs, rfl, hlisting⟩ := h
  refine ⟨_, .mk hx hxs, fun o => ?_⟩
  obtain ⟨e, he, hmeans⟩ := hlisting o (o + utf8Length x)
  rw [he.group_eq, hmeans]

/-- A text of a sequence is one of an expression. -/
theorem ListingText.expr (h : ListingText bound t s) : ExprText t s := by
  obtain ⟨f, hs, hmeans⟩ := h.sequence
  exact ⟨f, .of (.sequence hs), hmeans⟩

namespace TextAt

/-- A text that serves at a level serves at a looser one. -/
theorem mono (h : TextAt asked t s) (hle : lower ≤ asked) : TextAt lower t s where
  expr := h.expr
  listing hpos := (h.listing (Nat.lt_of_lt_of_le hpos hle)).mono hle
  operand hlower := h.operand (Nat.le_trans hlower hle)
  chain hlower := h.chain (Nat.le_trans hlower hle)

theorem of_expr (h : ExprText t s) : TextAt 0 t s where
  expr := h
  listing hpos := absurd hpos (Nat.lt_irrefl 0)
  operand hle := absurd hle (by decide)
  chain hle := absurd hle (by decide)

theorem of_listing (h : ListingText bound t s) (hbound : bound < prefixLevel) :
    TextAt bound t s where
  expr := h.expr
  listing _ := h
  operand hle := absurd hbound (Nat.not_lt.mpr hle)
  chain hle := absurd (Nat.lt_succ_of_lt hbound) (Nat.not_lt.mpr hle)

theorem of_operand (h : OperandText t s) : TextAt prefixLevel t s where
  expr := (h.listing 0).expr
  listing _ := h.listing prefixLevel
  operand _ := h
  chain hle := absurd hle (by decide)

theorem of_chain (h : ChainText t s) (asked : Nat) : TextAt asked t s where
  expr := (h.operand.listing 0).expr
  listing _ := h.operand.listing asked
  operand _ := h.operand
  chain _ := h

end TextAt

/-! ### Constructs -/

/-- A text of a primary is one of a chain. -/
theorem ChainText.of_primary {y w : List Char} {f : Nat → Expr}
    (hy : PrimarySpelling ExprSpelling y f) (hw : Blanks w)
    (hmeans : ∀ o, (f o).unplaced = t.toExpr) : ChainText t (y ++ w) :=
  ⟨y, w, [], f, _, hy, hw, .nil, by rw [List.append_nil], fun o _ => hmeans o⟩

/-- A chain with one more suffix. -/
theorem ChainText.snoc {object : Term} {a x w : List Char} {g : Nat → Suffix}
    (ha : ChainText object a) (hx : SuffixSpelling ExprSpelling x g) (hw : Blanks w)
    (hmeans : ∀ (o : Nat) (e : Expr) (span : Span), e.unplaced = object.toExpr →
      (extend e (g o, span)).unplaced = t.toExpr) :
    ChainText t (a ++ (x ++ w)) := by
  obtain ⟨y, v, z, f, fs, hy, hv, hz, rfl, hobject⟩ := ha
  refine ⟨y, v, _, f, _, hy, hv, hz.snoc hx hw, by simp only [List.append_assoc], ?_⟩
  intro o o'
  rw [List.foldl_append, List.foldl_cons, List.foldl_nil]
  exact hmeans _ _ _ (hobject o o')

/-- Parentheses make an expression serve anywhere. -/
theorem ExprText.parenthesised {w w' : List Char} (h : ExprText t s) (hw : Blanks w)
    (hw' : Blanks w') : ChainText t (('(' :: w ++ (s ++ [')'])) ++ w') := by
  obtain ⟨f, hs, hmeans⟩ := h
  exact .of_primary (.parenthesised hw hs) hw' fun o => hmeans _

/-- Tokens where a level is asked for serve there. -/
theorem textAt_of_laid_enclose (h : ∀ {s}, Laid t.tokens s → TextAt t.level t s)
    (hs : Laid (enclose asked t.level t.tokens) s) : TextAt asked t s := by
  unfold enclose at hs
  split at hs
  · obtain ⟨w, b, w', hw, hb, hw', rfl⟩ := laid_brackets hs
    exact .of_chain ((h hb).expr.parenthesised hw hw') asked
  · rename_i hlevel
    exact (h hs).mono (Nat.not_lt.mp hlevel)

/-- A prefixed operation. -/
theorem OperandText.unary {op : UnaryOp} {operand : Term} {w : List Char} (hw : Blanks w)
    (h : OperandText operand s) :
    OperandText (.unary op operand) (op.symbol.toList ++ (w ++ s)) := by
  obtain ⟨f, hs, hmeans⟩ := h
  cases hs with
  | @mk x y v z ops f fs hops hy hv hz =>
      have hspelling := OperandSpelling.mk (.cons op hw hops) hy hv hz
      simp only [List.append_assoc] at hspelling ⊢
      refine ⟨_, hspelling, fun o => ?_⟩
      have hfirst := hmeans (o + utf8Length (op.symbol.toList ++ w))
      simp only [unplaced_operandTree] at hfirst ⊢
      rw [List.foldr_cons, toExpr, ← hfirst]
      simp only [utf8Length_append, Nat.add_assoc]

/-- An operation between operands. -/
theorem ListingText.binary {left right : Term} {op : BinaryOp} {a w b : List Char}
    (ha : ListingText op.precedence left a) (hw : Blanks w)
    (hb : ListingText (op.precedence + 1) right b) :
    ListingText op.precedence (.binary left op right) (a ++ (op.symbol.toList ++ (w ++ b))) := by
  obtain ⟨x, xs, f, fs, hx, hxs, rfl, hleft⟩ := ha
  obtain ⟨y, ys, g, gs, hy, hys, rfl, hright⟩ := hb
  refine ⟨x, _, f, _, hx, hxs.append (.cons op hw hy hys), by simp only [List.append_assoc], ?_⟩
  intro o o'
  obtain ⟨l, hl, hlmeans⟩ := hleft o o'
  obtain ⟨r, hr, hrmeans⟩ := hright (o' + utf8Length xs + utf8Length (op.symbol.toList ++ w))
    (o' + utf8Length xs + utf8Length (op.symbol.toList ++ w) + utf8Length y)
  refine ⟨_, .operation (Nat.le_refl _) hl hr, ?_⟩
  rw [Expr.join, Expr.unplaced, toExpr, hlmeans, hrmeans]

/-- A conditional. -/
theorem ExprText.conditional {test yes no : Term} {a w b w' d : List Char}
    (ha : ListingText 1 test a) (hw : Blanks w) (hb : ExprText yes b) (hw' : Blanks w')
    (hd : ExprText no d) :
    ExprText (.conditional test yes no) (a ++ ('?' :: w ++ (b ++ (':' :: w' ++ d)))) := by
  obtain ⟨f, hf, htest⟩ := ha.sequence
  obtain ⟨g, hg, hyes⟩ := hb
  obtain ⟨k, hk, hno⟩ := hd
  refine ⟨_, .of (.conditional hf hw hg hw' hk), fun o => ?_⟩
  simp only [Expr.unplaced, toExpr, htest, hyes, hno]

end

/-! ### Terms -/

/-- The rows of the operator table are what the operators' precedences say. -/
theorem operatorLevel_eq_precedence (op : BinaryOp) : operatorLevel op = op.precedence := by
  cases op <;> rfl

private theorem operatorLevel_pos (op : BinaryOp) : 0 < operatorLevel op :=
  Nat.succ_pos _

private theorem operatorLevel_lt (op : BinaryOp) : operatorLevel op < prefixLevel := by
  cases op <;> decide

/-- A decimal has no sign. -/
private theorem ofText?_of_isDigits {ds rest : List Char} (h : IsDigits ds) :
    Number.ofText? (ds ++ rest) = Number.magnitude? (ds ++ rest) := by
  cases ds with
  | nil => exact absurd rfl h.1
  | cons x ds =>
      have hx : x.isDigit = true := h.2 x List.mem_cons_self
      have hminus : x ≠ '-' := by
        rintro rfl
        exact absurd hx (by decide)
      have hplus : x ≠ '+' := by
        rintro rfl
        exact absurd hx (by decide)
      simp [Number.ofText?, hminus, hplus]

/-- The number in the grammar is the number that the whole text spells. -/
theorem ofText?_of_numberSpelling {s : List Char} {x : Float} (h : NumberSpelling s x) :
    Number.ofText? s = some x := by
  cases h with
  | whole hds =>
      have hsign : Number.ofText? (s ++ []) = Number.magnitude? (s ++ []) :=
        ofText?_of_isDigits hds
      obtain ⟨htake, hdrop⟩ := takeWhile_append_of_startsWith hds.2 startsWith_nil
      rw [List.append_nil] at hsign htake hdrop
      rw [hsign, Number.magnitude?]
      simp [htake, hdrop, hds.1, Number.exponentPart?, decimalValue]
  | @point ds es hds hes =>
      rw [ofText?_of_isDigits hds, Number.magnitude?]
      have hpoint : StartsWith (fun x => !x.isDigit) ('.' :: es) := startsWith_cons.mpr (by decide)
      obtain ⟨htake, hdrop⟩ := takeWhile_append_of_startsWith hds.2 hpoint
      obtain ⟨htake', hdrop'⟩ := takeWhile_append_of_startsWith hes.2 startsWith_nil
      rw [List.append_nil] at htake' hdrop'
      simp [htake, hdrop, htake', hdrop', hds.1, Number.exponentPart?, decimalValue]

/-- The digits of a decimal spell its value. -/
private theorem numberSpelling_token (d : Decimal) : NumberSpelling d.token d.value := by
  obtain ⟨whole, decimals⟩ := d
  cases decimals with
  | none =>
      have h := NumberSpelling.whole whole.2
      rwa [Decimal.value, Decimal.token, ofText?_of_numberSpelling h]
  | some es =>
      have h := NumberSpelling.point whole.2 es.2
      rwa [Decimal.value, Decimal.token, ofText?_of_numberSpelling h]

/-- A literal with blanks behind it. -/
private theorem textAt_literal {t : Term} {token s : List Char} {v : Value}
    (htoken : t.tokens = [token]) (hv : AtomSpelling token v)
    (hmeans : t.toExpr = .literal v default) (hs : Laid t.tokens s) :
    TextAt t.level t s := by
  rw [htoken] at hs
  obtain ⟨w, hw, rfl⟩ := laid_singleton_iff.mp hs
  refine .of_chain (.of_primary (.literal hv) hw fun o => ?_) _
  rw [hmeans, Expr.unplaced]

/-- Tokens in front of a bracket, the bracket's inside, and the blanks. -/
private theorem laid_suffix {ts us : List (List Char)} {x y : Char} {s : List Char}
    (h : Laid (ts ++ [x] :: us ++ [[y]]) s) :
    ∃ a w b w', Laid ts a ∧ Blanks w ∧ Laid us b ∧ Blanks w' ∧
      s = a ++ ((x :: w ++ (b ++ [y])) ++ w') := by
  rw [List.append_assoc] at h
  obtain ⟨a, c, ha, hc, rfl⟩ := laid_append_iff.mp h
  obtain ⟨w, b, w', hw, hb, hw', rfl⟩ := laid_brackets hc
  exact ⟨a, w, b, w', ha, hw, hb, hw', rfl⟩

mutual

/-- **Laid out tokens serve at the level of their term.** -/
theorem textAt_of_laid : (t : Term) → ∀ {s : List Char}, Laid t.tokens s → TextAt t.level t s
  | .string str, _, hs =>
    textAt_literal rfl (atomSpelling_encode str.toList) (by rw [toExpr, String.ofList_toList]) hs
  | .number d, _, hs => textAt_literal rfl (.number (numberSpelling_token d)) rfl hs
  | .bool true, _, hs => textAt_literal rfl .true rfl hs
  | .bool false, _, hs => textAt_literal rfl .false rfl hs
  | .null, _, hs => textAt_literal rfl .null rfl hs
  | .name n, _, hs => by
      obtain ⟨w, hw, rfl⟩ := laid_singleton_iff.mp hs
      exact .of_chain (.of_primary (.name n.2.1 n.2.2) hw fun o => rfl) _
  | .array elements, _, hs => by
      obtain ⟨w, b, w', hw, hb, hw', rfl⟩ := laid_brackets hs
      obtain ⟨fs, hfs, hmeans⟩ := arguments_of_laid elements hb
      refine .of_chain (.of_primary (.array hw hfs) hw' fun o => ?_) _
      rw [Expr.unplaced, hmeans, toExpr]
  | .member object property, _, hs => by
      obtain ⟨a, c, ha, hc, rfl⟩ := laid_append_iff.mp hs
      obtain ⟨w, r, hw, hr, rfl⟩ := laid_cons_iff.mp hc
      obtain ⟨w', hw', rfl⟩ := laid_singleton_iff.mp hr
      have hobject := textAt_of_laid_enclose (textAt_of_laid object) ha
      have hchain :
          ChainText (.member object property) (a ++ (('.' :: w ++ property.1) ++ w')) := by
        refine .snoc (hobject.chain (Nat.le_refl _)) (.member hw property.2) hw' ?_
        intro o e span he
        rw [extend, Expr.unplaced, toExpr, he]
      rw [List.append_assoc] at hchain
      exact .of_chain hchain _
  | .index object key, _, hs => by
      obtain ⟨a, w, b, w', ha, hw, hb, hw', rfl⟩ := laid_suffix hs
      have hobject := textAt_of_laid_enclose (textAt_of_laid object) ha
      obtain ⟨f, hf, hmeans⟩ := (textAt_of_laid key hb).expr
      refine .of_chain (.snoc (hobject.chain (Nat.le_refl _)) (.index hw hf) hw' ?_) _
      intro o e span he
      rw [extend, Expr.unplaced, toExpr, he, hmeans]
  | .call callee args, _, hs => by
      obtain ⟨a, w, b, w', ha, hw, hb, hw', rfl⟩ := laid_suffix hs
      have hcallee := textAt_of_laid_enclose (textAt_of_laid callee) ha
      obtain ⟨fs, hfs, hmeans⟩ := arguments_of_laid args hb
      refine .of_chain (.snoc (hcallee.chain (Nat.le_refl _)) (.call hw hfs) hw' ?_) _
      intro o e span he
      rw [extend, Expr.unplaced, toExpr, he, hmeans]
  | .unary op operand, _, hs => by
      obtain ⟨w, r, hw, hr, rfl⟩ := laid_cons_iff.mp hs
      have hoperand := textAt_of_laid_enclose (textAt_of_laid operand) hr
      exact .of_operand (.unary hw (hoperand.operand (Nat.le_refl _)))
  | .binary left op right, _, hs => by
      obtain ⟨a, c, ha, hc, rfl⟩ := laid_append_iff.mp hs
      obtain ⟨w, b, hw, hb, rfl⟩ := laid_cons_iff.mp hc
      have hleft := (textAt_of_laid_enclose (textAt_of_laid left) ha).listing (operatorLevel_pos op)
      have hright := (textAt_of_laid_enclose (textAt_of_laid right) hb).listing (Nat.succ_pos _)
      refine .of_listing (?_ : ListingText (operatorLevel op) _ _) (operatorLevel_lt op)
      rw [operatorLevel_eq_precedence] at hleft hright ⊢
      exact .binary hleft hw hright
  | .conditional test yes no, _, hs => by
      rw [tokens, List.append_assoc] at hs
      obtain ⟨a, r, ha, hr, rfl⟩ := laid_append_iff.mp hs
      obtain ⟨q, q', hq, hq', rfl⟩ := laid_append_iff.mp hr
      obtain ⟨w, b, hw, hb, rfl⟩ := laid_cons_iff.mp hq
      obtain ⟨w', d, hw', hd, rfl⟩ := laid_cons_iff.mp hq'
      have htest := (textAt_of_laid_enclose (textAt_of_laid test) ha).listing Nat.one_pos
      have hyes := (textAt_of_laid yes hb).expr
      have hno := (textAt_of_laid no hd).expr
      have hconditional := ExprText.conditional htest hw hyes hw' hno
      simp only [List.cons_append, List.nil_append, List.append_assoc] at hconditional ⊢
      exact .of_expr hconditional

/-- The laid out tokens of terms with commas between them are arguments. -/
theorem arguments_of_laid : (ts : List Term) → ∀ {s : List Char}, Laid (listTokens ts) s →
    ∃ fs, ArgumentsSpelling ExprSpelling s fs ∧ ∀ o, Expr.unplacedAll (fs o) = toExprs ts
  | [], _, hs => by
      cases hs
      exact ⟨_, .none, fun o => rfl⟩
  | t :: ts, _, hs => by
      obtain ⟨a, b, ha, hb, rfl⟩ := laid_append_iff.mp hs
      obtain ⟨f, hf, hmeans⟩ := (textAt_of_laid t ha).expr
      obtain ⟨fs, hfs, hmeans'⟩ := moreArguments_of_laid ts hb
      refine ⟨_, .some hf hfs, fun o => ?_⟩
      rw [Expr.unplacedAll, toExprs, hmeans, hmeans']

/-- The laid out tokens of terms behind commas are further arguments. -/
theorem moreArguments_of_laid : (ts : List Term) → ∀ {s : List Char}, Laid (moreTokens ts) s →
    ∃ fs, MoreArguments ExprSpelling s fs ∧ ∀ o, Expr.unplacedAll (fs o) = toExprs ts
  | [], _, hs => by
      cases hs
      exact ⟨_, .nil, fun o => rfl⟩
  | t :: ts, _, hs => by
      rw [moreTokens, List.cons_append] at hs
      obtain ⟨w, r, hw, hr, rfl⟩ := laid_cons_iff.mp hs
      obtain ⟨a, b, ha, hb, rfl⟩ := laid_append_iff.mp hr
      obtain ⟨f, hf, hmeans⟩ := (textAt_of_laid t ha).expr
      obtain ⟨fs, hfs, hmeans'⟩ := moreArguments_of_laid ts hb
      refine ⟨_, .cons (w := w) hw hf hfs, fun o => ?_⟩
      rw [Expr.unplacedAll, toExprs, hmeans, hmeans']

end

/-- **Printed expressions are read back**, whatever blanks stand around their tokens: reading gives
the tree that the term means, its places aside. -/
theorem parse_layOut (t : Term) (gap : Nat → List Blank) :
    ∃ e, Expr.parse (String.ofList (layOut gap t.tokens)) = .ok e ∧ e.unplaced = t.toExpr := by
  obtain ⟨w, s, hw, hs, hlay⟩ := exists_laid_layOut t.tokens gap
  obtain ⟨f, hf, hmeans⟩ := (textAt_of_laid t hs).expr
  refine ⟨f (utf8Length w), parse_eq_ok_iff.mpr ⟨w, s, f, hw, hf, ?_, rfl⟩, hmeans _⟩
  rw [String.toList_ofList, hlay]

end Grammar

end LineMarkup
