import LineMarkup.Grammar.Expression
import LineMarkup.Proofs.Reading

/-!
# Spellings of expressions

The grammar of expressions as relations between texts and trees, said without a reader: no order of
alternatives, no place where reading stops, no budget.

A tree carries the byte offsets of its parts, so a text does not stand for one tree but for one tree
at each offset.  A `Spelling` therefore relates a text to a *function* of the offset at which the
text stands.  Nothing in a spelling depends on the text before or behind it; that the same holds of
reading is what `LineMarkup.Proofs.ExpressionReading` proves.

### Where blanks belong

Blanks may stand between any two tokens, and every spelling from the operand upwards takes the
blanks behind it.  Primaries, suffixes and operators take none.  One span depends on such blanks: a
prefixed operation covers them if the operand has no suffix, and ends with the last suffix if it has
one (`operandStop`).

## Main Definitions

* `Inside`, `IsName`, `NumberSpelling`, `AtomSpelling` — the texts of tokens
* `PrimarySpelling`, `SuffixSpelling`, `OperandSpelling`, `RestSpelling`, `SequenceSpelling`,
  `ConditionalSpelling` — the levels, given the spellings of nested expressions
* `ExprSpelling` — expressions, the levels tied together
* `opensOperand`, `followsOperand`, `closesExpr` — what comes first, and what may come behind
-/

namespace LineMarkup.Grammar

open Reader

/-- Texts with what they stand for at each offset. -/
abbrev Spelling (α : Type) := List Char → (Nat → α) → Prop

/-- The span of a text at an offset. -/
def spanOf (s : List Char) (o : Nat) : Span :=
  ⟨o, o + utf8Length s⟩

/-! ### Tokens -/

/-- The inside of a text between two quotes: a backslash goes together with the character behind it,
and no quote stands alone. -/
inductive Inside (quote : Char) : List Char → Prop where
  | nil : Inside quote []
  | pair {s : List Char} (x : Char) : Inside quote s → Inside quote ('\\' :: x :: s)
  | plain {s : List Char} {x : Char} : x ≠ quote → x ≠ '\\' → Inside quote s → Inside quote (x :: s)

/-- A name: a letter, `_` or `$`, then any of these and digits. -/
def IsName : List Char → Prop
  | [] => False
  | x :: xs => isIdentStart x = true ∧ ∀ y ∈ xs, isIdentChar y = true

instance : DecidablePred IsName
  | [] => inferInstanceAs (Decidable False)
  | x :: xs =>
    inferInstanceAs (Decidable (isIdentStart x = true ∧ ∀ y ∈ xs, isIdentChar y = true))

/-- The words that a bare name cannot be. -/
def reservedWords : List (List Char) :=
  ["true".toList, "false".toList, "null".toList, "undefined".toList]

/-- A stretch of digits, at least one. -/
def IsDigits (ds : List Char) : Prop :=
  ds ≠ [] ∧ ∀ x ∈ ds, x.isDigit = true

instance (ds : List Char) : Decidable (IsDigits ds) :=
  inferInstanceAs (Decidable (ds ≠ [] ∧ ∀ x ∈ ds, x.isDigit = true))

/-- The number of a decimal, by its digits before and behind the point. -/
def decimalValue (whole decimals : List Char) : Float :=
  Number.nearest (Number.digitsValue (whole ++ decimals)) (-(decimals.length : Int))

/-- Decimals: digits, optionally a point and more digits. -/
inductive NumberSpelling : List Char → Float → Prop where
  | whole {ds : List Char} : IsDigits ds → NumberSpelling ds (decimalValue ds [])
  | point {ds es : List Char} : IsDigits ds → IsDigits es →
      NumberSpelling (ds ++ '.' :: es) (decimalValue ds es)

/-- Literals. -/
inductive AtomSpelling : List Char → Value → Prop where
  | number {s : List Char} {x : Float} : NumberSpelling s x → AtomSpelling s (.number x)
  | string {q : Char} {s : List Char} : q = '"' ∨ q = '\'' → Inside q s →
      AtomSpelling (q :: s ++ [q]) (.string (String.ofList (Text.Quoted.unescape s)))
  | true : AtomSpelling "true".toList (.bool true)
  | false : AtomSpelling "false".toList (.bool false)
  | null : AtomSpelling "null".toList .null
  | undefined : AtomSpelling "undefined".toList .null

/-! ### Levels -/

section Levels

variable (nested : Spelling Expr)

/-- Expressions behind commas. -/
inductive MoreArguments : Spelling (List Expr) where
  | nil : MoreArguments [] fun _ => []
  | cons {w x xs : List Char} {f : Nat → Expr} {fs : Nat → List Expr} : Blanks w → nested x f →
      MoreArguments xs fs →
      MoreArguments (',' :: w ++ (x ++ xs)) fun o =>
        f (o + utf8Length (',' :: w)) :: fs (o + utf8Length (',' :: w) + utf8Length x)

/-- Expressions with commas between them, possibly none. -/
inductive ArgumentsSpelling : Spelling (List Expr) where
  | none : ArgumentsSpelling [] fun _ => []
  | some {x xs : List Char} {f : Nat → Expr} {fs : Nat → List Expr} : nested x f →
      MoreArguments nested xs fs →
      ArgumentsSpelling (x ++ xs) fun o => f o :: fs (o + utf8Length x)

/-- Operands without operators and suffixes.  Parentheses leave no node. -/
inductive PrimarySpelling : Spelling Expr where
  | literal {s : List Char} {v : Value} : AtomSpelling s v →
      PrimarySpelling s fun o => .literal v (spanOf s o)
  | name {n : List Char} : IsName n → n ∉ reservedWords →
      PrimarySpelling n fun o => .identifier (String.ofList n) (spanOf n o)
  | array {w x : List Char} {fs : Nat → List Expr} : Blanks w → ArgumentsSpelling nested x fs →
      PrimarySpelling ('[' :: w ++ (x ++ [']'])) fun o =>
        .array (fs (o + utf8Length ('[' :: w))) (spanOf ('[' :: w ++ (x ++ [']'])) o)
  | parenthesised {w x : List Char} {f : Nat → Expr} : Blanks w → nested x f →
      PrimarySpelling ('(' :: w ++ (x ++ [')'])) fun o => f (o + utf8Length ('(' :: w))

/-- Suffixes. -/
inductive SuffixSpelling : Spelling Suffix where
  | member {w n : List Char} : Blanks w → IsName n →
      SuffixSpelling ('.' :: w ++ n) fun _ => .member (String.ofList n)
  | index {w x : List Char} {f : Nat → Expr} : Blanks w → nested x f →
      SuffixSpelling ('[' :: w ++ (x ++ [']'])) fun o => .index (f (o + utf8Length ('[' :: w)))
  | call {w x : List Char} {fs : Nat → List Expr} : Blanks w → ArgumentsSpelling nested x fs →
      SuffixSpelling ('(' :: w ++ (x ++ [')'])) fun o => .call (fs (o + utf8Length ('(' :: w)))

/-- Suffixes one behind the other, each with the blanks behind it. -/
inductive SuffixesSpelling : Spelling (List (Suffix × Span)) where
  | nil : SuffixesSpelling [] fun _ => []
  | cons {x w xs : List Char} {f : Nat → Suffix} {fs : Nat → List (Suffix × Span)} :
      SuffixSpelling nested x f → Blanks w → SuffixesSpelling xs fs →
      SuffixesSpelling (x ++ (w ++ xs)) fun o =>
        (f o, spanOf x o) :: fs (o + utf8Length x + utf8Length w)

/-- Operators in front of an operand, each with the blanks behind it. -/
inductive PrefixesSpelling : List Char → List UnaryOp → Prop where
  | nil : PrefixesSpelling [] []
  | cons {w xs : List Char} {ops : List UnaryOp} (op : UnaryOp) : Blanks w →
      PrefixesSpelling xs ops → PrefixesSpelling (op.symbol.toList ++ (w ++ xs)) (op :: ops)

/-- Where an operand ends for the span of a prefixed operation: behind its last suffix, or, if it
has none, at `bare`. -/
def operandStop (bare : Nat) (suffixes : List (Suffix × Span)) : Nat :=
  (suffixes.getLast?.map fun suffix => suffix.2.stop).getD bare

/-- The tree of an operand: suffixes bind tighter than the operators in front, which all cover the
whole of it. -/
def operandTree (ops : List UnaryOp) (first : Expr) (suffixes : List (Suffix × Span))
    (span : Span) : Expr :=
  ops.foldr (fun op e => .unary op e span) (suffixes.foldl extend first)

/-- Operands with their operators, their suffixes and the blanks behind them. -/
inductive OperandSpelling : Spelling Expr where
  | mk {x y w z : List Char} {ops : List UnaryOp} {f : Nat → Expr}
      {fs : Nat → List (Suffix × Span)} : PrefixesSpelling x ops → PrimarySpelling nested y f →
      Blanks w → SuffixesSpelling nested z fs →
      OperandSpelling (x ++ (y ++ (w ++ z))) fun o =>
        let bare := o + utf8Length x + utf8Length y + utf8Length w
        operandTree ops (f (o + utf8Length x)) (fs bare) ⟨o, operandStop bare (fs bare)⟩

/-- Operands behind operators. -/
inductive RestSpelling : Spelling (List (BinaryOp × Expr)) where
  | nil : RestSpelling [] fun _ => []
  | cons {w x xs : List Char} {f : Nat → Expr} {fs : Nat → List (BinaryOp × Expr)} (op : BinaryOp) :
      Blanks w → OperandSpelling nested x f → RestSpelling xs fs →
      RestSpelling (op.symbol.toList ++ w ++ (x ++ xs)) fun o =>
        (op, f (o + utf8Length (op.symbol.toList ++ w))) ::
          fs (o + utf8Length (op.symbol.toList ++ w) + utf8Length x)

/-- Operands with operators between them, grouped by precedence. -/
inductive SequenceSpelling : Spelling Expr where
  | mk {x xs : List Char} {f : Nat → Expr} {fs : Nat → List (BinaryOp × Expr)} :
      OperandSpelling nested x f → RestSpelling nested xs fs →
      SequenceSpelling (x ++ xs) fun o => Expr.group (f o) (fs (o + utf8Length x))

/-- Expressions, conditional or not. -/
inductive ConditionalSpelling : Spelling Expr where
  | sequence {x : List Char} {f : Nat → Expr} : SequenceSpelling nested x f → ConditionalSpelling x f
  | conditional {x w y w' z : List Char} {f g h : Nat → Expr} : SequenceSpelling nested x f →
      Blanks w → nested y g → Blanks w' → nested z h →
      ConditionalSpelling (x ++ ('?' :: w ++ (y ++ (':' :: w' ++ z)))) fun o =>
        let yes := o + utf8Length x + utf8Length ('?' :: w)
        let no := yes + utf8Length y + utf8Length (':' :: w')
        .conditional (f o) (g yes) (h no) (spanOf (x ++ ('?' :: w ++ (y ++ (':' :: w' ++ z)))) o)

end Levels

/-- Expressions, nested to any depth. -/
inductive ExprSpelling : Spelling Expr where
  | of {s : List Char} {f : Nat → Expr} : ConditionalSpelling ExprSpelling s f → ExprSpelling s f

/-! ### What comes first, and what may come behind -/

/-- Where a primary may start. -/
def opensPrimary (c : Char) : Bool :=
  c.isDigit || isIdentStart c || c == '"' || c == '\'' || c == '[' || c == '('

/-- Where an operand, and so an expression, may start. -/
def opensOperand (c : Char) : Bool :=
  opensPrimary c || c == '!' || c == '-'

/-- What may come behind a nested expression. -/
def closesExpr (c : Char) : Bool :=
  [')', ']', ',', ':'].contains c

/-- What may come behind arguments. -/
def closesArguments (c : Char) : Bool :=
  [')', ']'].contains c

/-- Where a suffix may start. -/
def opensSuffix (c : Char) : Bool :=
  ['.', '[', '('].contains c

/-- Where an operator between operands may start. -/
def opensBinaryOp (c : Char) : Bool :=
  ['=', '!', '<', '>', '&', '|', '+', '-', '*', '/', '%'].contains c

/-- What may come behind a sequence of operands. -/
def followsSequence (c : Char) : Bool :=
  closesExpr c || c == '?'

/-- What may come behind an operand and its blanks. -/
def followsOperand (c : Char) : Bool :=
  followsSequence c || opensBinaryOp c

end LineMarkup.Grammar
