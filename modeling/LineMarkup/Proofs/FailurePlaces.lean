import LineMarkup.Proofs.ExpressionSpans
import LineMarkup.Proofs.WrittenExpressions

/-!
# Where reading fails

A text that is no expression is refused at the furthest place where a rule of the grammar failed.  That
place splits no character: rules are only ever called where a cursor stands, and a cursor only ever goes
past whole characters.

The trace of a reading also keeps the calls of readers that failed, so what a reader finds does not say
enough.  The judgement of this module speaks of the whole outcome.  It has one rule for each way of
building a reader, and the grammar of expressions is gone through once.

## Main Definitions

* `Trace.CallsAt` — all calls of a trace are at places of a kind
* `Outcome.Behind` — an outcome that stays behind a cursor
* `Reader.Keeps` — the judgement

## Main Statements

* `keeps_expression` — reading an expression stays in the text, and so do all calls
* `Expr.isCut_of_parse` — a text that is no expression is refused between two characters
-/

namespace LineMarkup

namespace Grammar

open Reader

/-! ### Traces -/

/-- All calls of a trace are at places of a kind. -/
def Trace.CallsAt (P : Nat → Prop) : Trace → Prop
  | .silent => True
  | .call _ offset _ inner => P offset ∧ inner.CallsAt P
  | .both s t => s.CallsAt P ∧ t.CallsAt P

namespace Trace

variable {P : Nat → Prop}

/-- The calls of two traces in a row are those of both. -/
theorem CallsAt.andThen {s t : Trace} (hs : s.CallsAt P) (ht : t.CallsAt P) :
    (s.andThen t).CallsAt P := by
  cases s with
  | silent => exact ht
  | call rule offset matched inner =>
      cases t with
      | silent => exact hs
      | call _ _ _ _ => exact ⟨hs, ht⟩
      | both _ _ => exact ⟨hs, ht⟩
  | both s s' =>
      cases t with
      | silent => exact hs
      | call _ _ _ _ => exact ⟨hs, ht⟩
      | both _ _ => exact ⟨hs, ht⟩


/-- A failure moves the frontier to its own place, or not at all. -/
theorem offset_fail (f : Frontier) (rule : Rule) (offset before : Nat) :
    (f.fail rule offset before).offset = offset ∨ (f.fail rule offset before).offset = f.offset := by
  unfold Frontier.fail
  split
  · exact .inr rfl
  · split
    · exact .inl rfl
    · split
      · exact .inl rfl
      · exact .inr rfl

/-- **The furthest failure is at a call**, or where it was before. -/
theorem CallsAt.survey {t : Trace} (h : t.CallsAt P) :
    ∀ {f : Frontier}, P f.offset → P (t.survey f).offset := by
  induction t with
  | silent => exact fun hf => hf
  | both s t ihs iht => exact fun hf => iht h.2 (ihs h.1 hf)
  | call rule offset matched inner ih =>
      intro f hf
      have hinner := ih h.2 hf
      cases matched with
      | true => exact hinner
      | false =>
          rcases offset_fail (inner.survey f) rule offset (f.countAt offset) with hplace | hplace
          · exact hplace.symm ▸ h.1
          · exact hplace.symm ▸ hinner

end Trace

/-! ### A logic of outcomes -/

/-- Where a cursor has come, its text can be cut. -/
theorem Cursor.Reaches.isCut {c d : Cursor} (h : c.Reaches d) : IsCut c.rest c.offset d.offset := by
  obtain ⟨s, hs⟩ := h
  exact ⟨s, d.rest, hs.rest, hs.offset⟩

/-- An outcome that stays behind `start`: what is found ends there, and all calls are there. -/
structure Outcome.Behind {α : Type} (start : Cursor) (o : Outcome α) : Prop where
  found : ∀ r ∈ o.found?, start.Reaches r.2
  calls : o.trace.CallsAt (IsCut start.rest start.offset)

namespace Reader

variable {α β : Type} {start : Cursor} {p q : Reader α}

/-- Called behind `start`, the reader stays behind `start`, whether it succeeds or fails. -/
structure Keeps (start : Cursor) (p : Reader α) : Prop where
  outcome : ∀ {c : Cursor}, start.Reaches c → (p c).Behind start

namespace Keeps

/-- Readers that call no rule. -/
theorem of_silent (hsilent : ∀ c, (p c).trace = .silent)
    (hfound : ∀ {c d : Cursor} {a : α}, p.found c = some (a, d) → ∃ s, c.Leads s d) :
    Keeps start p := by
  refine ⟨fun {c} hc => ⟨?_, ?_⟩⟩
  · rintro ⟨a, d⟩ hr
    exact hc.trans (hfound hr)
  · rw [hsilent]
    trivial

theorem pure (a : α) : Keeps start (pure a : Reader α) :=
  .of_silent (fun _ => rfl) fun h => by
    rw [found_pure, Option.some.injEq, Prod.mk.injEq] at h
    exact ⟨[], Cursor.leads_nil_iff.mpr h.2.symm⟩

theorem fail : Keeps start (fail : Reader α) :=
  .of_silent (fun _ => rfl) fun h => by simp at h

theorem here : Keeps start here :=
  .of_silent (fun _ => rfl) fun h => by
    rw [found_here, Option.some.injEq, Prod.mk.injEq] at h
    exact ⟨[], Cursor.leads_nil_iff.mpr h.2.symm⟩

theorem lit (text : String) : Keeps start (lit text) :=
  .of_silent (fun _ => rfl) fun h => ⟨_, found_lit_iff.mp h⟩

theorem skip : Keeps start skip :=
  .of_silent (fun _ => rfl) fun {c _ _} h => by
    rw [found_skip, Option.some.injEq, Prod.mk.injEq] at h
    obtain ⟨-, rfl⟩ := h
    exact ⟨_, c.leads_dropWhile isSpace⟩

theorem atEnd : Keeps start atEnd := by
  refine .of_silent (fun c => ?_) fun {c d _} h => ?_
  · unfold Reader.atEnd
    split
    · rfl
    · rfl
  · rw [found_atEnd] at h
    split at h
    · rw [Option.some.injEq, Prod.mk.injEq] at h
      exact ⟨[], Cursor.leads_nil_iff.mpr h.2.symm⟩
    · cases h

/-- Two readers in a row: the second one starts behind as well. -/
theorem bind {r : α → Reader β} (hp : Keeps start p) (hr : ∀ a, Keeps start (r a)) :
    Keeps start (p >>= r) := by
  refine ⟨fun {c} hc => ?_⟩
  have hfirst := hp.outcome hc
  show (andThen p r c).Behind start
  unfold andThen
  cases hpc : p c with
  | mk found? t =>
      rw [hpc] at hfirst
      cases found? with
      | none =>
          refine ⟨?_, hfirst.calls⟩
          rintro r ⟨⟩
      | some a =>
          have hsecond := (hr a.1).outcome (hfirst.found a rfl)
          exact ⟨hsecond.found, hfirst.calls.andThen hsecond.calls⟩

/-- An optional part stays behind if the part does. -/
theorem option (hp : Keeps start p) : Keeps start p.option := by
  refine ⟨fun {c} hc => ?_⟩
  have h := hp.outcome hc
  unfold Reader.option
  cases hpc : p c with
  | mk found? t =>
      rw [hpc] at h
      cases found? with
      | none =>
          refine ⟨?_, h.calls⟩
          rintro r ⟨⟩
          exact hc
      | some a =>
          refine ⟨?_, h.calls⟩
          rintro r ⟨⟩
          exact h.found a rfl

/-- An alternative is called at the same place. -/
theorem orElse (hp : Keeps start p) (hq : Keeps start q) : Keeps start (p.orElse q) := by
  refine ⟨fun {c} hc => ?_⟩
  have hfirst := hp.outcome hc
  unfold Reader.orElse
  cases hpc : p c with
  | mk found? t =>
      rw [hpc] at hfirst
      cases found? with
      | none =>
          have hsecond := hq.outcome hc
          exact ⟨hsecond.found, hfirst.calls.andThen hsecond.calls⟩
      | some a => exact hfirst

/-- Alternatives stay behind if each of them does. -/
theorem firstOf {ps : List (Reader α)} (hps : ∀ p ∈ ps, Keeps start p) :
    Keeps start (firstOf ps) := by
  induction ps with
  | nil => exact .fail
  | cons p ps ih =>
      obtain ⟨hp, hps⟩ := List.forall_mem_cons.mp hps
      exact .orElse hp (ih hps)

/-- A repetition stays behind: each turn starts where the one before has stopped. -/
theorem many (hp : Keeps start p) : Keeps start p.many := by
  have hwithin : ∀ turns : List Char, Keeps start (manyWithin p turns) := by
    intro turns
    induction turns with
    | nil => exact .bind hp.option fun found => .pure _
    | cons _ turns ih =>
        refine .bind hp.option fun found => ?_
        cases found with
        | none => exact .pure _
        | some a => exact .bind ih fun as => .pure _
  exact ⟨fun {c} hc => (hwithin c.rest).outcome hc⟩

/-- The call of a rule is at the place of the cursor, and that is behind the start. -/
theorem call (rule : Rule) (hp : Keeps start p) : Keeps start (call rule p) := by
  refine ⟨fun {c} hc => ?_⟩
  have h := hp.outcome hc
  exact ⟨h.found, hc.isCut, h.calls⟩

/-- Of an atom nothing is called, so only what it finds counts. -/
theorem atom (rule : Rule)
    (hfound : ∀ {c d : Cursor} {a : α}, p.found c = some (a, d) → ∃ s, c.Leads s d) :
    Keeps start (atom rule p) := by
  refine ⟨fun {c} hc => ⟨?_, hc.isCut, trivial⟩⟩
  rintro ⟨a, d⟩ hr
  exact hc.trans (hfound hr)

theorem token (text : String) : Keeps start (token text) :=
  .bind .skip fun _ => .lit text

theorem word (text : String) (a : α) : Keeps start (word text a) :=
  .bind (.lit text) fun _ => .pure a

end Keeps

/-- **A text is refused between two of its characters.** -/
theorem isCut_of_run {source : String} {e : SyntaxError} (hp : Keeps (.ofString source) p)
    (h : p.run source = .error e) : IsCut source.toList 0 e.offset := by
  have hbehind := hp.outcome ⟨[], Cursor.leads_nil_iff.mpr rfl⟩
  unfold run at h
  cases hfound : (p (.ofString source)).found? with
  | some r => simp [hfound] at h
  | none =>
      simp only [hfound, Except.error.injEq] at h
      rw [← h]
      exact hbehind.calls.survey (.first _ 0)

end Reader

/-! ### The grammar of expressions -/

variable {start : Cursor} {nested : Reader Expr}

private theorem keeps_identifier : Keeps start identifier :=
  .atom .identifier fun h => by
    obtain ⟨s, -, -, hlead, -⟩ := found_identifier_iff.mp h
    exact ⟨s, hlead⟩

private theorem keeps_number : Keeps start number :=
  .atom .number fun h => by
    obtain ⟨s, -, hlead⟩ := numberSpelling_of_found h
    exact ⟨s, hlead⟩

private theorem keeps_boolLiteral : Keeps start boolLiteral :=
  .atom .boolLiteral fun h => ⟨_, (found_boolLiteral_iff.mp h).1⟩

private theorem keeps_nullLiteral : Keeps start nullLiteral :=
  .atom .nullLiteral fun h => by
    rcases (found_nullLiteral_iff.mp h).1 with hlead | hlead
    · exact ⟨_, hlead⟩
    · exact ⟨_, hlead⟩

/-- One character of a class is taken whole. -/
private theorem keeps_one (q : Char → Bool) : Keeps start (one q) := by
  refine .of_silent (fun c => ?_) fun h => ⟨_, (found_one_iff.mp h).2⟩
  unfold one
  split
  · rfl
  · split
    · rfl
    · rfl

/-- The inside of a literal is looked for in the rest, and the cursor goes past it. -/
private theorem keeps_quotedBody (quote : Char) : Keeps start (quotedBody quote) := by
  refine .of_silent (fun _ => rfl) fun {c d s} h => ?_
  have hbody := (inside_of_body (rfl : Text.Quoted.body quote c.rest = (_, _))).2
  obtain ⟨-, rfl⟩ := Prod.mk.inj (Option.some.inj h)
  exact ⟨_, Cursor.leads_past hbody⟩

/-- A literal of text is one rule, with the marks around its inside. -/
private theorem keeps_string : Keeps start string := by
  have hquoted (quote : Char) : Keeps start (quotedBy quote) :=
    .bind (keeps_one _) fun _ => .bind (keeps_quotedBody quote) fun _ =>
      .bind (keeps_one _) fun _ => .pure _
  exact .call .string (.orElse (hquoted _) (hquoted _))

/-- Operators are words, tried one after the other. -/
private theorem keeps_binaryOp : Keeps start binaryOp := by
  refine .call .binaryOp (.firstOf fun p hp => ?_)
  obtain ⟨op, -, rfl⟩ := List.mem_map.mp hp
  exact .word _ _

private theorem keeps_unaryOp : Keeps start unaryOp :=
  .call .unaryOp (.orElse (.word _ _) (.word _ _))

/-- Noting a span calls no rule. -/
private theorem keeps_spanned {α : Type} {p : Reader α} (hp : Keeps start p) :
    Keeps start (spanned p) :=
  .bind .here fun _ => .bind hp fun _ => .bind .here fun _ => .pure _

/-- A list of expressions stays behind if the expressions do. -/
private theorem keeps_arguments (hn : Keeps start nested) : Keeps start (arguments nested) := by
  have hothers : Keeps start (do token ","; skip; nested) :=
    .bind (.token _) fun _ => .bind .skip fun _ => hn
  exact .bind (.option (.bind hn fun _ => .bind hothers.many fun _ => .pure _)) fun _ => .pure _

private theorem keeps_literal {p : Reader Value} (hp : Keeps start p) : Keeps start (literal p) :=
  .bind (keeps_spanned hp) fun _ => .pure _

/-- A primary stays behind if the expressions in it do. -/
private theorem keeps_primary (hn : Keeps start nested) : Keeps start (primary nested) := by
  have harray : Keeps start (arrayLiteral nested) :=
    .bind (keeps_spanned (.call .arrayLiteral (.bind (.lit _) fun _ => .bind .skip fun _ =>
      .bind (keeps_arguments hn) fun _ => .bind (.token _) fun _ => .pure _))) fun _ => .pure _
  have hname : Keeps start variableName := .bind (keeps_spanned keeps_identifier) fun _ => .pure _
  have hparenthesised : Keeps start (parenthesised nested) :=
    .bind (.lit _) fun _ => .bind .skip fun _ => .bind hn fun _ => .bind (.token _) fun _ => .pure _
  refine .firstOf fun p hp => ?_
  simp only [List.mem_cons, List.not_mem_nil, or_false] at hp
  rcases hp with rfl | rfl | rfl | rfl | rfl | rfl | rfl
  · exact keeps_literal (.bind keeps_number fun _ => .pure _)
  · exact keeps_literal (.bind keeps_string fun _ => .pure _)
  · exact keeps_literal (.bind keeps_boolLiteral fun _ => .pure _)
  · exact keeps_literal (.bind keeps_nullLiteral fun _ => .pure _)
  · exact harray
  · exact hname
  · exact hparenthesised

/-- A suffix stays behind if the expressions in it do. -/
private theorem keeps_suffix (hn : Keeps start nested) : Keeps start (suffix nested) := by
  refine .firstOf fun p hp => ?_
  simp only [List.mem_cons, List.not_mem_nil, or_false] at hp
  rcases hp with rfl | rfl | rfl
  · exact .call .member (.bind (.lit _) fun _ => .bind .skip fun _ =>
      .bind keeps_identifier fun _ => .pure _)
  · exact .call .index (.bind (.lit _) fun _ => .bind .skip fun _ => .bind hn fun _ =>
      .bind (.token _) fun _ => .pure _)
  · exact .call .call (.bind (.lit _) fun _ => .bind .skip fun _ =>
      .bind (keeps_arguments hn) fun _ => .bind (.token _) fun _ => .pure _)

/-- A chain is a primary and a repetition of suffixes. -/
private theorem keeps_chain (hn : Keeps start nested) : Keeps start (chain nested) := by
  have hsuffixes : Keeps start (do skip; spanned (suffix nested)) :=
    .bind .skip fun _ => keeps_spanned (keeps_suffix hn)
  exact .call .chain (.bind (keeps_primary hn) fun _ => .bind .skip fun _ =>
    .bind hsuffixes.many fun _ => .pure _)

/-- An operand is a repetition of operators and a chain. -/
private theorem keeps_unary (hn : Keeps start nested) : Keeps start (unary nested) := by
  have hops : Keeps start (do skip; unaryOp) := .bind .skip fun _ => keeps_unaryOp
  refine .bind (keeps_spanned (.call .unary (.bind hops.many fun _ => ?_))) fun _ => .pure _
  exact .bind .skip fun _ => .bind (keeps_chain hn) fun _ => .pure _

/-- Operators and operands are an operand and a repetition. -/
private theorem keeps_binary (hn : Keeps start nested) : Keeps start (binary nested) := by
  have hturn : Keeps start (do skip; let op ← binaryOp; skip; let e ← unary nested; return (op, e)) :=
    .bind .skip fun _ => .bind keeps_binaryOp fun _ => .bind .skip fun _ =>
      .bind (keeps_unary hn) fun _ => .pure _
  exact .call .binary (.bind (keeps_unary hn) fun _ => .bind .skip fun _ =>
    .bind hturn.many fun _ => .pure _)

/-- A conditional is operators and operands, and perhaps two branches. -/
private theorem keeps_conditional (hn : Keeps start nested) : Keeps start (conditional nested) := by
  have hbranches : Keeps start (branches nested) :=
    .bind (.lit _) fun _ => .bind .skip fun _ => .bind hn fun _ => .bind (.token _) fun _ =>
      .bind .skip fun _ => .bind hn fun _ => .pure _
  refine .bind (keeps_spanned (.call .expr (.bind (keeps_binary hn) fun _ => .bind .skip fun _ =>
    .bind hbranches.option fun _ => .pure _))) fun r => ?_
  obtain ⟨⟨test, outcome⟩, span⟩ := r
  cases outcome with
  | none => exact .pure _
  | some outcome => exact .pure _

/-- Expressions nested at any depth, by induction on the bound of the nesting. -/
private theorem keeps_expr : Keeps start expr := by
  have hwithin : ∀ deeper : List Char, Keeps start (exprWithin deeper) := by
    intro deeper
    induction deeper with
    | nil => exact keeps_conditional .fail
    | cons _ deeper ih => exact keeps_conditional ih
  exact ⟨fun {c} hc => (hwithin c.rest).outcome hc⟩

/-- **Reading an expression stays in the text**, and so do all calls. -/
theorem keeps_expression : Keeps start expression :=
  .call .expression (.bind .skip fun _ => .bind keeps_expr fun _ => .bind .skip fun _ =>
    .bind (.call .endOfInput .atEnd) fun _ => .pure _)

end Grammar

/-- **A text that is no expression is refused between two of its characters.** -/
theorem Expr.isCut_of_parse {source : String} {e : SyntaxError}
    (h : Expr.parse source = .error e) : IsCut source.toList 0 e.offset :=
  Grammar.Reader.isCut_of_run Grammar.keeps_expression h

end LineMarkup
