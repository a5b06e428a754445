import LineMarkup.Proofs.LexemeReading

/-!
# What reading an expression takes is one

Each level of the grammar is read as its spelling says, provided that nested expressions are.  The
knot is tied by the budget for nesting: what `exprWithin deeper` takes is an expression, whatever
`deeper` is.

Only one alternative of an ordered choice needs to know that an earlier one failed: a bare name is
none of the reserved words because those were tried first.

## Main Statements

* `primary_sound`, `suffix_sound`, `operand_sound`, `sequence_sound`, `conditional_sound` — the
  levels
* `exprWithin_sound` — expressions
-/

namespace LineMarkup.Grammar

open Reader

/-! ### Spans and literals -/

/-- The offsets of two cursors span the text between them. -/
theorem Cursor.Leads.span {c d : Cursor} {s : List Char} (h : c.Leads s d) :
    (⟨c.offset, d.offset⟩ : Span) = spanOf s c.offset := by
  rw [spanOf, h.offset]

section

variable {α : Type} {c d : Cursor}

/-- A part is found with the span from the place where it starts to the place behind it. -/
theorem found_spanned_iff {p : Reader α} {r : α × Span} :
    (spanned p).found c = some (r, d) ↔
      ∃ a, p.found c = some (a, d) ∧ r = (a, ⟨c.offset, d.offset⟩) := by
  simp only [spanned, found_bind, found_here, Option.bind_some, found_pure,
    Option.bind_eq_some_iff, Prod.exists, Option.some.injEq, Prod.mk.injEq]
  constructor
  · rintro ⟨a, e, hp, rfl, rfl⟩
    exact ⟨a, hp, rfl⟩
  · rintro ⟨a, hp, rfl⟩
    exact ⟨a, d, hp, rfl, rfl⟩

/-- A literal is found where its value is, with its span. -/
theorem found_literal_iff {p : Reader α} {g : α → Value} {e : Expr} :
    (literal (do return g (← p))).found c = some (e, d) ↔
      ∃ a, p.found c = some (a, d) ∧ e = .literal (g a) ⟨c.offset, d.offset⟩ := by
  simp only [literal, found_bind, Option.bind_eq_some_iff, Prod.exists, found_spanned_iff,
    found_pure, Option.some.injEq, Prod.mk.injEq]
  constructor
  · rintro ⟨v, span, e', ⟨_, ⟨a, f, hp, rfl, rfl⟩, rfl, rfl⟩, rfl, rfl⟩
    exact ⟨a, hp, rfl⟩
  · rintro ⟨a, hp, rfl⟩
    exact ⟨g a, _, d, ⟨g a, ⟨a, d, hp, rfl, rfl⟩, rfl, rfl⟩, rfl, rfl⟩

theorem found_literal_eq_none_iff {p : Reader α} {g : α → Value} :
    (literal (do return g (← p))).found c = none ↔ p.found c = none := by
  simp only [literal, spanned, found_bind, found_here, Option.bind_some, found_pure]
  cases p.found c <;> simp

/-- A token, taken where no blank stands. -/
theorem found_token_iff {text : String} {u : Unit} (hc : NoBlank c.rest) :
    (token text).found c = some (u, d) ↔ c.Leads text.toList d := by
  rw [token, found_bind, found_skip, dropWhile_isSpace_of_noBlank hc, Option.bind_some]
  exact found_lit_iff

/-- An opening bracket and the blanks behind it. -/
theorem leads_open_skip {x : Char} {e : Cursor} (h : c.Leads [x] e) :
    ∃ w, Blanks w ∧ c.Leads (x :: w) (e.dropWhile isSpace) ∧
      NoBlank (e.dropWhile isSpace).rest := by
  obtain ⟨w, hw, hlead, hblank⟩ := exists_blanks e
  exact ⟨w, hw, Cursor.leads_cons_iff.mpr ⟨e, h, hlead⟩, hblank⟩

end

/-- What `nested` takes where no blank stands is spelled by `F`, and no blank is left behind it. -/
def SoundFor (nested : Reader Expr) (F : Spelling Expr) : Prop :=
  ∀ {c d : Cursor} {e : Expr}, NoBlank c.rest → nested.found c = some (e, d) →
    ∃ s f, F s f ∧ c.Leads s d ∧ e = f c.offset ∧ NoBlank d.rest

section Levels

variable {nested : Reader Expr} {F : Spelling Expr} {c d : Cursor}

/-! ### Arguments and brackets -/

/-- Turns of a comma and an expression are further arguments. -/
private theorem moreArguments_of_repeats (hn : SoundFor nested F) {es : List Expr}
    (h : Repeats (do token ","; skip; nested) c es d) (hc : NoBlank c.rest) :
    ∃ s fs, MoreArguments F s fs ∧ c.Leads s d ∧ es = fs c.offset ∧ NoBlank d.rest := by
  induction h with
  | stop _ => exact ⟨[], _, .nil, Cursor.leads_nil_iff.mpr rfl, rfl, hc⟩
  | @turn c e d a as hturn _ _ ih =>
      simp only [found_bind, Option.bind_eq_some_iff, Prod.exists, found_skip,
        Option.some.injEq, Prod.mk.injEq] at hturn
      obtain ⟨_, c₁, hcomma, _, c₂, ⟨-, rfl⟩, hnested⟩ := hturn
      have hcomma' : c.Leads [','] c₁ := (found_token_iff hc).mp hcomma
      obtain ⟨w, hw, hopen, hskip⟩ := leads_open_skip hcomma'
      obtain ⟨x, f, hx, hlead, rfl, hblank⟩ := hn hskip hnested
      obtain ⟨xs, fs, hxs, hlead', rfl, hblank'⟩ := ih hblank
      refine ⟨_, _, .cons hw hx hxs, hopen.trans (hlead.trans hlead'), ?_, hblank'⟩
      rw [hlead.offset, hopen.offset]

/-- A further argument takes its comma at least. -/
private theorem advances_moreArguments (hn : SoundFor nested F) :
    (do token ","; skip; nested : Reader Expr).Advances := by
  intro c a d h
  simp only [found_bind, Option.bind_eq_some_iff, Prod.exists, token, found_skip,
    Option.some.injEq, Prod.mk.injEq] at h
  obtain ⟨_, c₁, ⟨_, c₂, ⟨-, rfl⟩, hcomma⟩, _, c₃, ⟨-, rfl⟩, hnested⟩ := h
  have hcomma' : (c.dropWhile isSpace).Leads [','] c₁ := found_lit_iff.mp hcomma
  obtain ⟨_, -, -, hskip⟩ := exists_blanks c₁
  obtain ⟨x, _, -, hlead, -, -⟩ := hn hskip hnested
  have hlengths := (c.leads_dropWhile isSpace).length
  have := hcomma'.length
  have := (c₁.leads_dropWhile isSpace).length
  have := hlead.length
  simp only [List.length_singleton] at *
  omega

/-- What is read as a list of expressions is spelled as one. -/
theorem arguments_sound (hn : SoundFor nested F) {es : List Expr} (hc : NoBlank c.rest)
    (h : (arguments nested).found c = some (es, d)) :
    ∃ s fs, ArgumentsSpelling F s fs ∧ c.Leads s d ∧ es = fs c.offset ∧ NoBlank d.rest := by
  rw [arguments, found_bind, found_option, Option.bind_some, found_pure] at h
  simp only [Option.some.injEq, Prod.mk.injEq] at h
  obtain ⟨rfl, rfl⟩ := h
  generalize hitems : found _ c = items
  cases items with
  | none => exact ⟨[], _, .none, Cursor.leads_nil_iff.mpr rfl, rfl, hc⟩
  | some r =>
      simp only [found_bind, Option.bind_eq_some_iff, Prod.exists, found_pure,
        Option.some.injEq] at hitems
      obtain ⟨e, c₁, hfirst, es, c₂, hmany, rfl⟩ := hitems
      obtain ⟨x, f, hx, hlead, rfl, hblank⟩ := hn hc hfirst
      rw [found_many_iff (advances_moreArguments hn)] at hmany
      obtain ⟨xs, fs, hxs, hlead', rfl, hblank'⟩ := moreArguments_of_repeats hn hmany hblank
      refine ⟨_, _, .some hx hxs, hlead.trans hlead', ?_, hblank'⟩
      simp [hlead.offset]

/-- Two brackets, the blanks behind the first one, and what stands between. -/
private theorem brackets_sound {α β : Type} {p : Reader α} {G : Spelling α} {l r : String}
    {x y : Char} {g : α → β} {b : β} (hl : l.toList = [x]) (hr : r.toList = [y])
    (hp : ∀ {c d a}, NoBlank c.rest → p.found c = some (a, d) →
      ∃ s f, G s f ∧ c.Leads s d ∧ a = f c.offset ∧ NoBlank d.rest)
    (h : (do lit l; skip; let a ← p; token r; return g a : Reader β).found c = some (b, d)) :
    ∃ w s f, Blanks w ∧ G s f ∧ c.Leads (x :: w ++ (s ++ [y])) d ∧
      b = g (f (c.offset + utf8Length (x :: w))) := by
  simp only [found_bind, Option.bind_eq_some_iff, Prod.exists, found_skip, found_pure,
    Option.some.injEq, Prod.mk.injEq] at h
  obtain ⟨_, c₁, hopen, _, c₂, ⟨-, rfl⟩, a, c₃, hbody, _, c₄, hclose, rfl, rfl⟩ := h
  have hopen' : c.Leads [x] c₁ := by rw [← hl]; exact found_lit_iff.mp hopen
  obtain ⟨w, hw, hlead, hblank⟩ := leads_open_skip hopen'
  obtain ⟨s, f, hs, hlead', rfl, hblank'⟩ := hp hblank hbody
  have hclose' : c₃.Leads [y] c₄ := by rw [← hr]; exact (found_token_iff hblank').mp hclose
  refine ⟨w, s, f, hw, hs, hlead.trans (hlead'.trans hclose'), ?_⟩
  rw [hlead.offset]

/-! ### Operands -/

/-- A name that no reader of reserved words takes is none of them. -/
private theorem not_mem_reservedWords {n : List Char} (hlead : c.Leads n d)
    (hend : StartsWith (fun x => !isIdentChar x) d.rest) (hbool : boolLiteral.found c = none)
    (hnull : nullLiteral.found c = none) : n ∉ reservedWords := by
  intro hn
  simp only [reservedWords, List.mem_cons, List.not_mem_nil, or_false] at hn
  rcases hn with rfl | rfl | rfl | rfl
  · simp [(found_boolLiteral_iff (b := true)).mpr ⟨hlead, hend⟩] at hbool
  · simp [(found_boolLiteral_iff (b := false)).mpr ⟨hlead, hend⟩] at hbool
  · simp [found_nullLiteral_iff.mpr ⟨.inl hlead, hend⟩] at hnull
  · simp [found_nullLiteral_iff.mpr ⟨.inr hlead, hend⟩] at hnull

/-- **What is read as a primary is spelled as one.** -/
theorem primary_sound (hn : SoundFor nested F) {e : Expr}
    (h : (primary nested).found c = some (e, d)) :
    ∃ s f, PrimarySpelling F s f ∧ c.Leads s d ∧ e = f c.offset := by
  simp only [primary, found_firstOf_cons, found_firstOf_nil, Option.or_none,
    Option.or_eq_some_iff, found_literal_iff, found_literal_eq_none_iff] at h
  have hliteral {s : List Char} {v : Value} (hs : AtomSpelling s v) (hlead : c.Leads s d) :
      ∃ s f, PrimarySpelling F s f ∧ c.Leads s d ∧
        Expr.literal v ⟨c.offset, d.offset⟩ = f c.offset :=
    ⟨s, _, .literal hs, hlead, by rw [hlead.span]⟩
  rcases h with h | ⟨-, h | ⟨-, h | ⟨hbool, h | ⟨hnull, h | ⟨-, h | ⟨-, h⟩⟩⟩⟩⟩⟩
  · obtain ⟨x, hnumber, rfl⟩ := h
    obtain ⟨s, hs, hlead⟩ := numberSpelling_of_found hnumber
    exact hliteral (.number hs) hlead
  · obtain ⟨v, hstring, rfl⟩ := h
    obtain ⟨q, s, hq, hs, rfl, hlead⟩ := found_string_iff.mp hstring
    exact hliteral (.string hq hs) hlead
  · obtain ⟨b, hword, rfl⟩ := h
    obtain ⟨hlead, -⟩ := found_boolLiteral_iff.mp hword
    cases b with
    | true => exact hliteral .true hlead
    | false => exact hliteral .false hlead
  · obtain ⟨_, hword, rfl⟩ := h
    obtain ⟨hlead | hlead, -⟩ := found_nullLiteral_iff.mp hword
    · exact hliteral .null hlead
    · exact hliteral .undefined hlead
  · simp only [arrayLiteral, found_bind (spanned _), Option.bind_eq_some_iff, Prod.exists,
      found_spanned_iff, found_call, found_pure, Option.some.injEq, Prod.mk.injEq] at h
    obtain ⟨_, _, c₁, ⟨_, h, rfl, rfl⟩, rfl, rfl⟩ := h
    obtain ⟨w, s, f, hw, hs, hlead, rfl⟩ :=
      brackets_sound (x := '[') (y := ']') (g := fun es => es) rfl rfl
        (fun hc => arguments_sound hn hc) h
    exact ⟨_, _, .array hw hs, hlead, by rw [hlead.span]⟩
  · simp only [variableName, found_bind, Option.bind_eq_some_iff, Prod.exists,
      found_spanned_iff, found_pure, Option.some.injEq, Prod.mk.injEq] at h
    obtain ⟨_, _, c₁, ⟨v, hname, rfl, rfl⟩, rfl, rfl⟩ := h
    obtain ⟨n, hn, rfl, hlead, hend⟩ := found_identifier_iff.mp hname
    exact ⟨n, _, .name hn (not_mem_reservedWords hlead hend hbool hnull), hlead,
      by rw [hlead.span]⟩
  · obtain ⟨w, s, f, hw, hs, hlead, rfl⟩ :=
      brackets_sound (x := '(') (y := ')') (g := fun e => e) rfl rfl hn h
    exact ⟨_, _, .parenthesised hw hs, hlead, rfl⟩

/-- **What is read as a suffix is spelled as one**, and takes something. -/
theorem suffix_sound (hn : SoundFor nested F) {a : Suffix}
    (h : (suffix nested).found c = some (a, d)) :
    ∃ s f, SuffixSpelling F s f ∧ s ≠ [] ∧ c.Leads s d ∧ a = f c.offset := by
  simp only [suffix, found_firstOf_cons, found_firstOf_nil, Option.or_none,
    Option.or_eq_some_iff, found_call] at h
  rcases h with h | ⟨-, h | ⟨-, h⟩⟩
  · simp only [found_bind, Option.bind_eq_some_iff, Prod.exists, found_skip, found_pure,
      Option.some.injEq, Prod.mk.injEq] at h
    obtain ⟨_, c₁, hpoint, _, c₂, ⟨-, rfl⟩, v, c₃, hname, rfl, rfl⟩ := h
    have hpoint' : c.Leads ['.'] c₁ := found_lit_iff.mp hpoint
    obtain ⟨w, hw, hlead, -⟩ := leads_open_skip hpoint'
    obtain ⟨n, hn', rfl, hlead', -⟩ := found_identifier_iff.mp hname
    exact ⟨_, _, .member hw hn', by simp, hlead.trans hlead', rfl⟩
  · obtain ⟨w, s, f, hw, hs, hlead, rfl⟩ :=
      brackets_sound (x := '[') (y := ']') (g := Suffix.index) rfl rfl hn h
    exact ⟨_, _, .index hw hs, by simp, hlead, rfl⟩
  · obtain ⟨w, s, f, hw, hs, hlead, rfl⟩ :=
      brackets_sound (x := '(') (y := ')') (g := Suffix.call) rfl rfl
        (fun hc => arguments_sound hn hc) h
    exact ⟨_, _, .call hw hs, by simp, hlead, rfl⟩

/-! ### Repetitions behind blanks

Each turn of a repetition first skips blanks, so its turns are joined at the places *behind* the
blanks, and the last turn leaves the blanks behind it to whoever comes next. -/

/-- A repetition whose turns skip blanks first. -/
private theorem advances_skip {α : Type} {p : Reader α}
    (h : ∀ {c a d}, NoBlank c.rest → p.found c = some (a, d) → ∃ s, s ≠ [] ∧ c.Leads s d) :
    (do skip; p : Reader α).Advances := by
  intro c a d hfound
  rw [found_bind, found_skip, Option.bind_some] at hfound
  obtain ⟨w, -, hskip, hblank⟩ := exists_blanks c
  obtain ⟨s, hne, hlead⟩ := h hblank hfound
  have hpos := List.length_pos_iff.mpr hne
  have := hskip.length
  have := hlead.length
  omega

/-- With a suffix behind it, an operand stops where its suffixes do. -/
theorem operandStop_cons (bare : Nat) (a : Suffix × Span) (l : List (Suffix × Span)) :
    operandStop bare (a :: l) = operandStop a.2.stop l := by
  rw [operandStop, List.getLast?_cons, operandStop]
  cases l.getLast? <;> rfl

/-- Turns of a suffix are suffixes, and the last one tells where the operand stops. -/
private theorem suffixes_of_repeats (hn : SoundFor nested F) {l : List (Suffix × Span)}
    (h : Repeats (do skip; spanned (suffix nested)) c l d) :
    ∃ z fs, SuffixesSpelling F z fs ∧
      (c.dropWhile isSpace).Leads z (d.dropWhile isSpace) ∧
      l = fs (c.dropWhile isSpace).offset ∧ d.offset = operandStop c.offset l := by
  induction h with
  | stop _ => exact ⟨[], _, .nil, Cursor.leads_nil_iff.mpr rfl, rfl, rfl⟩
  | @turn c e d a l hturn _ _ ih =>
      rw [found_bind, found_skip, Option.bind_some, found_spanned_iff] at hturn
      obtain ⟨a, hsuffix, rfl⟩ := hturn
      obtain ⟨x, f, hx, -, hlead, rfl⟩ := suffix_sound hn hsuffix
      obtain ⟨w, hw, hskip, -⟩ := exists_blanks e
      obtain ⟨z, fs, hz, hlead', rfl, hstop⟩ := ih
      refine ⟨_, _, .cons hx hw hz, hlead.trans (hskip.trans hlead'), ?_, ?_⟩
      · rw [← hlead.span, hskip.offset, hlead.offset]
      · rw [operandStop_cons, hstop]

/-- Turns of a prefixed operator are prefixed operators. -/
private theorem prefixes_of_repeats {ops : List UnaryOp}
    (h : Repeats (do skip; unaryOp) c ops d) :
    ∃ x, PrefixesSpelling x ops ∧ (c.dropWhile isSpace).Leads x (d.dropWhile isSpace) := by
  induction h with
  | stop _ => exact ⟨[], .nil, Cursor.leads_nil_iff.mpr rfl⟩
  | @turn c e d op ops hturn _ _ ih =>
      rw [found_bind, found_skip, Option.bind_some] at hturn
      obtain ⟨w, hw, hskip, -⟩ := exists_blanks e
      obtain ⟨x, hx, hlead⟩ := ih
      exact ⟨_, .cons op hw hx, (found_unaryOp_iff.mp hturn).trans (hskip.trans hlead)⟩

/-- A prefixed operator takes its symbol. -/
private theorem advances_unaryOp : (do skip; unaryOp : Reader UnaryOp).Advances :=
  advances_skip fun {_ op _} _ h =>
    ⟨op.symbol.toList, by cases op <;> simp [UnaryOp.symbol], found_unaryOp_iff.mp h⟩

/-- A suffix takes its dot or bracket at least. -/
private theorem advances_suffix (hn : SoundFor nested F) :
    (do skip; spanned (suffix nested) : Reader (Suffix × Span)).Advances :=
  advances_skip fun _ h => by
    obtain ⟨a, hsuffix, -⟩ := found_spanned_iff.mp h
    obtain ⟨s, _, -, hne, hlead, -⟩ := suffix_sound hn hsuffix
    exact ⟨s, hne, hlead⟩

/-- **What is read as an operand is spelled as one.** -/
theorem operand_sound (hn : SoundFor nested F) {e : Expr} (hc : NoBlank c.rest)
    (h : (unary nested).found c = some (e, d)) :
    ∃ s f, OperandSpelling F s f ∧ c.Leads s (d.dropWhile isSpace) ∧ e = f c.offset ∧
      d.rest.length ≤ c.rest.length := by
  simp only [unary, found_bind (spanned _), Option.bind_eq_some_iff, Prod.exists,
    found_spanned_iff, found_call, found_pure, Option.some.injEq, Prod.mk.injEq] at h
  obtain ⟨ops, operand, span, d, ⟨_, _, h, ⟨rfl, rfl⟩, rfl⟩, rfl, rfl⟩ := h
  simp only [found_bind, Option.bind_eq_some_iff, Prod.exists, chain, found_call, found_skip,
    found_pure, Option.some.injEq, Prod.mk.injEq] at h
  obtain ⟨_, c₁, hops, _, _, ⟨-, rfl⟩, _, _, ⟨first, c₂, hfirst, _, _, ⟨-, rfl⟩, l, _, hl, rfl, rfl⟩,
    ⟨rfl, rfl⟩, rfl⟩ := h
  rw [found_many_iff advances_unaryOp] at hops
  rw [found_many_iff (advances_suffix hn)] at hl
  obtain ⟨x, hx, hprefixes⟩ := prefixes_of_repeats hops
  rw [dropWhile_isSpace_of_noBlank hc] at hprefixes
  obtain ⟨y, f, hy, hprimary, rfl⟩ := primary_sound hn hfirst
  obtain ⟨w, hw, hskip, hblank⟩ := exists_blanks c₂
  have hlengths := hl.length_le
  obtain ⟨z, fs, hz, hsuffixes, rfl, hstop⟩ := suffixes_of_repeats hn hl
  rw [dropWhile_isSpace_of_noBlank hblank] at hsuffixes
  refine ⟨_, _, .mk hx hy hw hz, hprefixes.trans (hprimary.trans (hskip.trans hsuffixes)), ?_, ?_⟩
  · simp only [operandTree, hstop, dropWhile_isSpace_of_noBlank hblank, hskip.offset,
      hprimary.offset, hprefixes.offset]
  · have := hprefixes.length
    have := hprimary.length
    have := hskip.length
    omega

/-! ### Sequences and conditionals -/

/-- Turns of an operator and an operand go on behind the first operand. -/
private theorem rest_of_repeats (hn : SoundFor nested F) {l : List (BinaryOp × Expr)}
    (h : Repeats (do skip; let op ← binaryOp; skip; let e ← unary nested; return (op, e)) c l d) :
    ∃ z fs, RestSpelling F z fs ∧ (c.dropWhile isSpace).Leads z (d.dropWhile isSpace) ∧
      l = fs (c.dropWhile isSpace).offset := by
  induction h with
  | stop _ => exact ⟨[], _, .nil, Cursor.leads_nil_iff.mpr rfl, rfl⟩
  | @turn c e d a l hturn _ _ ih =>
      simp only [found_bind, Option.bind_eq_some_iff, Prod.exists, found_skip, found_pure,
        Option.some.injEq, Prod.mk.injEq] at hturn
      obtain ⟨_, _, ⟨-, rfl⟩, op, c₁, hop, _, _, ⟨-, rfl⟩, e, c₂, hoperand, rfl, rfl⟩ := hturn
      obtain ⟨w, hw, hskip, hblank⟩ := exists_blanks c₁
      have hlead := (leads_of_found_binaryOp hop).trans hskip
      obtain ⟨x, f, hx, hlead', rfl, -⟩ := operand_sound hn hblank hoperand
      obtain ⟨z, fs, hz, hlead'', rfl⟩ := ih
      refine ⟨_, _, .cons op hw hx hz, hlead.trans (hlead'.trans hlead''), ?_⟩
      rw [hlead'.offset, hlead.offset]

/-- An operator with its operand takes its symbol at least. -/
private theorem advances_rest (hn : SoundFor nested F) :
    (do skip; let op ← binaryOp; skip; let e ← unary nested; return (op, e) :
      Reader (BinaryOp × Expr)).Advances := by
  intro c a d h
  simp only [found_bind, Option.bind_eq_some_iff, Prod.exists, found_skip, found_pure,
    Option.some.injEq, Prod.mk.injEq] at h
  obtain ⟨_, _, ⟨-, rfl⟩, op, c₁, hop, _, _, ⟨-, rfl⟩, e, c₂, hoperand, rfl, rfl⟩ := h
  obtain ⟨w, -, hskip, hblank⟩ := exists_blanks c₁
  obtain ⟨_, _, -, -, -, hle⟩ := operand_sound hn hblank hoperand
  have hsymbol : 0 < op.symbol.toList.length := by cases op <;> decide
  have := (c.leads_dropWhile isSpace).length
  have := (leads_of_found_binaryOp hop).length
  have := hskip.length
  omega

/-- **What is read as operators and operands is spelled as that.** -/
theorem sequence_sound (hn : SoundFor nested F) {e : Expr} (hc : NoBlank c.rest)
    (h : (binary nested).found c = some (e, d)) :
    ∃ s f, SequenceSpelling F s f ∧ c.Leads s (d.dropWhile isSpace) ∧ e = f c.offset := by
  simp only [binary, found_call, found_bind, Option.bind_eq_some_iff, Prod.exists, found_skip,
    found_pure, Option.some.injEq, Prod.mk.injEq] at h
  obtain ⟨first, c₁, hfirst, _, _, ⟨-, rfl⟩, l, _, hl, rfl, rfl⟩ := h
  obtain ⟨x, f, hx, hlead, rfl, -⟩ := operand_sound hn hc hfirst
  obtain ⟨z, fs, hz, hlead', rfl⟩ := rest_of_repeats hn ((found_many_iff (advances_rest hn)).mp hl)
  have hblank := dropWhile_isSpace_of_noBlank (exists_blanks c₁).choose_spec.2.2
  rw [hblank] at hlead'
  refine ⟨_, _, .mk hx hz, hlead.trans hlead', ?_⟩
  rw [hblank, hlead.offset]

/-- What is read as the branches of a conditional is a question mark, an expression, a colon and an
expression, with blanks before both. -/
private theorem branches_sound (hn : SoundFor nested F) {r : Expr × Expr}
    (h : (branches nested).found c = some (r, d)) :
    ∃ w y w' z g k, Blanks w ∧ F y g ∧ Blanks w' ∧ F z k ∧
      c.Leads ('?' :: w ++ (y ++ (':' :: w' ++ z))) d ∧ NoBlank d.rest ∧
      r = (g (c.offset + utf8Length ('?' :: w)),
        k (c.offset + utf8Length ('?' :: w) + utf8Length y + utf8Length (':' :: w'))) := by
  simp only [branches, found_bind, Option.bind_eq_some_iff, Prod.exists, found_skip, found_pure,
    Option.some.injEq, Prod.mk.injEq] at h
  obtain ⟨_, c₁, hopen, _, _, ⟨-, rfl⟩, yes, c₂, hyes, _, c₃, hcolon, _, _, ⟨-, rfl⟩, no, c₄, hno,
    rfl, rfl⟩ := h
  have hopen' : c.Leads ['?'] c₁ := found_lit_iff.mp hopen
  obtain ⟨w, hw, hlead₁, hblank₁⟩ := leads_open_skip hopen'
  obtain ⟨y, g, hy, hlead₂, rfl, hblank₂⟩ := hn hblank₁ hyes
  have hcolon' : c₂.Leads [':'] c₃ := (found_token_iff hblank₂).mp hcolon
  obtain ⟨w', hw', hlead₃, hblank₃⟩ := leads_open_skip hcolon'
  obtain ⟨z, k, hz, hlead₄, rfl, hblank₄⟩ := hn hblank₃ hno
  refine ⟨w, y, w', z, g, k, hw, hy, hw', hz,
    hlead₁.trans (hlead₂.trans (hlead₃.trans hlead₄)), hblank₄, ?_⟩
  rw [hlead₃.offset, hlead₂.offset, hlead₁.offset]

/-- **What is read as a conditional is spelled as one**, or is an expression without branches. -/
theorem conditional_sound (hn : SoundFor nested F) :
    SoundFor (conditional nested) (ConditionalSpelling F) := by
  intro c d e hc h
  simp only [conditional, found_bind (spanned _), Option.bind_eq_some_iff, Prod.exists,
    found_spanned_iff, found_call, Prod.mk.injEq] at h
  obtain ⟨test, outcome, span, c₁, ⟨_, _, h, ⟨rfl, rfl⟩, rfl⟩, houtcome⟩ := h
  simp only [found_bind, Option.bind_eq_some_iff, Prod.exists, found_skip, found_option, found_pure,
    Option.some.injEq, Prod.mk.injEq] at h
  obtain ⟨test, c₂, htest, _, _, ⟨-, rfl⟩, outcome, c₃, hbranches, ⟨rfl, rfl⟩, rfl⟩ := h
  obtain ⟨x, f, hx, hlead, rfl⟩ := sequence_sound hn hc htest
  generalize hfound : (branches nested).found (c₂.dropWhile isSpace) = found at hbranches
  cases found with
  | none =>
      obtain ⟨rfl, rfl⟩ := hbranches
      simp only [found_pure, Option.some.injEq, Prod.mk.injEq] at houtcome
      obtain ⟨rfl, rfl⟩ := houtcome
      exact ⟨x, f, .sequence hx, hlead, rfl, startsWith_dropWhile isSpace c₂.rest⟩
  | some r =>
      obtain ⟨r, c₄⟩ := r
      obtain ⟨rfl, rfl⟩ := hbranches
      obtain ⟨w, y, w', z, g, k, hw, hy, hw', hz, hlead', hblank, rfl⟩ := branches_sound hn hfound
      simp only [found_pure, Option.some.injEq, Prod.mk.injEq] at houtcome
      obtain ⟨rfl, rfl⟩ := houtcome
      have hwhole := hlead.trans hlead'
      refine ⟨_, _, .conditional hx hw hy hw' hz, hwhole, ?_, hblank⟩
      rw [hwhole.span, hlead.offset]

/-- **What reading an expression takes is one.** -/
theorem exprWithin_sound (deeper : List Char) : SoundFor (exprWithin deeper) ExprSpelling := by
  have htie {nested : Reader Expr} (hn : SoundFor nested ExprSpelling) :
      SoundFor (conditional nested) ExprSpelling := by
    intro c d e hc h
    obtain ⟨s, f, hs, hlead⟩ := conditional_sound hn hc h
    exact ⟨s, f, .of hs, hlead⟩
  induction deeper with
  | nil => exact htie fun _ h => by simp at h
  | cons _ deeper ih => exact htie ih

end Levels

end LineMarkup.Grammar
