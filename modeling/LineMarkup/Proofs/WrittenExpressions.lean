import LineMarkup.Grammar.Template
import LineMarkup.Proofs.ExpressionReading

/-!
# The expressions of a written template

A template in source text holds expressions at every depth: in its own block, in the blocks of side
nodes and in the blocks of attributes.  All of them stand in that text: each was read at some place of
it, and the source that is kept is what was taken there, without the blanks around it.

The grammar of statements is gone through once for this, with a logic of readers.  A judgement says
that a reader which is called somewhere behind `start` stays behind `start`, and that its value has a
property; there is one rule for each way of building a reader.

## Main Definitions

* `Cursor.Reaches` — a cursor further on in the same text
* `Reader.Yields` — the judgement
* `StandsBehind` — an expression that was read somewhere behind a cursor
* `Statement.Every` — a property of all expressions of a statement

## Main Statements

* `every_of_run_template` — the expressions of a written template stand in its text
-/

namespace LineMarkup.Grammar

open Reader

/-- Going past some text leads from one cursor to the other. -/
def Cursor.Reaches (c d : Cursor) : Prop :=
  ∃ s, c.Leads s d

/-- Texts in a row lead from the first cursor to the last. -/
theorem Cursor.Reaches.trans {c d e : Cursor} (h : c.Reaches d) (h' : d.Reaches e) :
    c.Reaches e := by
  obtain ⟨s, hs⟩ := h
  obtain ⟨t, ht⟩ := h'
  exact ⟨s ++ t, hs.trans ht⟩

/-! ### A logic of readers -/

namespace Reader

variable {α β : Type} {start : Cursor} {p : Reader α} {Q : α → Prop} {R : β → Prop}

/-- Called behind `start`, the reader stays behind `start`, and its value has the property. -/
structure Yields (start : Cursor) (p : Reader α) (Q : α → Prop) : Prop where
  found : ∀ {c d : Cursor} {a : α}, start.Reaches c → p.found c = some (a, d) →
    start.Reaches d ∧ Q a

namespace Yields

/-- A reader that goes past what it takes stays behind. -/
theorem of_leads (h : ∀ {c d : Cursor} {a : α}, p.found c = some (a, d) → ∃ s, c.Leads s d) :
    Yields start p fun _ => True := by
  refine ⟨fun {c d a} hc hp => ?_⟩
  exact ⟨hc.trans (h hp), trivial⟩

theorem fail : Yields start (fail : Reader α) Q := by
  refine ⟨fun {c d a} _ hp => ?_⟩
  simp at hp

theorem pure {a : α} (ha : Q a) : Yields start (pure a : Reader α) Q := by
  refine ⟨fun {c d b} hc hp => ?_⟩
  rw [found_pure, Option.some.injEq, Prod.mk.injEq] at hp
  obtain ⟨rfl, rfl⟩ := hp
  exact ⟨hc, ha⟩

/-- Two readers in a row: the property of the first value is known to the second reader. -/
theorem bind {q : α → Reader β} (hp : Yields start p Q) (hq : ∀ a, Q a → Yields start (q a) R) :
    Yields start (p >>= q) R := by
  refine ⟨fun {c d b} hc h => ?_⟩
  rw [found_bind, Option.bind_eq_some_iff] at h
  obtain ⟨⟨a, e⟩, ha, hb⟩ := h
  have hmid := hp.found hc ha
  exact (hq a hmid.2).found hmid.1 hb

/-- Noting the call of a rule changes nothing that is found. -/
theorem call {rule : Rule} (hp : Yields start p Q) : Yields start (call rule p) Q := by
  refine ⟨fun {c d a} hc h => ?_⟩
  rw [found_call] at h
  exact hp.found hc h

/-- The value of an optional part has the property if it is there. -/
theorem option (hp : Yields start p Q) : Yields start p.option fun found => ∀ a ∈ found, Q a := by
  refine ⟨fun {c d found} hc h => ?_⟩
  rw [found_option] at h
  cases hfound : p.found c with
  | none =>
      rw [hfound, Option.elim_none, Option.some.injEq, Prod.mk.injEq] at h
      obtain ⟨rfl, rfl⟩ := h
      exact ⟨hc, fun a ha => absurd ha (by simp)⟩
  | some r =>
      rw [hfound, Option.elim_some, Option.some.injEq, Prod.mk.injEq] at h
      obtain ⟨rfl, rfl⟩ := h
      have hr := hp.found hc hfound
      refine ⟨hr.1, fun a ha => ?_⟩
      obtain rfl := Option.some.inj ha
      exact hr.2

/-- Alternatives yield what each of them yields. -/
theorem firstOf {ps : List (Reader α)} (hps : ∀ p ∈ ps, Yields start p Q) :
    Yields start (firstOf ps) Q := by
  refine ⟨fun {c d a} hc h => ?_⟩
  obtain ⟨p, hp, hfound⟩ := exists_mem_of_found_firstOf h
  exact (hps p hp).found hc hfound

/-- Every turn starts where the one before it ended, so all of them are behind `start`. -/
theorem many (hp : Yields start p Q) : Yields start p.many fun as => ∀ a ∈ as, Q a := by
  have hwithin : ∀ turns : List Char, Yields start (manyWithin p turns) fun as => ∀ a ∈ as, Q a := by
    intro turns
    induction turns with
    | nil =>
        refine .bind hp.option fun found hfound => .pure fun a ha => hfound a ?_
        simpa using ha
    | cons _ turns ih =>
        refine .bind hp.option fun found hfound => ?_
        cases found with
        | none => exact .pure fun a ha => absurd ha (by simp)
        | some a => exact .bind ih fun as has => .pure (List.forall_mem_cons.mpr ⟨hfound a rfl, has⟩)
  -- The bound on the turns is what is left at the cursor, which the judgement does not fix.
  refine ⟨fun {c d as} hc h => ?_⟩
  exact (hwithin c.rest).found hc h

theorem lit {text : String} : Yields start (lit text) fun _ => True :=
  .of_leads fun h => ⟨_, found_lit_iff.mp h⟩

theorem skip : Yields start skip fun _ => True := by
  refine .of_leads fun {c d _} h => ?_
  rw [found_skip, Option.some.injEq, Prod.mk.injEq] at h
  obtain ⟨-, rfl⟩ := h
  exact ⟨_, c.leads_dropWhile isSpace⟩

theorem token {text : String} : Yields start (token text) fun _ => True :=
  .bind .skip fun _ _ => .lit

theorem word {text : String} {value : α} : Yields start (word text value) fun _ => True :=
  .bind .lit fun _ _ => .pure trivial

/-- An alternative yields what both readers yield. -/
theorem orElse {q : Reader α} (hp : Yields start p Q) (hq : Yields start q Q) :
    Yields start (p.orElse q) Q := by
  refine ⟨fun {c d a} hc h => ?_⟩
  rw [found_orElse, Option.or_eq_some_iff] at h
  rcases h with h | ⟨-, h⟩
  · exact hp.found hc h
  · exact hq.found hc h

theorem string : Yields start string fun _ => True := by
  refine .of_leads fun h => ?_
  obtain ⟨q, s, -, -, -, hlead⟩ := found_string_iff.mp h
  exact ⟨_, hlead⟩

end Yields

end Reader

/-! ### Statements -/

/-- An expression that was read somewhere behind `start`: the tree that was read there, and the text
that was taken, without the blanks around it. -/
def StandsBehind (start : Cursor) (source : String) (e : Expr) : Prop :=
  ∃ c s d, start.Reaches c ∧ NoBlank c.rest ∧ c.Leads s d ∧ expr.found c = some (e, d) ∧
    source = String.ofList (Text.trimList s)

/-- A property of all expressions of a statement, at every depth: of the source that is kept of each
and of the tree that was read in its place. -/
inductive Statement.Every (P : String → Expr → Prop) : Statement → Prop where
  | text (s : String) : Every P (.text s)
  | code {source : String} {e : Expr} {sides : List (List Statement)} : P source e →
      (∀ b ∈ sides, ∀ s ∈ b, Every P s) → Every P (.code source e sides)
  | attr {name : String} {body : List Statement} : (∀ s ∈ body, Every P s) →
      Every P (.attr name body)

/-- A property may be replaced by a weaker one. -/
theorem Statement.Every.mono {P Q : String → Expr → Prop} {s : Statement} (h : s.Every P)
    (sub : ∀ source e, P source e → Q source e) : s.Every Q := by
  induction h with
  | text s => exact .text s
  | code hP _ ih => exact .code (sub _ _ hP) ih
  | attr _ ih => exact .attr ih

section Statements

variable {start : Cursor} {nested : Reader (List Statement)}

/-- Blocks whose expressions all stand behind `start`. -/
abbrev BlockStands (start : Cursor) (b : List Statement) : Prop :=
  ∀ s ∈ b, s.Every (StandsBehind start)

/-- An expression behind blanks.  Its reader is known only where no blank stands, so skipping the
blanks cannot be a step of its own here. -/
private theorem yields_sourcedExpr {β : Type} {q : String × Expr → Reader β} {R : β → Prop}
    (hq : ∀ r : String × Expr, StandsBehind start r.1 r.2 → Yields start (q r) R) :
    Yields start (do skip; let r ← sourcedExpr; q r) R := by
  refine ⟨fun {c d b} hc h => ?_⟩
  obtain ⟨w, -, hblanks, hblank⟩ := exists_blanks c
  rw [found_bind, found_skip, Option.bind_some, found_bind, Option.bind_eq_some_iff] at h
  obtain ⟨⟨r, d'⟩, hr, hb⟩ := h
  simp only [sourcedExpr, found_bind, found_place, Option.bind_some, Option.bind_eq_some_iff,
    Prod.exists, found_pure, Option.some.injEq, Prod.mk.injEq] at hr
  obtain ⟨e, _, hexpr, rfl, rfl⟩ := hr
  obtain ⟨s, f, -, hlead, -, -⟩ := exprWithin_sound _ hblank hexpr
  have hc' : start.Reaches (c.dropWhile isSpace) := hc.trans ⟨w, hblanks⟩
  have hstands : StandsBehind start (String.ofList (Text.trimList s)) e :=
    ⟨_, s, _, hc', hblank, hlead, hexpr, rfl⟩
  rw [hlead.textTo] at hb
  exact (hq _ hstands).found (hc'.trans ⟨s, hlead⟩) hb

/-- There are no expressions in the statement of a text. -/
private theorem yields_writeText : Yields start writeText (Statement.Every (StandsBehind start)) := by
  unfold writeText
  refine .call (.bind .lit fun _ _ => .bind .skip fun _ _ => .bind .string fun s _ => ?_)
  exact .bind .token fun _ _ => .pure (.text s)

/-- The expressions of side nodes are those of their blocks. -/
private theorem yields_sideNodes (hn : Yields start nested (BlockStands start)) :
    Yields start (sideNodes nested) fun blocks => ∀ b ∈ blocks, BlockStands start b := by
  unfold sideNodes
  refine .call (.bind .lit fun _ _ => .bind .skip fun _ _ => .bind hn fun first hfirst => ?_)
  refine .bind (.many (.bind .skip fun _ _ => hn)) fun others hothers => ?_
  exact .pure (List.forall_mem_cons.mpr ⟨hfirst, hothers⟩)

/-- The statement of an expression has been read behind the start, and so have its side nodes. -/
private theorem yields_writeCode (hn : Yields start nested (BlockStands start)) :
    Yields start (writeCode nested) (Statement.Every (StandsBehind start)) := by
  unfold writeCode
  refine .call (.bind .lit fun _ _ => .bind .token fun _ _ => yields_sourcedExpr fun r hr => ?_)
  refine .bind .token fun _ _ => .bind .skip fun _ _ => ?_
  refine .bind (yields_sideNodes hn).option fun sides hsides => .bind .token fun _ _ => ?_
  refine .pure (.code hr fun b hb => ?_)
  cases sides with
  | none => simp at hb
  | some blocks => exact hsides blocks rfl b hb

/-- The expressions of an attribute are those of its block. -/
private theorem yields_attrBlock (hn : Yields start nested (BlockStands start)) :
    Yields start (attrBlock nested) (Statement.Every (StandsBehind start)) := by
  unfold attrBlock
  refine .call (.bind .lit fun _ _ => .bind .skip fun _ _ => .bind .string fun name _ => ?_)
  exact .bind .skip fun _ _ => .bind hn fun body hbody => .pure (.attr hbody)

/-- The expressions of a block are those of its statements. -/
private theorem yields_blockOf (hn : Yields start nested (BlockStands start)) :
    Yields start (blockOf nested) (BlockStands start) := by
  have hstatement : Yields start (firstOf [writeText, writeCode nested, attrBlock nested])
      (Statement.Every (StandsBehind start)) := by
    refine .firstOf fun p hp => ?_
    simp only [List.mem_cons, List.not_mem_nil, or_false] at hp
    rcases hp with rfl | rfl | rfl
    · exact yields_writeText
    · exact yields_writeCode hn
    · exact yields_attrBlock hn
  unfold blockOf
  refine .call (.bind .lit fun _ _ => .bind (.many (.bind .skip fun _ _ => hstatement)) ?_)
  exact fun statements hstatements => .bind .token fun _ _ => .pure hstatements

/-- Blocks nested at any depth, by induction on the bound of the nesting. -/
private theorem yields_block : Yields start block (BlockStands start) := by
  have hwithin : ∀ deeper : List Char, Yields start (blockWithin deeper) (BlockStands start) := by
    intro deeper
    induction deeper with
    | nil => exact yields_blockOf .fail
    | cons _ deeper ih => exact yields_blockOf ih
  refine ⟨fun {c d b} hc h => ?_⟩
  exact (hwithin c.rest).found hc h

private theorem yields_header : Yields start header fun _ => True := by
  have hmode : Yields start localsMode fun _ => True := .call (.orElse .word .word)
  unfold header
  refine .call (.bind .lit fun _ _ => .bind .token fun _ _ => .bind .token fun _ _ => ?_)
  refine .bind .token fun _ _ => .bind .skip fun _ _ => .bind hmode fun _ _ => ?_
  refine .bind .token fun _ _ => .bind .token fun _ _ => .bind .token fun _ _ => ?_
  refine .bind .skip fun _ _ => .bind .string fun _ _ => ?_
  exact .bind .token fun _ _ => .pure trivial

/-- **The expressions of a written template stand in its text.** -/
theorem every_of_run_template {text : String} {written : WrittenTemplate}
    (h : template.run text = .ok written) :
    ∀ s ∈ written.body, s.Every (StandsBehind (.ofString text)) := by
  have hend : Yields (.ofString text) (call .endOfInput atEnd) fun _ => True := by
    refine .call (.of_leads fun {c d _} hfound => ?_)
    rw [found_atEnd] at hfound
    split at hfound
    · rw [Option.some.injEq, Prod.mk.injEq] at hfound
      exact ⟨[], Cursor.leads_nil_iff.mpr hfound.2.symm⟩
    · simp at hfound
  have htemplate : Yields (.ofString text) template
      fun written => BlockStands (.ofString text) written.body := by
    unfold template
    refine .call (.bind .skip fun _ _ => .bind yields_header fun _ _ => .bind .skip fun _ _ => ?_)
    refine .bind yields_block fun body hbody => .bind .skip fun _ _ => ?_
    exact .bind hend fun _ _ => .pure hbody
  obtain ⟨d, hfound⟩ := run_eq_ok_iff.mp h
  exact (htemplate.found ⟨[], Cursor.leads_nil_iff.mpr rfl⟩ hfound).2

end Statements

end LineMarkup.Grammar
