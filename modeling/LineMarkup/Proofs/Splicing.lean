import LineMarkup.Proofs.ExpressionEnds
import LineMarkup.Proofs.WrittenExpressions
import LineMarkup.Template

/-!
# Expressions alone and in place

A template in source text holds its expressions between parentheses, and its program takes each of
them from a second reading of the expression's own text.  Both readings agree.

In one direction, a text that is an expression by itself is taken whole in front of a parenthesis,
whatever follows: an expression ends where its spelling ends, and no attempt to go on beyond that point
changes what was read.  In the other, what was taken in place is a spelling, and a spelling says the
same at any offset and without the blanks around it.

So the second reading never fails, and source text stands for a template exactly if the grammar of
templates takes it.

## Main Definitions

* `StandsIn` — an expression at its place in a text

## Main Statements

* `StandsBehind.parse` — what was read in place is read alone
* `Program.exists_addStatements` — statements whose expressions can be read make a program
* `expr_alone_and_in_place` — both readings agree, and only the first can fail
-/

namespace LineMarkup

namespace Grammar

open Reader

/-- An expression at its place in a text: somewhere behind `before` the text `s` was taken for it, and
its source is `s` without the blanks around it. -/
def StandsIn (text source : String) (inPlace : Expr) : Prop :=
  ∃ before s after, text.toList = before ++ (s ++ after) ∧
    source = String.ofList (Text.trimList s) ∧
    expr.found ⟨s ++ after, utf8Length before⟩ =
      some (inPlace, ⟨after, utf8Length before + utf8Length s⟩)

/-- What stands behind the start of a text stands in that text. -/
theorem StandsBehind.standsIn {text source : String} {e : Expr}
    (h : StandsBehind (.ofString text) source e) : StandsIn text source e := by
  obtain ⟨c, s, d, ⟨before, hbefore⟩, -, hlead, hexpr, hsource⟩ := h
  have htext : text.toList = before ++ (s ++ d.rest) := by
    rw [← hlead.rest]
    exact hbefore.rest
  have hplace : c.offset = utf8Length before := by
    rw [hbefore.offset]
    exact Nat.zero_add _
  have hc : c = ⟨s ++ d.rest, utf8Length before⟩ := by
    rw [← hlead.rest, ← hplace]
  have hd : d = ⟨d.rest, utf8Length before + utf8Length s⟩ := by
    rw [← hplace, ← hlead.offset]
  refine ⟨before, s, d.rest, htext, hsource, ?_⟩
  rw [← hc, ← hd]
  exact hexpr

/-- **What was read in place is read alone**, with the same tree but for its places. -/
theorem StandsBehind.parse {start : Cursor} {source : String} {e : Expr}
    (h : StandsBehind start source e) :
    ∃ e', Expr.parse source = .ok e' ∧ e'.unplaced = e.unplaced := by
  obtain ⟨c, s, d, -, hblank, hlead, hexpr, rfl⟩ := h
  obtain ⟨t, f, ht, hlead', rfl, -⟩ := exprWithin_sound c.rest hblank hexpr
  have hst : s = t := by rw [← hlead.textTo, hlead'.textTo]
  obtain ⟨e', hparse, he'⟩ := ht.parse_trim
  rw [hst]
  exact ⟨e', hparse, he' c.offset⟩

/-- **What is read alone is taken whole in place**, up to the parenthesis behind it. -/
theorem found_expr_of_parse {s : String} {e : Expr} (htrim : Text.trim s = s)
    (hparse : Expr.parse s = .ok e) (after : List Char) (o : Nat) :
    ∃ e', expr.found ⟨s.toList ++ ')' :: after, o⟩ =
        some (e', ⟨')' :: after, o + utf8Length s.toList⟩) ∧
      e'.unplaced = e.unplaced ∧ (o = 0 → e' = e) := by
  obtain ⟨f, hf, rfl⟩ := exprSpelling_of_parse htrim hparse
  have hclose : StartsWith closesExpr (')' :: after) := startsWith_cons.mpr (by decide)
  have hlead : Cursor.Leads ⟨s.toList ++ ')' :: after, o⟩ s.toList
      ⟨')' :: after, o + utf8Length s.toList⟩ := ⟨rfl, rfl⟩
  have hexpr := (found_expr_iff (noBlank_of_opens hf.opens) hclose).mpr ⟨_, f, hf, hlead, rfl⟩
  refine ⟨f o, hexpr, ExprSpelling.steady hf _ _, ?_⟩
  rintro rfl
  rfl

end Grammar

/-! ### Programs of statements -/

namespace Program

open Grammar

/-- The source of an expression can be read. -/
abbrev Readable (source : String) (_ : Expr) : Prop :=
  ∃ e, Expr.parse source = .ok e

mutual

/-- **Statements whose expressions can be read make a program.** -/
theorem exists_addStatements : (stmts : List Statement) → (∀ s ∈ stmts, s.Every Readable) →
    ∀ p : Program, ∃ q, p.addStatements stmts = .ok q
  | [], _, p => by
      rw [addStatements]
      exact ⟨p, rfl⟩
  | .text s :: rest, h, p => by
      rw [addStatements]
      exact exists_addStatements rest (List.forall_mem_cons.mp h).2 _
  | .code source _ sides :: rest, h, p => by
      rw [List.forall_mem_cons] at h
      cases h.1 with
      | code hread hsides =>
          obtain ⟨e, he⟩ := hread
          obtain ⟨programs, hprograms⟩ := exists_ofBlocks sides hsides
          rw [addStatements, he, hprograms]
          exact exists_addStatements rest h.2 _
  | .attr name body :: rest, h, p => by
      rw [List.forall_mem_cons] at h
      cases h.1 with
      | attr hbody =>
          obtain ⟨value, hvalue⟩ := exists_addStatements body hbody []
          rw [addStatements, hvalue]
          exact exists_addStatements rest h.2 _

theorem exists_ofBlocks : (blocks : List (List Statement)) →
    (∀ b ∈ blocks, ∀ s ∈ b, s.Every Readable) → ∃ programs, ofBlocks blocks = .ok programs
  | [], _ => by
      rw [ofBlocks]
      exact ⟨[], rfl⟩
  | b :: blocks, h => by
      rw [List.forall_mem_cons] at h
      obtain ⟨p, hp⟩ := exists_addStatements b h.1 []
      obtain ⟨programs, hprograms⟩ := exists_ofBlocks blocks h.2
      rw [ofBlocks, hp, hprograms]
      exact ⟨p :: programs, rfl⟩

end

theorem exists_ofStatements {text : String} {written : WrittenTemplate}
    (h : template.run text = .ok written) : ∃ p, Program.ofStatements written.body = .ok p := by
  refine exists_addStatements written.body (fun s hs => ?_) []
  refine (every_of_run_template h s hs).mono fun source e hstands => ?_
  obtain ⟨e', hparse, -⟩ := hstands.parse
  exact ⟨e', hparse⟩

end Program

/-! ### Both readings -/

namespace Grammar

/-- **Expressions are the same alone and in place.**  A text without blanks at its ends that is an
expression by itself is taken whole in front of a parenthesis.  Conversely, wherever a template holds
an expression, its source is an expression by itself.  The trees are the same but for their places.  So
a template can be made of every text that the grammar of templates takes. -/
theorem expr_alone_and_in_place :
    (∀ {s : String} {e : Expr}, Text.trim s = s → Expr.parse s = .ok e →
      ∀ (after : List Char) (o : Nat), ∃ e',
        expr.found ⟨s.toList ++ ')' :: after, o⟩ =
            some (e', ⟨')' :: after, o + utf8Length s.toList⟩) ∧
          e'.unplaced = e.unplaced ∧ (o = 0 → e' = e)) ∧
      (∀ {text : String} {written : WrittenTemplate}, template.run text = .ok written →
        (∀ s ∈ written.body, s.Every fun source inPlace => StandsIn text source inPlace ∧
          ∃ e, Expr.parse source = .ok e ∧ e.unplaced = inPlace.unplaced) ∧
        ∃ p, Program.ofStatements written.body = .ok p) ∧
      ∀ (text : String) (host : Option Host),
        (∃ t, Template.ofSource text host = .ok t) ↔ ∃ written, template.run text = .ok written := by
  refine ⟨found_expr_of_parse, fun {text written} h => ⟨fun s hs => ?_, ?_⟩, fun text host => ?_⟩
  · refine (every_of_run_template h s hs).mono fun source e hstands => ?_
    exact ⟨hstands.standsIn, hstands.parse⟩
  · exact Program.exists_ofStatements h
  · -- Beyond the grammar there is one step that could fail, the reading of the sources.
    unfold Template.ofSource
    constructor
    · rintro ⟨t, ht⟩
      cases hrun : template.run text with
      | error e =>
          rw [hrun] at ht
          cases ht
      | ok written => exact ⟨written, rfl⟩
    · rintro ⟨written, hrun⟩
      obtain ⟨p, hp⟩ := Program.exists_ofStatements hrun
      rw [hrun]
      show ∃ t, (Program.ofStatements written.body >>= fun program => _) = .ok t
      rw [hp]
      exact ⟨_, rfl⟩

/-- A parenthesis in a text and one behind the expression, and a template with an expression in its
own block, one in a side node and one in an attribute. -/
theorem expr_alone_and_in_place_nested :
    (Text.trim "a ? f(\"(\") : [b]" = "a ? f(\"(\") : [b]" ∧
      ∃ e e', Expr.parse "a ? f(\"(\") : [b]" = .ok e ∧
        expr.found ⟨"a ? f(\"(\") : [b]".toList ++ ')' :: ") \"".toList, 7⟩ =
            some (e', ⟨')' :: ") \"".toList, 7 + utf8Length "a ? f(\"(\") : [b]".toList⟩) ∧
          e'.unplaced = e.unplaced) ∧
      ∃ written, template.run ("render(locals: flat, runtime: \"r\") \x7bwrite ( a ? -b .c : [ d ]\n )" ++
          " with \x7b write ((x)); \x7d; attr \"k\" \x7b write (y\t(1 )); \x7d \x7d") = .ok written ∧
        ∃ p, Program.ofStatements written.body = .ok p := by
  have htrim : Text.trim "a ? f(\"(\") : [b]" = "a ? f(\"(\") : [b]" := by decide +kernel
  obtain ⟨e, hparse⟩ := exists_ok_of_isOk (x := Expr.parse "a ? f(\"(\") : [b]") (by decide +kernel)
  obtain ⟨written, hrun⟩ := exists_ok_of_isOk (x := template.run
    ("render(locals: flat, runtime: \"r\") \x7bwrite ( a ? -b .c : [ d ]\n )" ++
      " with \x7b write ((x)); \x7d; attr \"k\" \x7b write (y\t(1 )); \x7d \x7d")) (by decide +kernel)
  refine ⟨⟨htrim, ?_⟩, ?_⟩
  · obtain ⟨e', hfound, hplaces, -⟩ := expr_alone_and_in_place.1 htrim hparse ") \"".toList 7
    exact ⟨e, e', hparse, hfound, hplaces⟩
  · exact ⟨written, hrun, (expr_alone_and_in_place.2.1 hrun).2⟩

end Grammar

end LineMarkup
