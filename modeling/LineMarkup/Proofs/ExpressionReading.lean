import LineMarkup.Proofs.ExpressionCompleteness

/-!
# Reading expressions

Soundness and completeness meet: wherever an expression may end, reading takes exactly the spelled
ones, and a whole text is read as an expression exactly if it is blanks and then a spelled one.

Reading does not look behind an expression.  So a text that is an expression by itself is also taken
in front of a closing parenthesis, with the same parts at shifted places.

## Main Statements

* `found_expr_iff` — an expression inside a longer text
* `Reader.run_eq_ok_iff` — a whole text
* `parse_eq_ok_iff` — an expression that is the whole text
-/

namespace LineMarkup.Grammar

open Reader

/-- **An expression inside a longer text.** -/
theorem found_expr_iff {c d : Cursor} {e : Expr} (hc : NoBlank c.rest)
    (hd : StartsWith closesExpr d.rest) :
    expr.found c = some (e, d) ↔ ∃ s f, ExprSpelling s f ∧ c.Leads s d ∧ e = f c.offset := by
  constructor
  · intro h
    obtain ⟨s, f, hs, hlead, he, -⟩ := exprWithin_sound c.rest hc h
    exact ⟨s, f, hs, hlead, he⟩
  · rintro ⟨s, f, hs, hlead, rfl⟩
    refine (exprWithin_complete c.rest).taken hs ?_ hlead hd
    rw [hlead.length]
    exact Nat.le_add_right _ _

theorem Reader.run_eq_ok_iff {α : Type} {p : Reader α} {source : String} {a : α} :
    p.run source = .ok a ↔ ∃ d, p.found (.ofString source) = some (a, d) := by
  simp only [run, found]
  cases (p (.ofString source)).found? with
  | none => simp
  | some r => simp [Prod.ext_iff]

/-- **A text is read as an expression exactly if it is blanks and then one.** -/
theorem parse_eq_ok_iff {source : String} {e : Expr} :
    Expr.parse source = .ok e ↔
      ∃ w s f, Blanks w ∧ ExprSpelling s f ∧ source.toList = w ++ s ∧ e = f (utf8Length w) := by
  rw [Expr.parse, run_eq_ok_iff]
  simp only [expression, found_call, found_bind, found_skip, found_atEnd, Option.bind_some]
  constructor
  · rintro ⟨d, h⟩
    obtain ⟨w, hw, hlead, hblank⟩ := exists_blanks (.ofString source)
    rw [Option.bind_eq_some_iff] at h
    obtain ⟨⟨e', d'⟩, hexpr, hend⟩ := h
    obtain ⟨s, f, hs, hlead', rfl, hblank'⟩ := exprWithin_sound _ hblank hexpr
    rw [dropWhile_isSpace_of_noBlank hblank'] at hend
    by_cases hrest : d'.rest = []
    · rw [if_pos hrest, Option.bind_some, found_pure, Option.some.injEq, Prod.mk.injEq] at hend
      refine ⟨w, s, f, hw, hs, ?_, ?_⟩
      · have := (hlead.trans hlead').rest
        rwa [hrest, List.append_nil] at this
      · rw [← hend.1, hlead.offset]
        simp [Cursor.ofString]
    · rw [if_neg hrest] at hend
      simp at hend
  · rintro ⟨w, s, f, hw, hs, hsource, rfl⟩
    have hlead : Cursor.Leads (.ofString source) (w ++ s) ⟨[], utf8Length (w ++ s)⟩ :=
      ⟨by simp [Cursor.ofString, hsource], by simp [Cursor.ofString]⟩
    obtain ⟨c, hblanks, hbody⟩ := Cursor.leads_append_iff.mp hlead
    have hblank : NoBlank c.rest :=
      (hbody.startsWith hs.opens).mono fun _ => not_isSpace_of_opensOperand
    have hexpr := (found_expr_iff hblank startsWith_nil).mpr ⟨s, f, hs, hbody, rfl⟩
    refine ⟨⟨[], utf8Length (w ++ s)⟩, ?_⟩
    rw [dropWhile_isSpace_eq hblanks hw hblank, hexpr, Option.bind_some,
      dropWhile_isSpace_of_noBlank startsWith_nil, if_pos rfl, Option.bind_some, found_pure,
      hblanks.offset]
    simp [Cursor.ofString]

end LineMarkup.Grammar
