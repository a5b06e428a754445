import LineMarkup.Proofs.SourceReading
import LineMarkup.Proofs.WrittenExpressions
import LineMarkup.Template

/-!
# Templates survive their source text

A template comes from a tree or from source text, and either way its program is faithful.  So the
source text of a template that exists is read as that template again, and it is rendered alike.

What reading source text adds to a program is faithful because the reader keeps each source without
the blanks around it and because the program takes its tree from that very source.

## Main Definitions

* `Template.Exists` — the templates that there are
* `Statement.Trimmed` — statements whose sources have no blanks at their ends

## Main Statements

* `Template.Exists.faithful` — the program of a template that exists is faithful
* `Template.ofSource_toSource` — templates survive their source text
-/

namespace LineMarkup

namespace Grammar

open Reader Program

variable {c d : Cursor}

/-! ### Written templates are read back -/

theorem found_localsMode {mode : LocalsMode} (h : c.Leads mode.word.toList d) :
    localsMode.found c = some (mode, d) := by
  simp only [localsMode, found_call, found_orElse, modeWord]
  cases mode with
  | flat => rw [found_word_iff.mpr ⟨rfl, h⟩, Option.some_or]
  | grouped =>
      have hflat : (word LocalsMode.flat.word LocalsMode.flat).found c = none := by
        refine found_word_eq_none ?_
        rw [h.rest]
        simp [LocalsMode.word]
      rw [hflat, found_word_iff.mpr ⟨rfl, h⟩, Option.none_or]

private theorem found_header {mode : LocalsMode} {hostName : String}
    (h : c.Leads ("render(locals: ".toList ++ (mode.word.toList ++ (", runtime: ".toList ++
      (Text.Quoted.encode hostName.toList ++ [')'])))) d) :
    header.found c = some ((mode, hostName), d) := by
  have hspace : Blanks [' '] := by simp [Blanks, isSpace]
  have h' : c.Leads ("render".toList ++ (([] ++ "(".toList) ++ (([] ++ "locals".toList) ++
      (([] ++ ":".toList) ++ ([' '] ++ (mode.word.toList ++ (([] ++ ",".toList) ++
        (([' '] ++ "runtime".toList) ++ (([] ++ ":".toList) ++ ([' '] ++
          (Text.Quoted.encode hostName.toList ++ ([] ++ ")".toList)))))))))))) d := by
    simpa using h
  obtain ⟨c₁, hrender, h⟩ := Cursor.leads_append_iff.mp h'
  obtain ⟨c₂, hopen, h⟩ := Cursor.leads_append_iff.mp h
  obtain ⟨c₃, hlocals, h⟩ := Cursor.leads_append_iff.mp h
  obtain ⟨c₄, hcolon, h⟩ := Cursor.leads_append_iff.mp h
  obtain ⟨c₅, hblank, h⟩ := Cursor.leads_append_iff.mp h
  obtain ⟨c₆, hmode, h⟩ := Cursor.leads_append_iff.mp h
  obtain ⟨c₇, hcomma, h⟩ := Cursor.leads_append_iff.mp h
  obtain ⟨c₈, hruntime, h⟩ := Cursor.leads_append_iff.mp h
  obtain ⟨c₉, hcolon', h⟩ := Cursor.leads_append_iff.mp h
  obtain ⟨c₁₀, hblank', h⟩ := Cursor.leads_append_iff.mp h
  obtain ⟨c₁₁, hname, hclose⟩ := Cursor.leads_append_iff.mp h
  have hskip : c₄.dropWhile isSpace = c₅ := dropWhile_isSpace_eq hblank hspace (by
    rw [hmode.rest]
    cases mode <;> simp [LocalsMode.word, isSpace])
  have hskip' : c₉.dropWhile isSpace = c₁₀ := dropWhile_isSpace_eq hblank' hspace (by
    rw [hname.rest, Text.Quoted.encode]
    simp [isSpace])
  have hrender' : (lit "render").found c = some ((), c₁) := found_lit_iff.mpr hrender
  have hopen' : (token "(").found c₁ = some ((), c₂) :=
    found_token hopen blanks_nil (opens_cons_iff.mpr rfl)
  have hlocals' : (token "locals").found c₂ = some ((), c₃) :=
    found_token hlocals blanks_nil (opens_cons_iff.mpr rfl)
  have hcolon₁ : (token ":").found c₃ = some ((), c₄) :=
    found_token hcolon blanks_nil (opens_cons_iff.mpr rfl)
  have hcomma' : (token ",").found c₆ = some ((), c₇) :=
    found_token hcomma blanks_nil (opens_cons_iff.mpr rfl)
  have hruntime' : (token "runtime").found c₇ = some ((), c₈) :=
    found_token hruntime hspace (opens_cons_iff.mpr rfl)
  have hcolon₂ : (token ":").found c₈ = some ((), c₉) :=
    found_token hcolon' blanks_nil (opens_cons_iff.mpr rfl)
  have hclose' : (token ")").found c₁₁ = some ((), d) :=
    found_token hclose blanks_nil (opens_cons_iff.mpr rfl)
  simp only [header, found_call, found_bind, hrender', hopen', hlocals', hcolon₁, found_skip,
    hskip, found_localsMode hmode, hcomma', hruntime', hcolon₂, hskip',
    found_string_of_encode hname, hclose', Option.bind_some, found_pure, String.ofList_toList]

/-- A written template at the end of a text. -/
private theorem found_template_of_write {p : Program} (hp : p.Faithful) {mode : LocalsMode}
    {hostName : String} (h : c.Leads (p.write mode hostName) d) (hd : d.rest = []) :
    ∃ body, template.found c = some (⟨mode, hostName, body⟩, d) ∧ Adds body p := by
  have hclose : ") ".toList = [')'] ++ [' '] := by simp
  have hwrite : p.write mode hostName = "render(locals: ".toList ++ mode.word.toList ++
      ", runtime: ".toList ++ Text.Quoted.encode hostName.toList ++ ") ".toList ++
        braces 0 (writeSegments 0 p) := rfl
  have hsource : p.write mode hostName =
      ("render(locals: ".toList ++ (mode.word.toList ++ (", runtime: ".toList ++
        (Text.Quoted.encode hostName.toList ++ [')'])))) ++
          ([' '] ++ braces 0 (writeSegments 0 p)) := by
    rw [hwrite, hclose]
    simp only [List.append_assoc]
  rw [hsource] at h
  obtain ⟨c₁, hheader, h⟩ := Cursor.leads_append_iff.mp h
  obtain ⟨c₂, hspace, hblock⟩ := Cursor.leads_append_iff.mp h
  have hstart : NoBlank c.rest := by
    rw [hheader.rest]
    simp [isSpace]
  have hbrace : NoBlank c₂.rest := by
    rw [hblock.rest]
    simp [braces, isSpace]
  have hskip : c₁.dropWhile isSpace = c₂ :=
    dropWhile_isSpace_eq hspace (by simp [Blanks, isSpace]) hbrace
  have hend : d.dropWhile isSpace = d := dropWhile_isSpace_of_noBlank (by rw [hd]; simp)
  obtain ⟨body, hfound, hadds⟩ := found_block_of_write hp hblock
  refine ⟨body, ?_, hadds⟩
  simp only [template, found_call, found_bind, found_skip, dropWhile_isSpace_of_noBlank hstart,
    found_header hheader, hskip, hfound, hend, Option.bind_some, found_atEnd, hd, if_true,
    found_pure]

/-- **A written template is read back.** -/
theorem run_template_of_write {p : Program} (hp : p.Faithful) (mode : LocalsMode)
    (hostName : String) :
    ∃ body, template.run (String.ofList (p.write mode hostName)) = .ok ⟨mode, hostName, body⟩ ∧
      Adds body p := by
  have hlead : Cursor.Leads (.ofString (String.ofList (p.write mode hostName)))
      (p.write mode hostName) ⟨[], utf8Length (p.write mode hostName)⟩ :=
    ⟨by simp [Cursor.ofString], by simp [Cursor.ofString]⟩
  obtain ⟨body, hfound, hadds⟩ := found_template_of_write hp hlead rfl
  exact ⟨body, run_eq_ok_iff.mpr ⟨_, hfound⟩, hadds⟩

/-! ### What is read is faithful -/

/-- The sources in a statement have no blanks at their ends, at every depth. -/
inductive Statement.Trimmed : Statement → Prop where
  | text (s : String) : Trimmed (.text s)
  | code {source : String} {e : Expr} {sides : List (List Statement)} :
      Text.trim source = source → (∀ b ∈ sides, ∀ s ∈ b, Trimmed s) → Trimmed (.code source e sides)
  | attr {name : String} {body : List Statement} : (∀ s ∈ body, Trimmed s) →
      Trimmed (.attr name body)

theorem StandsBehind.trim_eq {start : Cursor} {source : String} {e : Expr}
    (h : StandsBehind start source e) : Text.trim source = source := by
  obtain ⟨_, _, _, _, _, _, _, rfl⟩ := h
  rw [Text.trim, String.toList_ofList, Text.trimList_trimList]

theorem Statement.Every.trimmed {s : Statement}
    (h : s.Every fun source _ => Text.trim source = source) : s.Trimmed := by
  induction h with
  | text s => exact .text s
  | code htrim _ ih => exact .code htrim ih
  | attr _ ih => exact .attr ih

/-- **Templates are read with trimmed sources.** -/
theorem trimmed_of_run_template {source : String} {written : WrittenTemplate}
    (h : template.run source = .ok written) : ∀ s ∈ written.body, s.Trimmed := by
  intro s hs
  exact ((every_of_run_template h s hs).mono fun _ _ hstands => hstands.trim_eq).trimmed

end Grammar

namespace Program

open Grammar

mutual

/-- **Adding statements with trimmed sources keeps a program faithful.** -/
theorem Faithful.addStatements : (stmts : List Statement) → {p q : Program} → p.Faithful →
    (∀ s ∈ stmts, s.Trimmed) → p.addStatements stmts = .ok q → q.Faithful
  | [], _, _, hp, _, h => by
      rw [Program.addStatements] at h
      cases h
      exact hp
  | .text s :: rest, _, _, hp, ht, h => by
      rw [Program.addStatements] at h
      exact Faithful.addStatements rest (hp.push (.text s))
        (fun s hs => ht s (List.mem_cons_of_mem _ hs)) h
  | .code source e sides :: rest, _, _, hp, ht, h => by
      -- The tree is read once more from the source: the one that reading the text made is not used.
      rw [Program.addStatements] at h
      obtain ⟨e', hparse, h⟩ := bind_eq_ok_iff.mp h
      obtain ⟨programs, hprograms, h⟩ := bind_eq_ok_iff.mp h
      rw [List.forall_mem_cons] at ht
      cases ht.1 with
      | code htrim hsides =>
          have hfaithful := faithful_ofBlocks sides hsides hprograms
          have hseg : Segment.Faithful (.code source e' programs) :=
            .code htrim hparse (fun p hp => (hfaithful p hp).normal)
              fun p hp => (hfaithful p hp).segments
          exact Faithful.addStatements rest (hp.push hseg) ht.2 h
  | .attr name body :: rest, _, _, hp, ht, h => by
      rw [Program.addStatements] at h
      obtain ⟨value, hvalue, h⟩ := bind_eq_ok_iff.mp h
      rw [List.forall_mem_cons] at ht
      cases ht.1 with
      | attr hbody =>
          have hfaithful := Faithful.addStatements body .nil hbody hvalue
          exact Faithful.addStatements rest
            (hp.push (.attr hfaithful.normal hfaithful.segments)) ht.2 h

theorem faithful_ofBlocks : (blocks : List (List Statement)) → {programs : List Program} →
    (∀ b ∈ blocks, ∀ s ∈ b, s.Trimmed) → ofBlocks blocks = .ok programs →
    ∀ p ∈ programs, p.Faithful
  | [], _, _, h => by
      rw [ofBlocks] at h
      cases h
      exact fun p hp => by simp at hp
  | b :: blocks, _, ht, h => by
      rw [ofBlocks] at h
      obtain ⟨p, hp, h⟩ := bind_eq_ok_iff.mp h
      obtain ⟨others, hothers, h⟩ := bind_eq_ok_iff.mp h
      cases h
      rw [List.forall_mem_cons] at ht
      exact List.forall_mem_cons.mpr
        ⟨Faithful.addStatements b .nil ht.1 hp, faithful_ofBlocks blocks ht.2 hothers⟩

end

end Program

/-! ### Templates -/

namespace Template

/-- The templates that there are: laid out from a tree, or read from source text. -/
inductive Exists : Template → Prop where
  | ofNodes {t : Template} {nodes : List Node} {settings : Settings} :
      Template.ofNodes nodes settings = .ok t → Exists t
  | ofSource {t : Template} {source : String} {host : Option Host} :
      Template.ofSource source host = .ok t → Exists t

/-- The program of a template that exists is faithful. -/
theorem Exists.faithful {t : Template} (h : t.Exists) : t.program.Faithful := by
  cases h with
  | @ofNodes nodes settings h =>
      rw [Template.ofNodes] at h
      split at h
      · simp at h
      · obtain ⟨program, hprogram, h⟩ := bind_eq_ok_iff.mp h
        cases h
        exact Layout.program_faithful hprogram
  | @ofSource source host h =>
      rw [Template.ofSource] at h
      obtain ⟨written, hwritten, h⟩ := bind_eq_ok_iff.mp h
      obtain ⟨program, hprogram, h⟩ := bind_eq_ok_iff.mp h
      cases h
      exact .addStatements written.body .nil (Grammar.trimmed_of_run_template hwritten) hprogram

/-- **Templates survive their source text.**  The source text of a template that exists is read,
whatever host comes with it, as a template with the same program, way to address locals and name of
the host.  So it has the same source text, and with the same host it is rendered alike. -/
theorem ofSource_toSource {t : Template} (h : t.Exists) (host : Option Host) :
    ∃ loaded, Template.ofSource t.toSource host = .ok loaded ∧
      loaded.program = t.program ∧ loaded.mode = t.mode ∧ loaded.hostName = t.hostName ∧
      loaded.toSource = t.toSource ∧
      (host = t.host → ∀ locals, loaded.render locals = t.render locals) := by
  have hfaithful := h.faithful
  obtain ⟨body, hrun, hadds⟩ := Grammar.run_template_of_write hfaithful t.mode t.hostName
  have hprogram : Program.ofStatements body = .ok t.program := by
    rw [Program.ofStatements, hadds []]
    exact congrArg Except.ok hfaithful.normal.ofSegments_eq
  refine ⟨⟨t.program, t.mode, t.hostName, host⟩, ?_, rfl, rfl, rfl, rfl, ?_⟩
  · rw [Template.ofSource, toSource, hrun]
    show (Program.ofStatements body >>= fun program => _) = _
    rw [hprogram]
    rfl
  · rintro rfl locals
    rfl

/-- A tag with an attribute that is only known when rendered, and an expression with a side node. -/
theorem ofSource_toSource_side_node :
    ∃ t, Template.ofNodes
        [.tag "p" (some (.cons "on" [.code "a" none] .nil))
          (some [.code " a ? b : 1" (some [.text "\n\"x\""])])] {} = .ok t ∧
      t.Exists ∧ ∃ loaded, Template.ofSource t.toSource none = .ok loaded ∧
        loaded.program = t.program ∧ loaded.mode = t.mode ∧ loaded.hostName = t.hostName ∧
        loaded.toSource = t.toSource ∧
        (none = t.host → ∀ locals, loaded.render locals = t.render locals) := by
  have hok : (Template.ofNodes [.tag "p" (some (.cons "on" [.code "a" none] .nil))
      (some [.code " a ? b : 1" (some [.text "\n\"x\""])])] {}).isOk = true := by
    decide +kernel
  generalize hnodes : Template.ofNodes _ _ = result at hok
  cases result with
  | error e => simp [Except.isOk, Except.toBool] at hok
  | ok t => exact ⟨t, rfl, .ofNodes hnodes, ofSource_toSource (.ofNodes hnodes) none⟩

end Template

end LineMarkup
