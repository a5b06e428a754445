import LineMarkup.Grammar.Template
import LineMarkup.Program.Read
import LineMarkup.Program.Write
import LineMarkup.Proofs.ExpressionReading
import LineMarkup.Proofs.ProgramFaithful

/-!
# Written blocks are read back

The block that a faithful program is written as is read as statements, and adding those statements
to any program appends the program that was written.

Statements also hold the trees that were read in place, with offsets into the whole source.  Nothing
is said about them: a program takes its trees from a second reading of each source by itself, so the
statements that are read back are known by what they add, not by what they are.

## Main Definitions

* `Adds` — statements that add a program
* `BlocksTaken` — what is asked of the reader for nested blocks

## Main Statements

* `found_sourcedExpr` — the source of an expression is taken whole in front of a parenthesis
* `found_block_of_write` — a written block is read back
-/

namespace LineMarkup

/-! ### Equations of writing -/

namespace Program

/-- The statement of a text. -/
theorem writeSegment_text (depth : Nat) (s : String) :
    writeSegment depth (.text s) =
      "write ".toList ++ Text.Quoted.encode s.toList ++ [';'] := by
  rw [writeSegment.eq_def]

/-- The statement of an expression, with the blocks of its side nodes. -/
theorem writeSegment_code (depth : Nat) (source : String) (e : Expr) (sides : List Program) :
    writeSegment depth (.code source e sides) =
      "write (".toList ++ source.toList ++ [')'] ++ writeSides depth sides ++ [';'] := by
  rw [writeSegment.eq_def]

/-- The statement of an attribute, with the block of its value. -/
theorem writeSegment_attr (depth : Nat) (name : String) (value : Program) :
    writeSegment depth (.attr name value) =
      "attr ".toList ++ Text.Quoted.encode name.toList ++
        ' ' :: braces depth (writeSegments depth value) := by
  rw [writeSegment.eq_def]

theorem writeSides_nil (depth : Nat) : writeSides depth [] = [] := by
  rw [writeSides.eq_def]

/-- The first block of side nodes stands behind its word, the others behind blanks. -/
theorem writeSides_cons (depth : Nat) (p : Program) (rest : List Program) :
    writeSides depth (p :: rest) =
      " with ".toList ++ braces depth (writeSegments depth p) ++ writeMoreSides depth rest := by
  rw [writeSides.eq_def]

end Program

namespace Grammar

open Reader Program

variable {c d : Cursor}

/-! ### Sources of expressions -/

/-- The blanks between tokens are blanks. -/
theorem isBlank_of_isSpace {x : Char} (h : isSpace x = true) : Text.isBlank x = true := by
  simp only [isSpace, Bool.or_eq_true, beq_iff_eq] at h
  obtain ((rfl | rfl) | rfl) | rfl := h <;> decide

/-- No blanks stand at the start of a text that is the same without the blanks at its ends. -/
theorem leading_blanks_eq_nil {source : String} {w s : List Char} (htrim : Text.trim source = source)
    (hsource : source.toList = w ++ s) (hw : Blanks w) : w = [] := by
  have hfirst := Text.head?_trimList source.toList
  have htrim' : Text.trimList source.toList = source.toList := by
    have := congrArg String.toList htrim
    rwa [Text.trim, String.toList_ofList] at this
  cases w with
  | nil => rfl
  | cons x w =>
      rw [htrim', hsource] at hfirst
      have hblank := isBlank_of_isSpace (hw x List.mem_cons_self)
      rw [hfirst x rfl] at hblank
      simp at hblank

/-- A source without blanks at its ends that is read by itself is an expression from its start. -/
theorem exprSpelling_of_parse {source : String} {e : Expr} (htrim : Text.trim source = source)
    (h : Expr.parse source = .ok e) : ∃ f, ExprSpelling source.toList f ∧ e = f 0 := by
  obtain ⟨w, s, f, hw, hs, hsource, rfl⟩ := parse_eq_ok_iff.mp h
  obtain rfl := leading_blanks_eq_nil htrim hsource hw
  exact ⟨f, by rwa [hsource], rfl⟩

/-- **The source of an expression is taken whole**, and kept as it is. -/
theorem found_sourcedExpr {source : String} {e : Expr} (htrim : Text.trim source = source)
    (h : Expr.parse source = .ok e) (hlead : c.Leads source.toList d)
    (hd : StartsWith closesExpr d.rest) :
    NoBlank c.rest ∧ ∃ e', sourcedExpr.found c = some ((source, e'), d) := by
  obtain ⟨f, hf, -⟩ := exprSpelling_of_parse htrim h
  have hblank : NoBlank c.rest :=
    (hlead.startsWith hf.opens).mono fun _ => not_isSpace_of_opensOperand
  have hexpr := (found_expr_iff hblank hd).mpr ⟨_, f, hf, hlead, rfl⟩
  refine ⟨hblank, f c.offset, ?_⟩
  simp only [sourcedExpr, found_bind, found_place, hexpr, Option.bind_some, found_pure,
    hlead.textTo]
  rw [Text.trim] at htrim
  rw [htrim]

/-! ### Statements -/

/-- Statements that add a program to whatever stands before it. -/
def Adds (statements : List Statement) (p : Program) : Prop :=
  ∀ q, addStatements q statements = .ok (q.append p)

/-- Blocks that add programs, each by itself. -/
def AddsEach (blocks : List (List Statement)) (programs : List Program) : Prop :=
  ofBlocks blocks = .ok programs

theorem Adds.nil : Adds [] [] := fun q => by rw [addStatements, append_nil]

theorem AddsEach.nil : AddsEach [] [] := by rw [AddsEach, ofBlocks]

/-- A block more adds a program more, if the program is merged already. -/
theorem AddsEach.cons {b : List Statement} {p : Program} {bs : List (List Statement)}
    {ps : List Program} (hb : Adds b p) (hp : p.Normal) (hbs : AddsEach bs ps) :
    AddsEach (b :: bs) (p :: ps) := by
  have hp' := hp.ofSegments_eq
  rw [ofSegments] at hp'
  rw [AddsEach] at hbs ⊢
  rw [ofBlocks, hb, hp', hbs]
  rfl

/-- A statement that adds a segment. -/
def AddsSegment (statement : Statement) (seg : Segment) : Prop :=
  ∀ {rest : List Statement} {p : Program}, Adds rest p → Adds (statement :: rest) (seg :: p)

/-- The statement of a text adds that text. -/
theorem addsSegment_text (s : String) : AddsSegment (.text s) (.text s) := by
  intro rest p h q
  rw [addStatements, h]
  rfl

/-- The statement of an expression adds what its source is read as by itself. -/
theorem addsSegment_code {source : String} {e e' : Expr} {blocks : List (List Statement)}
    {sides : List Program} (h : Expr.parse source = .ok e) (hsides : AddsEach blocks sides) :
    AddsSegment (.code source e' blocks) (.code source e sides) := by
  intro rest p hrest q
  rw [AddsEach] at hsides
  rw [addStatements, h, hsides]
  exact hrest _

/-- The statement of an attribute adds it with the program of its block. -/
theorem addsSegment_attr {name : String} {body : List Statement} {value : Program}
    (h : Adds body value) (hvalue : value.Normal) :
    AddsSegment (.attr name body) (.attr name value) := by
  intro rest p hrest q
  have hvalue' := hvalue.ofSegments_eq
  rw [ofSegments] at hvalue'
  rw [addStatements, h, hvalue']
  exact hrest _

/-! ### Reading statements -/

/-- A given text and the blanks behind it. -/
private theorem lit_skip {text : String} {w : List Char} (h : c.Leads (text.toList ++ w) d)
    (hw : Blanks w) (hd : NoBlank d.rest) :
    ∃ e, (lit text).found c = some ((), e) ∧ e.dropWhile isSpace = d := by
  obtain ⟨e, htext, hlead⟩ := Cursor.leads_append_iff.mp h
  exact ⟨e, found_lit_iff.mpr htext, dropWhile_isSpace_eq hlead hw hd⟩

/-- A token behind blanks. -/
theorem found_token {text : String} {w : List Char} (h : c.Leads (w ++ text.toList) d)
    (hw : Blanks w) (htext : Opens (fun x => !isSpace x) text.toList) :
    (token text).found c = some ((), d) := by
  obtain ⟨e, hlead, htoken⟩ := Cursor.leads_append_iff.mp h
  rw [token, found_bind, found_skip, dropWhile_isSpace_eq hlead hw (htoken.startsWith htext),
    Option.bind_some]
  exact found_lit_iff.mpr htoken

/-- The blocks of a template's text of at most `n` characters are read back. -/
structure BlocksTaken (nested : Reader (List Statement)) (n : Nat) : Prop where
  taken : ∀ {p : Program} {depth : Nat} {c d : Cursor}, p.Faithful →
    (braces depth (writeSegments depth p)).length ≤ n →
    c.Leads (braces depth (writeSegments depth p)) d →
    ∃ statements, nested.found c = some (statements, d) ∧ Adds statements p
  missed : ∀ {c : Cursor}, StartsWith (fun x => x != '\x7b') c.rest → nested.found c = none

private theorem blanks_space : Blanks [' '] := by
  simp [Blanks, isSpace]

/-- The indentation of a statement is skipped. -/
theorem blanks_margin (depth : Nat) : Blanks (margin depth) := by
  intro x hx
  rw [List.eq_of_mem_replicate hx]
  rfl

/-- A block opens with its brace. -/
private theorem braces_opens (depth : Nat) (statements : List Char) :
    Opens (fun x => x == '\x7b') (braces depth statements) :=
  opens_cons_iff.mpr rfl

/-- A written text opens with its quotation mark. -/
private theorem encode_opens (cs : List Char) :
    Opens (fun x => x == '"') (Text.Quoted.encode cs) :=
  opens_cons_iff.mpr rfl

/-- Where a known character stands that is no blank, nothing is skipped. -/
private theorem noBlank_of_eq {x : Char} (hx : isSpace x = false) {t : List Char}
    (h : StartsWith (fun y => y == x) t) : NoBlank t :=
  h.mono fun y hy => by rw [eq_of_beq hy, hx]; rfl

/-- The statement of a text is read back. -/
theorem found_writeText {depth : Nat} {s : String}
    (h : c.Leads (writeSegment depth (.text s)) d) :
    writeText.found c = some (.text s, d) := by
  rw [writeSegment_text, List.append_assoc] at h
  obtain ⟨c₁, hwrite, h⟩ := Cursor.leads_append_iff.mp h
  obtain ⟨c₂, hstring, hend⟩ := Cursor.leads_append_iff.mp h
  have hblank := noBlank_of_eq rfl (hstring.startsWith (encode_opens s.toList))
  have hwrite' : c.Leads ("write".toList ++ [' ']) c₁ := by simpa using hwrite
  obtain ⟨e, hlit, hskip⟩ := lit_skip hwrite' blanks_space hblank
  have hsemicolon : (token ";").found c₂ = some ((), d) :=
    found_token (w := []) hend (by simp [Blanks]) (opens_cons_iff.mpr rfl)
  simp only [writeText, found_call, found_bind, hlit, found_skip, hskip,
    found_string_of_encode hstring, hsemicolon, Option.bind_some, found_pure,
    String.ofList_toList]

section

variable {nested : Reader (List Statement)} {n : Nat}

/-- Further blocks of side nodes are read back one by one. -/
private theorem moreSides_repeats (hn : BlocksTaken nested n) {depth : Nat} :
    ∀ {sides : List Program} {c : Cursor}, (∀ p ∈ sides, p.Faithful) →
      (writeMoreSides depth sides).length ≤ n → c.Leads (writeMoreSides depth sides) d →
      StartsWith (fun x => x == ';') d.rest →
      ∃ blocks, Repeats (do skip; nested) c blocks d ∧ AddsEach blocks sides := by
  intro sides
  induction sides with
  | nil =>
      intro c _ _ hlead hend
      rw [writeMoreSides] at hlead
      obtain rfl := Cursor.leads_nil_iff.mp hlead
      refine ⟨[], .stop ?_, .nil⟩
      rw [found_bind, found_skip, Option.bind_some,
        dropWhile_isSpace_of_noBlank (noBlank_of_eq rfl hend)]
      exact hn.missed (hend.mono fun x hx => by rw [eq_of_beq hx]; rfl)
  | cons p sides ih =>
      intro c hsides hlength hlead hend
      rw [writeMoreSides] at hlength hlead
      rw [List.length_cons, List.length_append] at hlength
      rw [List.forall_mem_cons] at hsides
      obtain ⟨c₁, hspace, hlead⟩ := Cursor.leads_cons_iff.mp hlead
      obtain ⟨c₂, hblock, hmore⟩ := Cursor.leads_append_iff.mp hlead
      have hblank := noBlank_of_eq rfl (hblock.startsWith (braces_opens _ _))
      have hskip := dropWhile_isSpace_eq hspace blanks_space hblank
      obtain ⟨b, hfound, hb⟩ := hn.taken hsides.1 (by omega) hblock
      obtain ⟨blocks, hrepeats, hblocks⟩ := ih hsides.2 (by omega) hmore hend
      have hturn : (do skip; nested : Reader (List Statement)).found c = some (b, c₂) := by
        rw [found_bind, found_skip, Option.bind_some, hskip, hfound]
      refine ⟨b :: blocks, .turn hturn ?_ hrepeats, AddsEach.cons hb hsides.1.normal hblocks⟩
      have hlength₁ := hspace.length
      have hlength₂ := hblock.length
      rw [List.length_singleton] at hlength₁
      omega

/-- What stands behind the parenthesis of an expression, up to the end of the statement. -/
private theorem sides_taken (hn : BlocksTaken nested n) {depth : Nat} {sides : List Program}
    (hsides : ∀ p ∈ sides, p.Faithful) (hlength : (writeSides depth sides).length ≤ n)
    (hlead : c.Leads (writeSides depth sides) d) (hend : StartsWith (fun x => x == ';') d.rest) :
    ∃ blocks, (option (sideNodes nested)).found (c.dropWhile isSpace) = some (blocks, d) ∧
      AddsEach (blocks.getD []) sides := by
  have hblank := noBlank_of_eq rfl hend
  cases sides with
  | nil =>
      -- Without side nodes there is no word `with`, and reading the option takes nothing.
      rw [writeSides_nil] at hlead
      obtain rfl := Cursor.leads_nil_iff.mp hlead
      refine ⟨none, ?_, .nil⟩
      rw [dropWhile_isSpace_of_noBlank hblank, found_option, sideNodes, found_call, found_bind,
        found_lit_eq_none_of_startsWith "with" rfl
          (hend.mono fun x hx => by rw [eq_of_beq hx]; rfl)]
      rfl
  | cons p sides =>
      rw [writeSides_cons] at hlength hlead
      rw [List.length_append, List.length_append] at hlength
      rw [List.forall_mem_cons] at hsides
      rw [List.append_assoc] at hlead
      obtain ⟨c₁, hwith, hlead⟩ := Cursor.leads_append_iff.mp hlead
      obtain ⟨c₂, hblock, hmore⟩ := Cursor.leads_append_iff.mp hlead
      have hwith' : c.Leads ([' '] ++ ("with".toList ++ [' '])) c₁ := by simpa using hwith
      obtain ⟨c₀, hspace, hwith⟩ := Cursor.leads_append_iff.mp hwith'
      have hblank₁ := noBlank_of_eq rfl (hblock.startsWith (braces_opens _ _))
      have hblank₀ : NoBlank c₀.rest := by
        rw [hwith.rest]
        simp [isSpace]
      have hskip := dropWhile_isSpace_eq hspace blanks_space hblank₀
      obtain ⟨e, hlit, hskip'⟩ := lit_skip hwith blanks_space hblank₁
      obtain ⟨b, hfound, hb⟩ := hn.taken hsides.1 (by omega) hblock
      obtain ⟨blocks, hrepeats, hblocks⟩ := moreSides_repeats hn hsides.2 (by omega) hmore hend
      refine ⟨some (b :: blocks), ?_, AddsEach.cons hb hsides.1.normal hblocks⟩
      simp only [found_option, sideNodes, found_call, found_bind, hskip, hlit, found_skip, hskip',
        hfound, found_many_of_repeats hrepeats, Option.bind_some, found_pure, Option.elim_some]

/-- The statement of an expression is read back, with what the expression's source says. -/
theorem found_writeCode (hn : BlocksTaken nested n) {depth : Nat} {source : String} {e : Expr}
    {sides : List Program} (htrim : Text.trim source = source) (hparse : Expr.parse source = .ok e)
    (hsides : ∀ p ∈ sides, p.Faithful)
    (hlength : (writeSegment depth (.code source e sides)).length ≤ n)
    (h : c.Leads (writeSegment depth (.code source e sides)) d) :
    ∃ statement, (writeCode nested).found c = some (statement, d) ∧
      AddsSegment statement (.code source e sides) := by
  rw [writeSegment_code] at hlength h
  simp only [List.length_append] at hlength
  simp only [List.append_assoc] at h
  obtain ⟨c₁, hopen, h⟩ := Cursor.leads_append_iff.mp h
  obtain ⟨c₂, hsource, h⟩ := Cursor.leads_append_iff.mp h
  obtain ⟨c₃, hclose, h⟩ := Cursor.leads_append_iff.mp h
  obtain ⟨c₄, hwith, hend⟩ := Cursor.leads_append_iff.mp h
  have hparenthesis : StartsWith closesExpr c₂.rest := by
    rw [hclose.rest]
    exact startsWith_cons.mpr (by decide)
  have hsemicolon : StartsWith (fun x => x == ';') c₄.rest := by
    rw [hend.rest]
    exact startsWith_cons.mpr rfl
  obtain ⟨hblank, e', hexpr⟩ := found_sourcedExpr htrim hparse hsource hparenthesis
  obtain ⟨blocks, hfound, hblocks⟩ := sides_taken hn hsides (by omega) hwith hsemicolon
  have hopen' : c.Leads ("write".toList ++ ([' '] ++ "(".toList)) c₁ := by simpa using hopen
  obtain ⟨c₀, hwrite, hopen⟩ := Cursor.leads_append_iff.mp hopen'
  have hlit : (lit "write").found c = some ((), c₀) := found_lit_iff.mpr hwrite
  have hopen'' : (token "(").found c₀ = some ((), c₁) :=
    found_token hopen blanks_space (opens_cons_iff.mpr rfl)
  have hclose' : (token ")").found c₂ = some ((), c₃) :=
    found_token (w := []) hclose (by simp [Blanks]) (opens_cons_iff.mpr rfl)
  have hend' : (token ";").found c₄ = some ((), d) :=
    found_token (w := []) hend (by simp [Blanks]) (opens_cons_iff.mpr rfl)
  refine ⟨.code source e' (blocks.getD []), ?_, addsSegment_code hparse hblocks⟩
  simp only [writeCode, found_call, found_bind, hlit, hopen'', found_skip,
    dropWhile_isSpace_of_noBlank hblank, hexpr, hclose', hfound, hend', Option.bind_some,
    found_pure]

/-- The statement of an attribute is read back. -/
theorem found_attrBlock (hn : BlocksTaken nested n) {depth : Nat} {name : String}
    {value : Program} (hvalue : value.Faithful)
    (hlength : (writeSegment depth (.attr name value)).length ≤ n)
    (h : c.Leads (writeSegment depth (.attr name value)) d) :
    ∃ statement, (attrBlock nested).found c = some (statement, d) ∧
      AddsSegment statement (.attr name value) := by
  rw [writeSegment_attr] at hlength h
  simp only [List.length_append, List.length_cons] at hlength
  simp only [List.append_assoc] at h
  obtain ⟨c₁, hattr, h⟩ := Cursor.leads_append_iff.mp h
  obtain ⟨c₂, hname, h⟩ := Cursor.leads_append_iff.mp h
  obtain ⟨c₃, hspace, hblock⟩ := Cursor.leads_cons_iff.mp h
  have hblank₁ := noBlank_of_eq rfl (hname.startsWith (encode_opens name.toList))
  have hblank₃ := noBlank_of_eq rfl (hblock.startsWith (braces_opens _ _))
  have hattr' : c.Leads ("attr".toList ++ [' ']) c₁ := by simpa using hattr
  obtain ⟨e, hlit, hskip⟩ := lit_skip hattr' blanks_space hblank₁
  have hskip' := dropWhile_isSpace_eq hspace blanks_space hblank₃
  obtain ⟨b, hfound, hb⟩ := hn.taken hvalue (by omega) hblock
  refine ⟨.attr name b, ?_, addsSegment_attr hb hvalue.normal⟩
  simp only [attrBlock, found_call, found_bind, hlit, found_skip, hskip,
    found_string_of_encode hname, hskip', hfound, Option.bind_some, found_pure,
    String.ofList_toList]

/-! ### Reading blocks -/

/-- What reads one statement. -/
private def statement (nested : Reader (List Statement)) : Reader Statement :=
  firstOf [writeText, writeCode nested, attrBlock nested]

/-- Another first character rules out the statement of an attribute. -/
private theorem found_attrBlock_eq_none (h : StartsWith (fun x => x != 'a') c.rest) :
    (attrBlock nested).found c = none := by
  rw [attrBlock, found_call, found_bind, found_lit_eq_none_of_startsWith "attr" rfl h]
  rfl

/-- Another first character rules out the two statements that write. -/
private theorem found_write_eq_none (nested : Reader (List Statement))
    (h : StartsWith (fun x => x != 'w') c.rest) :
    writeText.found c = none ∧ (writeCode nested).found c = none := by
  constructor
  · rw [writeText, found_call, found_bind, found_lit_eq_none_of_startsWith "write" rfl h]
    rfl
  · rw [writeCode, found_call, found_bind, found_lit_eq_none_of_startsWith "write" rfl h]
    rfl

/-- An expression is not read as a text: no quote stands behind its first word. -/
private theorem found_writeText_eq_none {s : List Char} (h : c.Leads ("write (".toList ++ s) d) :
    writeText.found c = none := by
  have h' : c.Leads (("write".toList ++ [' ']) ++ ('(' :: s)) d := by simpa using h
  obtain ⟨c₁, hwrite, hrest⟩ := Cursor.leads_append_iff.mp h'
  have hparenthesis : StartsWith (fun x => x == '(') c₁.rest :=
    hrest.startsWith (opens_cons_iff.mpr rfl)
  obtain ⟨e, hlit, hskip⟩ := lit_skip hwrite blanks_space (noBlank_of_eq rfl hparenthesis)
  have hstring : string.found c₁ = none :=
    found_string_eq_none (hparenthesis.mono fun x hx => by rw [eq_of_beq hx]; rfl)
  simp only [writeText, found_call, found_bind, hlit, found_skip, hskip, hstring,
    Option.bind_some, Option.bind_none]

/-- **The statement of a segment is read back**: the alternatives in front of its own find nothing.
-/
private theorem found_statement (hn : BlocksTaken nested n) {depth : Nat} {seg : Segment}
    (hseg : seg.Faithful) (hlength : (writeSegment depth seg).length ≤ n)
    (h : c.Leads (writeSegment depth seg) d) :
    ∃ stmt, (statement nested).found c = some (stmt, d) ∧ AddsSegment stmt seg := by
  simp only [statement, found_firstOf_cons]
  cases hseg with
  | text s =>
      refine ⟨_, ?_, addsSegment_text s⟩
      rw [found_writeText h, Option.some_or]
  | code htrim hparse hnormal hfaithful =>
      obtain ⟨stmt, hfound, hadds⟩ := found_writeCode hn htrim hparse
        (fun p hp => ⟨hnormal p hp, hfaithful p hp⟩) hlength h
      rw [writeSegment_code] at h
      simp only [List.append_assoc] at h
      exact ⟨stmt, by rw [found_writeText_eq_none h, hfound, Option.none_or, Option.some_or],
        hadds⟩
  | @attr name value hnormal hfaithful =>
      obtain ⟨stmt, hfound, hadds⟩ := found_attrBlock hn ⟨hnormal, hfaithful⟩ hlength h
      have hstart : StartsWith (fun x => x != 'w') c.rest := by
        rw [h.rest, writeSegment_attr]
        simp
      obtain ⟨htext, hcode⟩ := found_write_eq_none nested hstart
      exact ⟨stmt, by rw [htext, hcode, hfound, Option.none_or, Option.none_or, Option.some_or],
        hadds⟩

/-- A statement does not begin with a blank. -/
private theorem writeSegment_noBlank {depth : Nat} (seg : Segment) {d : Cursor}
    (h : c.Leads (writeSegment depth seg) d) : NoBlank c.rest := by
  rw [h.rest]
  cases seg with
  | text s => rw [writeSegment_text]; simp [isSpace]
  | code source e sides => rw [writeSegment_code]; simp [isSpace]
  | attr name value => rw [writeSegment_attr]; simp [isSpace]

/-- The statements of a block, up to its closing brace. -/
private theorem statements_repeats (hn : BlocksTaken nested n) {depth : Nat} :
    ∀ {p : List Segment} {w : List Char} {c : Cursor}, (∀ seg ∈ p, seg.Faithful) → Blanks w →
      (writeSegments depth p).length ≤ n →
      c.Leads (w ++ (writeSegments depth p ++ margin depth)) d →
      StartsWith (fun x => x == '\x7d') d.rest →
      ∃ stmts e, Repeats (do skip; statement nested) c stmts e ∧ e.dropWhile isSpace = d ∧
        Adds stmts p := by
  intro p
  induction p with
  | nil =>
      intro w c _ hw _ hlead hend
      have hblanks : Blanks (w ++ margin depth) := by
        intro x hx
        rcases List.mem_append.mp hx with hx | hx
        · exact hw x hx
        · exact blanks_margin depth x hx
      rw [writeSegments, List.nil_append] at hlead
      have hskip := dropWhile_isSpace_eq hlead hblanks (noBlank_of_eq rfl hend)
      refine ⟨[], c, .stop ?_, hskip, .nil⟩
      have hwrite : StartsWith (fun x => x != 'w') d.rest :=
        hend.mono fun x hx => by rw [eq_of_beq hx]; rfl
      have hattr : StartsWith (fun x => x != 'a') d.rest :=
        hend.mono fun x hx => by rw [eq_of_beq hx]; rfl
      obtain ⟨htext, hcode⟩ := found_write_eq_none nested hwrite
      rw [found_bind, found_skip, Option.bind_some, hskip]
      simp only [statement, found_firstOf_cons, htext, hcode, found_attrBlock_eq_none hattr,
        found_firstOf_nil, Option.none_or]
  | cons seg p ih =>
      intro w c hp hw hlength hlead hend
      rw [List.forall_mem_cons] at hp
      rw [writeSegments] at hlength hlead
      simp only [List.length_append, List.length_cons] at hlength
      simp only [List.append_assoc, List.cons_append] at hlead
      rw [← List.append_assoc] at hlead
      obtain ⟨c₁, hmargin, hlead⟩ := Cursor.leads_append_iff.mp hlead
      obtain ⟨c₂, hseg, hlead⟩ := Cursor.leads_append_iff.mp hlead
      have hblanks : Blanks (w ++ margin (depth + 1)) := by
        intro x hx
        rcases List.mem_append.mp hx with hx | hx
        · exact hw x hx
        · exact blanks_margin (depth + 1) x hx
      have hskip := dropWhile_isSpace_eq hmargin hblanks (writeSegment_noBlank seg hseg)
      obtain ⟨stmt, hfound, hadds⟩ := found_statement hn hp.1 (by omega) hseg
      have hfeed : Blanks ['\n'] := by simp [Blanks, isSpace]
      obtain ⟨stmts, e, hrepeats, he, hstmts⟩ := ih (w := ['\n']) hp.2 hfeed (by omega) hlead hend
      refine ⟨stmt :: stmts, e, .turn ?_ ?_ hrepeats, he, hadds hstmts⟩
      · rw [found_bind, found_skip, Option.bind_some, hskip, hfound]
      · have := hmargin.length
        have := hseg.length
        rw [List.length_append, margin, List.length_replicate] at *
        omega

/-- A block is read back if the blocks in it are, since they are shorter. -/
private theorem blockOf_taken (hn : BlocksTaken nested n) :
    BlocksTaken (blockOf nested) (n + 1) where
  taken := by
    intro p depth c d hp hlength hlead
    rw [braces] at hlength hlead
    simp only [List.length_cons, List.length_append] at hlength
    obtain ⟨c₁, hopen, hlead⟩ := Cursor.leads_cons_iff.mp hlead
    rw [← List.cons_append] at hlead
    obtain ⟨c₂, hbody, hclose⟩ := Cursor.leads_append_iff.mp hlead
    have hbrace : StartsWith (fun x => x == '\x7d') c₂.rest :=
      hclose.startsWith (opens_cons_iff.mpr rfl)
    have hfeed : Blanks ['\n'] := by simp [Blanks, isSpace]
    obtain ⟨stmts, e, hrepeats, he, hadds⟩ :=
      statements_repeats hn (w := ['\n']) hp.segments hfeed (by omega) hbody hbrace
    have hopen' : (lit "\x7b").found c = some ((), c₁) := found_lit_iff.mpr hopen
    have hclose' : (lit "\x7d").found c₂ = some ((), d) := found_lit_iff.mpr hclose
    have hmany := found_many_of_repeats hrepeats
    rw [statement] at hmany
    refine ⟨stmts, ?_, hadds⟩
    simp only [blockOf, found_call, found_bind, hopen', hmany, token, found_skip, he, hclose',
      Option.bind_some, found_pure]
  missed := by
    intro c h
    rw [blockOf, found_call, found_bind,
      found_lit_eq_none_of_startsWith "\x7b" rfl h]
    rfl

/-- A block is read back within as many levels as it has characters. -/
theorem blockWithin_taken (deeper : List Char) :
    BlocksTaken (blockWithin deeper) deeper.length := by
  induction deeper with
  | nil =>
      refine ⟨?_, ?_⟩
      · intro p depth c d _ hlength _
        simp [braces] at hlength
      · intro c h
        rw [blockWithin, blockOf, found_call, found_bind,
          found_lit_eq_none_of_startsWith "\x7b" rfl h]
        rfl
  | cons _ deeper ih => exact blockOf_taken ih

/-- **A written block is read back.** -/
theorem found_block_of_write {p : Program} (hp : p.Faithful) {depth : Nat}
    (h : c.Leads (braces depth (writeSegments depth p)) d) :
    ∃ statements, block.found c = some (statements, d) ∧ Adds statements p :=
  (blockWithin_taken c.rest).taken hp (by rw [h.length]; exact Nat.le_add_right _ _) h

end

end Grammar

end LineMarkup
