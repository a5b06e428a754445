import LineMarkup.Proofs.ExpressionEnds
import LineMarkup.Proofs.LayoutSteps
import LineMarkup.Proofs.RenderedAlike
import LineMarkup.Template

/-!
# Texts as expressions

A text may be written as an expression that is the text between quotes.  The tree with any of its texts
written so is laid out exactly if the tree itself is, else with the same error, and both render to the
same output or the same error.

The two trees take different ways.  A text is merged with its neighbours and may fold an attribute into
text; a quoted text is read, becomes a segment of its own, and is evaluated when the template is rendered.
Layout looks at a text in two more ways, and there a text must stay: blank text among siblings, which may
be dropped and leaves a tag without a body, and the sole part of an `id` or `class`, which may be written
in its short form.

## Main Definitions

* `Node.Quoted` — a node with some of its texts quoted
* `Coincide` — results that are the same error, or both succeed and are related

## Main Statements

* `Expr.parse_quote` — a quoted text is read as that text
* `Layout.piece_coincide` — quoting texts in a node changes what it contributes only in form
* `Template.render_quoted` — a tree with quoted texts renders like the tree
-/

namespace LineMarkup

/-! ### Quoted texts are read -/

namespace Grammar

open Reader

/-- A primary is an expression. -/
theorem exprSpelling_of_primary {s : List Char} {f : Nat → Expr}
    (h : PrimarySpelling ExprSpelling s f) : ExprSpelling s f := by
  have hoperand := OperandSpelling.mk .nil h blanks_nil .nil
  have hexpr := ExprSpelling.of (.sequence (.mk hoperand .nil))
  simpa [operandTree] using hexpr

end Grammar

namespace Expr

open Grammar Reader

/-- **A quoted text is read as that text.** -/
theorem parse_quote (s : String) :
    ∃ span, Expr.parse (Text.trim (Text.Quoted.quote s)) = .ok (.literal (.string s) span) := by
  have hatom := atomSpelling_encode s.toList
  rw [String.ofList_toList] at hatom
  have hexpr := exprSpelling_of_primary (.literal hatom)
  have htrim : Text.trimList (Text.Quoted.encode s.toList) = Text.Quoted.encode s.toList := by
    have h := trimList_append_blanks hexpr.opens hatom.endsSolid blanks_nil
    rwa [List.append_nil] at h
  refine ⟨_, parse_eq_ok_iff.mpr ⟨[], _, _, blanks_nil, hexpr, ?_, rfl⟩⟩
  rw [Text.trim, Text.Quoted.quote, String.toList_ofList, String.toList_ofList, htrim,
    List.nil_append]

end Expr

/-! ### Trees with quoted texts -/

namespace Node

mutual

/-- A node with some of its texts quoted, for a node in a place.  Blank text among siblings stays. -/
inductive Quoted : Place → Node → Node → Prop where
  | quoted {place : Place} {s : String} : (place = .flowing → Text.allBlank s = false) →
      Quoted place (.text s) (.code (Text.Quoted.quote s) none)
  | text (place : Place) (s : String) : Quoted place (.text s) (.text s)
  | comment (place : Place) (s : String) : Quoted place (.comment s) (.comment s)
  | unknown (place : Place) (type : String) : Quoted place (.unknown type) (.unknown type)
  | code {place : Place} {content : String} {sides sides' : Option (List Node)} :
      QuotedAll .alone (sides.getD []) (sides'.getD []) →
      Quoted place (.code content sides) (.code content sides')
  | tag {place : Place} {name : String} {attrs attrs' : Option (Attributes (List Node) [])}
      {content content' : Option (List Node)} :
      QuotedAttrs (attrs.getD .nil) (attrs'.getD .nil) →
      QuotedAll .flowing (content.getD []) (content'.getD []) →
      Quoted place (.tag name attrs content) (.tag name attrs' content')

/-- The nodes of a list, each with some of its texts quoted. -/
inductive QuotedAll : Place → List Node → List Node → Prop where
  | nil (place : Place) : QuotedAll place [] []
  | cons {place : Place} {n n' : Node} {ns ns' : List Node} : Quoted place n n' →
      QuotedAll place ns ns' → QuotedAll place (n :: ns) (n' :: ns')

/-- Attributes with some of the texts in their values quoted.  The sole part of an `id` or `class`
stays if it is a text. -/
inductive QuotedAttrs : {before : List String} →
    Attributes (List Node) before → Attributes (List Node) before → Prop where
  | nil {before : List String} : @QuotedAttrs before .nil .nil
  | cons {before : List String} {name : String} {value value' : List Node}
      {rest rest' : Attributes (List Node) (name :: before)} {fresh : name ∉ before} :
      (name = "id" ∨ name = "class" → ∀ s, value = [.text s] → value' = value) →
      QuotedAll .alone value value' → QuotedAttrs rest rest' →
      QuotedAttrs (.cons name value rest fresh) (.cons name value' rest' fresh)

end

/-- Whether a tag has a body does not change. -/
theorem QuotedAll.all_isBlankText : {place : Place} → {ns ns' : List Node} →
    QuotedAll place ns ns' → place = .flowing → ns.all isBlankText = ns'.all isBlankText
  | _, _, _, .nil _, _ => rfl
  | _, _, _, .cons h hs, hplace => by
      rw [List.all_cons, List.all_cons, hs.all_isBlankText hplace]
      cases h with
      | @quoted _ s hblank =>
          have htext : isBlankText (.text s) = false := hblank hplace
          rw [htext]
          rfl
      | text _ s => rfl
      | comment _ s => rfl
      | unknown _ type => rfl
      | code _ => rfl
      | tag _ _ => rfl

/-- A single text comes from that text only. -/
theorem QuotedAll.eq_text {place : Place} {ns : List Node} {s : String}
    (h : QuotedAll place ns [.text s]) : ns = [.text s] := by
  cases h with
  | cons hn hnil =>
      cases hn
      cases hnil
      rfl

/-- The value of an `id` or `class` is a single text in both trees, and the same one, or in neither. -/
theorem QuotedAttrs.get?_eq_or {name : String} (hname : name = "id" ∨ name = "class")
    {before : List String} {attrs attrs' : Attributes (List Node) before}
    (h : QuotedAttrs attrs attrs') :
    attrs.get? name = attrs'.get? name ∨
      (∀ s, attrs.get? name ≠ some [.text s]) ∧ ∀ s, attrs'.get? name ≠ some [.text s] := by
  induction attrs with
  | nil =>
      cases h
      exact .inl rfl
  | cons key value rest fresh ih =>
      cases h with
      | @cons _ _ _ value' _ rest' _ hsole hvalue hrest =>
          by_cases hkey : key = name
          · rw [Attributes.get?_cons, Attributes.get?_cons, if_pos hkey, if_pos hkey]
            rw [← hkey] at hname
            by_cases htext : ∃ s, value = [.text s]
            · obtain ⟨s, hs⟩ := htext
              exact .inl (congrArg some (hsole hname s hs).symm)
            · refine .inr ⟨fun s hs => htext ⟨s, Option.some.inj hs⟩, fun s hs => ?_⟩
              rw [Option.some.inj hs] at hvalue
              exact htext ⟨s, hvalue.eq_text⟩
          · rw [Attributes.get?_cons, Attributes.get?_cons, if_neg hkey, if_neg hkey]
            exact ih hrest

end Node

/-! ### Results that coincide -/

/-- The same error, or two successes that are related. -/
inductive Coincide {α β : Type} (R : α → β → Prop) :
    Except LayoutError α → Except LayoutError β → Prop where
  | error (e : LayoutError) : Coincide R (.error e) (.error e)
  | ok {a : α} {b : β} : R a b → Coincide R (.ok a) (.ok b)

theorem Coincide.bind {α β γ δ : Type} {R : α → β → Prop} {S : γ → δ → Prop}
    {x : Except LayoutError α} {y : Except LayoutError β} {f : α → Except LayoutError γ}
    {g : β → Except LayoutError δ} (hx : Coincide R x y)
    (hf : ∀ {a b}, R a b → Coincide S (f a) (g b)) : Coincide S (x >>= f) (y >>= g) := by
  cases hx with
  | error e => exact .error e
  | ok hab => exact hf hab

/-! ### Layout -/

namespace Layout

open Program

/-- The short forms of a tag do not change. -/
theorem ofAttrs_eq {attrs attrs' : Attributes (List Node) []} (h : Node.QuotedAttrs attrs attrs') :
    Head.ofAttrs attrs = Head.ofAttrs attrs' :=
  ofAttrs_congr fun _ hname => h.get?_eq_or hname

/-- A text renders to what the expression evaluates to that it is read as. -/
theorem text_alike (s source : String) (span : Span) :
    Alike [.text s] [.code source (.literal (.string s) span) []] := by
  intro scope
  have hcode : renderSegment scope (.code source (.literal (.string s) span) []) = .ok s := by
    rw [renderSegment, Expr.eval]
    rfl
  rw [render_text, render_cons, hcode, render_nil, ok_bind, ok_bind, String.append_empty]
  rfl

attribute [local irreducible] Expr.parse

mutual

/-- **Quoting texts in a node changes what it contributes only in form.** -/
theorem piece_coincide {closing : SelfClosing} : {place : Place} → {n n' : Node} →
    Node.Quoted place n n' → (depth : Nat) →
    Coincide (PieceAlike place) (piece closing depth n) (piece closing depth n')
  | _, _, _, @Node.Quoted.quoted place s hblank, depth => by
      obtain ⟨span, hparse⟩ := Expr.parse_quote s
      rw [piece_text, piece_code, hparse]
      -- An expression never counts as blank, and among siblings the text does not either.
      exact .ok (.inline (text_alike s _ span) hblank)
  | _, _, _, .text _ s, depth => .ok (.inline (.refl _) fun _ => rfl)
  | _, _, _, .comment _ s, depth => .ok (.block (.cons (.refl _) .nil))
  | _, _, _, .unknown _ type, depth => .error _
  | _, _, _, @Node.Quoted.code place content _ _ hsides, depth => by
      rw [piece_code, piece_code]
      cases Expr.parse (Text.trim content) with
      | error e => exact .error _
      | ok e =>
          refine (sidePrograms_coincide hsides).bind fun hprograms => ?_
          exact .ok (.inline (.code _ e hprograms) fun _ => rfl)
  | _, _, _, @Node.Quoted.tag place name attrs attrs' content content' hattrs hcontent, depth => by
      have hshort := ofAttrs_eq hattrs
      have hbody : Node.hasNoBody content = Node.hasNoBody content' := hcontent.all_isBlankText rfl
      rw [piece_tag, piece_tag, ← hshort, hbody]
      refine (attributions_coincide hattrs _).bind fun hlisted => ?_
      have hhead := headLine_alike closing depth name hshort hbody hlisted
      by_cases hnone : Node.hasNoBody content' = true
      · rw [if_pos hnone, if_pos hnone]
        exact .ok (.block (.cons hhead .nil))
      · rw [if_neg hnone, if_neg hnone]
        refine (flow_coincide hcontent rfl (depth + 1)).bind fun hinner => ?_
        exact .ok (.block (hinner.behind hhead))

/-- Quoting texts among siblings does not change what they contribute. -/
theorem flow_coincide {closing : SelfClosing} : {place : Place} → {ns ns' : List Node} →
    Node.QuotedAll place ns ns' → place = .flowing → (depth : Nat) →
    Coincide FlowAlike (flow closing depth ns) (flow closing depth ns')
  | _, _, _, .nil _, _, depth => by
      rw [flow]
      exact .ok .empty
  | _, _, _, .cons h hs, hplace, depth => by
      rw [flow, flow]
      refine (piece_coincide h depth).bind fun hpiece => ?_
      refine (flow_coincide hs hplace depth).bind fun hflow => ?_
      rw [hplace] at hpiece
      exact .ok (hflow.add hpiece depth)

/-- Quoting texts in a value does not change what it renders to. -/
theorem parts_coincide {closing : SelfClosing} : {place : Place} → {ns ns' : List Node} →
    Node.QuotedAll place ns ns' → Coincide Alike (parts closing ns) (parts closing ns')
  | _, _, _, .nil _ => by
      rw [parts]
      exact .ok (.refl _)
  | _, _, _, .cons h hs => by
      rw [parts, parts]
      refine (piece_coincide h 0).bind fun hpiece => ?_
      refine (parts_coincide hs).bind fun hothers => ?_
      exact .ok (hpiece.segments.append hothers)

/-- Quoting texts in side nodes does not change what they render to. -/
theorem sidePrograms_coincide {closing : SelfClosing} : {place : Place} → {ns ns' : List Node} →
    Node.QuotedAll place ns ns' →
    Coincide (List.Forall₂ Alike) (sidePrograms closing ns) (sidePrograms closing ns')
  | _, _, _, .nil _ => by
      rw [sidePrograms]
      exact .ok .nil
  | _, _, _, .cons h hs => by
      rw [sidePrograms, sidePrograms]
      refine (piece_coincide h 0).bind fun hpiece => ?_
      refine (sidePrograms_coincide hs).bind fun hothers => ?_
      exact .ok (.cons hpiece.segments.ofSegments hothers)

/-- The lists of attributes coincide. -/
theorem attributions_coincide {closing : SelfClosing} : {before : List String} →
    {attrs attrs' : Attributes (List Node) before} → Node.QuotedAttrs attrs attrs' → (short : Head) →
    Coincide (List.Forall₂ Alike) (attributions closing short attrs)
      (attributions closing short attrs')
  | _, _, _, .nil, short => by
      rw [attributions]
      exact .ok .nil
  | _, _, _, @Node.QuotedAttrs.cons _ name _ _ _ _ _ _ hvalue hattrs, short => by
      have hrest : Coincide (List.Forall₂ Alike) (attributions closing short _)
          (attributions closing short _) := attributions_coincide hattrs short
      rw [attributions, attributions]
      by_cases htakes : short.takes name = true
      · -- The value is written in its short form in both trees, which is the same.
        rw [if_pos htakes, if_pos htakes]
        exact hrest
      · rw [if_neg htakes, if_neg htakes]
        refine (parts_coincide hvalue).bind fun hsegments => ?_
        exact hrest.bind fun hothers => .ok (.cons (attribution_alike name hsegments) hothers)

end

theorem program_coincide {closing : SelfClosing} {nodes nodes' : List Node}
    (h : Node.QuotedAll .flowing nodes nodes') :
    Coincide Alike (program closing nodes) (program closing nodes') := by
  rw [program, program]
  refine (flow_coincide h rfl 0).bind fun hflow => ?_
  exact .ok (joinLines_alike hflow.topLines).ofSegments

end Layout

/-! ### Templates -/

namespace Template

/-- **A tree with quoted texts renders like the tree.**  It is laid out exactly if the tree is, else
with the same error, and for any locals both templates render to the same output or the same error. -/
theorem render_quoted {nodes nodes' : List Node} (h : Node.QuotedAll .flowing nodes nodes')
    (settings : Settings) :
    (∀ e, ofNodes nodes' settings = .error e ↔ ofNodes nodes settings = .error e) ∧
    ∀ t, ofNodes nodes settings = .ok t → ∃ t', ofNodes nodes' settings = .ok t' ∧
      ∀ locals, t'.render locals = t.render locals := by
  have hcoincide : Coincide (fun t t' : Template => ∀ locals, t'.render locals = t.render locals)
      (ofNodes nodes settings) (ofNodes nodes' settings) := by
    rw [ofNodes, ofNodes]
    cases settings.validate with
    | error e => exact .error _
    | ok valid =>
        refine (Layout.program_coincide h).bind fun {p p'} hprogram => .ok fun locals => ?_
        exact (hprogram ⟨locals, valid.mode, valid.hostName, valid.host⟩).symm
  generalize ofNodes nodes settings = result, ofNodes nodes' settings = result' at hcoincide ⊢
  cases hcoincide with
  | error e => exact ⟨fun e' => Iff.rfl, fun t ht => by cases ht⟩
  | @ok t t' hrender =>
      refine ⟨fun e => ⟨fun he => ?_, fun he => ?_⟩, fun t₁ ht => ?_⟩
      · cases he
      · cases he
      · obtain rfl := Except.ok.inj ht
        exact ⟨t', rfl, hrender⟩

/-- Quoted are a text at the top, one of two parts of a class, an empty attribute, a text in a tag inside
an attribute, and a blank side node; not an id, nor blank text among siblings. -/
theorem render_quoted_everywhere :
    ∃ nodes nodes' : List Node, nodes =
      [.text " a\n", .tag "p" (some (.cons "id" [.text "x"] (.cons "class" [.text "b", .text " "]
          (.cons "on" [.text "", .tag "q" none (some [.text "c", .text " "])] .nil))))
        (some [.text "\n", .code "__nodes" (some [.text " "])])] ∧ nodes' =
      [.code (Text.Quoted.quote " a\n") none, .tag "p" (some (.cons "id" [.text "x"]
          (.cons "class" [.code (Text.Quoted.quote "b") none, .text " "]
          (.cons "on" [.code (Text.Quoted.quote "") none,
            .tag "q" none (some [.code (Text.Quoted.quote "c") none, .text " "])] .nil))))
        (some [.text "\n", .code "__nodes" (some [.code (Text.Quoted.quote " ") none])])] ∧
      Node.QuotedAll .flowing nodes nodes' ∧
      ∃ t t', ofNodes nodes {} = .ok t ∧ ofNodes nodes' {} = .ok t' ∧
        ∀ locals, t'.render locals = t.render locals := by
  have hrender {nodes nodes' : List Node} (h : Node.QuotedAll .flowing nodes nodes')
      (hok : (ofNodes nodes {}).isOk = true) : Node.QuotedAll .flowing nodes nodes' ∧
      ∃ t t', ofNodes nodes {} = .ok t ∧ ofNodes nodes' {} = .ok t' ∧
        ∀ locals, t'.render locals = t.render locals := by
    obtain ⟨t, ht⟩ := exists_ok_of_isOk hok
    obtain ⟨t', ht', hlocals⟩ := (render_quoted h {}).2 t ht
    exact ⟨h, t, t', ht, ht', hlocals⟩
  have hclass : Node.QuotedAll .alone [.text "b", .text " "]
      [.code (Text.Quoted.quote "b") none, .text " "] :=
    .cons (.quoted fun h => by cases h) (.cons (.text _ _) (.nil _))
  have hon : Node.QuotedAll .alone [.text "", .tag "q" none (some [.text "c", .text " "])]
      [.code (Text.Quoted.quote "") none,
        .tag "q" none (some [.code (Text.Quoted.quote "c") none, .text " "])] :=
    .cons (.quoted fun h => by cases h)
      (.cons (.tag .nil (.cons (.quoted fun _ => by decide) (.cons (.text _ _) (.nil _)))) (.nil _))
  have hsides : Node.QuotedAll .alone [.text " "] [.code (Text.Quoted.quote " ") none] :=
    .cons (.quoted fun h => by cases h) (.nil _)
  refine ⟨_, _, rfl, rfl, hrender ?_ (by decide +kernel)⟩
  refine .cons (.quoted fun _ => by decide) (.cons (.tag ?_ ?_) (.nil _))
  · exact .cons (fun _ _ _ => rfl) (.cons (.text _ _) (.nil _))
      (.cons (fun _ s hs => by cases hs) hclass (.cons (fun h => absurd h (by decide)) hon .nil))
  · exact .cons (.text _ _) (.cons (.code hsides) (.nil _))

end Template

end LineMarkup
