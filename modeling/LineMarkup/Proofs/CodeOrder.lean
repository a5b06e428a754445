import LineMarkup.Proofs.LayoutOutcome
import LineMarkup.Proofs.LiveSegments
import Mathlib.Data.List.Forall2

/-!
# Expressions in document order

Every expression of a tree is compiled once, and in its place.  The expressions of the program, those in
attributes included, are those of the tree in document order; the side nodes of an expression belong to
the expression and are compiled one by one, as if each of them were a tree.

A program without expressions is a single text.  This needs more than the order: layout makes an
attribute of its own only for a value that holds an expression.

## Main Definitions

* `Node.codes`, `Program.codes` — the expressions of a tree and of a program
* `CompiledAs` — an expression and its segment
* `Compiled` — segments whose expressions are those of some nodes

## Main Statements

* `Layout.piece_compiled` — what a node contributes holds its expressions
* `Program.isSome_asStatic?_iff` — a normal program without expressions is one text
* `Template.codes_ofNodes` — the expressions of a template are those of its tree
-/

namespace LineMarkup

/-! ### Expressions of trees and programs -/

namespace Node

/-- Whether a node is an expression. -/
def isCode : Node → Bool
  | .code .. => true
  | _ => false

mutual

/-- The expressions in a node in document order, attributes before content; what stands in the side list
of an expression is not listed. -/
def codes : Node → List Node
  | .tag _ attrs content =>
    (match attrs with
      | none => []
      | some as => codesAttrs as) ++
    match content with
      | none => []
      | some ns => codesAll ns
  | .code content sides => [.code content sides]
  | .text _ => []
  | .comment _ => []
  | .unknown _ => []

/-- The expressions in the nodes of a list. -/
def codesAll : List Node → List Node
  | [] => []
  | n :: rest => n.codes ++ codesAll rest

/-- The expressions in the values of attributes. -/
def codesAttrs {before : List String} : Attributes (List Node) before → List Node
  | .nil => []
  | .cons _ value rest _ => codesAll value ++ codesAttrs rest

end

theorem codes_tag (name : String) (attrs : Option (Attributes (List Node) []))
    (content : Option (List Node)) :
    (tag name attrs content).codes = codesAttrs (attrs.getD .nil) ++ codesAll (content.getD []) := by
  cases attrs <;> cases content <;> simp [codes, codesAttrs, codesAll]

/-- There are no expressions in blank text. -/
theorem codesAll_of_blank {ns : List Node} (h : ns.all isBlankText = true) : codesAll ns = [] := by
  induction ns with
  | nil => rw [codesAll]
  | cons n ns ih =>
      rw [List.all_cons, Bool.and_eq_true] at h
      rw [codesAll, ih h.2]
      cases n with
      | text s => rw [codes, List.nil_append]
      | tag _ _ _ => exact absurd h.1 (by simp [isBlankText])
      | code _ _ => exact absurd h.1 (by simp [isBlankText])
      | comment _ => exact absurd h.1 (by simp [isBlankText])
      | unknown _ => exact absurd h.1 (by simp [isBlankText])

mutual

/-- A node holds no expression exactly if none is listed: what is not listed is inside one that is. -/
theorem codes_eq_nil_iff : (n : Node) → n.codes = [] ↔ ∀ m ∈ n.preorder, m.isCode = false
  | .text s => by simp [codes, preorder, isCode]
  | .comment s => by simp [codes, preorder, isCode]
  | .unknown type => by simp [codes, preorder, isCode]
  | .code content sides => by
      rw [codes, preorder_code, List.forall_mem_cons]
      simp [isCode]
  | .tag name attrs content => by
      have hattrs : codesAttrs (attrs.getD .nil) = [] ↔
          ∀ m ∈ preorderAttrs (attrs.getD .nil), m.isCode = false := by
        cases attrs with
        | none => simp [codesAttrs, preorderAttrs]
        | some as => exact codesAttrs_eq_nil_iff as
      have hcontent : codesAll (content.getD []) = [] ↔
          ∀ m ∈ preorderAll (content.getD []), m.isCode = false := by
        cases content with
        | none => simp [codesAll, preorderAll]
        | some ns => exact codesAll_eq_nil_iff ns
      rw [codes_tag, preorder_tag, List.append_eq_nil_iff, hattrs, hcontent, List.forall_mem_cons,
        List.forall_mem_append]
      exact (and_iff_right rfl).symm

theorem codesAll_eq_nil_iff : (ns : List Node) →
    (codesAll ns = [] ↔ ∀ m ∈ preorderAll ns, m.isCode = false)
  | [] => by simp [codesAll, preorderAll]
  | n :: rest => by
      rw [codesAll, preorderAll, List.append_eq_nil_iff, List.forall_mem_append,
        codes_eq_nil_iff n, codesAll_eq_nil_iff rest]

/-- Attributes hold no expression exactly if none is listed. -/
theorem codesAttrs_eq_nil_iff {before : List String} : (as : Attributes (List Node) before) →
    (codesAttrs as = [] ↔ ∀ m ∈ preorderAttrs as, m.isCode = false)
  | .nil => by simp [codesAttrs, preorderAttrs]
  | .cons name value rest _ => by
      rw [codesAttrs, preorderAttrs, List.append_eq_nil_iff, List.forall_mem_append,
        codesAll_eq_nil_iff value, codesAttrs_eq_nil_iff rest]

end

end Node

mutual

/-- The expressions in a segment; those in side programs are not listed. -/
def Segment.codes : Segment → List Segment
  | .text _ => []
  | .code source e sides => [.code source e sides]
  | .attr _ value => Program.codes value

/-- The expressions in a program, those in attributes included, from left to right. -/
def Program.codes : List Segment → List Segment
  | [] => []
  | seg :: rest => seg.codes ++ Program.codes rest

end

namespace Program

theorem codes_eq_flatMap (p : List Segment) : codes p = p.flatMap Segment.codes := by
  induction p with
  | nil => rw [codes, List.flatMap_nil]
  | cons seg p ih => rw [codes, ih, List.flatMap_cons]

/-- The expressions of two lists in a row stay in order. -/
theorem codes_append (p q : List Segment) : codes (p ++ q) = codes p ++ codes q := by
  rw [codes_eq_flatMap, codes_eq_flatMap p, codes_eq_flatMap q, List.flatMap_append]

/-- Expressions are in what needs rendering. -/
theorem codes_live (p : List Segment) : codes (live p) = codes p := by
  rw [codes_eq_flatMap, codes_eq_flatMap p]
  exact flatMap_live (fun _ => by rw [Segment.codes]) p

/-- Every attribute holds an expression. -/
def AttrsHoldCode (p : List Segment) : Prop :=
  ∀ name value, .attr name value ∈ p → codes value ≠ []

/-- A normal program without expressions is at most one text. -/
theorem isSome_asStatic?_iff {p : Program} (hnormal : p.Normal) (hattrs : AttrsHoldCode p) :
    p.asStatic?.isSome = true ↔ codes p = [] := by
  constructor
  · intro h
    unfold asStatic? at h
    split at h
    · rfl
    · rfl
    · cases h
  · intro h
    have htexts : ∀ seg ∈ p, seg.isText = true := by
      intro seg hseg
      obtain ⟨before, after, rfl⟩ := List.append_of_mem hseg
      rw [codes_append, codes, List.append_eq_nil_iff, List.append_eq_nil_iff] at h
      cases seg with
      | text s => rfl
      | code source e sides => exact absurd h.2.1 (by simp [Segment.codes])
      | attr name value => exact absurd h.2.1 (hattrs name value hseg)
    rcases hnormal.eq_nil_or_text (live_eq_nil_iff.mpr htexts) with rfl | ⟨s, rfl⟩
    · rfl
    · rfl

end Program

/-! ### Expressions and their segments -/

/-- A segment that an expression is compiled as: the source without the blanks around it, the tree that
it is read as, and a program for each side node, related to it as `alone` says. -/
inductive CompiledAs (alone : Node → Program → Prop) : Node → Segment → Prop where
  | mk {content : String} {sides : Option (List Node)} {e : Expr} {programs : List Program} :
      Expr.parse (Text.trim content) = .ok e → List.Forall₂ alone (sides.getD []) programs →
      CompiledAs alone (.code content sides) (.code (Text.trim content) e programs)

theorem CompiledAs.mono {alone alone' : Node → Program → Prop} {n : Node} {seg : Segment}
    (h : CompiledAs alone n seg) (sub : ∀ m p, alone m p → alone' m p) : CompiledAs alone' n seg := by
  cases h with
  | mk hparse hsides => exact .mk hparse (hsides.imp sub)

/-- Segments whose expressions are those of some nodes, and that have no attribute without one. -/
structure Compiled (alone : Node → Program → Prop) (ns : List Node) (segments : List Segment) :
    Prop where
  codes : List.Forall₂ (CompiledAs alone) ns (Program.codes segments)
  attrs : Program.AttrsHoldCode (Program.live segments)

namespace Compiled

open Program

variable {alone : Node → Program → Prop} {ns ms : List Node} {p q : List Segment}

/-- Only what needs rendering counts. -/
theorem of_live_eq (h : Compiled alone ns p) (hlive : live q = live p) : Compiled alone ns q := by
  refine ⟨?_, by rw [hlive]; exact h.attrs⟩
  rw [← codes_live, hlive, codes_live]
  exact h.codes

theorem of_no_live (h : live p = []) : Compiled alone [] p := by
  refine ⟨?_, ?_⟩
  · rw [← codes_live, h]
    exact .nil
  · rw [h]
    intro name value hmem
    cases hmem

theorem append (hp : Compiled alone ns p) (hq : Compiled alone ms q) :
    Compiled alone (ns ++ ms) (p ++ q) := by
  refine ⟨?_, ?_⟩
  · rw [codes_append]
    exact List.rel_append hp.codes hq.codes
  · rw [live_append]
    intro name value hmem
    rcases List.mem_append.mp hmem with hmem | hmem
    · exact hp.attrs name value hmem
    · exact hq.attrs name value hmem

theorem ofSegments (h : Compiled alone ns p) : Compiled alone ns (ofSegments p) :=
  h.of_live_eq (live_ofSegments p)

theorem attrsHoldCode (h : Compiled alone ns p) : AttrsHoldCode p := by
  intro name value hmem
  refine h.attrs name value (List.mem_filter.mpr ⟨hmem, rfl⟩)

end Compiled

namespace Layout

open Program

/-- A single node makes a program of its own segments. -/
theorem program_singleton {closing : SelfClosing} {n : Node} {p : Piece}
    (h : piece closing 0 n = .ok p) : program closing [n] = .ok (.ofSegments p.segments) := by
  have hflow : flow closing 0 [n] = .ok (Flow.empty.add 0 p) := by
    rw [flow, h, flow]
    rfl
  rw [program, hflow]
  cases p with
  | inline segments blank =>
      -- A run that stands alone is kept, blank or not.
      have hlead : Flow.lead? ⟨some ⟨segments, blank⟩, []⟩ = some segments := by
        cases blank <;> rfl
      show Except.ok (Program.ofSegments (joinLines (Flow.topLines ⟨some ⟨segments, blank⟩, []⟩))) = _
      rw [Flow.topLines, hlead]
      rfl
  | block lines =>
      show Except.ok (Program.ofSegments (joinLines (lines ++ [] ++ []))) = _
      rw [List.append_nil, List.append_nil]
      rfl

/-- The program of a side node is that of a tree of this node alone. -/
theorem sidePrograms_alone {closing : SelfClosing} (ns : List Node) :
    ∀ {programs : List Program}, sidePrograms closing ns = .ok programs →
      List.Forall₂ (fun side p => program closing [side] = .ok p) ns programs := by
  induction ns with
  | nil =>
      intro programs h
      rw [sidePrograms] at h
      cases h
      exact .nil
  | cons n rest ih =>
      intro programs h
      rw [sidePrograms] at h
      obtain ⟨p, hp, h⟩ := bind_eq_ok_iff.mp h
      obtain ⟨others, hothers, h⟩ := bind_eq_ok_iff.mp h
      cases h
      exact .cons (program_singleton hp) (ih hothers)

/-- The nodes that a layout of nodes gives its expressions from. -/
abbrev CompiledBy (closing : SelfClosing) (ns : List Node) (segments : List Segment) : Prop :=
  Compiled (fun side p => program closing [side] = .ok p) ns segments

/-- An attribute is folded into text only if its value holds no expression. -/
theorem compiled_attribution {closing : SelfClosing} {ns : List Node} {segments : List Segment}
    (name : String) (h : CompiledBy closing ns segments) :
    CompiledBy closing ns (attribution name (.ofSegments segments)) := by
  have hvalue := h.ofSegments
  have hstatic := isSome_asStatic?_iff (normal_ofSegments segments) hvalue.attrsHoldCode
  unfold attribution
  cases has : (Program.ofSegments segments).asStatic? with
  | some s =>
      rw [has] at hstatic
      -- The value is one text, so none of the nodes is an expression.
      have hnil : ns = [] := by
        have hcodes := hvalue.codes
        rw [hstatic.mp rfl] at hcodes
        exact List.forall₂_nil_right_iff.mp hcodes
      rw [hnil]
      refine .of_no_live ?_
      show live (if s = "" then _ else _) = []
      split <;> rfl
  | none =>
      rw [has] at hstatic
      have hcodes : codes (Program.ofSegments segments) ≠ [] :=
        fun hnil => absurd (hstatic.mpr hnil) (by simp)
      refine ⟨?_, ?_⟩
      · rw [codes, Segment.codes, codes, List.append_nil]
        exact hvalue.codes
      · intro name' value hmem
        obtain heq := List.mem_singleton.mp hmem
        cases heq
        exact hcodes

attribute [local irreducible] Expr.parse

mutual

/-- **What a node contributes holds its expressions, in order.** -/
theorem piece_compiled {closing : SelfClosing} : (depth : Nat) → (n : Node) →
    {p : Piece} → piece closing depth n = .ok p → CompiledBy closing n.codes p.segments
  | depth, .text s, _, h => by
      rw [piece_text] at h
      cases h
      rw [Node.codes]
      exact .of_no_live rfl
  | depth, .comment content, _, h => by
      rw [piece_comment] at h
      cases h
      rw [Node.codes]
      exact .of_no_live rfl
  | depth, .unknown type, _, h => by
      rw [piece_unknown] at h
      cases h
  | depth, .code content sides, _, h => by
      rw [piece_code] at h
      split at h
      · cases h
      · rename_i e hparse
        obtain ⟨programs, hprograms, h⟩ := bind_eq_ok_iff.mp h
        cases h
        rw [Node.codes]
        refine ⟨.cons (.mk hparse (sidePrograms_alone _ hprograms)) .nil, ?_⟩
        intro name value hmem
        cases List.mem_singleton.mp hmem
  | depth, .tag name attrs content, _, h => by
      rw [piece_tag] at h
      obtain ⟨listed, hlisted, h⟩ := bind_eq_ok_iff.mp h
      have hhead : CompiledBy closing (Node.codesAttrs (attrs.getD .nil)) listed.flatten := by
        cases attrs with
        | none =>
            cases hlisted
            exact .of_no_live rfl
        | some as =>
            exact attributions_compiled as (fun name value => eq_text_of_takes) hlisted
      rw [Node.codes_tag]
      split at h
      · -- The content is not laid out, but it is blank text.
        rename_i hbody
        cases h
        rw [Node.codesAll_of_blank hbody, List.append_nil]
        refine hhead.of_live_eq ?_
        exact live_headLine closing depth name _ content listed
      · obtain ⟨inner, hinner, h⟩ := bind_eq_ok_iff.mp h
        cases h
        have hflow : CompiledBy closing (Node.codesAll (content.getD [])) inner.segments := by
          cases content with
          | none =>
              cases hinner
              exact .of_no_live rfl
          | some ns => exact flow_compiled (depth + 1) ns hinner
        refine (hhead.append hflow).of_live_eq ?_
        show live (joinLines _) = _
        rw [live_behind (flow_blankRun _ hinner), live_headLine, live_append]

/-- What siblings contribute holds their expressions, in order. -/
theorem flow_compiled {closing : SelfClosing} : (depth : Nat) → (ns : List Node) → {f : Flow} → flow closing depth ns = .ok f →
    CompiledBy closing (Node.codesAll ns) f.segments
  | depth, [], _, h => by
      rw [flow] at h
      cases h
      exact .of_no_live rfl
  | depth, n :: rest, _, h => by
      rw [flow] at h
      obtain ⟨p, hp, h⟩ := bind_eq_ok_iff.mp h
      obtain ⟨f, hf, h⟩ := bind_eq_ok_iff.mp h
      cases h
      rw [Node.codesAll]
      have hpiece := piece_compiled depth n hp
      have hrest := flow_compiled depth rest hf
      refine (hpiece.append hrest).of_live_eq ?_
      rw [live_add (flow_blankRun rest hf), live_append]

/-- The segments of a value hold its expressions, in order. -/
theorem parts_compiled {closing : SelfClosing} : (ns : List Node) → {segments : List Segment} → parts closing ns = .ok segments →
    CompiledBy closing (Node.codesAll ns) segments
  | [], _, h => by
      rw [parts] at h
      cases h
      exact .of_no_live rfl
  | n :: rest, _, h => by
      rw [parts] at h
      obtain ⟨p, hp, h⟩ := bind_eq_ok_iff.mp h
      obtain ⟨others, hothers, h⟩ := bind_eq_ok_iff.mp h
      cases h
      rw [Node.codesAll]
      exact (piece_compiled 0 n hp).append (parts_compiled rest hothers)

/-- The list of attributes holds their expressions, in order, if those that are left out are single
texts. -/
theorem attributions_compiled {closing : SelfClosing} {short : Head} {before : List String} :
    (as : Attributes (List Node) before) →
    (∀ name value, (name, value) ∈ as.entries → short.takes name = true → ∃ s, value = [.text s]) →
    {listed : List (List Segment)} → attributions closing short as = .ok listed →
    CompiledBy closing (Node.codesAttrs as) listed.flatten
  | .nil, _, _, h => by
      rw [attributions] at h
      cases h
      exact .of_no_live rfl
  | .cons name value rest _, hshort, _, h => by
      have hshort' : ∀ name value, (name, value) ∈ rest.entries → short.takes name = true →
          ∃ s, value = [.text s] :=
        fun name value hmem => hshort name value (List.mem_cons_of_mem _ hmem)
      rw [attributions] at h
      rw [Node.codesAttrs]
      split at h
      · -- The value is not laid out, but it is a single text.
        rename_i htakes
        obtain ⟨s, rfl⟩ := hshort name value List.mem_cons_self htakes
        exact attributions_compiled rest hshort' h
      · obtain ⟨segments, hsegments, h⟩ := bind_eq_ok_iff.mp h
        obtain ⟨others, hothers, h⟩ := bind_eq_ok_iff.mp h
        cases h
        have hvalue := parts_compiled value hsegments
        exact (compiled_attribution name hvalue).append
          (attributions_compiled rest hshort' hothers)

end

/-- The program of a tree is normal, and it holds the expressions of the tree, in order. -/
theorem program_compiled {closing : SelfClosing} {nodes : List Node} {p : Program} (h : program closing nodes = .ok p) :
    p.Normal ∧ CompiledBy closing (Node.codesAll nodes) p := by
  rw [program] at h
  obtain ⟨f, hf, h⟩ := bind_eq_ok_iff.mp h
  cases h
  refine ⟨normal_ofSegments _, Compiled.ofSegments ?_⟩
  exact (flow_compiled 0 nodes hf).of_live_eq (live_topLines (flow_blankRun nodes hf))

end Layout

namespace Template

/-- **Every expression of a tree is compiled once, in document order**: its source without the blanks
around it, the tree that this is read as, and for each side node the program of the template that the
node makes by itself.  So a template is a single text exactly if its tree holds no expression. -/
theorem codes_ofNodes {nodes : List Node} {settings : Settings} {t : Template}
    (h : ofNodes nodes settings = .ok t) :
    List.Forall₂
      (CompiledAs fun side p => ∃ alone, ofNodes [side] settings = .ok alone ∧ alone.program = p)
      (Node.codesAll nodes) (Program.codes t.program) ∧
    (t.program.asStatic?.isSome = true ↔ ∀ n ∈ Node.preorderAll nodes, n.isCode = false) := by
  unfold ofNodes at h
  cases hvalid : settings.validate with
  | error e =>
      rw [hvalid] at h
      cases h
  | ok valid =>
      rw [hvalid] at h
      obtain ⟨program, hprogram, h⟩ := bind_eq_ok_iff.mp h
      cases h
      obtain ⟨hnormal, hcompiled⟩ := Layout.program_compiled hprogram
      constructor
      · refine hcompiled.codes.imp fun n seg hseg => hseg.mono fun side p hside => ?_
        refine ⟨⟨p, valid.mode, valid.hostName, valid.host⟩, ?_, rfl⟩
        rw [ofNodes, hvalid]
        show (Layout.program valid.selfClosing [side] >>= fun program => _) = _
        rw [hside]
        rfl
      · -- Both lists are as long as each other, so one is empty if the other is.
        have hlength := hcompiled.codes.length_eq
        rw [Program.isSome_asStatic?_iff hnormal hcompiled.attrsHoldCode, ← Node.codesAll_eq_nil_iff,
          ← List.length_eq_zero_iff, ← List.length_eq_zero_iff, hlength]

/-- An attribute that is folded into its short form, an expression in another one, one in a tag inside
that attribute with an expression in its side list, and one behind a run that is dropped. -/
theorem codes_ofNodes_nested :
    ∃ t, ofNodes
        [.tag "p" (some (.cons "id" [.text "x"] (.cons "on" [.code " a " none, .tag "q" none
          (some [.code "b" (some [.text " ", .code "c" none])])] .nil)))
          (some [.text "\n", .comment "", .code "d + 1" none])] {} = .ok t ∧
      List.Forall₂
        (CompiledAs fun side p => ∃ alone, ofNodes [side] {} = .ok alone ∧ alone.program = p)
        [.code " a " none, .code "b" (some [.text " ", .code "c" none]), .code "d + 1" none]
        (Program.codes t.program) ∧
      ¬ t.program.asStatic?.isSome = true := by
  have hok : (ofNodes
      [.tag "p" (some (.cons "id" [.text "x"] (.cons "on" [.code " a " none, .tag "q" none
        (some [.code "b" (some [.text " ", .code "c" none])])] .nil)))
        (some [.text "\n", .comment "", .code "d + 1" none])] {}).isOk = true := by decide +kernel
  obtain ⟨t, ht⟩ := exists_ok_of_isOk hok
  obtain ⟨hcodes, hstatic⟩ := codes_ofNodes ht
  refine ⟨t, ht, hcodes, fun hsome => ?_⟩
  exact absurd (hstatic.mp hsome) (by decide)

end Template

end LineMarkup
