import LineMarkup.Proofs.LineRendering
import Mathlib.Data.List.Forall2

/-!
# Segments that render alike

Two lists of segments are alike if they render to the same result in every scope.  Everything that layout
does with segments respects this: it puts lists behind one another, makes lines and programs of them,
gives them to an expression as its side list, and makes attributes of them.  The last of these looks into
a value, to write it at once if it needs no rendering, but what it decides shows in no output.

What layout asks of a run besides is whether it is blank text, since a blank run may be dropped.  So a
node among siblings has to agree on that as well, while a node that stands alone need not.

## Main Definitions

* `Program.Alike` — segments that render to the same result in every scope
* `Place` — among siblings, or alone
* `Layout.PieceAlike`, `Layout.FlowAlike` — what nodes contribute, alike in their place

## Main Statements

* `Program.Alike.code`, `Layout.attribution_alike` — side lists and values of attributes
* `Layout.FlowAlike.add`, `Layout.FlowAlike.topLines`, `Layout.FlowAlike.behind` — siblings
-/

namespace LineMarkup

namespace Program

/-- The same result in every scope. -/
def Alike (p q : List Segment) : Prop :=
  ∀ scope, render scope p = render scope q

namespace Alike

variable {p p' q q' : List Segment}

theorem refl (p : List Segment) : Alike p p :=
  fun _ => rfl

/-- Segments in a row are alike if the two parts are. -/
theorem append (hp : Alike p p') (hq : Alike q q') : Alike (p ++ q) (p' ++ q') := by
  intro scope
  rw [render_append, render_append, hp scope, hq scope]

/-- Merging texts keeps segments alike. -/
theorem ofSegments (h : Alike p q) : Alike (Program.ofSegments p) (Program.ofSegments q) := by
  intro scope
  rw [render_ofSegments, render_ofSegments, h scope]

/-- An expression is handed the outputs of its side list only. -/
theorem code (source : String) (e : Expr) {sides sides' : List Program}
    (h : List.Forall₂ Alike sides sides') :
    Alike [.code source e sides] [.code source e sides'] := by
  intro scope
  have hsides : renderSides scope sides = renderSides scope sides' := by
    induction h with
    | nil => rfl
    | cons hp _ ih => rw [renderSides, renderSides, hp scope, ih]
  have hcode : renderSegment scope (.code source e sides) =
      renderSegment scope (.code source e sides') := by
    rw [renderSegment, renderSegment, hsides]
  rw [render_cons, render_cons, hcode]

end Alike

/-- Lists that are alike one by one have the same results one by one. -/
theorem mapM_render_alike {ps qs : List (List Segment)} (h : List.Forall₂ Alike ps qs)
    (scope : Scope) : ps.mapM (render scope) = qs.mapM (render scope) := by
  induction h with
  | nil => rfl
  | cons hp _ ih => rw [List.mapM_cons, List.mapM_cons, hp scope, ih]

end Program

/-- Where a node stands: among siblings that make lines together, or alone, in the value of an attribute
or in a side list. -/
inductive Place where
  | flowing | alone
deriving DecidableEq

namespace Layout

open Program

/-! ### Lines and heads -/

/-- Lines that are alike make segments that are alike. -/
theorem joinLines_alike {lines lines' : List Line} (h : List.Forall₂ Alike lines lines') :
    Alike (joinLines lines) (joinLines lines') := by
  intro scope
  rw [render_joinLines, render_joinLines, mapM_render_alike h scope]

/-- An attribute is written alike if its value renders alike, whether it is known beforehand or not.
-/
theorem attribution_alike (name : String) {segments segments' : List Segment}
    (h : Alike segments segments') :
    Alike (attribution name (.ofSegments segments)) (attribution name (.ofSegments segments')) := by
  intro scope
  rw [render_attribution, render_attribution, h scope]

/-- Lists of attributes are alike if the attributes are. -/
theorem attributionList_alike {listed listed' : List (List Segment)}
    (h : List.Forall₂ Alike listed listed') :
    Alike (attributionList listed) (attributionList listed') := by
  intro scope
  rw [render_attributionList, render_attributionList, mapM_render_alike h scope]

/-- The head of a tag, with short forms and a body to the same effect. -/
theorem headLine_alike (closing : SelfClosing) (depth : Nat) (name : String)
    {attrs attrs' : Attributes (List Node) []} {content content' : Option (List Node)}
    {listed listed' : List (List Segment)} (hshort : Head.ofAttrs attrs = Head.ofAttrs attrs')
    (hbody : Node.hasNoBody content = Node.hasNoBody content')
    (hlisted : List.Forall₂ Alike listed listed') :
    Alike (headLine closing depth name attrs content listed)
      (headLine closing depth name attrs' content' listed') := by
  have hslash : slash closing name content = slash closing name content' := by
    rw [slash, slash, hbody]
  rw [headLine, headLine, hshort, hslash]
  exact ((Alike.refl _).append (attributionList_alike hlisted)).append (Alike.refl _)

/-! ### Pieces and flows -/

/-- What two nodes contribute, alike in their place. -/
inductive PieceAlike (place : Place) : Piece → Piece → Prop where
  | inline {segments segments' : List Segment} {blank blank' : Bool} : Alike segments segments' →
      (place = .flowing → blank = blank') →
      PieceAlike place (.inline segments blank) (.inline segments' blank')
  | block {lines lines' : List Line} : List.Forall₂ Alike lines lines' →
      PieceAlike place (.block lines) (.block lines')

/-- Nodes that contribute alike are alike by themselves. -/
theorem PieceAlike.segments {place : Place} {p p' : Piece} (h : PieceAlike place p p') :
    Alike p.segments p'.segments := by
  cases h with
  | inline h _ => exact h
  | block h => exact joinLines_alike h

/-- Two runs that are alike and dropped alike. -/
inductive RunAlike : Option Run → Option Run → Prop where
  | none : RunAlike none none
  | some {segments segments' : List Segment} (blank : Bool) : Alike segments segments' →
      RunAlike (some ⟨segments, blank⟩) (some ⟨segments', blank⟩)

/-- What two lists of siblings contribute, alike in their run and in each of their lines. -/
structure FlowAlike (f f' : Flow) : Prop where
  run : RunAlike f.run f'.run
  lines : List.Forall₂ Alike f.lines f'.lines

/-- Runs that are kept or dropped together. -/
inductive LeadAlike : Option (List Segment) → Option (List Segment) → Prop where
  | none : LeadAlike none none
  | some {run run' : List Segment} : Alike run run' → LeadAlike (some run) (some run')

namespace FlowAlike

variable {f f' : Flow}

theorem empty : FlowAlike .empty .empty :=
  ⟨.none, .nil⟩

/-- Runs are alike on lines of their own, and blank ones are dropped alike. -/
theorem marked (h : FlowAlike f f') (depth : Nat) :
    List.Forall₂ Alike (f.marked depth) (f'.marked depth) := by
  obtain ⟨run, lines⟩ := f
  obtain ⟨run', lines'⟩ := f'
  have hrun : RunAlike run run' := h.run
  cases hrun with
  | none => exact .nil
  | some blank hsegments =>
      cases blank with
      | true => exact .nil
      | false => exact .cons ((Alike.refl [indent depth, .text "| "]).append hsegments) .nil

/-- Runs at the start go on the line before together, or are dropped together. -/
theorem lead? (h : FlowAlike f f') : LeadAlike f.lead? f'.lead? := by
  obtain ⟨run, lines⟩ := f
  obtain ⟨run', lines'⟩ := f'
  have hrun : RunAlike run run' := h.run
  have hempty : lines.isEmpty = lines'.isEmpty := by
    have hlength : lines.length = lines'.length := h.lines.length_eq
    cases lines <;> cases lines' <;> simp_all
  cases hrun with
  | none => exact .none
  | @some segments segments' blank hsegments =>
      show LeadAlike (if blank && !lines.isEmpty then none else some segments)
        (if blank && !lines'.isEmpty then none else some segments')
      rw [hempty]
      by_cases hdrop : (blank && !lines'.isEmpty) = true
      · rw [if_pos hdrop, if_pos hdrop]
        exact .none
      · rw [if_neg hdrop, if_neg hdrop]
        exact .some hsegments

/-- One more node in front. -/
theorem add {p p' : Piece} (h : FlowAlike f f') (hp : PieceAlike .flowing p p') (depth : Nat) :
    FlowAlike (f.add depth p) (f'.add depth p') := by
  have hmarked := h.marked depth
  obtain ⟨run, lines⟩ := f
  obtain ⟨run', lines'⟩ := f'
  have hrun : RunAlike run run' := h.run
  cases hp with
  | block hlines =>
      exact ⟨.none, List.rel_append (List.rel_append hlines hmarked) h.lines⟩
  | inline hsegments hblank =>
      obtain rfl := hblank rfl
      -- The node goes into the run that is there, or starts one.
      cases hrun with
      | none => exact ⟨.some _ hsegments, h.lines⟩
      | some blank hrest => exact ⟨.some _ (hsegments.append hrest), h.lines⟩

/-- The lines of two trees are alike if their flows are. -/
theorem topLines (h : FlowAlike f f') : List.Forall₂ Alike f.topLines f'.topLines := by
  have hlead := h.lead?
  unfold Flow.topLines
  generalize f.lead? = lead, f'.lead? = lead' at hlead ⊢
  cases hlead with
  | none => exact h.lines
  | some hrun => exact .cons hrun h.lines

/-- The lines of two tags are alike if their heads and their flows are. -/
theorem behind (h : FlowAlike f f') {head head' : Line} (hhead : Alike head head') :
    List.Forall₂ Alike (f.behind head) (f'.behind head') := by
  have hlead := h.lead?
  unfold Flow.behind
  generalize f.lead? = lead, f'.lead? = lead' at hlead ⊢
  cases hlead with
  | none => exact .cons hhead h.lines
  | some hrun => exact .cons (hhead.append ((Alike.refl [.text " "]).append hrun)) h.lines

end FlowAlike

end Layout

end LineMarkup
