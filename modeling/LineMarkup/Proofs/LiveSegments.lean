import LineMarkup.Proofs.LayoutSteps
import LineMarkup.Proofs.ProgramNormal

/-!
# Segments that need rendering

Most of what layout puts into a program is text: indentation, names, marks, line feeds, and blank runs
that it drops again.  The segments that need rendering go through unchanged, none of them lost, doubled
or moved.  So whatever is asked about these segments alone can be asked of the lists that layout starts
from, before lines are made of them.

## Main Definitions

* `Program.live` — the segments of a program that need rendering, in order
* `Layout.Flow.segments` — the segments of siblings, before lines are made of them
* `Layout.Flow.BlankRun` — what is dropped as blank needs no rendering

## Main Statements

* `Program.live_ofSegments` — building a program keeps what needs rendering
* `Layout.live_add`, `Layout.live_topLines`, `Layout.live_behind` — so does making lines of siblings
-/

namespace LineMarkup

/-- Whether a segment is literal text. -/
def Segment.isText : Segment → Bool
  | .text _ => true
  | _ => false

theorem Segment.eq_text_of_isText {seg : Segment} (h : seg.isText = true) : ∃ s, seg = .text s := by
  cases seg with
  | text s => exact ⟨s, rfl⟩
  | code source e sides => cases h
  | attr name value => cases h

namespace Program

/-- The segments that need rendering, in order. -/
def live (p : List Segment) : List Segment :=
  p.filter fun seg => !seg.isText

@[simp] theorem live_nil : live [] = [] := rfl

@[simp] theorem live_text_cons (s : String) (p : List Segment) : live (.text s :: p) = live p := rfl

/-- The parts of two lists in a row stay in order. -/
@[simp] theorem live_append (p q : List Segment) : live (p ++ q) = live p ++ live q :=
  List.filter_append p q

/-- Merging texts does not change what needs rendering. -/
theorem ignoresMerging_live : IgnoresMerging live where
  empty p q := by rw [live_append, live_append, live_text_cons]
  joined p q s t := by
    rw [live_append, live_append, live_text_cons, live_text_cons, live_text_cons]

/-- Appending a program adds what needs rendering in it. -/
theorem live_append_program (p q : Program) : live (p.append q) = live p ++ live q :=
  (ignoresMerging_live.append p q).trans (live_append p q)

/-- **Building a program keeps what needs rendering.** -/
theorem live_ofSegments (segments : List Segment) : live (ofSegments segments) = live segments :=
  live_append_program [] segments

/-- What is collected from segments other than texts is collected from what needs rendering. -/
theorem flatMap_live {α : Type} {f : Segment → List α} (hf : ∀ s, f (.text s) = [])
    (p : List Segment) : (live p).flatMap f = p.flatMap f := by
  induction p with
  | nil => rfl
  | cons seg p ih =>
      have hseg : (live [seg]).flatMap f = f seg := by
        cases seg with
        | text s => exact (hf s).symm
        | code source e sides => exact List.flatMap_singleton f _
        | attr name value => exact List.flatMap_singleton f _
      rw [show live (seg :: p) = live [seg] ++ live p from live_append [seg] p, List.flatMap_append, ih,
        hseg, List.flatMap_cons]

/-- Nothing needs rendering if all segments are texts. -/
theorem live_eq_nil_iff {p : List Segment} : live p = [] ↔ ∀ seg ∈ p, seg.isText = true := by
  simp only [live, List.filter_eq_nil_iff, Bool.not_eq_true', Bool.not_eq_false]

/-- A normal program without anything to render is a single text, if it is not empty. -/
theorem Normal.eq_nil_or_text {p : Program} (h : p.Normal) (hlive : live p = []) :
    p = [] ∨ ∃ s, p = [.text s] := by
  have htexts := live_eq_nil_iff.mp hlive
  cases h with
  | nil => exact .inl rfl
  | @text q s _ hopen _ =>
      -- A text in front of the last one would stand beside it.
      cases hlast : q.getLast? with
      | none =>
          rw [List.getLast?_eq_none_iff.mp hlast]
          exact .inr ⟨s, rfl⟩
      | some seg =>
          have hseg := htexts seg (List.mem_append_left _ (List.mem_of_getLast? hlast))
          obtain ⟨t, rfl⟩ := Segment.eq_text_of_isText hseg
          exact absurd hlast (hopen t)
  | @other q seg _ hseg =>
      have hlast := htexts seg (List.mem_append_right _ List.mem_cons_self)
      obtain ⟨t, rfl⟩ := Segment.eq_text_of_isText hlast
      exact absurd rfl (hseg t)

end Program

namespace Layout

open Program

/-! ### Lines -/

/-- The line feeds between lines need no rendering. -/
theorem live_joinLines (lines : List Line) : live (joinLines lines) = live lines.flatten := by
  induction lines with
  | nil => rfl
  | cons line rest ih =>
      cases rest with
      | nil =>
          rw [joinLines, List.flatten_cons, List.flatten_nil, List.append_nil]
      | cons next rest =>
          show live (line ++ .text "\n" :: joinLines (next :: rest)) = _
          rw [live_append, live_text_cons, ih, ← live_append, ← List.flatten_cons]

/-- Parentheses and spaces around attributes need no rendering. -/
theorem live_attributionList (listed : List (List Segment)) :
    live (attributionList listed) = live listed.flatten := by
  have hspaced (rest : List (List Segment)) :
      live (rest.flatMap fun a => .text " " :: a) = live rest.flatten := by
    induction rest with
    | nil => rfl
    | cons a rest ih =>
        rw [List.flatMap_cons, live_append, ih, live_text_cons, List.flatten_cons, live_append]
  cases listed with
  | nil => rfl
  | cons first rest =>
      show live ((.text "(" :: first ++ rest.flatMap fun a => .text " " :: a) ++ [.text ")"]) = _
      rw [live_append, List.cons_append, live_text_cons, live_append, hspaced, List.flatten_cons,
        live_append]
      exact List.append_nil _

/-- In the head of a tag, only attributes may need rendering. -/
theorem live_headLine (closing : SelfClosing) (depth : Nat) (name : String)
    (attrs : Attributes (List Node) []) (content : Option (List Node))
    (listed : List (List Segment)) :
    live (headLine closing depth name attrs content listed) = live listed.flatten := by
  have hshort (h : Head) : live h.segments = [] := by
    obtain ⟨id, classes⟩ := h
    cases id <;> cases classes <;> rfl
  have hslash : live (slash closing name content) = [] := by
    unfold slash
    split <;> rfl
  unfold headLine
  rw [live_append, live_append, hslash, live_attributionList, List.append_nil]
  show live (Head.ofAttrs attrs).segments ++ _ = _
  rw [hshort, List.nil_append]

/-! ### Siblings -/

namespace Flow

variable {f : Flow}

/-- The segments of the run at the start and of the lines behind it. -/
def segments (f : Flow) : List Segment :=
  (f.run.elim [] Run.segments) ++ f.lines.flatten

/-- A run that counts as blank needs no rendering. -/
def BlankRun (f : Flow) : Prop :=
  ∀ r ∈ f.run, r.blank = true → live r.segments = []

/-- A run that is left out needs no rendering. -/
theorem live_lead? (hf : f.BlankRun) :
    live (f.lead?.getD []) = live (f.run.elim [] Run.segments) := by
  unfold lead?
  cases hrun : f.run with
  | none => rfl
  | some r =>
      by_cases hdrop : (r.blank && !f.lines.isEmpty) = true
      · show live ((if (r.blank && !f.lines.isEmpty) = true then none else some r.segments).getD []) = _
        rw [if_pos hdrop]
        rw [Bool.and_eq_true] at hdrop
        exact (hf r hrun hdrop.1).symm
      · show live ((if (r.blank && !f.lines.isEmpty) = true then none else some r.segments).getD []) = _
        rw [if_neg hdrop]
        rfl

/-- A run on a line of its own has no more to render behind its mark, and a blank one has nothing.
-/
theorem live_marked (hf : f.BlankRun) (depth : Nat) :
    live (f.marked depth).flatten = live (f.run.elim [] Run.segments) := by
  unfold marked
  cases hrun : f.run with
  | none => rfl
  | some r =>
      by_cases hblank : r.blank = true
      · show live (if r.blank = true then [] else _).flatten = live r.segments
        rw [if_pos hblank, hf r hrun hblank]
        rfl
      · show live (if r.blank = true then [] else _).flatten = live r.segments
        rw [if_neg hblank, List.flatten_cons, List.flatten_nil, List.append_nil]
        rfl

end Flow

variable {f : Flow} {p : Piece}

/-- **One more node in front comes in front.** -/
theorem live_add (hf : f.BlankRun) (depth : Nat) :
    live (f.add depth p).segments = live p.segments ++ live f.segments := by
  cases p with
  | inline segments blank =>
      cases hrun : f.run with
      | none => simp [Flow.add, Flow.segments, Piece.segments, hrun]
      | some r => simp [Flow.add, Flow.segments, Piece.segments, hrun]
  | block lines =>
      show live ([] ++ (lines ++ f.marked depth ++ f.lines).flatten) = live (joinLines lines) ++ _
      rw [List.nil_append, List.flatten_append, List.flatten_append, live_append, live_append,
        Flow.live_marked hf, live_joinLines, List.append_assoc, Flow.segments, live_append]

/-- The lines of a whole tree keep what needs rendering, in order. -/
theorem live_topLines (hf : f.BlankRun) : live (joinLines f.topLines) = live f.segments := by
  have hlead := Flow.live_lead? hf
  rw [live_joinLines, Flow.segments, live_append, ← hlead]
  unfold Flow.topLines
  cases f.lead? with
  | none => rfl
  | some run => rw [List.flatten_cons, live_append, Option.getD_some]

/-- The lines of a tag keep what needs rendering, in order. -/
theorem live_behind (hf : f.BlankRun) (head : Line) :
    live (joinLines (f.behind head)) = live head ++ live f.segments := by
  have hlead := Flow.live_lead? hf
  rw [live_joinLines, Flow.segments, live_append, ← hlead]
  unfold Flow.behind
  cases f.lead? with
  | none => rw [List.flatten_cons, live_append, Option.getD_none, live_nil, List.nil_append]
  | some run =>
      rw [List.flatten_cons, live_append, live_append, live_text_cons, Option.getD_some,
        List.append_assoc]

/-! ### What counts as blank -/

attribute [local irreducible] Expr.parse

/-- A stretch that counts as blank needs no rendering. -/
theorem live_of_blank {closing : SelfClosing} {depth : Nat} {n : Node} {segments : List Segment}
    (h : piece closing depth n = .ok (.inline segments true)) : live segments = [] := by
  cases n with
  | text s =>
      rw [piece_text, Except.ok.injEq, Piece.inline.injEq] at h
      rw [← h.1]
      rfl
  | code content sides =>
      rw [piece_code] at h
      split at h
      · cases h
      · obtain ⟨programs, -, h⟩ := bind_eq_ok_iff.mp h
        cases h
  | comment content => cases h
  | unknown type => cases h
  | tag name attrs content =>
      rw [piece_tag] at h
      obtain ⟨listed, -, h⟩ := bind_eq_ok_iff.mp h
      split at h
      · cases h
      · obtain ⟨inner, -, h⟩ := bind_eq_ok_iff.mp h
        cases h

/-- A run of siblings that counts as blank needs no rendering. -/
theorem flow_blankRun {closing : SelfClosing} {depth : Nat} (ns : List Node) :
    ∀ {f : Flow}, flow closing depth ns = .ok f → f.BlankRun := by
  induction ns with
  | nil =>
      intro f h
      rw [flow] at h
      cases h
      intro r hr
      cases hr
  | cons n rest ih =>
      intro f h
      rw [flow] at h
      obtain ⟨p, hp, h⟩ := bind_eq_ok_iff.mp h
      obtain ⟨g, hg, h⟩ := bind_eq_ok_iff.mp h
      cases h
      have hrest := ih hg
      cases p with
      | block lines =>
          intro r hr
          cases hr
      | inline segments blank =>
          cases hrun : g.run with
          | none =>
              simp only [Flow.add, hrun]
              rintro r ⟨⟩ rfl
              exact live_of_blank hp
          | some r' =>
              simp only [Flow.add, hrun]
              rintro r ⟨⟩ hblank
              obtain ⟨rfl, hblank'⟩ := Bool.and_eq_true_iff.mp hblank
              show live (segments ++ r'.segments) = []
              rw [live_append, live_of_blank hp, hrest r' hrun hblank', List.append_nil]

end Layout

end LineMarkup
