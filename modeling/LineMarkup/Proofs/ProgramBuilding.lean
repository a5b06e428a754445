import LineMarkup.Proofs.LineRendering
import LineMarkup.Proofs.LiveSegments
import Mathlib.Data.List.Chain

/-!
# Building programs

A program is put together step by step: text, segments and other programs are pushed behind what is there
already, and the programs inside a segment are put together in the same way.  However this is done, texts
are merged as far as they can be, at every depth, and what counts of the steps is only in which order
things were pushed: programs put behind one another can be grouped in any way, and rendering them is
rendering one after the other.

The laws of appending come from one fact.  What is told of a program without regard to how its texts are cut
cannot tell appending from plain concatenation, and rendering is of this kind, as are the joined texts and
appending to a fixed program.

That a program is one text can be seen at a glance.  Had a push left an empty text behind, or two
texts side by side, there would be programs without anything to render that are not a single text.

## Main Definitions

* `Recipe`, `Part` — the steps by which programs and their segments are put together
* `Recipe.program`, `Recipe.pushed` — the program that the steps lead to, and the texts that they push
* `Program.Merged`, `Program.inner` — no text left to merge, and the programs inside a program

## Main Statements

* `Program.append_assoc`, `Program.Normal.asStatic?_eq_some_iff` — appending, and programs of one text
* `Recipe.program_laws` — what holds of all programs that are put together
-/

namespace LineMarkup

/-! ### Merged programs -/

namespace Program

/-- No text is empty, and no two texts stand side by side. -/
structure Merged (p : Program) : Prop where
  texts : ∀ s, .text s ∈ p → s ≠ ""
  apart : p.IsChain fun seg next => ¬ (seg.isText = true ∧ next.isText = true)

/-- **A normal program is merged.** -/
theorem Normal.merged {p : Program} (h : p.Normal) : p.Merged := by
  induction h with
  | nil => exact ⟨fun s hs => absurd hs List.not_mem_nil, List.isChain_nil⟩
  | @text p s _ hopen hs ih =>
      refine ⟨fun t ht => ?_, List.isChain_append.mpr ⟨ih.apart, List.isChain_singleton _, ?_⟩⟩
      · rcases List.mem_append.mp ht with ht | ht
        · exact ih.texts t ht
        · cases List.mem_singleton.mp ht
          exact hs
      · intro seg hlast next _ hboth
        obtain ⟨t, rfl⟩ := Segment.eq_text_of_isText hboth.1
        exact hopen t hlast
  | @other p seg _ hseg ih =>
      refine ⟨fun t ht => ?_, List.isChain_append.mpr ⟨ih.apart, List.isChain_singleton _, ?_⟩⟩
      · rcases List.mem_append.mp ht with ht | ht
        · exact ih.texts t ht
        · exact absurd (List.mem_singleton.mp ht).symm (hseg t)
      · intro last _ next hnext hboth
        cases hnext
        obtain ⟨t, rfl⟩ := Segment.eq_text_of_isText hboth.2
        exact hseg t rfl

/-! ### Appending -/

/-- Pushing is appending what is pushed. -/
theorem push_eq_append (p : Program) (seg : Segment) : p.push seg = p.append [seg] := rfl

theorem pushText_eq_append (p : Program) (s : String) : p.pushText s = p.append [.text s] := rfl

/-- Two texts in a row are pushed as one. -/
theorem pushText_pushText (p : Program) (s t : String) :
    (p.pushText s).pushText t = p.pushText (s ++ t) := by
  rcases pushText_cases p s with ⟨rfl, hpush⟩ | ⟨⟨hopen, hs⟩, hpush⟩ | ⟨q, u, rfl, hpush⟩
  · rw [hpush, String.empty_append]
  · have hst : s ++ t ≠ "" := fun h => hs (String.append_eq_empty_iff.mp h).1
    rw [hpush, pushText_append_text, pushText_of_endsOpen hopen hst]
  · rw [hpush, pushText_append_text, pushText_append_text, String.append_assoc]

/-- Appending itself does not depend on how the texts of what is appended are cut. -/
theorem ignoresMerging_append (p : Program) : IgnoresMerging p.append where
  empty q r := by
    rw [append_append, append_append]
    show ((p.append q).pushText "").append r = _
    rw [pushText_empty]
  joined q r s t := by
    rw [append_append, append_append]
    show ((p.append q).pushText (s ++ t)).append r = (((p.append q).pushText s).pushText t).append r
    rw [pushText_pushText]

/-- **Programs behind one another can be grouped in any way.** -/
theorem append_assoc (p q r : Program) : (p.append q).append r = p.append (q.append r) := by
  rw [(ignoresMerging_append p).append, append_append]

/-- A program renders to what its two parts render to, one behind the other. -/
theorem render_append_eq (scope : Scope) (p q : Program) :
    render scope (p.append q) = do
      let first ← render scope p
      let second ← render scope q
      return first ++ second := by
  rw [(ignoresMerging_render scope).append, render_append]

/-! ### Texts -/

/-- The texts of a program, joined. -/
def joinedTexts : List Segment → String
  | [] => ""
  | .text s :: rest => s ++ joinedTexts rest
  | .code _ _ _ :: rest => joinedTexts rest
  | .attr _ _ :: rest => joinedTexts rest

/-- The texts of two lists in a row stay in order. -/
theorem joinedTexts_append (p q : List Segment) :
    joinedTexts (p ++ q) = joinedTexts p ++ joinedTexts q := by
  induction p with
  | nil => rw [List.nil_append, joinedTexts, String.empty_append]
  | cons seg p ih =>
      cases seg with
      | text s => rw [List.cons_append, joinedTexts, joinedTexts, ih, String.append_assoc]
      | code source e sides => rw [List.cons_append, joinedTexts, joinedTexts, ih]
      | attr name value => rw [List.cons_append, joinedTexts, joinedTexts, ih]

theorem joinedTexts_text (s : String) : joinedTexts [.text s] = s :=
  String.append_empty

/-- Merging texts does not change what they say. -/
theorem ignoresMerging_joinedTexts : IgnoresMerging joinedTexts where
  empty p q := by rw [joinedTexts_append, joinedTexts_append, joinedTexts, String.empty_append]
  joined p q s t := by
    rw [joinedTexts_append, joinedTexts_append, joinedTexts, joinedTexts, joinedTexts,
      String.append_assoc]

/-- Appending a program adds its texts. -/
theorem joinedTexts_append_program (p q : Program) :
    joinedTexts (p.append q) = joinedTexts p ++ joinedTexts q :=
  (ignoresMerging_joinedTexts.append p q).trans (joinedTexts_append p q)

/-- **A normal program is a single text, or empty, exactly if all its segments are texts.** -/
theorem Normal.asStatic?_eq_some_iff {p : Program} (h : p.Normal) (s : String) :
    p.asStatic? = some s ↔ live p = [] ∧ s = joinedTexts p := by
  constructor
  · intro hs
    rw [asStatic?.eq_def] at hs
    split at hs
    · cases hs
      exact ⟨rfl, rfl⟩
    · cases hs
      exact ⟨rfl, (joinedTexts_text s).symm⟩
    · cases hs
  · rintro ⟨hlive, rfl⟩
    rcases h.eq_nil_or_text hlive with rfl | ⟨t, rfl⟩
    · rfl
    · rw [joinedTexts_text]
      rfl

end Program

/-! ### Programs inside a program -/

mutual

/-- The programs inside a segment, at every depth. -/
def Segment.inner : Segment → List Program
  | .text _ => []
  | .code _ _ sides => Program.innerSides sides
  | .attr _ value => value :: Program.inner value

/-- The programs inside a program, at every depth. -/
def Program.inner : List Segment → List Program
  | [] => []
  | seg :: rest => seg.inner ++ Program.inner rest

def Program.innerSides : List (List Segment) → List Program
  | [] => []
  | side :: rest => side :: Program.inner side ++ Program.innerSides rest

end

namespace Program

/-- The programs inside are collected segment by segment. -/
theorem inner_eq_flatMap (p : List Segment) : inner p = p.flatMap Segment.inner := by
  induction p with
  | nil => rw [inner, List.flatMap_nil]
  | cons seg p ih => rw [inner, ih, List.flatMap_cons]

theorem inner_singleton (seg : Segment) : inner [seg] = seg.inner := by
  rw [inner, inner, List.append_nil]

/-- Texts have nothing inside. -/
theorem inner_eq_flatMap_live (p : List Segment) : inner p = (live p).flatMap Segment.inner := by
  rw [inner_eq_flatMap]
  exact (flatMap_live (fun _ => by rw [Segment.inner]) p).symm

/-- Appending a program adds the programs inside of it. -/
theorem inner_append_program (p q : Program) : inner (p.append q) = inner p ++ inner q := by
  rw [inner_eq_flatMap_live, live_append_program, List.flatMap_append, ← inner_eq_flatMap_live,
    ← inner_eq_flatMap_live]

end Program

/-! ### Recipes -/

mutual

/-- The steps by which a program is put together. -/
inductive Recipe where
  | new
  | pushText (r : Recipe) (s : String)
  | push (r : Recipe) (part : Part)
  | append (r other : Recipe)

/-- A segment to be pushed, with the steps for the programs inside it. -/
inductive Part where
  | text (s : String)
  | code (source : String) (expr : Expr) (sides : List Recipe)
  | attr (name : String) (value : Recipe)

end

mutual

/-- The program that the steps lead to. -/
def Recipe.program : Recipe → Program
  | .new => []
  | .pushText r s => r.program.pushText s
  | .push r part => r.program.push part.segment
  | .append r other => r.program.append other.program

def Part.segment : Part → Segment
  | .text s => .text s
  | .code source e sides => .code source e (Recipe.programs sides)
  | .attr name value => .attr name value.program

def Recipe.programs : List Recipe → List Program
  | [] => []
  | r :: rest => r.program :: Recipe.programs rest

end

def Part.pushed : Part → List String
  | .text s => [s]
  | .code _ _ _ => []
  | .attr _ _ => []

/-- The texts that are pushed, in order; those pushed for programs inside a segment do not count. -/
def Recipe.pushed : Recipe → List String
  | .new => []
  | .pushText r s => r.pushed ++ [s]
  | .push r part => r.pushed ++ part.pushed
  | .append r other => r.pushed ++ other.pushed

open Program

/-- What was pushed is what the program says. -/
theorem Recipe.joinedTexts_program : (r : Recipe) → joinedTexts r.program = String.join r.pushed
  | .new => rfl
  | .pushText r s => by
      rw [program, pushed, pushText_eq_append, joinedTexts_append_program, joinedTexts_program r,
        joinedTexts_text, String.join_append, String.join_cons, String.join_nil, String.append_empty]
  | .push r part => by
      have hpart : joinedTexts [part.segment] = String.join part.pushed := by
        cases part with
        | text s => exact (joinedTexts_text s).trans (by simp [Part.pushed])
        | code source e sides => rfl
        | attr name value => rfl
      rw [program, pushed, push_eq_append, joinedTexts_append_program, joinedTexts_program r, hpart,
        String.join_append]
  | .append r other => by
      rw [program, pushed, joinedTexts_append_program, joinedTexts_program r,
        joinedTexts_program other, String.join_append]

/-- **What the steps lead to is normal.** -/
theorem Recipe.normal : (r : Recipe) → r.program.Normal
  | .new => .nil
  | .pushText r s => r.normal.pushText s
  | .push r part => r.normal.push part.segment
  | .append r other => r.normal.append other.program

mutual

/-- The programs inside are put together by steps of their own. -/
theorem Recipe.normal_inner : (r : Recipe) → ∀ q ∈ Program.inner r.program, q.Normal
  | .new => fun _ hq => absurd hq List.not_mem_nil
  | .pushText r s => by
      rw [Recipe.program, pushText_eq_append, inner_append_program, inner_singleton, Segment.inner,
        List.append_nil]
      exact r.normal_inner
  | .push r part => by
      rw [Recipe.program, push_eq_append, inner_append_program, inner_singleton]
      exact List.forall_mem_append.mpr ⟨r.normal_inner, part.normal_inner⟩
  | .append r other => by
      rw [Recipe.program, inner_append_program]
      exact List.forall_mem_append.mpr ⟨r.normal_inner, other.normal_inner⟩

/-- The programs inside of a part are merged. -/
theorem Part.normal_inner : (part : Part) → ∀ q ∈ part.segment.inner, q.Normal
  | .text _ => fun _ hq => absurd hq List.not_mem_nil
  | .code _ _ sides => Recipe.normal_innerSides sides
  | .attr _ value => List.forall_mem_cons.mpr ⟨value.normal, value.normal_inner⟩

/-- The programs inside of side nodes are merged. -/
theorem Recipe.normal_innerSides : (sides : List Recipe) →
    ∀ q ∈ Program.innerSides (Recipe.programs sides), q.Normal
  | [] => fun _ hq => absurd hq List.not_mem_nil
  | side :: rest => by
      rw [Recipe.programs, Program.innerSides]
      exact List.forall_mem_append.mpr
        ⟨List.forall_mem_cons.mpr ⟨side.normal, side.normal_inner⟩, Recipe.normal_innerSides rest⟩

end

/-- **Putting programs together.**  Texts are merged as far as they can be, at every depth; appending can
be grouped in any way, with the empty program as its unit; what is appended is rendered one after the
other; and a program is a single text exactly if it holds nothing else, which is then all that was pushed
and what every rendering gives. -/
theorem Recipe.program_laws (a b c : Recipe) :
    (∀ q ∈ a.program :: inner a.program, q.Merged) ∧
    ((a.program.append b.program).append c.program =
        a.program.append (b.program.append c.program) ∧
      Recipe.new.program.append a.program = a.program ∧
      a.program.append Recipe.new.program = a.program) ∧
    (∀ scope, render scope (a.program.append b.program) = do
      let first ← render scope a.program
      let second ← render scope b.program
      return first ++ second) ∧
    (∀ s, a.program.asStatic? = some s ↔
      (∀ seg ∈ a.program, seg.isText = true) ∧ s = String.join a.pushed) ∧
    (∀ s, a.program.asStatic? = some s → ∀ scope, render scope a.program = .ok s) := by
  refine ⟨List.forall_mem_cons.mpr ⟨a.normal.merged, fun q hq => (a.normal_inner q hq).merged⟩,
    ⟨append_assoc _ _ _, ?_, ?_⟩, fun scope => render_append_eq scope _ _, fun s => ?_,
    fun s hs scope => render_of_asStatic scope hs⟩
  · rw [Recipe.program]
    exact a.normal.ofSegments_eq
  · rw [Recipe.program, append_nil]
  · rw [a.normal.asStatic?_eq_some_iff, a.joinedTexts_program, live_eq_nil_iff]

/-- The value of the attribute has text at its seam, and an empty push in front of that. -/
theorem Recipe.program_laws_seams :
    let value : Recipe := .append (.pushText (.pushText .new "x") "") (.pushText .new "y")
    let whole : Recipe := .push (.pushText .new "a") (.attr "id" value)
    value.program ∈ inner whole.program ∧ value.program.Merged ∧
      ∀ scope, render scope value.program = .ok "xy" := by
  intro value whole
  obtain ⟨hmerged, -⟩ := Recipe.program_laws whole .new .new
  obtain ⟨-, -, -, hstatic, hrender⟩ := Recipe.program_laws value .new .new
  have hinner : value.program ∈ inner whole.program := List.mem_cons_self
  refine ⟨hinner, hmerged _ (List.mem_cons_of_mem _ hinner), hrender "xy" ?_⟩
  exact (hstatic "xy").mpr ⟨by decide, by decide⟩

end LineMarkup
