import LineMarkup.Proofs.LayoutRefinement
import LineMarkup.Proofs.ProgramBuilding
import Mathlib.Logic.Relation

/-!
# Retouched trees

Two kinds of changes to a markup tree leave no mark in the template that it becomes.  Blank text may be
put among tags and comments, or taken away there, where it joins no run of text and expressions.  And a text
may be cut into several nodes, as texts are merged again when the program is made.

Neither goes without a proviso.  Blank text is dropped only where siblings make lines of their own, and next
to an expression it belongs to the run of that expression.  A text that is the whole value of an `id` or
`class` may be written in its short form, and two texts are not.

Cutting a text changes the segments of a run, but not the program that they make, so lists of segments are
compared by the programs that they make.  Blank text changes more: the run that a list starts with is there
or not.  It does not change what is seen of the list as a whole, a run that is kept and lines; and behind a
tag or comment it changes nothing at all.  So blank text is dealt with up to the block before it, and what
stands before that block never notices.

## Main Definitions

* `Node.Retouched`, `Node.SiblingsRetouched`, `Node.ValueRetouched` — one change, at any depth
* `Layout.Piece.merged`, `Layout.Flow.merged` — what nodes contribute, up to the cutting of texts
* `Layout.Flow.seen` — what becomes of a list of siblings as a whole

## Main Statements

* `Layout.flow_blank` — blank text among tags and comments is not seen
* `Layout.piece_retouched` — what one change in a node does to its contribution
* `Template.ofNodes_eq_of_retouched` — any number of changes leave the template as it is
-/

namespace LineMarkup

/-! ### Trees with a change -/

namespace Node

/-- Tags and comments. -/
def isBlock : Node → Bool
  | tag .. => true
  | comment _ => true
  | _ => false

mutual

/-- A node with one change inside. -/
inductive Retouched : Node → Node → Prop where
  | body (name : String) (attrs : Option (Attributes (List Node) [])) {ns ns' : List Node} :
      SiblingsRetouched ns ns' → Retouched (.tag name attrs (some ns)) (.tag name attrs (some ns'))
  | attrs (name : String) {as as' : Attributes (List Node) []} (content : Option (List Node)) :
      AttrsRetouched as as' → Retouched (.tag name (some as) content) (.tag name (some as') content)
  | side (content : String) (before after : List Node) {n n' : Node} : Retouched n n' →
      Retouched (.code content (some (before ++ n :: after)))
        (.code content (some (before ++ n' :: after)))

/-- Siblings with one change: a blank text more, where no text or expression is next to it; a text in
several pieces; or a change inside one of them. -/
inductive SiblingsRetouched : List Node → List Node → Prop where
  | blank (before after : List Node) (s : String) : (∃ n ∈ before ++ after, n.isBlock = true) →
      Text.allBlank s = true → (∀ n ∈ before.getLast?, n.isInline = false) →
      (∀ n ∈ after.head?, n.isInline = false) →
      SiblingsRetouched (before ++ after) (before ++ .text s :: after)
  | cut (before after : List Node) (pieces : List String) : pieces ≠ [] →
      SiblingsRetouched (before ++ .text (String.join pieces) :: after)
        (before ++ (pieces.map .text ++ after))
  | inside (before after : List Node) {n n' : Node} : Retouched n n' →
      SiblingsRetouched (before ++ n :: after) (before ++ n' :: after)

/-- Attributes with one change in a value. -/
inductive AttrsRetouched : {before : List String} →
    Attributes (List Node) before → Attributes (List Node) before → Prop where
  | here {before : List String} {key : String} {value value' : List Node}
      (rest : Attributes (List Node) (key :: before)) (fresh : key ∉ before) :
      ValueRetouched key value value' →
      AttrsRetouched (.cons key value rest fresh) (.cons key value' rest fresh)
  | there {before : List String} (key : String) (value : List Node)
      {rest rest' : Attributes (List Node) (key :: before)} (fresh : key ∉ before) :
      AttrsRetouched rest rest' →
      AttrsRetouched (.cons key value rest fresh) (.cons key value rest' fresh)

/-- The value of an attribute with one change: a text in several pieces, unless it is all of the value
of an `id` or `class`; or a change inside a node. -/
inductive ValueRetouched : String → List Node → List Node → Prop where
  | cut {key : String} (before after : List Node) (pieces : List String) : pieces ≠ [] →
      (key = "id" ∨ key = "class" → before ++ after ≠ []) →
      ValueRetouched key (before ++ .text (String.join pieces) :: after)
        (before ++ (pieces.map .text ++ after))
  | inside (key : String) (before after : List Node) {n n' : Node} : Retouched n n' →
      ValueRetouched key (before ++ n :: after) (before ++ n' :: after)

end

end Node

/-! ### Segments that make the same program -/

namespace Program

/-- Merging twice is merging once. -/
theorem ofSegments_ofSegments (p : List Segment) : ofSegments (ofSegments p) = ofSegments p :=
  (normal_ofSegments p).ofSegments_eq

/-- The program of two lists of segments is known from the programs of the two. -/
theorem ofSegments_append (p q : List Segment) :
    ofSegments (p ++ q) = ofSegments (ofSegments p ++ ofSegments q) := by
  have hcut (p q : List Segment) : ofSegments (p ++ q) = (ofSegments p).append (ofSegments q) := by
    rw [ofSegments, append_append]
    exact ((ignoresMerging_append (ofSegments p)).append [] q).symm
  rw [hcut p q, hcut (ofSegments p), ofSegments_ofSegments, ofSegments_ofSegments]

/-- Segments in a row merge alike if their parts do. -/
theorem ofSegments_append_congr {p p' q q' : List Segment} (hp : ofSegments p = ofSegments p')
    (hq : ofSegments q = ofSegments q') : ofSegments (p ++ q) = ofSegments (p' ++ q') := by
  rw [ofSegments_append p, ofSegments_append p', hp, hq]

/-- A text in two segments. -/
theorem ofSegments_text_append (s t : String) (p : List Segment) :
    ofSegments (.text (s ++ t) :: p) = ofSegments (.text s :: .text t :: p) :=
  (ignoresMerging_append []).joined [] p s t

end Program

/-- A step whose result is used up to a view of it only. -/
theorem bind_congr_of_map_eq {ε α β γ : Type} {x x' : Except ε α} {v : α → γ}
    {k k' : α → Except ε β} (hx : x.map v = x'.map v)
    (hk : ∀ a a', v a = v a' → k a = k' a') : x >>= k = x' >>= k' := by
  cases x with
  | error e =>
      cases x' with
      | error e' =>
          obtain rfl := Except.error.inj hx
          rfl
      | ok a' => cases hx
  | ok a =>
      cases x' with
      | error e' => cases hx
      | ok a' => exact hk a a' (Except.ok.inj hx)

/-- The same where the result of the second step is used up to a view as well. -/
theorem map_bind_congr {ε α β γ δ : Type} {x x' : Except ε α} {v : α → γ} {w : β → δ}
    {k k' : α → Except ε β} (hx : x.map v = x'.map v)
    (hk : ∀ a a', v a = v a' → (k a).map w = (k' a').map w) :
    (x >>= k).map w = (x' >>= k').map w := by
  have hmap (x : Except ε α) (k : α → Except ε β) :
      (x >>= k).map w = x >>= fun a => (k a).map w := by
    cases x <;> rfl
  rw [hmap, hmap]
  exact bind_congr_of_map_eq hx hk

namespace Layout

open Program

/-- Lines that merge alike are joined to segments that do. -/
theorem ofSegments_joinLines {lines lines' : List Line}
    (h : lines.map ofSegments = lines'.map ofSegments) :
    ofSegments (joinLines lines) = ofSegments (joinLines lines') := by
  have hmerged (lines : List Line) :
      ofSegments (joinLines lines) = ofSegments (joinLines (lines.map ofSegments)) := by
    induction lines with
    | nil => rfl
    | cons line rest ih =>
        cases rest with
        | nil => exact (ofSegments_ofSegments line).symm
        | cons next rest =>
            refine ofSegments_append_congr (ofSegments_ofSegments line).symm ?_
            exact ofSegments_append_congr (p := [.text "\n"]) rfl ih
  rw [hmerged lines, hmerged lines', h]

/-- What does not see that a text is cut in two, whatever is in front of it, does not see that it is
cut into any number of pieces. -/
theorem eq_of_cut {γ : Type} (v : List Node → γ)
    (hcut : ∀ s t after, v (.text (s ++ t) :: after) = v (.text s :: .text t :: after))
    (hcons : ∀ s ns ns', v ns = v ns' → v (.text s :: ns) = v (.text s :: ns'))
    {pieces : List String} (hpieces : pieces ≠ []) (after : List Node) :
    v (.text (String.join pieces) :: after) = v (pieces.map .text ++ after) := by
  induction pieces with
  | nil => exact absurd rfl hpieces
  | cons s pieces ih =>
      rw [String.join_cons]
      cases pieces with
      | nil =>
          rw [String.join_nil, String.append_empty]
          rfl
      | cons t pieces => exact (hcut s _ after).trans (hcons s _ _ (ih (List.cons_ne_nil _ _)))

/-! ### Contributions up to the cutting of texts -/

/-- What a node contributes, with the texts in each list of segments merged. -/
def Piece.merged : Piece → Piece
  | inline segments blank => inline (ofSegments segments) blank
  | block lines => block (lines.map ofSegments)

/-- What siblings contribute, with the texts in each list of segments merged. -/
def Flow.merged (f : Flow) : Flow :=
  ⟨f.run.map fun r => ⟨ofSegments r.segments, r.blank⟩, f.lines.map ofSegments⟩

/-- What becomes of siblings as a whole: the run that goes on the line before, and the lines. -/
def Flow.seen (f : Flow) : Option Program × List Program :=
  (f.lead?.map ofSegments, f.lines.map ofSegments)

/-- Nodes that contribute the same up to merging do so by themselves. -/
theorem Piece.segments_congr {p p' : Piece} (h : p.merged = p'.merged) :
    ofSegments p.segments = ofSegments p'.segments := by
  cases p with
  | inline segments blank =>
      cases p' with
      | inline segments' blank' => exact (Piece.inline.inj h).1
      | block lines' => cases h
  | block lines =>
      cases p' with
      | inline segments' blank' => cases h
      | block lines' => exact ofSegments_joinLines (Piece.block.inj h)

namespace Flow

/-- A run on a line of its own is merged as the run is. -/
theorem map_marked (f : Flow) (depth : Nat) :
    (f.marked depth).map ofSegments = (f.merged.marked depth).map ofSegments := by
  obtain ⟨run, lines⟩ := f
  cases run with
  | none => rfl
  | some r =>
      obtain ⟨segments, blank⟩ := r
      cases blank with
      | true => rfl
      | false =>
          exact congrArg (fun p => [p])
            (ofSegments_append_congr (p := [indent depth, .text "| "]) rfl
              (ofSegments_ofSegments segments).symm)

/-- Adding a node does not look at how texts are cut. -/
theorem merged_add (f : Flow) (depth : Nat) (p : Piece) :
    (f.add depth p).merged = (f.merged.add depth p.merged).merged := by
  cases p with
  | block lines =>
      have hidem : ofSegments ∘ ofSegments = ofSegments := funext ofSegments_ofSegments
      have hmarked := f.map_marked depth
      simp only [Flow.add, Flow.merged, Piece.merged, List.map_append, List.map_map, hidem,
        Option.map_none] at hmarked ⊢
      rw [hmarked]
  | inline segments blank =>
      obtain ⟨run, lines⟩ := f
      have hidem : ofSegments ∘ ofSegments = ofSegments := funext ofSegments_ofSegments
      cases run with
      | none =>
          simp only [Flow.add, Flow.merged, Piece.merged, Option.map_none, Option.map_some,
            List.map_map, hidem, ofSegments_ofSegments]
      | some r =>
          simp only [Flow.add, Flow.merged, Piece.merged, Option.map_some, List.map_map, hidem]
          rw [ofSegments_append]

/-- What becomes of siblings does not depend on how their texts are cut. -/
theorem seen_merged (f : Flow) : f.merged.seen = f.seen := by
  obtain ⟨run, lines⟩ := f
  have hidem : ofSegments ∘ ofSegments = ofSegments := funext ofSegments_ofSegments
  have hlines : (lines.map ofSegments).map ofSegments = lines.map ofSegments := by
    rw [List.map_map, hidem]
  cases run with
  | none => exact congrArg (Prod.mk none) hlines
  | some r =>
      obtain ⟨segments, blank⟩ := r
      have hempty : (lines.map ofSegments).isEmpty = lines.isEmpty := List.isEmpty_map
      refine Prod.ext ?_ hlines
      show (if blank && !(lines.map ofSegments).isEmpty then none
          else some (ofSegments segments)).map ofSegments =
        (if blank && !lines.isEmpty then none else some segments).map ofSegments
      rw [hempty]
      split
      · rfl
      · exact congrArg some (ofSegments_ofSegments segments)

theorem map_seen_congr {x x' : Except LayoutError Flow} (h : x.map merged = x'.map merged) :
    x.map seen = x'.map seen := by
  have hseen (x : Except LayoutError Flow) : (x.map merged).map seen = x.map seen := by
    cases x with
    | error e => rfl
    | ok f => exact congrArg Except.ok f.seen_merged
  rw [← hseen x, h, hseen x']

/-- The lines of a tree are known from what becomes of the siblings. -/
theorem map_topLines {f f' : Flow} (h : f.seen = f'.seen) :
    f.topLines.map ofSegments = f'.topLines.map ofSegments := by
  have htop (f : Flow) : f.topLines.map ofSegments = f.seen.1.toList ++ f.seen.2 := by
    unfold topLines seen
    cases f.lead? <;> rfl
  rw [htop f, htop f', h]

/-- The lines of a tag are known from its head and what becomes of the siblings. -/
theorem map_behind {f f' : Flow} (h : f.seen = f'.seen) {head head' : Line}
    (hhead : ofSegments head = ofSegments head') :
    (f.behind head).map ofSegments = (f'.behind head').map ofSegments := by
  have hlead : f.lead?.map ofSegments = f'.lead?.map ofSegments := congrArg Prod.fst h
  have hlines : f.lines.map ofSegments = f'.lines.map ofSegments := congrArg Prod.snd h
  unfold behind
  generalize f.lead? = lead, f'.lead? = lead' at hlead ⊢
  cases lead with
  | none =>
      cases lead' with
      | none => exact List.cons_eq_cons.mpr ⟨hhead, hlines⟩
      | some run' => cases hlead
  | some run =>
      cases lead' with
      | none => cases hlead
      | some run' =>
          have hrun : ofSegments run = ofSegments run' := Option.some.inj hlead
          refine List.cons_eq_cons.mpr ⟨ofSegments_append_congr hhead ?_, hlines⟩
          exact ofSegments_append_congr (p := [.text " "]) rfl hrun

end Flow

/-! ### Siblings with a change -/

section Siblings

variable {closing : SelfClosing} {depth : Nat}

/-- What stands in front does not notice how the texts behind it are cut. -/
theorem flow_prepend {ns ns' : List Node}
    (h : (flow closing depth ns).map Flow.merged = (flow closing depth ns').map Flow.merged)
    (before : List Node) : (flow closing depth (before ++ ns)).map Flow.merged =
      (flow closing depth (before ++ ns')).map Flow.merged := by
  induction before with
  | nil => exact h
  | cons n before ih =>
      rw [List.cons_append, List.cons_append, flow, flow]
      refine map_bind_congr (v := id) rfl fun p p' hp => map_bind_congr ih fun f f' hf => ?_
      obtain rfl : p = p' := hp
      refine congrArg Except.ok ?_
      rw [Flow.merged_add, hf, ← Flow.merged_add]

/-- Siblings that contribute the same do so behind others. -/
theorem flow_append_congr {ns ns' : List Node} (h : flow closing depth ns = flow closing depth ns')
    (before : List Node) :
    flow closing depth (before ++ ns) = flow closing depth (before ++ ns') := by
  induction before with
  | nil => exact h
  | cons n before ih => rw [List.cons_append, List.cons_append, flow, flow, ih]

/-- A list of siblings that is changed in one node. -/
theorem flow_inside {n n' : Node}
    (h : (piece closing depth n).map Piece.merged = (piece closing depth n').map Piece.merged)
    (before after : List Node) : (flow closing depth (before ++ n :: after)).map Flow.merged =
      (flow closing depth (before ++ n' :: after)).map Flow.merged := by
  refine flow_prepend ?_ before
  rw [flow, flow]
  refine map_bind_congr h fun p p' hp => map_bind_congr (v := id) rfl fun f f' hf => ?_
  obtain rfl : f = f' := hf
  refine congrArg Except.ok ?_
  rw [Flow.merged_add, hp, ← Flow.merged_add]

theorem allBlank_append (s t : String) :
    Text.allBlank (s ++ t) = (Text.allBlank s && Text.allBlank t) := by
  rw [Text.allBlank, Text.allBlank, Text.allBlank, String.toList_append, List.all_append]

/-- A text in two pieces is added as the text is. -/
theorem merged_add_text_append (f : Flow) (s t : String) :
    (f.add depth (.inline [.text (s ++ t)] (Text.allBlank (s ++ t)))).merged =
      ((f.add depth (.inline [.text t] (Text.allBlank t))).add depth
        (.inline [.text s] (Text.allBlank s))).merged := by
  rw [allBlank_append]
  obtain ⟨run, lines⟩ := f
  cases run with
  | none =>
      refine congrArg (fun p => Flow.mk (some ⟨p, _⟩) _) ?_
      exact ofSegments_text_append s t []
  | some r =>
      show Flow.mk (some ⟨ofSegments (.text (s ++ t) :: r.segments), _ && _⟩) _ =
        Flow.mk (some ⟨ofSegments (.text s :: .text t :: r.segments), _ && (_ && _)⟩) _
      rw [ofSegments_text_append, Bool.and_assoc]
      rfl

/-- A text in two pieces. -/
theorem flow_text_append (s t : String) (after : List Node) :
    (flow closing depth (.text (s ++ t) :: after)).map Flow.merged =
      (flow closing depth (.text s :: .text t :: after)).map Flow.merged := by
  rw [flow, flow, flow, piece_text, piece_text, piece_text]
  cases flow closing depth after with
  | error e => rfl
  | ok f => exact congrArg Except.ok (merged_add_text_append f s t)

/-- A text in any number of pieces. -/
theorem flow_cut {pieces : List String} (hpieces : pieces ≠ []) (after : List Node) :
    (flow closing depth (.text (String.join pieces) :: after)).map Flow.merged =
      (flow closing depth (pieces.map .text ++ after)).map Flow.merged :=
  eq_of_cut (fun ns => (flow closing depth ns).map Flow.merged) flow_text_append
    (fun s _ _ h => flow_prepend h [.text s]) hpieces after

/-- Siblings of which the first one starts a line have no run in front. -/
theorem run_eq_none_of_head {ns : List Node} (hns : ∀ n ∈ ns.head?, n.isInline = false) {f : Flow}
    (h : flow closing depth ns = .ok f) : f.run = none := by
  cases ns with
  | nil =>
      cases h
      rfl
  | cons n ns =>
      rw [flow] at h
      obtain ⟨p, hp, h⟩ := bind_eq_ok_iff.mp h
      obtain ⟨f, -, h⟩ := bind_eq_ok_iff.mp h
      cases h
      have hfits := piece_fits hp
      cases p with
      | inline segments blank =>
          have hinline : n.isInline = false := hns n rfl
          rw [hfits.1] at hinline
          cases hinline
      | block lines => rfl

/-- Blank text in front of a block is a run in front of lines, which is dropped. -/
theorem flow_blank_front {after : List Node} {s : String} (hs : Text.allBlank s = true)
    (hblock : ∃ n ∈ after, n.isInline = false) (hafter : ∀ n ∈ after.head?, n.isInline = false) :
    (flow closing depth after).map Flow.seen =
      (flow closing depth (.text s :: after)).map Flow.seen := by
  rw [flow, piece_text, hs]
  cases hflow : flow closing depth after with
  | error e => rfl
  | ok f =>
      have hrun := run_eq_none_of_head hafter hflow
      have hlines : f.lines.isEmpty = false := by
        rw [(flow_fits hflow).lines, List.all_eq_false]
        obtain ⟨n, hn, hinline⟩ := hblock
        exact ⟨n, hn, by rw [hinline]; exact Bool.false_ne_true⟩
      refine congrArg Except.ok ?_
      obtain ⟨run, lines⟩ := f
      obtain rfl : run = none := hrun
      obtain ⟨line, lines, rfl⟩ := List.exists_cons_of_ne_nil (List.isEmpty_eq_false_iff.mp hlines)
      rfl

/-- Blank text behind a block is a run that is dropped from the lines behind it. -/
theorem flow_blank_behind {n : Node} {after : List Node} {s : String} (hs : Text.allBlank s = true)
    (hn : n.isInline = false) (hafter : ∀ n ∈ after.head?, n.isInline = false) :
    flow closing depth (n :: after) = flow closing depth (n :: .text s :: after) := by
  rw [flow, flow, flow, piece_text, hs]
  cases hpiece : piece closing depth n with
  | error e => rfl
  | ok p =>
      cases hflow : flow closing depth after with
      | error e => rfl
      | ok f =>
          have hrun := run_eq_none_of_head hafter hflow
          have hfits := piece_fits hpiece
          refine congrArg Except.ok ?_
          obtain ⟨run, lines⟩ := f
          obtain rfl : run = none := hrun
          cases p with
          | inline segments blank => exact absurd (hfits.1.symm.trans hn) Bool.noConfusion
          | block lines => rfl

/-- **Blank text among tags and comments is not seen.** -/
theorem flow_blank {before after : List Node} {s : String}
    (hblock : ∃ n ∈ before ++ after, n.isInline = false) (hs : Text.allBlank s = true)
    (hbefore : ∀ n ∈ before.getLast?, n.isInline = false)
    (hafter : ∀ n ∈ after.head?, n.isInline = false) :
    (flow closing depth (before ++ after)).map Flow.seen =
      (flow closing depth (before ++ .text s :: after)).map Flow.seen := by
  rcases List.eq_nil_or_concat' before with rfl | ⟨before, n, rfl⟩
  · exact flow_blank_front hs hblock hafter
  · have hn : n.isInline = false := hbefore n (by rw [List.getLast?_concat]; rfl)
    rw [List.append_assoc, List.append_assoc]
    exact congrArg (Except.map Flow.seen)
      (flow_append_congr (flow_blank_behind hs hn hafter) before)

end Siblings

/-! ### Values and side lists with a change -/

section Values

variable {closing : SelfClosing}

/-- Parts of a value that merge alike do so behind others. -/
theorem parts_append_congr {ns ns' : List Node}
    (h : (parts closing ns).map ofSegments = (parts closing ns').map ofSegments)
    (before : List Node) : (parts closing (before ++ ns)).map ofSegments =
      (parts closing (before ++ ns')).map ofSegments := by
  induction before with
  | nil => exact h
  | cons n before ih =>
      rw [List.cons_append, List.cons_append, parts, parts]
      refine map_bind_congr (v := id) rfl fun p p' hp => map_bind_congr ih fun _ _ hothers => ?_
      obtain rfl : p = p' := hp
      exact congrArg Except.ok (ofSegments_append_congr rfl hothers)

/-- A value that is changed in one node. -/
theorem parts_inside {n n' : Node}
    (h : (piece closing 0 n).map Piece.merged = (piece closing 0 n').map Piece.merged)
    (before after : List Node) : (parts closing (before ++ n :: after)).map ofSegments =
      (parts closing (before ++ n' :: after)).map ofSegments := by
  refine parts_append_congr ?_ before
  rw [parts, parts]
  refine map_bind_congr h fun p p' hp => map_bind_congr (v := id) rfl fun others _ hothers => ?_
  obtain rfl := hothers
  exact congrArg Except.ok (ofSegments_append_congr (Piece.segments_congr hp) rfl)

/-- A text in two pieces. -/
theorem parts_text_append (s t : String) (after : List Node) :
    (parts closing (.text (s ++ t) :: after)).map ofSegments =
      (parts closing (.text s :: .text t :: after)).map ofSegments := by
  rw [parts, parts, parts, piece_text, piece_text, piece_text]
  cases parts closing after with
  | error e => rfl
  | ok others => exact congrArg Except.ok (ofSegments_text_append s t others)

/-- A value with a text in any number of pieces. -/
theorem parts_cut {pieces : List String} (hpieces : pieces ≠ []) (after : List Node) :
    (parts closing (.text (String.join pieces) :: after)).map ofSegments =
      (parts closing (pieces.map .text ++ after)).map ofSegments :=
  eq_of_cut (fun ns => (parts closing ns).map ofSegments) parts_text_append
    (fun s _ _ h => parts_append_congr h [.text s]) hpieces after

/-- A side list that is changed in one node. -/
theorem sidePrograms_inside {n n' : Node}
    (h : (piece closing 0 n).map Piece.merged = (piece closing 0 n').map Piece.merged)
    (before after : List Node) :
    sidePrograms closing (before ++ n :: after) = sidePrograms closing (before ++ n' :: after) := by
  induction before with
  | nil =>
      rw [List.nil_append, List.nil_append, sidePrograms, sidePrograms]
      refine bind_congr_of_map_eq h fun p p' hp => ?_
      rw [Piece.segments_congr hp]
  | cons m before ih => rw [List.cons_append, List.cons_append, sidePrograms, sidePrograms, ih]

end Values

end Layout

/-! ### What a change does not touch -/

namespace Node

theorem isInline_of_isBlock {n : Node} (h : n.isBlock = true) : n.isInline = false := by
  cases n with
  | text s => cases h
  | code content sides => cases h
  | comment s => rfl
  | unknown type => rfl
  | tag name attrs content => rfl

/-- Changed inside are expressions and tags only. -/
theorem Retouched.ne_text {n n' : Node} (h : Retouched n n') (s : String) :
    n ≠ .text s ∧ n' ≠ .text s := by
  cases h <;> exact ⟨Node.noConfusion, Node.noConfusion⟩

/-- Only texts are blank, and no text has a change inside. -/
theorem Retouched.isBlankText {n n' : Node} (h : Retouched n n') :
    n.isBlankText = false ∧ n'.isBlankText = false := by
  cases h <;> exact ⟨rfl, rfl⟩

/-- The pieces of a text are blank if the text is. -/
theorem all_isBlankText_pieces (pieces : List String) :
    (pieces.map Node.text).all Node.isBlankText = Text.allBlank (String.join pieces) := by
  induction pieces with
  | nil => rfl
  | cons s pieces ih =>
      rw [List.map_cons, List.all_cons, ih, String.join_cons, Layout.allBlank_append]
      rfl

/-- Whether a tag has a body does not change. -/
theorem SiblingsRetouched.all_isBlankText {ns ns' : List Node} (h : SiblingsRetouched ns ns') :
    ns.all Node.isBlankText = ns'.all Node.isBlankText := by
  cases h with
  | blank before after s _ hs _ _ =>
      have htext : Node.isBlankText (.text s) = true := hs
      rw [List.all_append, List.all_append, List.all_cons, htext, Bool.true_and]
  | cut before after pieces _ =>
      rw [List.all_append, List.all_append, List.all_append, List.all_cons, all_isBlankText_pieces]
      rfl
  | inside before after h =>
      rw [List.all_append, List.all_append, List.all_cons, List.all_cons, h.isBlankText.1,
        h.isBlankText.2]

/-- The value of an `id` or `class` is no single text, neither before a change nor after it. -/
theorem ValueRetouched.ne_text {key : String} {value value' : List Node}
    (h : ValueRetouched key value value') (hkey : key = "id" ∨ key = "class") (s : String) :
    value ≠ [.text s] ∧ value' ≠ [.text s] := by
  cases h with
  | cut before after pieces hpieces hsole =>
      have hothers : 0 < before.length + after.length := by
        rw [← List.length_append]
        exact List.length_pos_iff.mpr (hsole hkey)
      have hlength : 0 < pieces.length := List.length_pos_iff.mpr hpieces
      constructor
      · intro h
        have := congrArg List.length h
        simp only [List.length_append, List.length_cons, List.length_nil] at this
        omega
      · intro h
        have := congrArg List.length h
        simp only [List.length_append, List.length_map, List.length_cons, List.length_nil] at this
        omega
  | @inside _ before after n n' h =>
      refine ⟨fun hvalue => (h.ne_text s).1 ?_, fun hvalue => (h.ne_text s).2 ?_⟩
      · have hmem : n ∈ [Node.text s] := hvalue ▸ List.mem_append_right _ List.mem_cons_self
        exact List.mem_singleton.mp hmem
      · have hmem : n' ∈ [Node.text s] := hvalue ▸ List.mem_append_right _ List.mem_cons_self
        exact List.mem_singleton.mp hmem

end Node

namespace Layout

open Program

/-- The value of an `id` or `class` is no single text, neither before a change nor after it, or it is
not changed. -/
theorem get?_of_attrsRetouched {name : String} (hname : name = "id" ∨ name = "class")
    {before : List String} {as as' : Attributes (List Node) before}
    (h : Node.AttrsRetouched as as') :
    as.get? name = as'.get? name ∨
      (∀ s, as.get? name ≠ some [.text s]) ∧ ∀ s, as'.get? name ≠ some [.text s] := by
  induction as with
  | nil => cases h
  | cons key value rest fresh ih =>
      cases h with
      | here _ _ hvalue =>
          rw [Attributes.get?_cons, Attributes.get?_cons]
          by_cases hkey : key = name
          · rw [if_pos hkey, if_pos hkey]
            have hne := hvalue.ne_text (hkey ▸ hname)
            exact .inr ⟨fun s hs => (hne s).1 (Option.some.inj hs),
              fun s hs => (hne s).2 (Option.some.inj hs)⟩
          · rw [if_neg hkey, if_neg hkey]
            exact .inl rfl
      | there _ _ _ hrest =>
          rw [Attributes.get?_cons, Attributes.get?_cons]
          split
          · exact .inl rfl
          · exact ih hrest

/-- The short forms of a tag do not change. -/
theorem ofAttrs_retouched {as as' : Attributes (List Node) []} (h : Node.AttrsRetouched as as') :
    Head.ofAttrs as = Head.ofAttrs as' :=
  ofAttrs_congr fun _ hname => get?_of_attrsRetouched hname h

attribute [local irreducible] Expr.parse

variable {closing : SelfClosing}

mutual

/-- **What one change in a node does to its contribution**: texts are cut in another way, no more. -/
theorem piece_retouched : {n n' : Node} → Node.Retouched n n' → (depth : Nat) →
    (piece closing depth n).map Piece.merged = (piece closing depth n').map Piece.merged
  | _, _, @Node.Retouched.body name attrs ns ns' h, depth => by
      have hbody : Node.hasNoBody (some ns) = Node.hasNoBody (some ns') := h.all_isBlankText
      have hhead (listed : List (List Segment)) :
          headLine closing depth name (attrs.getD .nil) (some ns) listed =
            headLine closing depth name (attrs.getD .nil) (some ns') listed := by
        rw [headLine, headLine, slash, slash, hbody]
      rw [piece_tag, piece_tag, hbody]
      refine map_bind_congr (v := id) rfl fun listed _ hlisted => ?_
      obtain rfl := hlisted
      rw [hhead]
      split
      · rfl
      · refine map_bind_congr (siblings_retouched h (depth + 1)) fun f f' hf => ?_
        exact congrArg (fun lines => Except.ok (Piece.block lines)) (Flow.map_behind hf rfl)
  | _, _, @Node.Retouched.attrs name as as' content h, depth => by
      have hshort := ofAttrs_retouched h
      have hhead (listed : List (List Segment)) :
          headLine closing depth name as content listed =
            headLine closing depth name as' content listed := by
        rw [headLine, headLine, hshort]
      rw [piece_tag, piece_tag, Option.getD_some, Option.getD_some, attributions_retouched h, hshort]
      simp only [hhead]
  | _, _, @Node.Retouched.side content before after n n' h, depth => by
      rw [piece_code, piece_code]
      cases Expr.parse (Text.trim content) with
      | error e => rfl
      | ok e =>
          show Except.map _ (sidePrograms closing (before ++ n :: after) >>= _) =
            Except.map _ (sidePrograms closing (before ++ n' :: after) >>= _)
          rw [sidePrograms_inside (piece_retouched h 0)]

/-- A change among siblings does not show. -/
theorem siblings_retouched : {ns ns' : List Node} → Node.SiblingsRetouched ns ns' → (depth : Nat) →
    (flow closing depth ns).map Flow.seen = (flow closing depth ns').map Flow.seen
  | _, _, .blank _ _ _ hblock hs hbefore hafter, _ =>
      flow_blank (hblock.imp fun _ h => ⟨h.1, Node.isInline_of_isBlock h.2⟩) hs hbefore hafter
  | _, _, .cut before after _ hpieces, _ =>
      Flow.map_seen_congr (flow_prepend (flow_cut hpieces after) before)
  | _, _, .inside before after h, depth =>
      Flow.map_seen_congr (flow_inside (piece_retouched h depth) before after)

/-- A change in the value of an attribute leaves the list of the attributes as it is. -/
theorem attributions_retouched : {before : List String} →
    {as as' : Attributes (List Node) before} → Node.AttrsRetouched as as' → {short : Head} →
    attributions closing short as = attributions closing short as'
  | _, _, _, .here _ _ h, short => by
      rw [attributions, attributions]
      split
      · rfl
      · refine bind_congr_of_map_eq (value_retouched h) fun segments segments' hsegments => ?_
        rw [hsegments]
  | _, _, _, .there _ _ _ h, short => by
      rw [attributions, attributions, attributions_retouched h]

/-- A change in the value of an attribute does not show. -/
theorem value_retouched : {key : String} → {value value' : List Node} →
    Node.ValueRetouched key value value' →
    (parts closing value).map ofSegments = (parts closing value').map ofSegments
  | _, _, _, .cut before after _ hpieces _ =>
      parts_append_congr (parts_cut hpieces after) before
  | _, _, _, .inside _ before after h => parts_inside (piece_retouched h 0) before after

end

/-- One change among the siblings at the top leaves the program as it is. -/
theorem program_retouched {nodes nodes' : List Node} (h : Node.SiblingsRetouched nodes nodes') :
    program closing nodes = program closing nodes' := by
  rw [program, program]
  refine bind_congr_of_map_eq (siblings_retouched h 0) fun f f' hf => ?_
  rw [ofSegments_joinLines (Flow.map_topLines hf)]

end Layout

/-! ### Templates -/

namespace Template

/-- **Retouching a tree leaves its template as it is**: any number of changes, made one after another or
taken back, give the same template or the same error. -/
theorem ofNodes_eq_of_retouched {nodes nodes' : List Node}
    (h : Relation.EqvGen Node.SiblingsRetouched nodes nodes') (settings : Settings) :
    ofNodes nodes settings = ofNodes nodes' settings := by
  induction h with
  | rel nodes nodes' h =>
      rw [ofNodes, ofNodes]
      cases settings.validate with
      | error e => rfl
      | ok valid => simp only [Layout.program_retouched h]
  | refl nodes => rfl
  | symm nodes nodes' _ ih => exact ih.symm
  | trans nodes nodes' nodes'' _ _ ih ih' => exact ih.trans ih'

/-- Blank text around a tag in a body and behind a comment at the top, a text cut inside that tag, and one
of two parts of a class with an empty piece more. -/
theorem ofNodes_eq_of_retouched_list :
    ∃ nodes nodes' : List Node, nodes =
      [.tag "ul" none (some [.tag "li" (some (.cons "class" [.text "a ", .text "b"] .nil))
        (some [.text "one"])]), .comment "end"] ∧ nodes' =
      [.tag "ul" none (some [.text "\n  ", .tag "li" (some (.cons "class" [.text "a ", .text "", .text "b"] .nil))
        (some [.text "o", .text "ne"]), .text "\n"]), .comment "end", .text ""] ∧
      Relation.EqvGen Node.SiblingsRetouched nodes nodes' ∧ (ofNodes nodes {}).isOk = true ∧
      ofNodes nodes {} = ofNodes nodes' {} := by
  have hclass : Node.ValueRetouched "class" [.text "a ", .text "b"]
      [.text "a ", .text "", .text "b"] :=
    .cut [] [.text "b"] ["a ", ""] (by decide) fun _ => List.cons_ne_nil _ _
  have hbody : Node.SiblingsRetouched [.text "one"] [.text "o", .text "ne"] :=
    .cut [] [] ["o", "ne"] (by decide)
  have hedits : Relation.EqvGen Node.SiblingsRetouched
      [.tag "ul" none (some [.tag "li" (some (.cons "class" [.text "a ", .text "b"] .nil))
        (some [.text "one"])]), .comment "end"]
      [.tag "ul" none (some [.text "\n  ", .tag "li" (some (.cons "class" [.text "a ", .text "", .text "b"] .nil))
        (some [.text "o", .text "ne"]), .text "\n"]), .comment "end", .text ""] := by
    refine .trans _ _ _ (.rel _ _ (.inside [] _ (.body "ul" none (.inside [] [] (.body "li" _ hbody))))) ?_
    refine .trans _ _ _ (.rel _ _ (.inside [] _ (.body "ul" none
      (.inside [] [] (.attrs "li" _ (.here .nil _ hclass)))))) ?_
    refine .trans _ _ _ (.rel _ _ (.inside [] _ (.body "ul" none
      (.blank [] [.tag "li" _ _] "\n  " ⟨_, List.mem_cons_self, rfl⟩ (by decide) (by simp) ?_)))) ?_
    · rintro n ⟨⟩
      rfl
    · refine .trans _ _ _ (.rel _ _ (.inside [] _ (.body "ul" none
        (.blank [.text "\n  ", .tag "li" _ _] [] "\n" ⟨_, List.mem_cons_of_mem _ List.mem_cons_self, rfl⟩
          (by decide) ?_ (by simp))))) ?_
      · rintro n ⟨⟩
        rfl
      · refine .rel _ _ (.blank [_, .comment "end"] [] "" ⟨.comment "end", by simp, rfl⟩
          (by decide) ?_ (by simp))
        rintro n ⟨⟩
        rfl
  exact ⟨_, _, rfl, rfl, hedits, by decide +kernel, ofNodes_eq_of_retouched hedits {}⟩

end Template

end LineMarkup
