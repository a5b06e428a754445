import LineMarkup.Proofs.LayoutSteps
import LineMarkup.Proofs.ProgramNormal

/-!
# Faithful programs

An expression in a program is there twice: as the source that goes into template source, and as the
tree that rendering evaluates.  A program is faithful if each source is without blanks at its ends
and is read, by itself, as the tree beside it, and if all programs inside it, values of attributes
and side nodes, are faithful and normal too.

Layout makes only faithful programs, because it reads each expression from the source that it keeps.

## Main Definitions

* `Segment.Faithful`, `Program.Faithful` — sources and trees agree, at every depth

## Main Statements

* `Layout.piece_faithful` — what a node contributes is faithful
* `Layout.program_faithful` — the program of a tree is faithful
-/

namespace LineMarkup

/-! ### Faithful segments and programs -/

/-- Sources and trees agree in a segment, at every depth. -/
inductive Segment.Faithful : Segment → Prop where
  | text (s : String) : Faithful (.text s)
  | code {source : String} {e : Expr} {sides : List (List Segment)} : Text.trim source = source →
      Expr.parse source = .ok e → (∀ p ∈ sides, Program.Normal p) →
      (∀ p ∈ sides, ∀ seg ∈ p, Faithful seg) → Faithful (.code source e sides)
  | attr {name : String} {value : List Segment} : Program.Normal value →
      (∀ seg ∈ value, Faithful seg) → Faithful (.attr name value)

/-- A normal program of faithful segments. -/
structure Program.Faithful (p : Program) : Prop where
  normal : p.Normal
  segments : ∀ seg ∈ p, seg.Faithful

namespace Program

/-- Pushing text brings in nothing but text. -/
theorem mem_pushText {p : Program} {s : String} {x : Segment} (h : x ∈ p.pushText s) :
    x ∈ p ∨ ∃ t, x = .text t := by
  rcases pushText_cases p s with ⟨-, hpush⟩ | ⟨-, hpush⟩ | ⟨q, t, rfl, hpush⟩
  · rw [hpush] at h
    exact .inl h
  · rw [hpush, List.mem_append, List.mem_singleton] at h
    exact h.imp_right fun hx => ⟨s, hx⟩
  · rw [hpush, List.mem_append, List.mem_singleton] at h
    exact h.imp (List.mem_append_left _) fun hx => ⟨t ++ s, hx⟩

/-- Pushing brings in the segment that is pushed, or a text. -/
theorem mem_push {p : Program} {seg x : Segment} (h : x ∈ p.push seg) :
    x ∈ p ∨ x = seg ∨ ∃ t, x = .text t := by
  cases seg with
  | text s => exact (mem_pushText h).imp_right .inr
  | code source e sides =>
      exact (List.mem_append.mp h).imp_right fun hx => .inl (List.mem_singleton.mp hx)
  | attr name value =>
      exact (List.mem_append.mp h).imp_right fun hx => .inl (List.mem_singleton.mp hx)

namespace Faithful

theorem nil : Faithful [] :=
  ⟨.nil, fun _ h => by simp at h⟩

/-- **Pushing a faithful segment keeps a program faithful.** -/
theorem push {p : Program} {seg : Segment} (h : p.Faithful) (hseg : seg.Faithful) :
    (p.push seg).Faithful := by
  refine ⟨h.normal.push seg, fun x hx => ?_⟩
  rcases mem_push hx with hx | rfl | ⟨t, rfl⟩
  · exact h.segments x hx
  · exact hseg
  · exact .text t

end Faithful

/-- A program of faithful segments is faithful. -/
theorem faithful_ofSegments {segments : List Segment} (h : ∀ seg ∈ segments, seg.Faithful) :
    Faithful (ofSegments segments) := by
  have happend (p : Program) (hp : p.Faithful) : (p.append segments).Faithful := by
    induction segments generalizing p with
    | nil => exact hp
    | cons seg segments ih =>
        rw [List.forall_mem_cons] at h
        exact ih h.2 _ (hp.push h.1)
  exact happend [] .nil

end Program

/-! ### Blanks at the ends -/

namespace Text

/-- Nothing is dropped if the first element stays. -/
theorem dropWhile_eq_of_head? {p : Char → Bool} {cs : List Char}
    (h : ∀ x ∈ cs.head?, p x = false) : cs.dropWhile p = cs := by
  cases cs with
  | nil => rfl
  | cons x cs => rw [List.dropWhile_cons_of_neg (by simp [h x rfl])]

/-- What is left begins with an element that stays. -/
private theorem head?_dropWhile (p : Char → Bool) (cs : List Char) :
    ∀ x ∈ (cs.dropWhile p).head?, p x = false := by
  intro x hx
  have := List.head?_dropWhile_not p cs
  rw [hx] at this
  simpa using this

/-- A text without blanks at its ends starts with none. -/
theorem head?_trimList (cs : List Char) : ∀ x ∈ (trimList cs).head?, isBlank x = false := by
  intro x hx
  have hprefix : trimList cs <+: cs.dropWhile isBlank := by
    rw [← List.reverse_suffix, trimList, List.reverse_reverse]
    exact List.dropWhile_suffix isBlank
  obtain ⟨rest, hrest⟩ := hprefix
  refine head?_dropWhile isBlank cs x ?_
  rw [← hrest, List.head?_append, hx, Option.some_or]
  rfl

/-- Cutting off blanks twice is cutting them off once. -/
theorem trimList_trimList (cs : List Char) : trimList (trimList cs) = trimList cs := by
  have hstart := dropWhile_eq_of_head? (head?_trimList cs)
  have hstop : (trimList cs).reverse.dropWhile isBlank = (trimList cs).reverse := by
    refine dropWhile_eq_of_head? ?_
    rw [trimList, List.reverse_reverse]
    exact head?_dropWhile isBlank _
  rw [trimList, hstart, hstop, List.reverse_reverse]

/-- A text without blanks at its ends is left as it is. -/
theorem trim_trim (s : String) : trim (trim s) = trim s := by
  rw [trim, trim, String.toList_ofList, trimList_trimList]

end Text

/-! ### Layout -/

namespace Layout

/-- All segments of a piece are faithful. -/
def Piece.Faithful : Piece → Prop
  | .inline segments _ => ∀ seg ∈ segments, seg.Faithful
  | .block lines => ∀ line ∈ lines, ∀ seg ∈ line, seg.Faithful

/-- All segments of a flow are faithful. -/
structure Flow.Faithful (f : Flow) : Prop where
  run : ∀ r ∈ f.run, ∀ seg ∈ r.segments, seg.Faithful
  lines : ∀ line ∈ f.lines, ∀ seg ∈ line, seg.Faithful

/-- The line feeds between lines are texts. -/
theorem faithful_joinLines {lines : List Line} (h : ∀ line ∈ lines, ∀ seg ∈ line, seg.Faithful) :
    ∀ seg ∈ joinLines lines, seg.Faithful := by
  induction lines with
  | nil => exact fun seg hseg => by simp [joinLines] at hseg
  | cons line rest ih =>
      rw [List.forall_mem_cons] at h
      cases rest with
      | nil => exact h.1
      | cons next rest =>
          intro seg hseg
          rw [joinLines, List.mem_append, List.mem_cons] at hseg
          · rcases hseg with hseg | rfl | hseg
            · exact h.1 seg hseg
            · exact .text "\n"
            · exact ih h.2 seg hseg
          · simp

/-- All segments of a faithful piece are faithful. -/
theorem Piece.Faithful.segments {p : Piece} (h : p.Faithful) :
    ∀ seg ∈ p.segments, seg.Faithful := by
  cases p with
  | inline segments blank => exact h
  | block lines => exact faithful_joinLines h

namespace Flow

variable {f : Flow}

theorem Faithful.empty : Flow.empty.Faithful :=
  ⟨fun r hr => by simp [Flow.empty] at hr, fun line hline => by simp [Flow.empty] at hline⟩

/-- Adding a faithful piece keeps a flow faithful, since marks and indentations are texts. -/
theorem Faithful.add {p : Piece} (hf : f.Faithful) (hp : p.Faithful) (depth : Nat) :
    (f.add depth p).Faithful := by
  cases p with
  | inline segments blank =>
      cases hrun : f.run with
      | none =>
          simp only [Flow.add, hrun]
          exact ⟨by rintro r ⟨⟩; exact hp, hf.lines⟩
      | some r =>
          simp only [Flow.add, hrun]
          refine ⟨?_, hf.lines⟩
          rintro r' ⟨⟩ seg hseg
          rcases List.mem_append.mp hseg with hseg | hseg
          · exact hp seg hseg
          · exact hf.run r hrun seg hseg
  | block lines =>
      refine ⟨fun r hr => by simp [Flow.add] at hr, fun line hline => ?_⟩
      rw [Flow.add, List.mem_append, List.mem_append] at hline
      rcases hline with (hline | hline) | hline
      · exact hp line hline
      · unfold marked at hline
        split at hline
        · simp at hline
        · rename_i r hrun
          split at hline
          · simp at hline
          · obtain rfl := List.mem_singleton.mp hline
            simp only [List.forall_mem_cons]
            exact ⟨.text _, .text _, hf.run r hrun⟩
      · exact hf.lines line hline

/-- The run at the start is made of faithful segments. -/
theorem Faithful.lead (hf : f.Faithful) : ∀ run ∈ f.lead?, ∀ seg ∈ run, seg.Faithful := by
  intro run hrun
  unfold lead? at hrun
  split at hrun
  · simp at hrun
  · rename_i r hr
    split at hrun
    · simp at hrun
    · obtain rfl := Option.some.inj hrun
      exact hf.run r hr

/-- The lines of a whole tree are made of faithful segments. -/
theorem Faithful.topLines (hf : f.Faithful) : ∀ line ∈ f.topLines, ∀ seg ∈ line, seg.Faithful := by
  unfold Flow.topLines
  cases hlead : f.lead? with
  | none => exact hf.lines
  | some run => exact List.forall_mem_cons.mpr ⟨hf.lead run hlead, hf.lines⟩

/-- The lines of a tag are made of faithful segments if its head is. -/
theorem Faithful.behind {head : Line} (hf : f.Faithful) (hhead : ∀ seg ∈ head, seg.Faithful) :
    ∀ line ∈ f.behind head, ∀ seg ∈ line, seg.Faithful := by
  unfold Flow.behind
  cases hlead : f.lead? with
  | none => exact List.forall_mem_cons.mpr ⟨hhead, hf.lines⟩
  | some run =>
      refine List.forall_mem_cons.mpr ⟨?_, hf.lines⟩
      rw [List.forall_mem_append, List.forall_mem_cons]
      exact ⟨hhead, .text " ", hf.lead run hlead⟩

end Flow

/-- Short forms are texts. -/
private theorem faithful_short (h : Head) : ∀ seg ∈ h.segments, seg.Faithful := by
  obtain ⟨id, classes⟩ := h
  cases id <;> cases classes <;> simp [Head.segments, Segment.Faithful.text]

private theorem faithful_slash (closing : SelfClosing) (name : String)
    (content : Option (List Node)) : ∀ seg ∈ slash closing name content, seg.Faithful := by
  unfold slash
  split <;> simp [Segment.Faithful.text]

/-- Parentheses and spaces around attributes are texts. -/
private theorem faithful_attributionList {listed : List (List Segment)}
    (h : ∀ a ∈ listed, ∀ seg ∈ a, seg.Faithful) :
    ∀ seg ∈ attributionList listed, seg.Faithful := by
  cases listed with
  | nil => simp [attributionList]
  | cons first rest =>
      rw [List.forall_mem_cons] at h
      simp only [attributionList, List.forall_mem_append, List.forall_mem_cons, List.mem_flatMap]
      refine ⟨⟨⟨.text "(", h.1⟩, ?_⟩, .text ")", by simp⟩
      rintro seg ⟨a, ha, hseg⟩
      rcases List.mem_cons.mp hseg with rfl | hseg
      · exact .text " "
      · exact h.2 a ha seg hseg

/-- A value that needs rendering stays a program, and any other becomes text. -/
private theorem faithful_attribution (name : String) {value : Program} (h : value.Faithful) :
    ∀ seg ∈ attribution name value, seg.Faithful := by
  unfold attribution
  split
  · split <;> simp [Segment.Faithful.text]
  · intro seg hseg
    obtain rfl := List.mem_singleton.mp hseg
    exact .attr h.normal h.segments

/-- The head of a tag is faithful if its attributes are. -/
private theorem faithful_headLine (closing : SelfClosing) (depth : Nat) (name : String)
    (attrs : Attributes (List Node) []) (content : Option (List Node))
    {listed : List (List Segment)} (h : ∀ a ∈ listed, ∀ seg ∈ a, seg.Faithful) :
    ∀ seg ∈ headLine closing depth name attrs content listed, seg.Faithful := by
  simp only [headLine, List.forall_mem_append, List.forall_mem_cons]
  exact ⟨⟨⟨.text _, .text _, faithful_short _⟩, faithful_attributionList h⟩,
    faithful_slash closing name content⟩

attribute [local irreducible] Expr.parse

mutual

/-- **What a node contributes is faithful.** -/
theorem piece_faithful {closing : SelfClosing} : (depth : Nat) → (n : Node) → {p : Piece} →
    piece closing depth n = .ok p → p.Faithful
  | depth, .text s, _, h => by
      rw [piece_text] at h
      cases h
      exact List.forall_mem_cons.mpr ⟨.text s, by simp⟩
  | depth, .code content sides, _, h => by
      rw [piece_code] at h
      split at h
      · simp at h
      · rename_i e hparse
        obtain ⟨programs, hprograms, h⟩ := bind_eq_ok_iff.mp h
        cases h
        have hsides : ∀ p ∈ programs, Program.Faithful p := by
          cases sides with
          | none =>
              cases hprograms
              exact fun p hp => by simp at hp
          | some ns => exact sidePrograms_faithful ns hprograms
        refine List.forall_mem_cons.mpr ⟨?_, by simp⟩
        exact .code (Text.trim_trim content) hparse (fun p hp => (hsides p hp).normal)
          fun p hp => (hsides p hp).segments
  | depth, .comment content, _, h => by
      rw [piece_comment] at h
      cases h
      simp [Piece.Faithful, indent, Segment.Faithful.text]
  | depth, .unknown type, _, h => by simp [piece_unknown] at h
  | depth, .tag name attrs content, _, h => by
      rw [piece_tag] at h
      obtain ⟨listed, hlisted, h⟩ := bind_eq_ok_iff.mp h
      have hattributions : ∀ a ∈ listed, ∀ seg ∈ a, seg.Faithful := by
        cases attrs with
        | none =>
            cases hlisted
            exact fun a ha => by simp at ha
        | some as => exact attributions_faithful as hlisted
      have hhead := faithful_headLine closing depth name (attrs.getD .nil) content
        hattributions
      split at h
      · cases h
        exact List.forall_mem_cons.mpr ⟨hhead, by simp⟩
      · obtain ⟨inner, hinner, h⟩ := bind_eq_ok_iff.mp h
        cases h
        have hflow : inner.Faithful := by
          cases content with
          | none =>
              cases hinner
              exact .empty
          | some ns => exact flow_faithful (depth + 1) ns hinner
        exact hflow.behind hhead

/-- What siblings contribute is faithful. -/
theorem flow_faithful {closing : SelfClosing} : (depth : Nat) → (ns : List Node) → {f : Flow} →
    flow closing depth ns = .ok f → f.Faithful
  | depth, [], _, h => by
      rw [flow] at h
      cases h
      exact .empty
  | depth, n :: rest, _, h => by
      rw [flow] at h
      obtain ⟨p, hp, h⟩ := bind_eq_ok_iff.mp h
      obtain ⟨f, hf, h⟩ := bind_eq_ok_iff.mp h
      cases h
      exact (flow_faithful depth rest hf).add (piece_faithful depth n hp) depth

/-- The parts of a value are faithful. -/
theorem parts_faithful {closing : SelfClosing} : (ns : List Node) → {segments : List Segment} →
    parts closing ns = .ok segments → ∀ seg ∈ segments, seg.Faithful
  | [], _, h => by
      rw [parts] at h
      cases h
      simp
  | n :: rest, _, h => by
      rw [parts] at h
      obtain ⟨p, hp, h⟩ := bind_eq_ok_iff.mp h
      obtain ⟨others, hothers, h⟩ := bind_eq_ok_iff.mp h
      cases h
      rw [List.forall_mem_append]
      exact ⟨(piece_faithful 0 n hp).segments, parts_faithful rest hothers⟩

/-- The programs of side nodes are faithful. -/
theorem sidePrograms_faithful {closing : SelfClosing} : (ns : List Node) →
    {programs : List Program} → sidePrograms closing ns = .ok programs →
    ∀ p ∈ programs, p.Faithful
  | [], _, h => by
      rw [sidePrograms] at h
      cases h
      exact fun p hp => by simp at hp
  | n :: rest, _, h => by
      rw [sidePrograms] at h
      obtain ⟨p, hp, h⟩ := bind_eq_ok_iff.mp h
      obtain ⟨others, hothers, h⟩ := bind_eq_ok_iff.mp h
      cases h
      have hsegments := (piece_faithful 0 n hp).segments
      exact List.forall_mem_cons.mpr
        ⟨Program.faithful_ofSegments hsegments, sidePrograms_faithful rest hothers⟩

/-- The list of attributes is faithful. -/
theorem attributions_faithful {closing : SelfClosing} {short : Head} {before : List String} :
    (as : Attributes (List Node) before) → {listed : List (List Segment)} →
    attributions closing short as = .ok listed → ∀ a ∈ listed, ∀ seg ∈ a, seg.Faithful
  | .nil, _, h => by
      rw [attributions] at h
      cases h
      simp
  | .cons name value rest _, _, h => by
      rw [attributions] at h
      split at h
      · exact attributions_faithful rest h
      · obtain ⟨segments, hsegments, h⟩ := bind_eq_ok_iff.mp h
        obtain ⟨others, hothers, h⟩ := bind_eq_ok_iff.mp h
        cases h
        have hvalue := Program.faithful_ofSegments (parts_faithful value hsegments)
        exact List.forall_mem_cons.mpr
          ⟨faithful_attribution name hvalue, attributions_faithful rest hothers⟩

end

/-- **The program of a tree is faithful.** -/
theorem program_faithful {closing : SelfClosing} {nodes : List Node} {p : Program}
    (h : program closing nodes = .ok p) : p.Faithful := by
  rw [program] at h
  obtain ⟨f, hf, h⟩ := bind_eq_ok_iff.mp h
  cases h
  exact Program.faithful_ofSegments (faithful_joinLines (flow_faithful 0 nodes hf).topLines)

end Layout

end LineMarkup
