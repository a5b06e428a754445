import LineMarkup.Proofs.LayoutSteps
import LineMarkup.Proofs.ProgramNormal
import LineMarkup.Proofs.Serializer

/-!
# Rendering lines

Rendering goes through the segments from left to right, so a list of segments can be cut anywhere:
it does not matter how segments were pushed together to a program, or where one line ends and the
next one begins.

## Main Statements

* `Program.render_append` — rendering the parts of a list of segments one after the other
* `Program.render_ofSegments` — a program renders as the segments that it is made of
* `Layout.render_joinLines` — the lines of a program, rendered one by one and joined
* `Layout.render_head`, `Layout.render_headLine` — the head of a tag, and its line
-/

namespace LineMarkup

section Except

variable {ε α β : Type}

theorem ok_bind (a : α) (f : α → Except ε β) : (Except.ok a >>= f) = f a := rfl

theorem bind_ok (x : Except ε α) : (x >>= fun a => pure a) = x := by
  cases x with
  | error e => rfl
  | ok a => rfl

end Except

variable (scope : Scope)

/-! ### Segments -/

namespace Program

theorem render_nil : render scope [] = .ok "" := rfl

/-- Segments are rendered one by one, up to the first error. -/
theorem render_cons (seg : Segment) (rest : List Segment) :
    render scope (seg :: rest) = do
      let first ← renderSegment scope seg
      let others ← render scope rest
      return first ++ others := rfl

/-- A text is written as it is. -/
theorem render_text_cons (s : String) (rest : List Segment) :
    render scope (.text s :: rest) = do return s ++ (← render scope rest) := rfl

theorem render_text (s : String) : render scope [.text s] = .ok s := by
  rw [render_text_cons, render_nil, ok_bind, String.append_empty]
  rfl

/-- **The parts of a list of segments are rendered one after the other.** -/
theorem render_append (p q : List Segment) :
    render scope (p ++ q) = do
      let first ← render scope p
      let others ← render scope q
      return first ++ others := by
  induction p with
  | nil =>
      rw [List.nil_append, render_nil, ok_bind]
      simp only [String.empty_append]
      rw [bind_ok]
  | cons seg p ih =>
      rw [List.cons_append, render_cons, render_cons, ih]
      simp only [bind_assoc, pure_bind, String.append_assoc]

/-- Merging texts does not change what is rendered. -/
theorem ignoresMerging_render : IgnoresMerging (render scope) where
  empty p q := by
    rw [render_append, render_append, render_text_cons]
    simp only [String.empty_append]
    rw [bind_ok]
  joined p q s t := by
    rw [render_append, render_append, render_text_cons, render_text_cons, render_text_cons]
    simp only [bind_assoc, pure_bind, String.append_assoc]

/-- **A program renders as the segments that it is made of.** -/
theorem render_ofSegments (segments : List Segment) :
    render scope (ofSegments segments) = render scope segments :=
  (ignoresMerging_render scope).append [] segments

/-- A program that needs no rendering renders to its text. -/
theorem render_of_asStatic {p : Program} {s : String} (h : p.asStatic? = some s) :
    render scope p = .ok s := by
  rw [asStatic?.eq_def] at h
  split at h
  · cases h
    rfl
  · cases h
    exact render_text scope s
  · cases h

end Program

/-! ### Lines -/

namespace Layout

open Program Serial

/-- An indentation is written as blanks. -/
theorem render_indent (depth : Nat) (rest : List Segment) :
    render scope (indent depth :: rest) = do return indentation depth ++ (← render scope rest) :=
  rfl

/-- **The lines of a program are rendered one by one and joined.** -/
theorem render_joinLines (lines : List Line) :
    render scope (joinLines lines) = do return joined (← lines.mapM (render scope)) := by
  induction lines with
  | nil => rfl
  | cons line rest ih =>
      cases rest with
      | nil =>
          rw [joinLines, List.mapM_cons, List.mapM_nil]
          simp only [bind_assoc, pure_bind, joined, String.intercalate_singleton]
          rw [bind_ok]
      | cons next rest =>
          rw [joinLines, render_append, render_text_cons, ih, List.mapM_cons]
          · simp only [List.mapM_cons, bind_assoc, pure_bind, joined,
              String.intercalate_cons_cons, String.append_assoc]
          · exact List.cons_ne_nil next rest

/-! ### Heads -/

/-- Short forms are written as they are. -/
theorem render_short (short : Head) : render scope short.segments = .ok (shortText short) := by
  obtain ⟨id, classes⟩ := short
  cases id with
  | none =>
      cases classes with
      | none => rfl
      | some cs =>
          show render scope [.text ".", .text (".".intercalate cs)] = _
          rw [render_text_cons, render_text, ok_bind, shortText, String.empty_append]
          rfl
  | some id =>
      cases classes with
      | none =>
          show render scope [.text "#", .text id] = _
          rw [render_text_cons, render_text, ok_bind, shortText, String.append_empty]
          rfl
      | some cs =>
          show render scope ([.text "#", .text id] ++ [.text ".", .text (".".intercalate cs)]) = _
          rw [render_append, render_text_cons, render_text, ok_bind, render_text_cons, render_text]
          rfl

/-- The slash is written if settings ask for it and there is no body. -/
theorem render_slash (closing : SelfClosing) (name : String) (content : Option (List Node)) :
    render scope (slash closing name content) =
      .ok (slashText (closing == .slash) name content) := by
  rw [slash, slashText]
  split
  · exact render_text scope " /"
  · rfl

/-- An attribute is written with the value that its segments render to. -/
theorem render_attribution (name : String) (segments : List Segment) :
    render scope (attribution name (.ofSegments segments)) = do
      return writtenAttribute name (← render scope segments) := by
  rw [attribution]
  split
  · rename_i s hs
    have hvalue : render scope segments = .ok s := by
      rw [← render_ofSegments]
      exact render_of_asStatic scope hs
    rw [hvalue, ok_bind, writtenAttribute]
    split
    · exact render_text scope name
    · exact render_text scope _
  · rw [← render_ofSegments scope segments, render_cons, render_nil, renderSegment]
    simp only [bind_assoc, pure_bind, ok_bind, String.append_empty]

/-- Attributes with a separator before each of them. -/
theorem render_flatMap_space (listed : List (List Segment)) (rest : List Segment) :
    render scope (listed.flatMap (fun a => .text " " :: a) ++ rest) = do
      let texts ← listed.mapM (render scope)
      return String.join (texts.map (" " ++ ·)) ++ (← render scope rest) := by
  induction listed with
  | nil =>
      rw [List.flatMap_nil, List.nil_append, List.mapM_nil, pure_bind, List.map_nil,
        String.join_nil]
      simp only [String.empty_append]
      rw [bind_ok]
  | cons a listed ih =>
      rw [List.flatMap_cons, List.append_assoc, List.cons_append, render_text_cons, render_append,
        ih, List.mapM_cons]
      simp only [bind_assoc, pure_bind, List.map_cons, String.join_cons, String.append_assoc]

/-- Texts with spaces between them are the first one, and a space before each of the others. -/
theorem intercalate_space (first : String) (texts : List String) :
    " ".intercalate (first :: texts) = first ++ String.join (texts.map (" " ++ ·)) := by
  induction texts generalizing first with
  | nil => simp
  | cons next texts ih =>
      rw [String.intercalate_cons_cons, ih, List.map_cons, String.join_cons]
      simp only [String.append_assoc]

/-- The list of attributes is written in parentheses, with spaces between them. -/
theorem render_attributionList (listed : List (List Segment)) :
    render scope (attributionList listed) = do
      return listText (← listed.mapM (render scope)) := by
  cases listed with
  | nil => rfl
  | cons first rest =>
      show render scope (.text "(" :: (first ++ _ ++ _)) = _
      rw [render_text_cons, List.append_assoc, render_append, render_flatMap_space, render_text,
        List.mapM_cons]
      simp only [bind_assoc, pure_bind, ok_bind, listText, intercalate_space, String.append_assoc]

/-- **The head of a tag.** -/
theorem render_head (closing : SelfClosing) (name : String) (attrs : Attributes (List Node) [])
    (content : Option (List Node)) (listed : List (List Segment)) :
    render scope (.text name :: (Head.ofAttrs attrs).segments ++ attributionList listed ++
        slash closing name content) = do
      return name ++ shortText (.ofAttrs attrs) ++ listText (← listed.mapM (render scope)) ++
        slashText (closing == .slash) name content := by
  simp only [render_append, List.cons_append, render_text_cons, render_short, render_slash,
    render_attributionList, bind_assoc, pure_bind, ok_bind, String.append_assoc]

/-- The line of a tag's head: the head behind its indentation. -/
theorem render_headLine (closing : SelfClosing) (depth : Nat) (name : String)
    (attrs : Attributes (List Node) []) (content : Option (List Node))
    (listed : List (List Segment)) :
    render scope (headLine closing depth name attrs content listed) = do
      return headText (closing == .slash) depth name attrs content
        (← listed.mapM (render scope)) := by
  show render scope (indent depth :: (.text name :: (Head.ofAttrs attrs).segments ++
    attributionList listed ++ slash closing name content)) = _
  rw [render_indent, render_head]
  simp only [bind_assoc, pure_bind, headText, String.append_assoc]

end Layout

end LineMarkup
