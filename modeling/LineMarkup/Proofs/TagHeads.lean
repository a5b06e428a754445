import LineMarkup.Proofs.CodeOrder
import LineMarkup.Proofs.LineRendering
import Mathlib.Control.Monad.Basic

/-!
# Heads of tags

The line of a tag starts with the tag's head: the name, the short forms of id and classes, the list of
all other attributes, and perhaps a slash.

What an attribute writes depends on the output of its value only.  Layout writes an attribute at once
if it sees that its value needs no rendering, and looks at the output when the template is rendered if
it does not; the value of an attribute may hold a whole tag, so it is not seen from its nodes which of
the two happens.  Both ways lead to the bare name exactly if all parts of the value are empty together.

## Main Definitions

* `Layout.idText`, `Layout.classText` — the short forms
* `Layout.PartText` — what a node of an attribute's value writes
* `Layout.AttributeText` — what an attribute writes
* `Layout.HeadText` — what the head of a tag writes

## Main Statements

* `Layout.render_part`, `Layout.render_parts` — a value renders to what its nodes write
* `Layout.render_attributions` — listed attributes, each with what it writes
* `Layout.tag_head` — the line of a tag starts with its head
-/

namespace LineMarkup

/-- Steps over a list succeed together exactly if each of them does. -/
theorem mapM_eq_ok_iff {ε α β : Type} {f : α → Except ε β} {xs : List α} {ys : List β} :
    xs.mapM f = .ok ys ↔ List.Forall₂ (fun x y => f x = .ok y) xs ys := by
  induction xs generalizing ys with
  | nil =>
      rw [List.mapM_nil, List.forall₂_nil_left_iff]
      exact ⟨fun h => by cases h; rfl, fun h => by rw [h]; rfl⟩
  | cons x xs ih =>
      rw [List.mapM_cons, bind_eq_ok_iff, List.forall₂_cons_left_iff]
      constructor
      · rintro ⟨y, hy, h⟩
        obtain ⟨rest, hrest, h⟩ := bind_eq_ok_iff.mp h
        cases h
        exact ⟨y, rest, hy, ih.mp hrest, rfl⟩
      · rintro ⟨y, rest, hy, hrest, rfl⟩
        exact ⟨y, hy, bind_eq_ok_iff.mpr ⟨rest, ih.mpr hrest, rfl⟩⟩

namespace Layout

open Program

/-! ### What heads write -/

/-- The id behind the name of a tag: the value of `id`, if that is one text that is not empty. -/
def idText (attrs : Attributes (List Node) []) : String :=
  match attrs.get? "id" with
  | some [.text s] => if s = "" then "" else "#" ++ s
  | _ => ""

/-- The classes behind the name of a tag: the words in the value of `class`, if that is one text and
has a word. -/
def classText (attrs : Attributes (List Node) []) : String :=
  match attrs.get? "class" with
  | some [.text s] => if Text.words s = [] then "" else "." ++ ".".intercalate (Text.words s)
  | _ => ""

/-- Whether an attribute has its place behind the name already. -/
def isShort (attrs : Attributes (List Node) []) (name : String) : Bool :=
  (name == "id" && idText attrs != "") || (name == "class" && classText attrs != "")

section Texts

variable (closing : SelfClosing) (scope : Scope)

/-- What a node of an attribute's value writes: a text is written as it is, an expression as the text of
its value, and any other node as it is laid out at the lowest level by itself. -/
inductive PartText : Node → String → Prop where
  | text (s : String) : PartText (.text s) s
  | code {content : String} {sides : Option (List Node)} {e : Expr} {programs : List Program}
      {v : Value} : Expr.parse (Text.trim content) = .ok e →
      List.Forall₂ (fun side p => program closing [side] = .ok p) (sides.getD []) programs →
      e.eval scope (renderSides scope programs) = .ok v → PartText (.code content sides) v.text
  | block {n : Node} {p : Program} {s : String} : n.isInline = false →
      program closing [n] = .ok p → render scope p = .ok s → PartText n s

/-- What an attribute writes: its name, and its value if the parts of the value are not all empty. -/
def AttributeText (a : String × List Node) (s : String) : Prop :=
  ∃ parts, List.Forall₂ (PartText closing scope) a.2 parts ∧
    s = if String.join parts = "" then a.1 else a.1 ++ "=\"" ++ String.join parts ++ "\""

/-- What the head of a tag writes: the name, the short forms, the other attributes in their order, and a
slash if the tag has no body and shall have one. -/
def HeadText (name : String) (attrs : Attributes (List Node) []) (content : Option (List Node))
    (s : String) : Prop :=
  ∃ listed, List.Forall₂ (AttributeText closing scope)
      (attrs.entries.filter fun a => !isShort attrs a.1) listed ∧
    s = name ++ idText attrs ++ classText attrs ++
      (if listed = [] then "" else "(" ++ " ".intercalate listed ++ ")") ++
      (if closing = .slash ∧ Node.hasNoBody content = true ∧ name ∉ alwaysWithBody then " /" else "")

end Texts

/-! ### Short forms -/

theorem idText_eq (attrs : Attributes (List Node) []) :
    idText attrs = (shortId? attrs).elim "" fun id => "#" ++ id := by
  by_cases h : ∃ s, attrs.get? "id" = some [.text s]
  · obtain ⟨s, hs⟩ := h
    rw [idText, shortId?, hs]
    dsimp only
    split
    · rfl
    · rfl
  · rw [shortId?_eq_none fun s hs => h ⟨s, hs⟩, idText]
    split
    case h_1 s hs => exact absurd ⟨s, hs⟩ h
    case h_2 => rfl

theorem classText_eq (attrs : Attributes (List Node) []) :
    classText attrs = (shortClasses? attrs).elim "" fun words => "." ++ ".".intercalate words := by
  by_cases h : ∃ s, attrs.get? "class" = some [.text s]
  · obtain ⟨s, hs⟩ := h
    rw [classText, shortClasses?, hs]
    simp only [List.isEmpty_iff]
    split
    · rfl
    · rfl
  · rw [shortClasses?_eq_none fun s hs => h ⟨s, hs⟩, classText]
    split
    case h_1 s hs => exact absurd ⟨s, hs⟩ h
    case h_2 => rfl

theorem shortText_ofAttrs (attrs : Attributes (List Node) []) :
    Serial.shortText (.ofAttrs attrs) = idText attrs ++ classText attrs := by
  rw [idText_eq, classText_eq, Serial.shortText, Head.ofAttrs]
  cases shortId? attrs <;> cases shortClasses? attrs <;> rfl

/-- A mark in front makes a text that is not empty. -/
theorem mark_append_ne_empty {mark : String} (hmark : mark ≠ "") (s : String) : mark ++ s ≠ "" :=
  fun h => hmark (String.append_eq_empty_iff.mp h).1

/-- The attributes that have a short form are those that are not listed. -/
theorem takes_ofAttrs (attrs : Attributes (List Node) []) (name : String) :
    (Head.ofAttrs attrs).takes name = isShort attrs name := by
  have hid : (shortId? attrs).isSome = (idText attrs != "") := by
    rw [idText_eq]
    cases shortId? attrs with
    | none => rfl
    | some id => exact (bne_iff_ne.mpr (mark_append_ne_empty (by decide) id)).symm
  have hclasses : (shortClasses? attrs).isSome = (classText attrs != "") := by
    rw [classText_eq]
    cases shortClasses? attrs with
    | none => rfl
    | some words => exact (bne_iff_ne.mpr (mark_append_ne_empty (by decide) _)).symm
  rw [Head.takes, Head.ofAttrs, isShort, hid, hclasses]

/-! ### Values of attributes -/

variable {closing : SelfClosing} {scope : Scope}

theorem render_part_block {n : Node} {p : Piece} {s : String} (hblock : n.isInline = false)
    (h : piece closing 0 n = .ok p) :
    render scope p.segments = .ok s ↔ PartText closing scope n s := by
  have hprogram := program_singleton h
  constructor
  · intro hs
    exact .block hblock hprogram (by rw [render_ofSegments, hs])
  · intro hs
    cases hs with
    | text => cases hblock
    | code => cases hblock
    | block _ hp hs =>
        rw [hprogram] at hp
        cases hp
        rwa [render_ofSegments] at hs

/-- **A node of an attribute's value renders to what it writes.** -/
theorem render_part {n : Node} {p : Piece} {s : String} (h : piece closing 0 n = .ok p) :
    render scope p.segments = .ok s ↔ PartText closing scope n s := by
  cases n with
  | tag name attrs content => exact render_part_block rfl h
  | comment content => exact render_part_block rfl h
  | unknown type => exact render_part_block rfl h
  | text t =>
      cases h
      rw [Piece.segments, render_text]
      constructor
      · intro hs
        cases hs
        exact .text _
      · intro hs
        cases hs with
        | text => rfl
        | block hblock => cases hblock
  | code content sides =>
      rw [piece_code] at h
      split at h
      · cases h
      case h_2 e hparse =>
        obtain ⟨programs, hprograms, h⟩ := bind_eq_ok_iff.mp h
        cases h
        have halone := sidePrograms_alone _ hprograms
        have hrender : render scope [.code (Text.trim content) e programs] = do
            return (← e.eval scope (renderSides scope programs)).text := by
          rw [render_cons, render_nil, renderSegment]
          simp only [bind_assoc, pure_bind, ok_bind, String.append_empty]
        rw [Piece.segments, hrender, bind_eq_ok_iff]
        constructor
        · rintro ⟨v, hv, hs⟩
          cases hs
          exact .code hparse halone hv
        · intro hs
          cases hs with
          | block hblock => cases hblock
          | @code _ _ e' programs' v hparse' halone' hv =>
              rw [hparse] at hparse'
              cases hparse'
              -- The nodes determine their programs, so both sides see the same side list.
              have hsame : programs = programs' := by
                refine List.right_unique_forall₂' (fun side p q hp hq => ?_) halone halone'
                rw [hp] at hq
                exact Except.ok.inj hq
              rw [hsame]
              exact ⟨v, hv, rfl⟩

/-- **A value renders to what its nodes write, one behind the other.** -/
theorem render_parts {ns : List Node} : ∀ {segments : List Segment} {s : String},
    parts closing ns = .ok segments →
    (render scope segments = .ok s ↔
      ∃ texts, List.Forall₂ (PartText closing scope) ns texts ∧ s = String.join texts) := by
  induction ns with
  | nil =>
      intro segments s h
      rw [parts] at h
      cases h
      rw [render_nil]
      constructor
      · rintro ⟨⟩
        exact ⟨[], .nil, rfl⟩
      · rintro ⟨texts, htexts, rfl⟩
        cases htexts
        rfl
  | cons n rest ih =>
      intro segments s h
      rw [parts] at h
      obtain ⟨p, hp, h⟩ := bind_eq_ok_iff.mp h
      obtain ⟨others, hothers, h⟩ := bind_eq_ok_iff.mp h
      cases h
      rw [render_append, bind_eq_ok_iff]
      constructor
      · rintro ⟨first, hfirst, h⟩
        obtain ⟨behind, hbehind, h⟩ := bind_eq_ok_iff.mp h
        obtain ⟨texts, htexts, rfl⟩ := (ih hothers).mp hbehind
        cases h
        exact ⟨first :: texts, .cons ((render_part hp).mp hfirst) htexts,
          (String.join_cons ..).symm⟩
      · rintro ⟨texts, htexts, rfl⟩
        cases htexts with
        | @cons _ first _ texts hfirst htexts =>
            refine ⟨first, (render_part hp).mpr hfirst, bind_eq_ok_iff.mpr ?_⟩
            exact ⟨String.join texts, (ih hothers).mpr ⟨texts, htexts, rfl⟩,
              congrArg Except.ok (String.join_cons ..).symm⟩

/-- **An attribute is written alike whether or not its value needs rendering.** -/
theorem render_attribution_parts {name s : String} {value : List Node} {segments : List Segment}
    (h : parts closing value = .ok segments) :
    render scope (attribution name (.ofSegments segments)) = .ok s ↔
      AttributeText closing scope (name, value) s := by
  rw [render_attribution, bind_eq_ok_iff]
  constructor
  · rintro ⟨t, ht, hs⟩
    obtain ⟨texts, htexts, rfl⟩ := (render_parts h).mp ht
    cases hs
    exact ⟨texts, htexts, rfl⟩
  · rintro ⟨texts, htexts, rfl⟩
    exact ⟨String.join texts, (render_parts h).mpr ⟨texts, htexts, rfl⟩, rfl⟩

/-- **The listed attributes are those without a short form, in their order.** -/
theorem render_attributions {short : Head} {before : List String}
    {as : Attributes (List Node) before} :
    ∀ {listed : List (List Segment)} {texts : List String},
      attributions closing short as = .ok listed →
      (List.Forall₂ (fun segments s => render scope segments = .ok s) listed texts ↔
        List.Forall₂ (AttributeText closing scope) (as.entries.filter fun a => !short.takes a.1)
          texts) := by
  induction as with
  | nil =>
      intro listed texts h
      rw [attributions] at h
      cases h
      rw [Attributes.entries_nil, List.filter_nil, List.forall₂_nil_left_iff,
        List.forall₂_nil_left_iff]
  | cons name value rest fresh ih =>
      intro listed texts h
      rw [attributions] at h
      rw [Attributes.entries_cons]
      -- An attribute with a short form is left out on both sides; it is not even laid out.
      split at h
      case isTrue htakes =>
        rw [List.filter_cons_of_neg (by rw [htakes]; decide)]
        exact ih h
      case isFalse htakes =>
        obtain ⟨segments, hsegments, h⟩ := bind_eq_ok_iff.mp h
        obtain ⟨others, hothers, h⟩ := bind_eq_ok_iff.mp h
        cases h
        rw [List.filter_cons_of_pos (by simpa using htakes), List.forall₂_cons_left_iff,
          List.forall₂_cons_left_iff]
        simp only [render_attribution_parts hsegments, ih hothers]

/-! ### Heads -/

theorem listText_eq (listed : List String) :
    Serial.listText listed = if listed = [] then "" else "(" ++ " ".intercalate listed ++ ")" := by
  cases listed with
  | nil => rfl
  | cons first rest =>
      rw [if_neg (List.cons_ne_nil first rest)]
      rfl

theorem slashText_eq (closing : SelfClosing) (name : String) (content : Option (List Node)) :
    Serial.slashText (closing == .slash) name content =
      if closing = .slash ∧ Node.hasNoBody content = true ∧ name ∉ alwaysWithBody then " /"
      else "" := by
  rw [Serial.slashText]
  refine ite_congr (propext ?_) (fun _ => rfl) fun _ => rfl
  simp only [Bool.and_eq_true, beq_iff_eq, Bool.not_eq_true', List.contains_eq_mem,
    decide_eq_false_iff_not]
  rw [and_assoc, and_left_comm]

/-- The segments of a head render to what the head writes. -/
theorem render_head_iff {name out : String} {attrs : Attributes (List Node) []}
    {content : Option (List Node)} {listed : List (List Segment)}
    (h : attributions closing (.ofAttrs attrs) attrs = .ok listed) :
    render scope (.text name :: (Head.ofAttrs attrs).segments ++ attributionList listed ++
        slash closing name content) = .ok out ↔
      HeadText closing scope name attrs content out := by
  rw [render_head, bind_eq_ok_iff, HeadText, shortText_ofAttrs, slashText_eq]
  simp only [listText_eq, mapM_eq_ok_iff, render_attributions h, takes_ofAttrs,
    ← String.append_assoc]
  constructor
  · rintro ⟨texts, htexts, hout⟩
    cases hout
    exact ⟨texts, htexts, rfl⟩
  · rintro ⟨texts, htexts, rfl⟩
    exact ⟨texts, htexts, rfl⟩

/-- **The line of a tag starts with its head.**  A tag that is laid out, at any level, makes lines of
its own.  The first of them is indented and starts with the head; nothing follows it on this line, or a
space and the run that the content starts with.  The head renders to the name, the short forms, the
other attributes in their order, and a slash if there shall be one. -/
theorem tag_head {depth : Nat} {name : String} {attrs : Option (Attributes (List Node) [])}
    {content : Option (List Node)} {p : Piece}
    (h : piece closing depth (.tag name attrs content) = .ok p) :
    ∃ head behind lines, p = .block ((indent depth :: (head ++ behind)) :: lines) ∧
      (behind = [] ∨ ∃ run, behind = .text " " :: run) ∧
      ∀ scope out, render scope head = .ok out ↔
        HeadText closing scope name (attrs.getD .nil) content out := by
  rw [piece_tag] at h
  obtain ⟨listed, hlisted, h⟩ := bind_eq_ok_iff.mp h
  split at h
  · cases h
    exact ⟨_, [], [], by rw [List.append_nil]; rfl, .inl rfl, fun _ _ => render_head_iff hlisted⟩
  · obtain ⟨inner, -, h⟩ := bind_eq_ok_iff.mp h
    cases h
    rw [Flow.behind]
    split
    · exact ⟨_, [], _, by rw [List.append_nil]; rfl, .inl rfl, fun _ _ => render_head_iff hlisted⟩
    · exact ⟨_, _, _, rfl, .inr ⟨_, rfl⟩, fun _ _ => render_head_iff hlisted⟩

/-- Classes that are short, an empty value that is known and one that is not, a value that is rendered
and one that is a tag, and a slash behind blank content. -/
theorem tag_head_br :
    ∃ p, piece .slash 0 (.tag "br" (some (.cons "b" [.text ""] (.cons "id" [.code "x" none]
        (.cons "class" [.text " a  b "] (.cons "c" [.text "", .code "''" none]
        (.cons "d" [.tag "i" none none] .nil))))))
        (some [.text " "])) = .ok p ∧
      render ⟨[("x", .string "v")], .flat, "r", none⟩ p.segments =
        .ok "br.a.b(b id=\"v\" c d=\"i /\") /" ∧
      ∃ head behind lines, p = .block ((indent 0 :: (head ++ behind)) :: lines) ∧
        (behind = [] ∨ ∃ run, behind = .text " " :: run) ∧
        ∀ scope out, render scope head = .ok out ↔
          HeadText .slash scope "br" (.cons "b" [.text ""] (.cons "id" [.code "x" none]
            (.cons "class" [.text " a  b "] (.cons "c" [.text "", .code "''" none]
            (.cons "d" [.tag "i" none none] .nil))))) (some [.text " "]) out := by
  have hok : (piece .slash 0 (.tag "br" (some (.cons "b" [.text ""] (.cons "id" [.code "x" none]
      (.cons "class" [.text " a  b "] (.cons "c" [.text "", .code "''" none]
      (.cons "d" [.tag "i" none none] .nil))))))
      (some [.text " "]))).toOption.any (fun p =>
        render ⟨[("x", .string "v")], .flat, "r", none⟩ p.segments ==
          .ok "br.a.b(b id=\"v\" c d=\"i /\") /") = true := by
    decide
  generalize hpiece : piece _ _ _ = result at hok
  cases result with
  | error e => cases hok
  | ok p => exact ⟨p, rfl, eq_of_beq hok, tag_head hpiece⟩

end Layout

end LineMarkup
