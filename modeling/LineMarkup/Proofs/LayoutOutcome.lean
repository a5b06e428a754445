import LineMarkup.Proofs.LayoutSteps
import LineMarkup.Proofs.NodeOrder
import LineMarkup.Template

/-!
# The outcome of layout

Whether a tree can be laid out depends on its nodes alone: each node by itself is faulty or not, and
the first faulty node in document order gives the error.  Nothing that layout leaves out can hide a
fault.  A body that is left out holds blank text only, and an attribute that is written in its short
form is a single text, since it is the one attribute that its name finds.

## Main Definitions

* `Decided` — a result that the first fault of a list of nodes decides

## Main Statements

* `Layout.piece_decided` — the first fault in a node decides what it contributes
* `Template.ofNodes_outcome` — the outcome for a whole tree
-/

namespace LineMarkup

/-! ### Results that the first fault decides -/

/-- A result that the first fault of a list of nodes decides: its error if there is one, success if
there is none. -/
def Decided {α : Type} (x : Except LayoutError α) (ns : List Node) : Prop :=
  match ns.findSome? Node.fault? with
  | some e => x = .error e
  | none => ∃ a, x = .ok a

namespace Decided

variable {α β : Type} {x : Except LayoutError α} {ns ms : List Node}

theorem ok {a : α} (h : ∀ n ∈ ns, n.fault? = none) : Decided (.ok a : Except LayoutError α) ns := by
  rw [Decided, List.findSome?_eq_none_iff.mpr h]
  exact ⟨a, rfl⟩

/-- A step whose nodes come after those of the step before it. -/
theorem bind {f : α → Except LayoutError β} (hx : Decided x ns)
    (hf : ∀ a, x = .ok a → Decided (f a) ms) : Decided (x >>= f) (ns ++ ms) := by
  rw [Decided] at hx
  rw [Decided, List.findSome?_append]
  cases hfault : ns.findSome? Node.fault? with
  | some e =>
      rw [hfault] at hx
      simp only at hx
      rw [hx]
      rfl
  | none =>
      rw [hfault] at hx
      obtain ⟨a, rfl⟩ := hx
      exact hf a rfl

theorem map {f : α → β} (hx : Decided x ns) : Decided (do return f (← x)) ns := by
  rw [← List.append_nil ns]
  exact hx.bind fun a _ => .ok (by simp)

/-- A node that is not faulty itself does not decide. -/
theorem cons {n : Node} (h : n.fault? = none) (hx : Decided x ns) : Decided x (n :: ns) := by
  rwa [Decided, List.findSome?_cons, h]

/-- A faulty node decides. -/
theorem error {n : Node} {e : LayoutError} (h : n.fault? = some e) :
    Decided (.error e : Except LayoutError α) (n :: ns) := by
  rw [Decided, List.findSome?_cons, h]

end Decided

/-! ### Layout -/

namespace Layout

/-- An attribute that is written in its short form is a single text. -/
theorem eq_text_of_takes {attrs : Attributes (List Node) []} {name : String} {value : List Node}
    (hmem : (name, value) ∈ attrs.entries) (h : (Head.ofAttrs attrs).takes name = true) :
    ∃ s, value = [.text s] := by
  have hget := Attributes.get?_of_mem hmem
  simp only [Head.takes, Head.ofAttrs, Bool.or_eq_true, Bool.and_eq_true, beq_iff_eq] at h
  rcases h with ⟨rfl, h⟩ | ⟨rfl, h⟩
  · rw [shortId?, hget] at h
    split at h
    · rename_i s hs
      exact ⟨s, Option.some.inj hs⟩
    · simp at h
  · rw [shortClasses?, hget] at h
    split at h
    · rename_i s hs
      exact ⟨s, Option.some.inj hs⟩
    · simp at h

attribute [local irreducible] Expr.parse

mutual

/-- **The first fault in a node decides what it contributes.** -/
theorem piece_decided {closing : SelfClosing} : (depth : Nat) → (n : Node) →
    Decided (piece closing depth n) n.preorder
  | depth, .text s => by
      rw [piece_text, Node.preorder]
      exact .ok (by simp [Node.fault?])
  | depth, .comment content => by
      rw [piece_comment, Node.preorder]
      exact .ok (by simp [Node.fault?])
  | depth, .unknown type => by
      rw [piece_unknown, Node.preorder]
      exact .error rfl
  | depth, .code content sides => by
      rw [Node.preorder_code, piece_code]
      cases hparse : Expr.parse (Text.trim content) with
      | error e => exact .error (by rw [Node.fault?, hparse])
      | ok e =>
          refine .cons (by rw [Node.fault?, hparse]) (.map ?_)
          cases sides with
          | none =>
              rw [Option.getD_none, sidePrograms, Node.preorderAll]
              exact .ok (by simp)
          | some ns => exact sidePrograms_decided ns
  | depth, .tag name attrs content => by
      rw [Node.preorder_tag, piece_tag]
      refine .cons rfl (.bind ?_ fun listed _ => ?_)
      · cases attrs with
        | none =>
            rw [Option.getD_none, attributions, Node.preorderAttrs]
            exact .ok (by simp)
        | some as => exact attributions_decided as fun name value => eq_text_of_takes
      · split
        · -- The content is not laid out, but it is blank text.
          rename_i hbody
          exact .ok (Node.fault?_eq_none_of_blank hbody)
        · refine .map ?_
          cases content with
          | none =>
              rw [Option.getD_none, flow, Node.preorderAll]
              exact .ok (by simp)
          | some ns => exact flow_decided (depth + 1) ns

/-- The first fault in siblings decides what they contribute. -/
theorem flow_decided {closing : SelfClosing} : (depth : Nat) → (ns : List Node) →
    Decided (flow closing depth ns) (Node.preorderAll ns)
  | depth, [] => by
      rw [flow, Node.preorderAll]
      exact .ok (by simp)
  | depth, n :: rest => by
      rw [Node.preorderAll, flow]
      exact .bind (piece_decided depth n) fun p _ => .map (flow_decided depth rest)

/-- The first fault in a value decides about its segments. -/
theorem parts_decided {closing : SelfClosing} : (ns : List Node) →
    Decided (parts closing ns) (Node.preorderAll ns)
  | [] => by
      rw [parts, Node.preorderAll]
      exact .ok (by simp)
  | n :: rest => by
      rw [Node.preorderAll, parts]
      exact .bind (piece_decided 0 n) fun p _ => .map (parts_decided rest)

/-- The first fault in side nodes decides about their programs. -/
theorem sidePrograms_decided {closing : SelfClosing} : (ns : List Node) →
    Decided (sidePrograms closing ns) (Node.preorderAll ns)
  | [] => by
      rw [sidePrograms, Node.preorderAll]
      exact .ok (by simp)
  | n :: rest => by
      rw [Node.preorderAll, sidePrograms]
      exact .bind (piece_decided 0 n) fun p _ => .map (sidePrograms_decided rest)

/-- The first fault in the values of attributes decides about their list, if those that are left out are
single texts. -/
theorem attributions_decided {closing : SelfClosing} {short : Head} {before : List String} :
    (as : Attributes (List Node) before) →
    (∀ name value, (name, value) ∈ as.entries → short.takes name = true → ∃ s, value = [.text s]) →
    Decided (attributions closing short as) (Node.preorderAttrs as)
  | .nil, _ => by
      rw [attributions, Node.preorderAttrs]
      exact .ok (by simp)
  | .cons name value rest _, hshort => by
      rw [Node.preorderAttrs]
      have hrest : Decided (attributions closing short rest) (Node.preorderAttrs rest) :=
        attributions_decided rest fun name value hmem =>
          hshort name value (List.mem_cons_of_mem _ hmem)
      rw [attributions]
      split
      · -- The value is not laid out, but there is nothing to find in it.
        rename_i htakes
        obtain ⟨s, rfl⟩ := hshort name value List.mem_cons_self htakes
        simp only [Node.preorderAll, Node.preorder, List.append_nil, List.cons_append,
          List.nil_append]
        exact .cons rfl hrest
      · exact .bind (parts_decided value) fun segments _ => .map hrest

end

/-- The first fault of a tree decides whether it has a program. -/
theorem program_decided (closing : SelfClosing) (nodes : List Node) :
    Decided (program closing nodes) (Node.preorderAll nodes) :=
  .map (flow_decided 0 nodes)

end Layout

/-! ### Templates -/

namespace Decided

variable {α : Type} {x : Except LayoutError α} {ns : List Node}

/-- A decided result is a success exactly if there is no fault. -/
theorem exists_ok_iff (h : Decided x ns) : (∃ a, x = .ok a) ↔ ∀ n ∈ ns, n.fault? = none := by
  rw [← List.findSome?_eq_none_iff]
  rw [Decided] at h
  cases hfault : ns.findSome? Node.fault? with
  | some e =>
      rw [hfault] at h
      simp only at h
      simp [h]
  | none =>
      rw [hfault] at h
      exact ⟨fun _ => rfl, fun _ => h⟩

/-- A decided result is an error exactly if this is the first fault. -/
theorem eq_error_iff (h : Decided x ns) {e : LayoutError} :
    x = .error e ↔ ∃ before n after, ns = before ++ n :: after ∧
      n.fault? = some e ∧ ∀ m ∈ before, m.fault? = none := by
  rw [← List.findSome?_eq_some_iff]
  rw [Decided] at h
  cases hfault : ns.findSome? Node.fault? with
  | some e' =>
      rw [hfault] at h
      simp only at h
      rw [h, Except.error.injEq, Option.some.injEq]
  | none =>
      rw [hfault] at h
      obtain ⟨a, rfl⟩ := h
      simp

end Decided

namespace Settings

/-- The settings with a known word for the form of tags without a body. -/
theorem validate_of_mem {settings : Settings}
    (h : settings.selfClosing ∈ ["close", "tag", "slash"]) :
    ∃ closing, settings.validate =
      .ok ⟨settings.hostName, closing, settings.asSource, settings.mode, settings.host⟩ := by
  have hword : ∃ closing, SelfClosing.ofWord? settings.selfClosing = some closing := by
    simp only [List.mem_cons, List.not_mem_nil, or_false] at h
    rcases h with h | h | h
    · exact ⟨.close, by rw [h]; rfl⟩
    · exact ⟨.tag, by rw [h]; rfl⟩
    · exact ⟨.slash, by rw [h]; rfl⟩
  obtain ⟨closing, hclosing⟩ := hword
  exact ⟨closing, by rw [validate, hclosing]⟩

/-- The error for any other word. -/
theorem validate_of_not_mem {settings : Settings}
    (h : settings.selfClosing ∉ ["close", "tag", "slash"]) :
    settings.validate =
      .error ⟨"selfClosing", settings.selfClosing, "'close', 'tag', or 'slash'"⟩ := by
  have hword : SelfClosing.ofWord? settings.selfClosing = none := by
    simp only [List.mem_cons, List.not_mem_nil, or_false, not_or] at h
    obtain ⟨hclose, htag, hslash⟩ := h
    rw [SelfClosing.ofWord?.eq_def]
    split
    · rename_i heq
      exact absurd heq htag
    · rename_i heq
      exact absurd heq hclose
    · rename_i heq
      exact absurd heq hslash
    · rfl
  rw [validate, hword]

end Settings

namespace Template

/-- **A tree can be laid out exactly if nothing in it is faulty, and else the first fault in
document order is the error.**  An unknown word for the form of tags without a body is an error
before that, whatever the tree holds. -/
theorem ofNodes_outcome (nodes : List Node) (settings : Settings) :
    (settings.selfClosing ∉ ["close", "tag", "slash"] →
      ofNodes nodes settings = .error (.invalidSetting
        ⟨"selfClosing", settings.selfClosing, "'close', 'tag', or 'slash'"⟩)) ∧
    (settings.selfClosing ∈ ["close", "tag", "slash"] →
      ((∃ t, ofNodes nodes settings = .ok t) ↔
        ∀ n ∈ Node.preorderAll nodes, n.fault? = none) ∧
      ∀ e, ofNodes nodes settings = .error e ↔
        ∃ before n after, Node.preorderAll nodes = before ++ n :: after ∧
          n.fault? = some e ∧ ∀ m ∈ before, m.fault? = none) := by
  constructor
  · intro hword
    rw [ofNodes, Settings.validate_of_not_mem hword]
    rfl
  · intro hword
    obtain ⟨closing, hvalid⟩ := Settings.validate_of_mem hword
    have hdecided : Decided (ofNodes nodes settings) (Node.preorderAll nodes) := by
      rw [ofNodes, hvalid]
      exact .map (Layout.program_decided closing nodes)
    exact ⟨hdecided.exists_ok_iff, fun e => hdecided.eq_error_iff⟩

/-- A bad expression among the side nodes of an attribute's value comes before a node of unknown
type in the content. -/
theorem ofNodes_outcome_side_node :
    ofNodes
        [.tag "a" (some (.cons "id" [.text "x"]
          (.cons "b" [.code "c" (some [.code " 1 + " none])] .nil)))
          (some [.text " ", .unknown "d"])] {} =
      .error (.invalidExpression "1 +" ⟨3, [.unary]⟩) := by
  refine (((ofNodes_outcome _ {}).2 (by decide)).2 _).mpr ⟨
    [.tag "a" (some (.cons "id" [.text "x"]
          (.cons "b" [.code "c" (some [.code " 1 + " none])] .nil)))
      (some [.text " ", .unknown "d"]), .text "x", .code "c" (some [.code " 1 + " none])],
    .code " 1 + " none, [.text " ", .unknown "d"], rfl, ?_, ?_⟩
  · decide +kernel
  · decide +kernel

end Template

end LineMarkup
