import LineMarkup.Proofs.LayoutSteps

/-!
# Nodes in document order

A tree as the list of all its nodes, the outer ones before the inner ones.  Layout asks of a node in
this list what is wrong with it.

## Main Definitions

* `Node.preorder` — a node and all nodes inside it, in document order
* `Node.fault?` — what is wrong with a node by itself
-/

namespace LineMarkup

namespace Node

mutual

/-- A node and all nodes inside it, in document order: the attributes of a tag before its content,
an expression before its side nodes. -/
def preorder : Node → List Node
  | .tag name attrs content =>
    .tag name attrs content :: ((match attrs with
      | none => []
      | some as => preorderAttrs as) ++
    match content with
      | none => []
      | some ns => preorderAll ns)
  | .code content sides =>
    .code content sides :: match sides with
      | none => []
      | some ns => preorderAll ns
  | .text s => [.text s]
  | .comment s => [.comment s]
  | .unknown type => [.unknown type]

/-- The nodes of a list and all nodes inside them. -/
def preorderAll : List Node → List Node
  | [] => []
  | n :: rest => n.preorder ++ preorderAll rest

/-- The nodes in the values of attributes. -/
def preorderAttrs {before : List String} : Attributes (List Node) before → List Node
  | .nil => []
  | .cons _ value rest _ => preorderAll value ++ preorderAttrs rest

end

/-- What is wrong with a node by itself: its type is not known, or its expression, without the
blanks around it, is none. -/
def fault? : Node → Option LayoutError
  | .unknown type => some (.unknownType type)
  | .code content _ =>
    match Expr.parse (Text.trim content) with
    | .ok _ => none
    | .error e => some (.invalidExpression (Text.trim content) e)
  | _ => none

theorem preorder_tag (name : String) (attrs : Option (Attributes (List Node) []))
    (content : Option (List Node)) :
    (tag name attrs content).preorder = tag name attrs content ::
      (preorderAttrs (attrs.getD .nil) ++ preorderAll (content.getD [])) := by
  cases attrs <;> cases content <;> simp [preorder, preorderAttrs, preorderAll]

theorem preorder_code (content : String) (sides : Option (List Node)) :
    (code content sides).preorder = code content sides :: preorderAll (sides.getD []) := by
  cases sides <;> simp [preorder, preorderAll]

theorem preorder_of_isBlankText {n : Node} (h : n.isBlankText = true) : n.preorder = [n] := by
  cases n with
  | text s => rw [preorder]
  | tag _ _ _ => simp [isBlankText] at h
  | code _ _ => simp [isBlankText] at h
  | comment _ => simp [isBlankText] at h
  | unknown _ => simp [isBlankText] at h

/-- Blank text holds nothing faulty. -/
theorem fault?_eq_none_of_blank {ns : List Node} (h : ns.all isBlankText = true) :
    ∀ n ∈ preorderAll ns, n.fault? = none := by
  induction ns with
  | nil => simp [preorderAll]
  | cons n ns ih =>
      rw [List.all_cons, Bool.and_eq_true] at h
      rw [preorderAll, preorder_of_isBlankText h.1]
      refine List.forall_mem_cons.mpr ⟨?_, ih h.2⟩
      cases n with
      | text s => rfl
      | tag _ _ _ => simp [isBlankText] at h
      | code _ _ => simp [isBlankText] at h
      | comment _ => simp [isBlankText] at h
      | unknown _ => simp [isBlankText] at h

end Node

end LineMarkup
