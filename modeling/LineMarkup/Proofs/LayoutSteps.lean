import LineMarkup.Layout

/-!
# Steps of layout

What laying out a node does, one step after the other, with a missing list of attributes, content or
side nodes read as an empty one.

## Main Statements

* `bind_eq_ok_iff`, `map_eq_ok_iff` — a step after another one succeeds if both do
* `exists_ok_of_isOk` — a success that is computed
* `Layout.piece_text`, `Layout.piece_comment`, `Layout.piece_unknown`, `Layout.piece_code`,
  `Layout.piece_tag` — the steps of a node, by its type
* `Layout.shortId?_eq_none`, `Layout.shortClasses?_eq_none` — only a value of one text has a short form
* `Layout.ofAttrs_congr` — what the short forms of a tag are known from
-/

namespace LineMarkup

/-- A step after another one succeeds if both do. -/
theorem bind_eq_ok_iff {ε α β : Type} {x : Except ε α} {f : α → Except ε β} {b : β} :
    (x >>= f) = .ok b ↔ ∃ a, x = .ok a ∧ f a = .ok b := by
  cases x with
  | error e => simp [bind, Except.bind]
  | ok a => simp [bind, Except.bind]

/-- A result that is changed afterwards succeeds if it does before. -/
theorem map_eq_ok_iff {ε α β : Type} {x : Except ε α} {f : α → β} {b : β} :
    x.map f = .ok b ↔ ∃ a, x = .ok a ∧ f a = b := by
  cases x <;> simp [Except.map]

/-- That a result is a success can be computed, without its value. -/
theorem exists_ok_of_isOk {ε α : Type} {x : Except ε α} (h : x.isOk = true) : ∃ a, x = .ok a := by
  cases x with
  | error e => simp [Except.isOk, Except.toBool] at h
  | ok a => exact ⟨a, rfl⟩

namespace Layout

variable (closing : SelfClosing) (depth : Nat)

/-- The line of a tag's head. -/
def headLine (name : String) (attrs : Attributes (List Node) []) (content : Option (List Node))
    (listed : List (List Segment)) : Line :=
  indent depth :: .text name :: (Head.ofAttrs attrs).segments ++ attributionList listed ++
    slash closing name content

theorem piece_text (s : String) :
    piece closing depth (.text s) = .ok (.inline [.text s] (Text.allBlank s)) := rfl

theorem piece_comment (content : String) :
    piece closing depth (.comment content) =
      .ok (.block [[indent depth, .text "// ", .text content]]) := rfl

theorem piece_unknown (type : String) :
    piece closing depth (.unknown type) = .error (.unknownType type) := rfl

attribute [local irreducible] Expr.parse in
/-- An expression is read before its side nodes are looked at. -/
theorem piece_code (content : String) (sides : Option (List Node)) :
    piece closing depth (.code content sides) =
      match Expr.parse (Text.trim content) with
      | .error e => .error (.invalidExpression (Text.trim content) e)
      | .ok e => do
        let programs ← sidePrograms closing (sides.getD [])
        return .inline [.code (Text.trim content) e programs] false := by
  cases sides with
  | none =>
      show (match Expr.parse (Text.trim content) with | .error e => _ | .ok e => _) = _
      cases Expr.parse (Text.trim content) <;> rfl
  | some ns =>
      show (match Expr.parse (Text.trim content) with | .error e => _ | .ok e => _) = _
      cases Expr.parse (Text.trim content) <;> rfl

/-- A tag lays out its attributes first, then its content. -/
theorem piece_tag (name : String) (attrs : Option (Attributes (List Node) []))
    (content : Option (List Node)) :
    piece closing depth (.tag name attrs content) = do
      let listed ← attributions closing (.ofAttrs (attrs.getD .nil)) (attrs.getD .nil)
      let head := headLine closing depth name (attrs.getD .nil) content listed
      if Node.hasNoBody content then
        return .block [head]
      else
        let inner ← flow closing (depth + 1) (content.getD [])
        return .block (inner.behind head) := by
  cases attrs with
  | none => cases content <;> rfl
  | some as => cases content <;> rfl

/-! ### Short forms -/

theorem shortId?_eq_none {attrs : Attributes (List Node) []} (h : ∀ s, attrs.get? "id" ≠ some [.text s]) :
    shortId? attrs = none := by
  unfold shortId?
  split
  · rename_i s hs
    exact absurd hs (h s)
  · rfl

theorem shortClasses?_eq_none {attrs : Attributes (List Node) []}
    (h : ∀ s, attrs.get? "class" ≠ some [.text s]) : shortClasses? attrs = none := by
  unfold shortClasses?
  split
  · rename_i s hs
    exact absurd hs (h s)
  · rfl

/-- The short forms are known from the values of `id` and `class`, and of those it counts only which
single text they are. -/
theorem ofAttrs_congr {attrs attrs' : Attributes (List Node) []}
    (h : ∀ name, name = "id" ∨ name = "class" → attrs.get? name = attrs'.get? name ∨
      (∀ s, attrs.get? name ≠ some [.text s]) ∧ ∀ s, attrs'.get? name ≠ some [.text s]) :
    Head.ofAttrs attrs = Head.ofAttrs attrs' := by
  have hid : shortId? attrs = shortId? attrs' := by
    rcases h "id" (.inl rfl) with heq | ⟨hnot, hnot'⟩
    · unfold shortId?
      rw [heq]
    · rw [shortId?_eq_none hnot, shortId?_eq_none hnot']
  have hclasses : shortClasses? attrs = shortClasses? attrs' := by
    rcases h "class" (.inr rfl) with heq | ⟨hnot, hnot'⟩
    · unfold shortClasses?
      rw [heq]
    · rw [shortClasses?_eq_none hnot, shortClasses?_eq_none hnot']
  rw [Head.ofAttrs, Head.ofAttrs, hid, hclasses]

end Layout

end LineMarkup
