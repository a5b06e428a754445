import LineMarkup.Layout

/-!
# Walking over a tree

The program of a tree, written in one pass. What is written goes to the end of a program; a flag tells
whether a line has been started, since the first line has no line feed before it.

Siblings are split into items: a stretch of text and expressions is one item, every tag and comment is
one. The first item goes on along the line that its tag has started, if it is a stretch. A stretch at any
other place starts a line behind a mark, and a stretch of blanks is passed over if there are tags or
comments around it.

## Main Definitions

* `Walker` — a program that is being written
* `Item`, `splitItems` — siblings as stretches, tags and comments
* `Walker.walkNodes` — siblings at a level
* `walk` — the program of a whole tree
-/

namespace LineMarkup.Layout

/-- A program that is being written, and whether it has a line that was started. -/
structure Walker where
  program : Program := []
  started : Bool := false

/-- One or more siblings: a stretch of text and expressions, or a node of another kind. -/
inductive Item where
  | inline (run : List Node)
  | block (n : Node)

namespace Item

/-- Whether an item starts lines. -/
def isBlock : Item → Bool
  | inline _ => false
  | block _ => true

/-- The nodes of an item. -/
def nodes : Item → List Node
  | inline run => run
  | block n => [n]

end Item

/-- A stretch as an item in front of others, unless nothing is in it. -/
def closeRun (run : List Node) (items : List Item) : List Item :=
  if run.isEmpty then items else .inline run :: items

/-- The items of siblings, behind a stretch that is still open. -/
def splitItems (run : List Node) : List Node → List Item
  | [] => closeRun run []
  | n :: rest =>
    if n.isInline then
      splitItems (run ++ [n]) rest
    else
      closeRun run (.block n :: splitItems [] rest)

/-- No node is lost or moved. -/
theorem flatMap_nodes_splitItems (run ns : List Node) :
    (splitItems run ns).flatMap Item.nodes = run ++ ns := by
  have hclose (run : List Node) (items : List Item) :
      (closeRun run items).flatMap Item.nodes = run ++ items.flatMap Item.nodes := by
    cases run <;> rfl
  induction ns generalizing run with
  | nil => exact hclose run []
  | cons n rest ih =>
      rw [splitItems]
      split
      · rw [ih, List.append_assoc, List.singleton_append]
      · rw [hclose, List.flatMap_cons, ih]
        rfl

section Sizes

variable (ns ms : List Node)

/-- A list is not larger than with another one behind it. -/
theorem sizeOf_le_append_left : sizeOf ns ≤ sizeOf (ns ++ ms) := by
  induction ns with
  | nil =>
      cases ms with
      | nil => exact Nat.le_refl _
      | cons m ms =>
          rw [List.nil_append, List.nil.sizeOf_spec, List.cons.sizeOf_spec]
          omega
  | cons n ns ih =>
      rw [List.cons_append, List.cons.sizeOf_spec, List.cons.sizeOf_spec]
      exact Nat.add_le_add_left ih _

/-- A list is not larger than with another one before it. -/
theorem sizeOf_le_append_right : sizeOf ms ≤ sizeOf (ns ++ ms) := by
  induction ns with
  | nil => exact Nat.le_refl _
  | cons n ns ih =>
      rw [List.cons_append, List.cons.sizeOf_spec]
      exact Nat.le_trans ih (Nat.le_add_left _ _)

end Sizes

namespace Walker

/-- Add text. -/
def pushText (w : Walker) (s : String) : Walker :=
  { w with program := w.program.pushText s }

/-- Add a segment. -/
def push (w : Walker) (seg : Segment) : Walker :=
  { w with program := w.program.push seg }

/-- Add the segments of a program. -/
def append (w : Walker) (p : Program) : Walker :=
  { w with program := w.program.append p }

/-- Start a line at a level. -/
def newline (w : Walker) (depth : Nat) : Walker :=
  let w := if w.started then w.pushText "\n" else w
  { w.push (indent depth) with started := true }

/-- The head of a tag up to its short forms. -/
def openHead (name : String) (short : Head) : Program :=
  let head := Program.pushText [] name
  let head :=
    match short.id with
    | none => head
    | some id => (head.pushText "#").pushText id
  match short.classes with
  | none => head
  | some cs => (head.pushText ".").pushText (".".intercalate cs)

/-- The rest of a head behind its attributes; the flag says that none are listed. -/
def closeHead (closing : SelfClosing) (name : String) (content : Option (List Node))
    (head : Program) (first : Bool) : Program :=
  let head := if first then head else head.pushText ")"
  if Node.hasNoBody content && closing == .slash && !alwaysWithBody.contains name then
    head.pushText " /"
  else
    head

/-- An attribute in the list of a tag. -/
def addAttr (head : Program) (name : String) (value : Program) : Program :=
  match value.asStatic? with
  | some s => if s = "" then head.pushText name else head.pushText (name ++ "=\"" ++ s ++ "\"")
  | none => head.push (.attr name value)

/-- The source of an expression without the blanks around it, and what it is read as. -/
def parseCode (content : String) : Except LayoutError (String × Expr) :=
  let source := Text.trim content
  match Expr.parse source with
  | .error e => .error (.invalidExpression source e)
  | .ok e => .ok (source, e)

mutual

/-- Siblings at a level. In a tag, the stretch that they start with goes on along its line. -/
def walkNodes (closing : SelfClosing) (depth : Nat) (inTag : Bool) (ns : List Node) (w : Walker) :
    Except LayoutError Walker :=
  let items := splitItems [] ns
  walkItems closing depth inTag (items.any Item.isBlock) 0 items w
termination_by (sizeOf ns, 4, 0)
decreasing_by
  rw [flatMap_nodes_splitItems, List.nil_append]
  exact .right _ (.left _ _ (by decide))

/-- The items from an index on. -/
def walkItems (closing : SelfClosing) (depth : Nat) (inTag hasBlocks : Bool) (index : Nat) :
    List Item → Walker → Except LayoutError Walker
  | [], w => .ok w
  | .inline run :: items, w =>
    if hasBlocks && run.all Node.isBlankText then
      walkItems closing depth inTag hasBlocks (index + 1) items w
    else do
      let w :=
        if index = 0 then
          if inTag then w.pushText " " else w
        else
          (w.newline depth).pushText "| "
      let w ← walkRun closing run { w with started := true }
      walkItems closing depth inTag hasBlocks (index + 1) items w
  | .block n :: items, w => do
    let w ← walkNode closing depth n w
    walkItems closing depth inTag hasBlocks (index + 1) items w
termination_by items => (sizeOf (items.flatMap Item.nodes), 3, items.length)
decreasing_by
  · exact .right' _ (sizeOf_le_append_right run _) (.right _ (Nat.lt_succ_self _))
  · exact .right' _ (sizeOf_le_append_left run _) (.left _ _ (by decide))
  · exact .right' _ (sizeOf_le_append_right run _) (.right _ (Nat.lt_succ_self _))
  · exact .left _ _ (Nat.lt_of_lt_of_le (by rw [List.cons.sizeOf_spec]; omega)
      (sizeOf_le_append_left [n] _))
  · exact .right' _ (sizeOf_le_append_right [n] _) (.right _ (Nat.lt_succ_self _))

/-- The nodes of a stretch. -/
def walkRun (closing : SelfClosing) : List Node → Walker → Except LayoutError Walker
  | [], w => .ok w
  | n :: rest, w => do
    let w ← walkNode closing 0 n w
    walkRun closing rest w
termination_by ns => (sizeOf ns, 2, 0)

/-- A node: text and expressions go on along the line, a tag or comment starts one at a level. -/
def walkNode (closing : SelfClosing) (depth : Nat) : Node → Walker → Except LayoutError Walker
  | .text s, w => .ok (w.pushText s)
  | .code content sides, w => do
    let segment ← compileCode closing content sides
    return w.push segment
  | .tag name attrs content, w => do
    let head ← compileHead closing name attrs content
    let w := (w.newline depth).append head
    if Node.hasNoBody content then
      return w
    else
      match content with
      | none => return w
      | some ns => walkNodes closing (depth + 1) true ns w
  | .comment content, w => .ok (((w.newline depth).pushText "// ").pushText content)
  | .unknown type, _ => .error (.unknownType type)
termination_by n => (sizeOf n, 0, 0)

/-- The segment of an expression. -/
def compileCode (closing : SelfClosing) (content : String) (sides : Option (List Node)) :
    Except LayoutError Segment := do
  let (source, e) ← parseCode content
  let programs ←
    match sides with
    | none => pure []
    | some ns => compileSides closing ns
  return .code source e programs
termination_by (sizeOf sides, 0, 0)

/-- The programs of side nodes: a walk of its own for each. -/
def compileSides (closing : SelfClosing) : List Node → Except LayoutError (List Program)
  | [] => .ok []
  | n :: rest => do
    let w ← walkNodes closing 0 false [n] {}
    let others ← compileSides closing rest
    return w.program :: others
termination_by ns => (sizeOf ns, 5, 0)
decreasing_by
  · exact .right' _ (sizeOf_le_append_left [n] rest) (.left _ _ (by decide))
  · decreasing_tactic

/-- The head of a tag, without the indentation. -/
def compileHead (closing : SelfClosing) (name : String) (attrs : Option (Attributes (List Node) []))
    (content : Option (List Node)) : Except LayoutError Program := do
  let short := Head.ofAttrs (attrs.getD .nil)
  let (head, first) ←
    match attrs with
    | none => pure (openHead name short, true)
    | some as => compileAttrs closing short as (openHead name short) true
  return closeHead closing name content head first
termination_by (sizeOf attrs, 0, 0)

/-- The attributes that are listed, behind a head; the flag says that none has come yet. -/
def compileAttrs (closing : SelfClosing) (short : Head) {before : List String} :
    Attributes (List Node) before → Program → Bool → Except LayoutError (Program × Bool)
  | .nil, head, first => .ok (head, first)
  | .cons name value rest _, head, first =>
    if short.takes name then
      compileAttrs closing short rest head first
    else do
      let head := head.pushText (if first then "(" else " ")
      let program ← compileValue closing value []
      compileAttrs closing short rest (addAttr head name program) false
termination_by as => (sizeOf as, 0, 0)

/-- The parts of an attribute's value, one behind the other; a tag or comment is a walk of its own. -/
def compileValue (closing : SelfClosing) : List Node → Program → Except LayoutError Program
  | [], value => .ok value
  | .text s :: rest, value => compileValue closing rest (value.pushText s)
  | .code content sides :: rest, value => do
    let segment ← compileCode closing content sides
    compileValue closing rest (value.push segment)
  | .tag name attrs content :: rest, value => do
    let w ← walkNodes closing 0 false [.tag name attrs content] {}
    compileValue closing rest (value.append w.program)
  | .comment content :: rest, value => do
    let w ← walkNodes closing 0 false [.comment content] {}
    compileValue closing rest (value.append w.program)
  | .unknown type :: _, _ => .error (.unknownType type)
termination_by ns => (sizeOf ns, 5, 0)
decreasing_by
  · decreasing_tactic
  · decreasing_tactic
  · decreasing_tactic
  · exact .right' _ (sizeOf_le_append_left [_] rest) (.left _ _ (by decide))
  · decreasing_tactic
  · exact .right' _ (sizeOf_le_append_left [_] rest) (.left _ _ (by decide))
  · decreasing_tactic

end

end Walker

/-- The program of a whole tree: siblings at the outermost level, by a walker that has written nothing. -/
def walk (closing : SelfClosing) (nodes : List Node) : Except LayoutError Program := do
  let w ← Walker.walkNodes closing 0 false nodes {}
  return w.program

end LineMarkup.Layout
