import LineMarkup.Template

/-!
# A serializer without programs

What a tree becomes for given locals, written down as lines from the tree at once.  No program
stands between, no part of the output depends on what was written before it, and no line is
continued after it is made.

Siblings are items: text and expressions side by side are one run, any other node is an item of its
own.  A run of blank text is dropped if there is another item beside it.  A run at the start goes on
the line before; all other items make lines.

A node that cannot be laid out writes nothing here.

## Main Definitions

* `Written` — what a node writes among its siblings
* `Item`, `items` — siblings as items
* `kept` — which items are written
* `document`, `element` — the lines of a whole tree and of a tag
* `written` — what a node writes for given locals
* `serialize` — the output of a tree
-/

namespace LineMarkup.Serial

/-- What a node writes among its siblings: a stretch of a line, with the information whether it is
blank text, or lines of its own. -/
inductive Written where
  | stretch (s : String) (blank : Bool)
  | lines (ls : List String)

namespace Written

/-- Whether lines are written. -/
def isLines : Written → Bool
  | stretch _ _ => false
  | lines _ => true

end Written

/-! ### Items -/

/-- An item among siblings: a run of stretches, or the lines of one node. -/
inductive Item where
  | run (stretches : List (String × Bool))
  | block (ls : List String)

/-- Siblings as items.  Stretches side by side are one run. -/
def items : List Written → List Item
  | [] => []
  | .stretch s blank :: rest =>
    match items rest with
    | .run stretches :: more => .run ((s, blank) :: stretches) :: more
    | more => .run [(s, blank)] :: more
  | .lines ls :: rest => .block ls :: items rest

/-- The text of a run, edge to edge. -/
def runText (stretches : List (String × Bool)) : String :=
  String.join (stretches.map Prod.fst)

/-- The indentation of a level. -/
def indentation (depth : Nat) : String :=
  String.ofList (List.replicate (2 * depth) ' ')

namespace Item

/-- Whether an item is no run. -/
def isBlock : Item → Bool
  | run _ => false
  | block _ => true

/-- Whether an item is a run of blank text. -/
def isBlank : Item → Bool
  | run stretches => stretches.all Prod.snd
  | block _ => false

/-- The lines of an item at a level: a run stands behind a mark. -/
def lines (depth : Nat) : Item → List String
  | run stretches => [indentation depth ++ "| " ++ runText stretches]
  | block ls => ls

end Item

/-- Whether an item is written: a run of blank text is dropped if there is a block beside it. -/
def kept (all : List Item) (item : Item) : Bool :=
  !(all.any Item.isBlock && item.isBlank)

/-- The run at the start, if it is kept. -/
def lead? (all : List Item) : Option String :=
  match all with
  | .run stretches :: _ => if kept all (.run stretches) then some (runText stretches) else none
  | _ => none

/-- The items behind the run at the start. -/
def behindLead : List Item → List Item
  | .run _ :: rest => rest
  | all => all

/-- The lines of all kept items behind the run at the start. -/
def followers (depth : Nat) (all : List Item) : List String :=
  ((behindLead all).filter (kept all)).flatMap (Item.lines depth)

/-- The lines of a whole tree: the run at the start is the first one. -/
def document (all : List Item) : List String :=
  (lead? all).toList ++ followers 0 all

/-- The lines of a tag with a body at a level: the run at the start goes on behind its head. -/
def element (depth : Nat) (head : String) (all : List Item) : List String :=
  (match lead? all with
    | none => head
    | some run => head ++ " " ++ run) :: followers (depth + 1) all

/-- Lines as one text. -/
def joined (ls : List String) : String :=
  "\n".intercalate ls

/-- The text of something that stands alone. -/
def alone (w : Written) : String :=
  joined (document (items [w]))

/-! ### Heads of tags -/

/-- The short forms behind the name of a tag. -/
def shortText (short : Layout.Head) : String :=
  (match short.id with
    | none => ""
    | some id => "#" ++ id) ++
  (match short.classes with
    | none => ""
    | some cs => "." ++ ".".intercalate cs)

/-- Attributes in parentheses; nothing if there are none. -/
def listText : List String → String
  | [] => ""
  | listed => "(" ++ " ".intercalate listed ++ ")"

/-- The slash of a tag without a body. -/
def slashText (slash : Bool) (name : String) (content : Option (List Node)) : String :=
  if Node.hasNoBody content && slash && !Layout.alwaysWithBody.contains name then " /" else ""

/-- The line of a tag's head at a level. -/
def headText (slash : Bool) (depth : Nat) (name : String) (attrs : Attributes (List Node) [])
    (content : Option (List Node)) (listed : List String) : String :=
  indentation depth ++ name ++ shortText (.ofAttrs attrs) ++ listText listed ++
    slashText slash name content

/-! ### Trees -/

mutual

/-- What a node writes at a level. -/
def written (scope : Scope) (slash : Bool) (depth : Nat) : Node → Except EvalError Written
  | .text s => .ok (.stretch s (Text.allBlank s))
  | .code content sides =>
    match Expr.parse (Text.trim content) with
    | .error _ => .ok (.stretch "" false)
    | .ok e => do
      let v ← e.eval scope
        (match sides with
          | none => []
          | some ns => sideTexts scope slash ns)
      return .stretch v.text false
  | .comment content => .ok (.lines [indentation depth ++ "// " ++ content])
  | .unknown _ => .ok (.lines [])
  | .tag name attrs content => do
    let listed ←
      match attrs with
      | none => pure []
      | some as => attributes scope slash (.ofAttrs as) as
    let head := headText slash depth name (attrs.getD .nil) content listed
    if Node.hasNoBody content then
      return .lines [head]
    else
      let inner ←
        match content with
        | none => pure []
        | some ns => siblings scope slash (depth + 1) ns
      return .lines (element depth head (items inner))

/-- What siblings write at a level, one after the other. -/
def siblings (scope : Scope) (slash : Bool) (depth : Nat) :
    List Node → Except EvalError (List Written)
  | [] => .ok []
  | n :: rest => do
    let w ← written scope slash depth n
    return w :: (← siblings scope slash depth rest)

/-- The value of an attribute: its nodes, each one alone, edge to edge. -/
def valueText (scope : Scope) (slash : Bool) : List Node → Except EvalError String
  | [] => .ok ""
  | n :: rest => do
    let w ← written scope slash 0 n
    return alone w ++ (← valueText scope slash rest)

/-- The side nodes of an expression, each one alone, worked out when it is asked for. -/
def sideTexts (scope : Scope) (slash : Bool) : List Node → List Side
  | [] => []
  | n :: rest =>
    Thunk.mk (fun _ => do return alone (← written scope slash 0 n)) :: sideTexts scope slash rest

/-- The attributes that have no short form, in their order. -/
def attributes (scope : Scope) (slash : Bool) (short : Layout.Head) {before : List String} :
    Attributes (List Node) before → Except EvalError (List String)
  | .nil => .ok []
  | .cons name value rest _ =>
    if short.takes name then
      attributes scope slash short rest
    else do
      let s ← valueText scope slash value
      return writtenAttribute name s :: (← attributes scope slash short rest)

end

section Steps

variable (scope : Scope) (slash : Bool) (depth : Nat)

attribute [local irreducible] Expr.parse in
theorem written_code (content : String) (sides : Option (List Node)) :
    written scope slash depth (.code content sides) =
      match Expr.parse (Text.trim content) with
      | .error _ => .ok (.stretch "" false)
      | .ok e => do
        let v ← e.eval scope (sideTexts scope slash (sides.getD []))
        return .stretch v.text false := by
  cases sides with
  | none =>
      show (match Expr.parse (Text.trim content) with | .error e => _ | .ok e => _) = _
      cases Expr.parse (Text.trim content) <;> rfl
  | some ns =>
      show (match Expr.parse (Text.trim content) with | .error e => _ | .ok e => _) = _
      cases Expr.parse (Text.trim content) <;> rfl

theorem written_tag (name : String) (attrs : Option (Attributes (List Node) []))
    (content : Option (List Node)) :
    written scope slash depth (.tag name attrs content) = do
      let listed ← attributes scope slash (.ofAttrs (attrs.getD .nil)) (attrs.getD .nil)
      let head := headText slash depth name (attrs.getD .nil) content listed
      if Node.hasNoBody content then
        return .lines [head]
      else
        let inner ← siblings scope slash (depth + 1) (content.getD [])
        return .lines (element depth head (items inner)) := by
  cases attrs with
  | none => cases content <;> rfl
  | some as => cases content <;> rfl

end Steps

/-- The output of a tree. -/
def serialize (settings : Settings) (locals : Locals) (nodes : List Node) :
    Except EvalError String := do
  let scope : Scope := ⟨locals, settings.mode, settings.hostName, settings.host⟩
  let ws ← siblings scope (settings.selfClosing == "slash") 0 nodes
  return joined (document (items ws))

end LineMarkup.Serial
