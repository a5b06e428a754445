import LineMarkup.Json.Decode
import LineMarkup.Node

/-!
# Markup trees in JSON

A node is a record with the fields `type`, `name`, `attrs`, `content` and `nodes`; all but the type
may be missing or null. It is written as an object, where unknown fields do not matter, or as an
array of the fields in this order, where the last ones may be left out.

The content is a text or an array of nodes; the value of an attribute is a node or an array of
nodes. Such a place is first read in full and then tried in each of its shapes.

All fields are checked, whatever the type; the type decides which of them the node keeps.

## Main Definitions

* `NodeRecord` — the fields of a node, as far as they have come
* `NodeRecord.toNode` — the node of a record
* `Node.ofJson` — the list of nodes of a JSON text
-/

namespace LineMarkup

open Json

/-- The content of a node as written. -/
inductive WrittenContent where
  | text (s : String)
  | nodes (ns : List Node)
deriving Inhabited

/-- The fields of a node, as far as they have come. The inner option is for null. -/
structure NodeRecord where
  type : Option String := none
  name : Option (Option String) := none
  attrs : Option (Option (Attributes (List Node) [])) := none
  content : Option (Option WrittenContent) := none
  nodes : Option (Option (List Node)) := none

namespace NodeRecord

/-- The content of a node that takes text; nodes count as no text. -/
def contentText (r : NodeRecord) : String :=
  match r.content.join with
  | some (.text s) => s
  | _ => ""

/-- The content of a node that takes nodes; a text counts as one text node. -/
def contentNodes (r : NodeRecord) : Option (List Node) :=
  match r.content.join with
  | none => none
  | some (.text s) => some [.text s]
  | some (.nodes ns) => some ns

/-- The node of a record. The type is the only field that must be there. -/
def toNode (r : NodeRecord) : Except DecodeError Node :=
  match r.type with
  | none => .error (.missingField "type")
  | some "tag" => .ok (.tag (r.name.join.getD "") r.attrs.join r.contentNodes)
  | some "text" => .ok (.text r.contentText)
  | some "code" => .ok (.code r.contentText r.nodes.join)
  | some "comment" => .ok (.comment r.contentText)
  | some other => .ok (.unknown other)

end NodeRecord

namespace Node

mutual

/-- A node. -/
def read (room : Nat) : Tree → Except DecodeError Node
  | .object fields whole => do
    let room ← descend room
    let r ← readFields room fields {}
    close whole
    r.toNode
  | .array items whole => do
    let room ← descend room
    let r ← readPositions room 0 items {}
    close whole
    if items.isEmpty then
      throw .emptyNode
    r.toNode
  | t => .error (mismatch t .node)

/-- The fields of a node written as an object. -/
def readFields (room : Nat) :
    List (Option String × Tree) → NodeRecord → Except DecodeError NodeRecord
  | [], r => .ok r
  | (key, t) :: rest, r => do
    match ← readKey key with
    | "type" =>
      fresh "type" r.type
      readFields room rest { r with type := some (← readString t) }
    | "name" =>
      fresh "name" r.name
      readFields room rest { r with name := some (← readString? t) }
    | "attrs" =>
      fresh "attrs" r.attrs
      readFields room rest { r with attrs := some (← readAttrs room t) }
    | "content" =>
      fresh "content" r.content
      readFields room rest { r with content := some (← readContent room t) }
    | "nodes" =>
      fresh "nodes" r.nodes
      readFields room rest { r with nodes := some (← readSides room t) }
    | _ =>
      ignore t
      readFields room rest r

/-- The fields of a node written as an array, from a position on. -/
def readPositions (room position : Nat) : List Tree → NodeRecord → Except DecodeError NodeRecord
  | [], r => .ok r
  | t :: rest, r =>
    match position with
    | 0 => do readPositions room 1 rest { r with type := some (← readString t) }
    | 1 => do readPositions room 2 rest { r with name := some (← readString? t) }
    | 2 => do readPositions room 3 rest { r with attrs := some (← readAttrs room t) }
    | 3 => do readPositions room 4 rest { r with content := some (← readContent room t) }
    | 4 => do readPositions room 5 rest { r with nodes := some (← readSides room t) }
    | _ => .error .malformed

/-- The side nodes of an expression. -/
def readSides (room : Nat) : Tree → Except DecodeError (Option (List Node))
  | .null => .ok none
  | .array items whole => do
    let room ← descend room
    let ns ← readAll room items
    close whole
    return some ns
  | t => .error (mismatch t .sequence)

/-- Nodes, in order. -/
def readAll (room : Nat) : List Tree → Except DecodeError (List Node)
  | [] => .ok []
  | t :: ts => do
    let n ← read room t
    return n :: (← readAll room ts)

/-- The attributes of a tag. -/
def readAttrs (room : Nat) : Tree → Except DecodeError (Option (Attributes (List Node) []))
  | .null => .ok none
  | .object fields whole => do
    let room ← descend room
    let attrs ← readAttrFields room fields .nil
    close whole
    return some attrs
  | t => .error (mismatch t .map)

/-- The attributes of a tag, added to those that came before. -/
def readAttrFields (room : Nat) :
    List (Option String × Tree) → Attributes (List Node) [] →
      Except DecodeError (Attributes (List Node) [])
  | [], attrs => .ok attrs
  | (key, t) :: rest, attrs => do
    let name ← readKey key
    readable room t
    match readAttr room t with
    | .ok value => readAttrFields room rest (attrs.insert name value)
    | .error _ => throw (.noChoice .attr)

/-- The value of an attribute: one node, or else an array of nodes. -/
def readAttr (room : Nat) : Tree → Except DecodeError (List Node)
  | .object fields _ => do
    let r ← readFields (room - 1) fields {}
    return [← r.toNode]
  | .array items _ =>
    match (readPositions (room - 1) 0 items {}).bind NodeRecord.toNode with
    | .ok n => .ok [n]
    | .error _ => readAll (room - 1) items
  | t => .error (mismatch t .node)

/-- The content of a node: a text, or else an array of nodes. -/
def readContent (room : Nat) : Tree → Except DecodeError (Option WrittenContent)
  | .null => .ok none
  | .string (some s) => .ok (some (.text s))
  | .array items whole => do
    readable room (.array items whole)
    match readAll (room - 1) items with
    | .ok ns => return some (.nodes ns)
    | .error _ => throw (.noChoice .content)
  | t => do
    readable room t
    throw (.noChoice .content)

end

/-- The list of nodes of a JSON text. -/
def ofJson (text : String) : Except DecodeError (List Node) :=
  Json.decode
    (fun t => do
      match t with
      | .array items whole =>
        let ns ← readAll (Tree.deepest - 1) items
        close whole
        return ns
      | t => throw (mismatch t .sequence))
    text

end Node

end LineMarkup
