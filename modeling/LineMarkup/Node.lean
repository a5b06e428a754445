import LineMarkup.Attributes
import LineMarkup.Text.Blank

/-!
# Markup trees

The nodes that are laid out as lines: tags with attributes and content, literal text, embedded
expressions, comments. A node of a type that is not known is kept as such; layout refuses it when it
gets there.

## Main Definitions

* `Node` — the nodes of a markup tree
* `Node.isInline`, `Node.isBlankText`, `Node.hasNoBody` — what layout asks about a node
* `Node.withAttribute` — a tag with one more attribute
* `Node.nest` — a list of nodes inside several tags
-/

namespace LineMarkup

/-- A node of a markup tree. The attributes of a tag have different names, and their values are lists of
nodes whose outputs are joined; the side nodes of an expression are for the expression to place. -/
inductive Node where
  | tag (name : String) (attrs : Option (Attributes (List Node) [])) (content : Option (List Node))
  | text (content : String)
  | code (content : String) (sides : Option (List Node))
  | comment (content : String)
  | unknown (type : String)
deriving Inhabited

namespace Node

/-- The word for a node's type. -/
def typeName : Node → String
  | tag .. => "tag"
  | text _ => "text"
  | code .. => "code"
  | comment _ => "comment"
  | unknown type => type

/-- Text and expressions flow along a line; every other node starts one. -/
def isInline : Node → Bool
  | text _ => true
  | code .. => true
  | _ => false

/-- Whether a node is text of blanks only. -/
def isBlankText : Node → Bool
  | text content => Text.allBlank content
  | _ => false

/-- Whether a tag has nothing to nest: no content, or only blank text. -/
def hasNoBody (content : Option (List Node)) : Bool :=
  (content.getD []).all isBlankText

/-- A tag with one more attribute; a known name keeps its place and takes the value. Other nodes
have no attributes. -/
def withAttribute (name : String) (value : List Node) : Node → Node
  | tag tagName attrs content =>
    tag tagName (some ((attrs.getD .nil).insert name value)) content
  | node => node

/-- A list of nodes as the whole content of `depth` tags, one inside the other. -/
def nest (name : String) (inner : List Node) : Nat → List Node
  | 0 => inner
  | depth + 1 => [tag name none (some (nest name inner depth))]

end Node

end LineMarkup
