import LineMarkup.Proofs.JsonTexts
import LineMarkup.Proofs.LayoutSteps
import LineMarkup.Node.Decode

/-!
# Texts of markup trees

What a JSON text of a list of nodes looks like, said by the nodes and not by the reader: which
fields an object must have and may have, what each of them says about the node, and in which shapes a
value may be written.  The reader tries shapes one after the other, so the point is that no earlier
one accepts what is meant for a later one; it also reads content and attribute values in full before
it looks at them, so what is passed over there is held to more than what is passed over elsewhere.

A field is read on its own: `NodeRecord.value?` is what a record knows of a field, and reading a
field changes it there and nowhere else.  So the order of the fields does not matter, and the node of
a record depends on the values of the five fields only.

## Main Definitions

* `NodeField`, `FieldValue` — the fields of a node, and what is written in them
* `Node.Keeps` — what may be written in a field of a node
* `NodeTree`, `FieldsTree`, `FieldTree`, `NodesTree`, `AttrsTree`, `AttrTree` — nodes as JSON trees,
  up to the unknown fields that are allowed
* `CanPass` — the unknown fields that are passed over
* `Spells` — the texts of a list of nodes

## Main Statements

* `Json.Tree.isReadable_iff` — what can be read in full, with the depth apart
* `NodeTree.read` — a node written as a tree is read as that node
* `Node.ofJson_of_spells` — a text of a list of nodes is read as that list
* `Node.ofJson_ne_of_any_extra` — which unknown fields spoil such a text
-/

namespace LineMarkup

namespace Json.Tree

/-! ### Depth -/

mutual

/-- How deeply containers are nested. -/
def depth : Tree → Nat
  | null | bool _ | number _ | string _ | broken => 0
  | array items _ => depthAll items + 1
  | object fields _ => depthFields fields + 1

/-- How deeply containers are nested in one of the trees. -/
def depthAll : List Tree → Nat
  | [] => 0
  | t :: ts => max t.depth (depthAll ts)

/-- How deeply containers are nested in one of the fields. -/
def depthFields : List (Option String × Tree) → Nat
  | [] => 0
  | (_, t) :: fs => max t.depth (depthFields fs)

end

mutual

/-- Whether nothing is cut off, all texts name characters and all numbers are in range. -/
def isPlain : Tree → Bool
  | null | bool _ => true
  | number n => n.toFloat?.isSome
  | string s => s.isSome
  | array items whole => arePlain items && whole
  | object fields whole => fieldsPlain fields && whole
  | broken => false

/-- Whether all trees are plain. -/
def arePlain : List Tree → Bool
  | [] => true
  | t :: ts => t.isPlain && arePlain ts

/-- Whether all keys name characters and all values are plain. -/
def fieldsPlain : List (Option String × Tree) → Bool
  | [] => true
  | (k, t) :: fs => k.isSome && t.isPlain && fieldsPlain fs

end

mutual

/-- **What can be read in full is plain and not nested too deeply.** -/
theorem isReadable_iff {room : Nat} : (t : Tree) →
    (t.isReadable room = true ↔ t.isPlain = true ∧ t.depth ≤ room)
  | null => by simp [isReadable, isPlain, depth]
  | bool _ => by simp [isReadable, isPlain, depth]
  | number _ => by simp [isReadable, isPlain, depth]
  | string _ => by simp [isReadable, isPlain, depth]
  | broken => by simp [isReadable, isPlain]
  | array items whole => by
      have h := @areReadable_iff (room - 1) items
      simp only [isReadable, isPlain, depth, Bool.and_eq_true, decide_eq_true_eq, h]
      exact ⟨fun ⟨⟨_, hplain, _⟩, hwhole⟩ => ⟨⟨hplain, hwhole⟩, by omega⟩,
        fun ⟨⟨hplain, hwhole⟩, _⟩ => ⟨⟨by omega, hplain, by omega⟩, hwhole⟩⟩
  | object fields whole => by
      have h := @fieldsReadable_iff (room - 1) fields
      simp only [isReadable, isPlain, depth, Bool.and_eq_true, decide_eq_true_eq, h]
      exact ⟨fun ⟨⟨_, hplain, _⟩, hwhole⟩ => ⟨⟨hplain, hwhole⟩, by omega⟩,
        fun ⟨⟨hplain, hwhole⟩, _⟩ => ⟨⟨by omega, hplain, by omega⟩, hwhole⟩⟩

/-- Trees can be read if they are plain and not nested too deeply. -/
theorem areReadable_iff {room : Nat} : (ts : List Tree) →
    (areReadable room ts = true ↔ arePlain ts = true ∧ depthAll ts ≤ room)
  | [] => by simp [areReadable, arePlain, depthAll]
  | t :: ts => by
      simp only [areReadable, arePlain, depthAll, Bool.and_eq_true, isReadable_iff t,
        areReadable_iff ts, Nat.max_le, and_and_and_comm]

/-- Fields can be read if they are plain and not nested too deeply. -/
theorem fieldsReadable_iff {room : Nat} : (fs : List (Option String × Tree)) →
    (fieldsReadable room fs = true ↔ fieldsPlain fs = true ∧ depthFields fs ≤ room)
  | [] => by simp [fieldsReadable, fieldsPlain, depthFields]
  | (k, t) :: fs => by
      simp only [fieldsReadable, fieldsPlain, depthFields, Bool.and_eq_true, isReadable_iff t,
        fieldsReadable_iff fs, Nat.max_le, ← and_assoc, and_right_comm]

end

end Json.Tree

open Json

/-! ### Fields -/

/-- The fields of a node. -/
inductive NodeField where
  | type | name | attrs | content | nodes
deriving DecidableEq, Repr

/-- The key of a field. -/
def NodeField.key : NodeField → String
  | type => "type"
  | name => "name"
  | attrs => "attrs"
  | content => "content"
  | nodes => "nodes"

/-- What is written in a field of a node. -/
inductive FieldValue where
  | null
  | text (s : String)
  | nodes (ns : List Node)
  | attrs (as : Attributes (List Node) [])

/-- A text is written as such; if it is empty, null will do. -/
def FieldValue.IsText (s : String) (v : FieldValue) : Prop :=
  v = .text s ∨ v = .null ∧ s = ""

namespace Node

/-- What may be written in a field of a node; a field that is left out counts as null.  The content
of a tag may be a text if it is one text node.  A field that the type has no use for may hold
anything of its shape. -/
def Keeps (n : Node) : NodeField → FieldValue → Prop
  | .type, v => v = .text n.typeName
  | .name, v =>
    match n with
    | tag name _ _ => v.IsText name
    | _ => True
  | .attrs, v =>
    match n with
    | tag _ attrs _ => v = attrs.elim .null .attrs
    | _ => True
  | .content, v =>
    match n with
    | tag _ _ content => v = content.elim .null .nodes ∨ ∃ s, v = .text s ∧ content = some [text s]
    | text s => v.IsText s
    | code s _ => v.IsText s
    | comment s => v.IsText s
    | unknown _ => True
  | .nodes, v =>
    match n with
    | code _ sides => v = sides.elim .null .nodes
    | _ => True

/-- An unknown type is none of the known ones. -/
def TypeApart : Node → Prop
  | unknown type => type ∉ ["tag", "text", "code", "comment"]
  | _ => True

end Node

/-! ### Nodes as trees -/

section Trees

variable (Extra : Bool → Option String × Tree → Prop)

mutual

/-- A node is an object.  `Extra` tells which unknown fields may stand in it, inside content and
attribute values (`true`) and elsewhere (`false`). -/
inductive NodeTree : Bool → Tree → Node → Prop where
  | mk {inner : Bool} {n : Node} {keys : List NodeField} {fields : List (Option String × Tree)} :
      n.TypeApart → FieldsTree inner n keys fields → (∀ key, key ∉ keys → n.Keeps key .null) →
      NodeTree inner (.object fields true) n

/-- Fields of a node, each at most once and in any order, and unknown fields between them. -/
inductive FieldsTree : Bool → Node → List NodeField → List (Option String × Tree) → Prop where
  | nil {inner : Bool} {n : Node} : FieldsTree inner n [] []
  | field {inner : Bool} {n : Node} (key : NodeField) {keys : List NodeField} {t : Tree}
      {v : FieldValue} {fields : List (Option String × Tree)} : FieldTree inner key t v →
      n.Keeps key v → key ∉ keys → FieldsTree inner n keys fields →
      FieldsTree inner n (key :: keys) ((some key.key, t) :: fields)
  | extra {inner : Bool} {n : Node} {keys : List NodeField} {k : Option String} {t : Tree}
      {fields : List (Option String × Tree)} : (∀ key : NodeField, k ≠ some key.key) →
      t.isWellFormed = true → Extra inner (k, t) → FieldsTree inner n keys fields →
      FieldsTree inner n keys ((k, t) :: fields)

/-- A field of a node. -/
inductive FieldTree : Bool → NodeField → Tree → FieldValue → Prop where
  | null {inner : Bool} {key : NodeField} : key ≠ .type → FieldTree inner key .null .null
  | text {inner : Bool} {key : NodeField} {s : String} : key ∈ [.type, .name, .content] →
      FieldTree inner key (.string (some s)) (.text s)
  | attrs {inner : Bool} {fields : List (Option String × Tree)}
      {as : Attributes (List Node) []} : AttrsTree fields as →
      FieldTree inner .attrs (.object fields true) (.attrs as)
  | content {inner : Bool} {items : List Tree} {ns : List Node} : NodesTree true items ns →
      FieldTree inner .content (.array items true) (.nodes ns)
  | nodes {inner : Bool} {items : List Tree} {ns : List Node} : NodesTree inner items ns →
      FieldTree inner .nodes (.array items true) (.nodes ns)

/-- Nodes, in order. -/
inductive NodesTree : Bool → List Tree → List Node → Prop where
  | nil {inner : Bool} : NodesTree inner [] []
  | cons {inner : Bool} {t : Tree} {n : Node} {ts : List Tree} {ns : List Node} :
      NodeTree inner t n → NodesTree inner ts ns → NodesTree inner (t :: ts) (n :: ns)

/-- Attributes, in order. -/
inductive AttrsTree : {before : List String} → List (Option String × Tree) →
    Attributes (List Node) before → Prop where
  | nil {before : List String} : @AttrsTree before [] .nil
  | cons {before : List String} {name : String} {t : Tree} {ns : List Node}
      {fields : List (Option String × Tree)} {rest : Attributes (List Node) (name :: before)}
      {fresh : name ∉ before} : AttrTree t ns → AttrsTree fields rest →
      AttrsTree ((some name, t) :: fields) (.cons name ns rest fresh)

/-- The value of an attribute: one node alone, or an array. -/
inductive AttrTree : Tree → List Node → Prop where
  | one {t : Tree} {n : Node} : NodeTree true t n → AttrTree t [n]
  | many {items : List Tree} {ns : List Node} : NodesTree true items ns →
      AttrTree (.array items true) ns

end

/-- The texts of a list of nodes. -/
def Spells (text : String) (ns : List Node) : Prop :=
  ∃ items, ElementText text.toList (.array items true) ∧
    (Tree.array items true).depth ≤ Tree.deepest ∧ NodesTree Extra false items ns

end Trees

/-- The unknown fields that are passed over: the key names characters, and inside content and
attribute values so does every text, and every number is in range. -/
structure CanPass (inner : Bool) (f : Option String × Tree) : Prop where
  key : f.1.isSome = true
  plain : inner = true → f.2.isPlain = true

/-! ### Plain trees -/

mutual

/-- What is written inside content and attribute values is plain. -/
theorem NodeTree.isPlain : {inner : Bool} → {t : Tree} → {n : Node} →
    NodeTree CanPass inner t n → inner = true → t.isPlain = true
  | _, _, _, .mk _ hfields _, hinner => by
      rw [Tree.isPlain, hfields.fieldsPlain hinner, Bool.and_true]

/-- Inside content and values, the fields of a node are plain. -/
theorem FieldsTree.fieldsPlain : {inner : Bool} → {n : Node} → {keys : List NodeField} →
    {fields : List (Option String × Tree)} → FieldsTree CanPass inner n keys fields →
    inner = true → Tree.fieldsPlain fields = true
  | _, _, _, _, .nil, _ => by rw [Tree.fieldsPlain]
  | _, _, _, _, .field _ hfield _ _ hfields, hinner => by
      rw [Tree.fieldsPlain, hfield.isPlain hinner, hfields.fieldsPlain hinner]
      rfl
  | _, _, _, _, .extra _ _ hextra hfields, hinner => by
      rw [Tree.fieldsPlain, hextra.key, hextra.plain hinner, hfields.fieldsPlain hinner]
      rfl

/-- Inside content and values, what is written in a field is plain. -/
theorem FieldTree.isPlain : {inner : Bool} → {key : NodeField} → {t : Tree} → {v : FieldValue} →
    FieldTree CanPass inner key t v → inner = true → t.isPlain = true
  | _, _, _, _, .null _, _ => by rw [Tree.isPlain]
  | _, _, _, _, .text _, _ => by rw [Tree.isPlain, Option.isSome_some]
  | _, _, _, _, .attrs hattrs, _ => by rw [Tree.isPlain, hattrs.fieldsPlain, Bool.and_true]
  | _, _, _, _, .content hnodes, _ => by rw [Tree.isPlain, hnodes.arePlain rfl, Bool.and_true]
  | _, _, _, _, .nodes hnodes, hinner => by
      rw [Tree.isPlain, hnodes.arePlain hinner, Bool.and_true]

/-- Inside content and values, nodes are written plainly. -/
theorem NodesTree.arePlain : {inner : Bool} → {ts : List Tree} → {ns : List Node} →
    NodesTree CanPass inner ts ns → inner = true → Tree.arePlain ts = true
  | _, _, _, .nil, _ => by rw [Tree.arePlain]
  | _, _, _, .cons hnode hnodes, hinner => by
      rw [Tree.arePlain, hnode.isPlain hinner, hnodes.arePlain hinner, Bool.and_true]

/-- Attributes are written plainly at any place. -/
theorem AttrsTree.fieldsPlain : {before : List String} → {fields : List (Option String × Tree)} →
    {as : Attributes (List Node) before} → AttrsTree CanPass fields as →
    Tree.fieldsPlain fields = true
  | _, _, _, .nil => by rw [Tree.fieldsPlain]
  | _, _, _, .cons hattr hattrs => by
      rw [Tree.fieldsPlain, hattr.isPlain, hattrs.fieldsPlain]
      rfl

/-- The value of an attribute is written plainly at any place. -/
theorem AttrTree.isPlain : {t : Tree} → {ns : List Node} → AttrTree CanPass t ns →
    t.isPlain = true
  | _, _, .one hnode => hnode.isPlain rfl
  | _, _, .many hnodes => by rw [Tree.isPlain, hnodes.arePlain rfl, Bool.and_true]

end

/-! ### Records -/

/-- What a record has for a field that has come. -/
abbrev NodeField.Data : NodeField → Type
  | type => String
  | name => Option String
  | attrs => Option (Attributes (List Node) [])
  | content => Option WrittenContent
  | nodes => Option (List Node)

/-- A written content as the value of its field. -/
def WrittenContent.value : WrittenContent → FieldValue
  | .text s => .text s
  | .nodes ns => .nodes ns

/-- What is written in a field, from what a record has for it. -/
def NodeField.value : (key : NodeField) → key.Data → FieldValue
  | type, s => .text s
  | name, x => x.elim .null .text
  | attrs, x => x.elim .null .attrs
  | content, x => x.elim .null WrittenContent.value
  | nodes, x => x.elim .null .nodes

namespace NodeRecord

/-- What a record has for a field. -/
def get? (r : NodeRecord) : (key : NodeField) → Option key.Data
  | .type => r.type
  | .name => r.name
  | .attrs => r.attrs
  | .content => r.content
  | .nodes => r.nodes

/-- A record with a field that has come. -/
def put (r : NodeRecord) : (key : NodeField) → key.Data → NodeRecord
  | .type, x => { r with type := some x }
  | .name, x => { r with name := some x }
  | .attrs, x => { r with attrs := some x }
  | .content, x => { r with content := some x }
  | .nodes, x => { r with nodes := some x }

/-- What a record knows of a field, if the field has come. -/
def value? (r : NodeRecord) (key : NodeField) : Option FieldValue :=
  (r.get? key).map key.value

@[simp] theorem get?_put_self (r : NodeRecord) (key : NodeField) (x : key.Data) :
    (r.put key x).get? key = some x := by
  cases key <;> rfl

/-- Setting a field does not touch the others. -/
theorem get?_put_of_ne (r : NodeRecord) {key other : NodeField} (x : key.Data) (h : other ≠ key) :
    (r.put key x).get? other = r.get? other := by
  cases key <;> cases other <;> first | rfl | exact absurd rfl h

end NodeRecord

/-- A new name goes to the end. -/
theorem Entries.insert_of_notMem {α : Type} {es : Entries α} {name : String} {value : α}
    (h : name ∉ es.map Prod.fst) : es.insert name value = es ++ [(name, value)] := by
  induction es with
  | nil => rfl
  | cons e rest ih =>
      obtain ⟨k, v⟩ := e
      rw [List.map_cons, List.mem_cons, not_or] at h
      rw [insert, if_neg (Ne.symm h.1), ih h.2, List.cons_append]

/-- With room left, one may go one level deeper. -/
theorem Json.descend_of_pos {room : Nat} (h : 0 < room) : descend room = .ok (room - 1) := by
  rw [descend, if_neg (Nat.ne_of_gt h)]

/-- A plain tree that is not nested too deeply is passed over without an error. -/
theorem Json.readable_of_isPlain {t : Tree} {room : Nat} (hplain : t.isPlain = true)
    (hdepth : t.depth ≤ room) : readable room t = .ok () := by
  rw [readable, if_pos ((Tree.isReadable_iff t).mpr ⟨hplain, hdepth⟩)]

namespace Node

/-- What is read of a field by itself. -/
def readField (room : Nat) (t : Tree) : (key : NodeField) → Except DecodeError key.Data
  | .type => readString t
  | .name => readString? t
  | .attrs => readAttrs room t
  | .content => readContent room t
  | .nodes => readSides room t

/-- A field is read if it has not come before, and it is put into the record. -/
theorem readFields_key (room : Nat) (key : NodeField) (t : Tree)
    (rest : List (Option String × Tree)) (r : NodeRecord) :
    readFields room ((some key.key, t) :: rest) r = (do
      fresh key.key (r.get? key)
      let x ← readField room t key
      readFields room rest (r.put key x)) := by
  cases key <;> rfl

/-- A field of a node changes the record there and nowhere else. -/
theorem readFields_field {room : Nat} {key : NodeField} {t : Tree} {v : FieldValue}
    {r : NodeRecord} (hread : (readField room t key).map key.value = .ok v)
    (hfresh : r.value? key = none) (rest : List (Option String × Tree)) :
    ∃ r' : NodeRecord, readFields room ((some key.key, t) :: rest) r = readFields room rest r' ∧
      r'.value? key = some v ∧ ∀ other, other ≠ key → r'.value? other = r.value? other := by
  obtain ⟨x, hx, rfl⟩ := map_eq_ok_iff.mp hread
  refine ⟨r.put key x, ?_, ?_, fun other hne => ?_⟩
  · rw [readFields_key, Option.map_eq_none_iff.mp hfresh, hx]
    rfl
  · rw [NodeRecord.value?, NodeRecord.get?_put_self, Option.map_some]
  · rw [NodeRecord.value?, NodeRecord.get?_put_of_ne r x hne, NodeRecord.value?]

/-- An unknown field leaves the record as it is. -/
theorem readFields_extra {room : Nat} {k : Option String} {t : Tree} {r : NodeRecord}
    (hunknown : ∀ key : NodeField, k ≠ some key.key) (hkey : k.isSome = true)
    (ht : t.isWellFormed = true) (rest : List (Option String × Tree)) :
    readFields room ((k, t) :: rest) r = readFields room rest r := by
  obtain ⟨name, rfl⟩ := Option.isSome_iff_exists.mp hkey
  rw [readFields, readKey]
  dsimp only [bind, Except.bind]
  split
  · exact absurd rfl (hunknown .type)
  · exact absurd rfl (hunknown .name)
  · exact absurd rfl (hunknown .attrs)
  · exact absurd rfl (hunknown .content)
  · exact absurd rfl (hunknown .nodes)
  · rw [ignore, if_pos ht]

/-- A node in the place of an attribute value is read as it is elsewhere. -/
theorem readAttr_of_read {room : Nat} {fields : List (Option String × Tree)} {whole : Bool}
    {n : Node} (h : read room (.object fields whole) = .ok n) :
    readAttr room (.object fields whole) = .ok [n] := by
  rw [read] at h
  obtain ⟨inside, hinside, h⟩ := bind_eq_ok_iff.mp h
  rw [descend] at hinside
  split at hinside
  · cases hinside
  · cases hinside
    obtain ⟨r, hr, h⟩ := bind_eq_ok_iff.mp h
    obtain ⟨u, -, h⟩ := bind_eq_ok_iff.mp h
    rw [readAttr]
    exact bind_eq_ok_iff.mpr ⟨r, hr, bind_eq_ok_iff.mpr ⟨n, h, rfl⟩⟩

section Containers

variable {room : Nat} {items : List Tree} {fields : List (Option String × Tree)}

/-- An object is read as the node of the record that its fields fill. -/
theorem read_object (hroom : 0 < room) {r : NodeRecord} {n : Node}
    (hr : readFields (room - 1) fields {} = .ok r) (hn : r.toNode = .ok n) :
    read room (.object fields true) = .ok n := by
  rw [read]
  exact bind_eq_ok_iff.mpr ⟨_, descend_of_pos hroom, bind_eq_ok_iff.mpr ⟨r, hr,
    bind_eq_ok_iff.mpr ⟨(), rfl, hn⟩⟩⟩

/-- An array of nodes is read as side nodes. -/
theorem readSides_array (hroom : 0 < room) {ns : List Node}
    (hns : readAll (room - 1) items = .ok ns) :
    readSides room (.array items true) = .ok (some ns) := by
  rw [readSides]
  exact bind_eq_ok_iff.mpr ⟨_, descend_of_pos hroom, bind_eq_ok_iff.mpr ⟨ns, hns, rfl⟩⟩

/-- An object of values is read as attributes. -/
theorem readAttrs_object (hroom : 0 < room) {as : Attributes (List Node) []}
    (has : readAttrFields (room - 1) fields .nil = .ok as) :
    readAttrs room (.object fields true) = .ok (some as) := by
  rw [readAttrs]
  exact bind_eq_ok_iff.mpr ⟨_, descend_of_pos hroom, bind_eq_ok_iff.mpr ⟨as, has, rfl⟩⟩

/-- An array of nodes is read as content, if it could be put aside before. -/
theorem readContent_array (hfull : readable room (.array items true) = .ok ()) {ns : List Node}
    (hns : readAll (room - 1) items = .ok ns) :
    readContent room (.array items true) = .ok (some (.nodes ns)) := by
  rw [readContent]
  refine bind_eq_ok_iff.mpr ⟨(), hfull, ?_⟩
  rw [hns]
  rfl

end Containers

/-- An array of nodes is not taken for the fields of one node, since no type is an object. -/
theorem readAttr_array {E : Bool → Option String × Tree → Prop} {inner : Bool} {room : Nat}
    {items : List Tree} {ns : List Node} (h : NodesTree E inner items ns) :
    readAttr room (.array items true) = readAll (room - 1) items := by
  rw [readAttr]
  split
  · rename_i n hn
    cases h with
    | nil => cases hn
    | cons hnode _ =>
        cases hnode
        cases hn
  · rfl

end Node

/-! ### The node of a record -/

namespace NodeRecord

variable {r : NodeRecord} {n : Node}

/-- In an empty record no field has been seen. -/
theorem value?_empty (key : NodeField) : ({} : NodeRecord).value? key = none := by
  cases key <;> rfl

/-- A field that is null counts as one that is left out. -/
theorem getD_map_elim {α : Type} (x : Option (Option α)) (f : α → FieldValue) :
    (x.map (·.elim .null f)).getD .null = x.join.elim .null f := by
  rcases x with _ | _ | _ <;> rfl

/-- A content that is null, or has not come, counts as null. -/
theorem getD_value?_content :
    (r.value? .content).getD .null = r.content.join.elim .null WrittenContent.value :=
  getD_map_elim r.content WrittenContent.value

/-- The type of the node was read. -/
theorem type_of_keeps (h : n.Keeps .type ((r.value? .type).getD .null)) :
    r.type = some n.typeName := by
  rw [Node.Keeps, value?, get?] at h
  cases htype : r.type with
  | none =>
      rw [htype] at h
      cases h
  | some type =>
      rw [htype] at h
      cases h
      rfl

/-- The name that was read, where null counts as empty. -/
theorem name_of_isText {name : String} (h : ((r.value? .name).getD .null).IsText name) :
    r.name.join.getD "" = name := by
  rw [show (r.value? .name).getD .null = _ from getD_map_elim r.name .text] at h
  cases hname : r.name.join with
  | none =>
      rw [hname] at h
      rcases h with h | ⟨-, rfl⟩
      · cases h
      · rfl
  | some s =>
      rw [hname] at h
      rcases h with h | ⟨h, -⟩ <;> cases h
      rfl

/-- What is not null is known from what is written for it. -/
theorem eq_of_elim_eq {α : Type} {f : α → FieldValue} (hnull : ∀ a, f a ≠ .null)
    (hinjective : Function.Injective f) {x y : Option α} (h : x.elim .null f = y.elim .null f) :
    x = y := by
  cases x with
  | none =>
      cases y with
      | none => rfl
      | some b => exact absurd h.symm (hnull b)
  | some a =>
      cases y with
      | none => exact absurd h (hnull a)
      | some b => exact congrArg some (hinjective h)

/-- The attributes that were read. -/
theorem attrs_of_eq {attrs : Option (Attributes (List Node) [])}
    (h : (r.value? .attrs).getD .null = attrs.elim .null .attrs) : r.attrs.join = attrs :=
  eq_of_elim_eq nofun (fun _ _ heq => FieldValue.attrs.inj heq)
    ((getD_map_elim r.attrs .attrs).symm.trans h)

/-- The side nodes that were read. -/
theorem nodes_of_eq {sides : Option (List Node)}
    (h : (r.value? .nodes).getD .null = sides.elim .null .nodes) : r.nodes.join = sides :=
  eq_of_elim_eq nofun (fun _ _ heq => FieldValue.nodes.inj heq)
    ((getD_map_elim r.nodes .nodes).symm.trans h)

/-- The text that was read as content. -/
theorem contentText_of_isText {s : String} (h : ((r.value? .content).getD .null).IsText s) :
    r.contentText = s := by
  rw [getD_value?_content] at h
  rw [contentText]
  rcases hcontent : r.content.join with _ | s' | ns
  all_goals
    rw [hcontent] at h
    rcases h with h | ⟨h, hs⟩ <;> cases h
  · exact hs.symm
  · rfl

/-- The nodes that were read as content, where a text counts as one text node. -/
theorem contentNodes_of_keeps {content : Option (List Node)}
    (h : (r.value? .content).getD .null = content.elim .null .nodes ∨
      ∃ s, (r.value? .content).getD .null = .text s ∧ content = some [.text s]) :
    r.contentNodes = content := by
  rw [getD_value?_content] at h
  rw [contentNodes]
  rcases hcontent : r.content.join with _ | s' | ns
  all_goals
    rw [hcontent] at h
    rcases h with h | ⟨s, h, rfl⟩
  · cases content <;> cases h
    rfl
  · cases h
  · cases content <;> cases h
  · cases h
    rfl
  · cases content <;> cases h
    rfl
  · cases h

/-- **The node of a record is the one that keeps the values of its fields.** -/
theorem toNode_of_keeps (htype : n.TypeApart)
    (h : ∀ key, n.Keeps key ((r.value? key).getD .null)) : r.toNode = .ok n := by
  have hname := type_of_keeps (h .type)
  cases n with
  | tag name attrs content =>
      rw [toNode, hname]
      simp only [Node.typeName, name_of_isText (h .name), attrs_of_eq (h .attrs),
        contentNodes_of_keeps (h .content)]
  | text s =>
      rw [toNode, hname]
      simp only [Node.typeName, contentText_of_isText (h .content)]
  | code source sides =>
      rw [toNode, hname]
      simp only [Node.typeName, contentText_of_isText (h .content), nodes_of_eq (h .nodes)]
  | comment s =>
      rw [toNode, hname]
      simp only [Node.typeName, contentText_of_isText (h .content)]
  | unknown type =>
      rw [Node.TypeApart] at htype
      rw [toNode, hname, Node.typeName]
      -- The known types are excluded; what is left is the type as it is.
      split
      all_goals
        rename_i heq
        cases heq
      any_goals simp at htype
      rfl

end NodeRecord

open Node

mutual

/-- **A node written as a tree is read as that node.** -/
theorem NodeTree.read : {inner : Bool} → {t : Tree} → {n : Node} → NodeTree CanPass inner t n →
    {room : Nat} → t.depth ≤ room → Node.read room t = .ok n
  | _, _, _, @NodeTree.mk _ _ _ keys fields htype hfields hrest, room, hdepth => by
      rw [Tree.depth] at hdepth
      obtain ⟨r, hr, hcome, hleft⟩ := hfields.read (Nat.le_sub_one_of_lt hdepth)
        fun key _ => NodeRecord.value?_empty key
      have hnode : r.toNode = .ok _ := NodeRecord.toNode_of_keeps htype fun key => by
        by_cases hkey : key ∈ keys
        · obtain ⟨v, hv, hkeeps⟩ := hcome key hkey
          rwa [hv]
        · rw [hleft key hkey, NodeRecord.value?_empty]
          exact hrest key hkey
      exact read_object (Nat.zero_lt_of_lt hdepth) hr hnode

/-- **The fields of a node fill a record**: what is read of them is what they keep, and the other
fields are not touched. -/
theorem FieldsTree.read : {inner : Bool} → {n : Node} → {keys : List NodeField} →
    {fields : List (Option String × Tree)} → FieldsTree CanPass inner n keys fields →
    {room : Nat} → {r : NodeRecord} → Tree.depthFields fields ≤ room →
    (∀ key ∈ keys, r.value? key = none) →
    ∃ r', readFields room fields r = .ok r' ∧
      (∀ key ∈ keys, ∃ v, r'.value? key = some v ∧ n.Keeps key v) ∧
      ∀ key, key ∉ keys → r'.value? key = r.value? key
  | _, _, _, _, .nil, room, r, _, _ => by
      refine ⟨r, ?_, fun _ h => absurd h List.not_mem_nil, fun _ _ => rfl⟩
      rw [readFields]
  | _, _, _, _, @FieldsTree.field _ _ _ key keys _ v _ hfield hkeeps hkey hfields, _, _, hdepth,
      hfresh => by
      rw [Tree.depthFields, Nat.max_le] at hdepth
      obtain ⟨r₁, hr₁, hcome₁, hleft₁⟩ := readFields_field (hfield.read hdepth.1)
        (hfresh key List.mem_cons_self) _
      have hfresh₁ : ∀ other ∈ keys, r₁.value? other = none := by
        intro other hother
        have hne : other ≠ key := fun heq => hkey (heq ▸ hother)
        rw [hleft₁ other hne]
        exact hfresh other (List.mem_cons_of_mem _ hother)
      obtain ⟨r', hr', hcome, hleft⟩ := hfields.read hdepth.2 hfresh₁
      refine ⟨r', hr₁.trans hr', List.forall_mem_cons.mpr ⟨⟨v, ?_, hkeeps⟩, hcome⟩, ?_⟩
      · rw [hleft key hkey, hcome₁]
      · intro other hother
        rw [List.mem_cons, not_or] at hother
        rw [hleft other hother.2, hleft₁ other hother.1]
  | _, _, _, _, .extra hunknown ht hextra hfields, _, _, hdepth, hfresh => by
      rw [Tree.depthFields, Nat.max_le] at hdepth
      rw [readFields_extra hunknown hextra.key ht]
      exact hfields.read hdepth.2 hfresh

/-- A field is read as what is written in it. -/
theorem FieldTree.read : {inner : Bool} → {key : NodeField} → {t : Tree} → {v : FieldValue} →
    FieldTree CanPass inner key t v → {room : Nat} → t.depth ≤ room →
    (readField room t key).map key.value = .ok v
  | _, key, _, _, .null hkey, _, _ => by
      cases key with
      | type => exact absurd rfl hkey
      | _ => rfl
  | _, key, _, _, .text hkey, _, _ => by
      cases key with
      | attrs => simp at hkey
      | nodes => simp at hkey
      | _ => rfl
  | _, _, _, _, @FieldTree.attrs _ _ _ as hattrs, _, hdepth => by
      rw [Tree.depth] at hdepth
      obtain ⟨all, hall, hentries⟩ := @AttrsTree.read _ _ _ hattrs _ .nil
        (Nat.le_sub_one_of_lt hdepth) fun _ h => absurd h List.not_mem_nil
      obtain rfl : all = as := Attributes.entries_injective hentries
      exact map_eq_ok_iff.mpr ⟨_, readAttrs_object (Nat.zero_lt_of_lt hdepth) hall, rfl⟩
  | _, _, _, _, @FieldTree.content _ _ items _ hnodes, _, hdepth => by
      have hplain : Tree.isPlain (.array items true) = true := by
        rw [Tree.isPlain, hnodes.arePlain rfl, Bool.and_true]
      have hfull := readable_of_isPlain hplain hdepth
      rw [Tree.depth] at hdepth
      have hread := hnodes.read (Nat.le_sub_one_of_lt hdepth)
      exact map_eq_ok_iff.mpr ⟨_, readContent_array hfull hread, rfl⟩
  | _, _, _, _, .nodes hnodes, _, hdepth => by
      rw [Tree.depth] at hdepth
      have hread := hnodes.read (Nat.le_sub_one_of_lt hdepth)
      exact map_eq_ok_iff.mpr ⟨_, readSides_array (Nat.zero_lt_of_lt hdepth) hread, rfl⟩

/-- Nodes are read one by one. -/
theorem NodesTree.read : {inner : Bool} → {ts : List Tree} → {ns : List Node} →
    NodesTree CanPass inner ts ns → {room : Nat} → Tree.depthAll ts ≤ room →
    readAll room ts = .ok ns
  | _, _, _, .nil, _, _ => by rw [readAll]
  | _, _, _, .cons hnode hnodes, _, hdepth => by
      rw [Tree.depthAll, Nat.max_le] at hdepth
      rw [readAll]
      exact bind_eq_ok_iff.mpr ⟨_, hnode.read hdepth.1,
        bind_eq_ok_iff.mpr ⟨_, hnodes.read hdepth.2, rfl⟩⟩

/-- Attributes written as fields are put behind those that came before. -/
theorem AttrsTree.read : {before : List String} → {fields : List (Option String × Tree)} →
    {as : Attributes (List Node) before} → AttrsTree CanPass fields as → {room : Nat} →
    {done : Attributes (List Node) []} → Tree.depthFields fields ≤ room →
    (∀ name ∈ done.entries.map Prod.fst, name ∈ before) →
    ∃ all, readAttrFields room fields done = .ok all ∧ all.entries = done.entries ++ as.entries
  | _, _, _, .nil, _, done, _, _ => by
      refine ⟨done, ?_, (List.append_nil _).symm⟩
      rw [readAttrFields]
  | _, _, _, @AttrsTree.cons _ before name t ns fields rest hnew hattr hattrs, room, done, hdepth,
      hbefore => by
      rw [Tree.depthFields, Nat.max_le] at hdepth
      have hinsert : (done.insert name ns).entries = done.entries ++ [(name, ns)] := by
        rw [Attributes.entries_insert, Entries.insert_of_notMem]
        exact fun hmem => hnew (hbefore name hmem)
      obtain ⟨all, hall, hentries⟩ := @AttrsTree.read _ _ _ hattrs room (done.insert name ns)
        hdepth.2 (by
          intro other hother
          rw [hinsert, List.map_append, List.mem_append] at hother
          obtain hother | hother := hother
          · exact List.mem_cons_of_mem _ (hbefore other hother)
          · exact List.mem_of_mem_head? (Option.mem_some.mpr (List.mem_singleton.mp hother).symm))
      refine ⟨all, ?_, ?_⟩
      · rw [readAttrFields]
        refine bind_eq_ok_iff.mpr ⟨name, rfl, bind_eq_ok_iff.mpr
          ⟨(), readable_of_isPlain hattr.isPlain hdepth.1, ?_⟩⟩
        rw [hattr.read hdepth.1]
        exact hall
      · rw [hentries, hinsert, List.append_assoc, List.singleton_append, Attributes.entries_cons]

/-- The value of an attribute is read as its nodes. -/
theorem AttrTree.read : {t : Tree} → {ns : List Node} → AttrTree CanPass t ns → {room : Nat} →
    t.depth ≤ room → readAttr room t = .ok ns
  | _, _, .one hnode, _, hdepth => by
      have hread := hnode.read hdepth
      cases hnode
      exact readAttr_of_read hread
  | _, _, .many hnodes, room, hdepth => by
      rw [Tree.depth] at hdepth
      rw [readAttr_array hnodes]
      exact hnodes.read (by omega)

end

/-- **A text of a list of nodes is read as that list.** -/
theorem Node.ofJson_of_spells {text : String} {ns : List Node} (h : Spells CanPass text ns) :
    Node.ofJson text = .ok ns := by
  obtain ⟨items, htext, hdepth, hnodes⟩ := h
  rw [Tree.depth] at hdepth
  have hread : readAll (Tree.deepest - 1) items = .ok ns := hnodes.read (by omega)
  rw [Node.ofJson, decode, parse_of_elementText htext]
  exact bind_eq_ok_iff.mpr ⟨ns, bind_eq_ok_iff.mpr ⟨ns, hread, rfl⟩, rfl⟩

/-- A tag and a comment: fields in another order, a content of one text as its string, an attribute
value of one node alone, null for no side nodes, and an unknown field. -/
def mixedText : String :=
  "[\x7b\"name\":\"a\",\"content\":\"x\",\"type\":\"tag\",\"attrs\":" ++
    "\x7b\"b\":\x7b\"type\":\"code\",\"nodes\":null\x7d\x7d\x7d," ++
    "\x7b\"line\":3,\"type\":\"comment\"\x7d]"

/-- A text with unknown fields and fields left out. -/
theorem elementText_mixed : ElementText mixedText.toList (.array [.object [
      (some "name", .string (some "a")), (some "content", .string (some "x")),
      (some "type", .string (some "tag")), (some "attrs", .object [(some "b", .object [
        (some "type", .string (some "code")), (some "nodes", .null)] true)] true)] true,
      .object [(some "line", .number (.natural 3)),
        (some "type", .string (some "comment"))] true] true) := by
  have hcode : TreeText "\x7b\"type\":\"code\",\"nodes\":null\x7d".toList
      (.object [(some "type", .string (some "code")), (some "nodes", .null)] true) :=
    .object (.more (@MemberText.text "type".toList "code".toList rfl rfl)
      (.last (.bare (@QuotedText.plain "nodes".toList rfl) .null)))
  have hthree : NumberText ['3'] (.natural 3) :=
    .mk .none (.digit rfl) .none .none
  exact .bare (.array (.more
    (.bare (.object
      (.more (@MemberText.text "name".toList "a".toList rfl rfl)
      (.more (@MemberText.text "content".toList "x".toList rfl rfl)
      (.more (@MemberText.text "type".toList "tag".toList rfl rfl)
      (.last (.bare (@QuotedText.plain "attrs".toList rfl)
        (.object (.last (.bare (@QuotedText.plain "b".toList rfl) hcode))))))))))
    (.last (.bare (.object
      (.more (.bare (@QuotedText.plain "line".toList rfl) (.number hthree))
      (.last (@MemberText.text "type".toList "comment".toList rfl rfl))))))))

theorem Node.ofJson_of_spells_mixed :
    Spells CanPass mixedText
        [.tag "a" (some (.cons "b" [.code "" none] .nil)) (some [.text "x"]), .comment ""] ∧
      Node.ofJson mixedText =
        .ok [.tag "a" (some (.cons "b" [.code "" none] .nil)) (some [.text "x"]), .comment ""] := by
  have hcode : NodeTree CanPass true (.object [(some "type", .string (some "code")),
      (some "nodes", .null)] true) (.code "" none) := by
    refine .mk trivial (.field .type (.text (by decide)) rfl (by decide)
      (.field .nodes (.null (by decide)) rfl (by decide) .nil)) fun key hkey => ?_
    cases key with
    | content => exact .inr ⟨rfl, rfl⟩
    | name => exact trivial
    | attrs => exact trivial
    | _ => simp at hkey
  have htag : NodeTree CanPass false (.object [
      (some "name", .string (some "a")), (some "content", .string (some "x")),
      (some "type", .string (some "tag")), (some "attrs", .object [(some "b", .object [
        (some "type", .string (some "code")), (some "nodes", .null)] true)] true)] true)
      (.tag "a" (some (.cons "b" [.code "" none] .nil)) (some [.text "x"])) := by
    refine .mk trivial (.field .name (.text (by decide)) (.inl rfl) (by decide)
      (.field .content (.text (by decide)) (.inr ⟨"x", rfl, rfl⟩) (by decide)
      (.field .type (.text (by decide)) rfl (by decide)
      (.field .attrs (.attrs (.cons (.one hcode) .nil)) rfl (by decide) .nil))))
      fun key hkey => ?_
    cases key with
    | nodes => exact trivial
    | _ => simp at hkey
  have hcomment : NodeTree CanPass false (.object [(some "line", .number (.natural 3)),
      (some "type", .string (some "comment"))] true) (.comment "") := by
    have hline (key : NodeField) : some "line" ≠ some key.key := by
      cases key <;> decide
    refine .mk trivial (.extra hline rfl ⟨rfl, nofun⟩
      (.field .type (.text (by decide)) rfl (by decide) .nil)) fun key hkey => ?_
    cases key with
    | content => exact .inr ⟨rfl, rfl⟩
    | type => simp at hkey
    | _ => exact trivial
  have hspells : Spells CanPass mixedText
      [.tag "a" (some (.cons "b" [.code "" none] .nil)) (some [.text "x"]), .comment ""] :=
    ⟨_, elementText_mixed, by decide, .cons htag (.cons hcomment .nil)⟩
  exact ⟨hspells, Node.ofJson_of_spells hspells⟩

/-! ### Unknown fields that are not passed over -/

/-- A number out of range, in a field that is not known and inside the content of a tag. -/
def farText : String :=
  "[\x7b\"type\":\"tag\",\"name\":\"a\",\"content\":[\x7b\"type\":\"text\",\"extra\":1e400\x7d]\x7d]"

/-- An unknown field whose key is half a character. -/
def halfText : String :=
  "[\x7b\"type\":\"text\",\"\\ud800\":1\x7d]"

/-- A text with a number that is out of range, deep inside content. -/
theorem elementText_far : ElementText farText.toList (.array [.object [
      (some "type", .string (some "tag")), (some "name", .string (some "a")),
      (some "content", .array [.object [(some "type", .string (some "text")),
        (some "extra", .number .outOfRange)] true] true)] true] true) := by
  have hfar : NumberText "1e400".toList .outOfRange :=
    .mk .none (.digit rfl) .none
      (@ExponentText.some 'e' [] "400".toList false rfl .none (isDigits_of_all (by simp) rfl))
  have htext : TreeText "\x7b\"type\":\"text\",\"extra\":1e400\x7d".toList
      (.object [(some "type", .string (some "text")), (some "extra", .number .outOfRange)] true) :=
    .object (.more (@MemberText.text "type".toList "text".toList rfl rfl)
      (.last (.bare (@QuotedText.plain "extra".toList rfl) (.number hfar))))
  exact .bare (.array (.last (.bare (.object
    (.more (@MemberText.text "type".toList "tag".toList rfl rfl)
    (.more (@MemberText.text "name".toList "a".toList rfl rfl)
    (.last (.bare (@QuotedText.plain "content".toList rfl)
      (.array (.last (.bare htext)))))))))))

/-- A text with a key that is half a character. -/
theorem elementText_half : ElementText halfText.toList (.array [.object [
      (some "type", .string (some "text")), (none, .number (.natural 1))] true] true) := by
  have hhalf : QuotedText "\"\\ud800\"".toList none :=
    .nameless (.cons (.code rfl) .nil) fun cs h => by
      cases h with
      | code hhigh _ _ => exact absurd hhigh (by decide)
  have hone : NumberText ['1'] (.natural 1) :=
    .mk .none (.digit rfl) .none .none
  exact .bare (.array (.last (.bare (.object
    (.more (@MemberText.text "type".toList "text".toList rfl rfl)
    (.last (.bare hhalf (.number hone))))))))

/-- Not everything well-formed is passed over: neither a number out of range inside content, nor a
key that names no characters. -/
theorem Node.ofJson_ne_of_any_extra :
    (Spells (fun _ _ => True) farText [.tag "a" none (some [.text ""])] ∧
      Node.ofJson farText ≠ .ok [.tag "a" none (some [.text ""])]) ∧
    (Spells (fun _ _ => True) halfText [.text ""] ∧ Node.ofJson halfText ≠ .ok [.text ""]) := by
  have hnone (key : NodeField) : none ≠ some key.key := nofun
  have hextra (key : NodeField) : some "extra" ≠ some key.key := by
    cases key <;> decide
  have htext {inner : Bool} {k : Option String} {n : Numeral}
      (hk : ∀ key : NodeField, k ≠ some key.key) : NodeTree (fun _ _ => True) inner
        (.object [(some "type", .string (some "text")), (k, .number n)] true) (.text "") := by
    refine .mk trivial (.field .type (.text (by decide)) rfl (by decide)
      (.extra hk rfl trivial .nil)) fun key hkey => ?_
    cases key with
    | type => simp at hkey
    | content => exact .inr ⟨rfl, rfl⟩
    | _ => exact trivial
  refine ⟨⟨⟨_, elementText_far, by decide, .cons ?_ .nil⟩, fun h => ?_⟩,
    ⟨⟨_, elementText_half, by decide, .cons (htext hnone) .nil⟩, fun h => ?_⟩⟩
  · refine .mk trivial (.field .type (.text (by decide)) rfl (by decide)
      (.field .name (.text (by decide)) (.inl rfl) (by decide)
      (.field .content (.content (.cons (htext hextra) .nil)) (.inl rfl) (by decide) .nil)))
      fun key hkey => ?_
    cases key with
    | attrs => exact rfl
    | nodes => exact trivial
    | _ => simp at hkey
  · have hfails : (Node.ofJson farText).toBool = false := by decide +kernel
    rw [h] at hfails
    cases hfails
  · have hfails : (Node.ofJson halfText).toBool = false := by decide +kernel
    rw [h] at hfails
    cases hfails

end LineMarkup
