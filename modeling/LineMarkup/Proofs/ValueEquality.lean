import LineMarkup.Eval.Expr
import LineMarkup.Json.Decode
import LineMarkup.Proofs.LayoutSteps
import Mathlib

/-!
# Equality of values

Two objects are equal if they have as many entries and each key of the first finds an equal value in
the second.  That looks from one side only.  It can be turned round because no key comes twice: as many
different keys, all of them found on the other side, are all the keys of the other side.  Nothing of the
kind is needed to go from one value to the next and on to a third.

What is not a number differs from itself, and so does every value that holds it.  All other values are
equal to themselves, so that equality is an equivalence but for these.

## Main Definitions

* `Value.parts` — a value and all values inside it
* `Value.KeysDistinct` — no object inside has two entries with one key
* `Value.Reordered` — values that differ in the order of entries only

## Main Statements

* `Value.keysDistinct_of_ofJson` — values that are read have distinct keys
* `Value.same_comm`, `Value.same_trans`, `Value.same_self_iff` — the laws
* `Value.Reordered.same_left` — the order of entries says nothing
* `Value.partialEquivalence` — the laws of the equality operators
-/

namespace LineMarkup

namespace Entries

variable {α : Type}

/-- What a name finds is one of the entries. -/
theorem mem_of_get?_eq_some {es : Entries α} {name : String} {value : α}
    (h : es.get? name = some value) : (name, value) ∈ es := by
  induction es with
  | nil => exact nomatch h
  | cons e rest ih =>
      obtain ⟨k, v⟩ := e
      rw [get?] at h
      split at h
      · rename_i hk
        rw [hk, Option.some.inj h]
        exact List.mem_cons_self
      · exact List.mem_cons_of_mem _ (ih h)

/-- If all names of one list are names of a list that is as long, and no name comes twice, then
every name of the other list is one of the first. -/
theorem exists_mem_of_names_subset {β : Type} {es : Entries α} {fs : Entries β}
    (hdistinct : (es.map Prod.fst).Nodup) (hlength : es.length = fs.length)
    (hsubset : ∀ e ∈ es, ∃ w, (e.1, w) ∈ fs) {f : String × β} (hf : f ∈ fs) :
    ∃ v, (f.1, v) ∈ es := by
  have hnames : es.map Prod.fst ⊆ fs.map Prod.fst := by
    intro name hname
    obtain ⟨e, he, rfl⟩ := List.mem_map.mp hname
    obtain ⟨w, hw⟩ := hsubset e he
    exact List.mem_map.mpr ⟨(e.1, w), hw, rfl⟩
  have hperm : (es.map Prod.fst).Perm (fs.map Prod.fst) :=
    (hdistinct.subperm hnames).perm_of_length_le (by simp [hlength])
  obtain ⟨⟨name, v⟩, he, hname⟩ := List.mem_map.mp (hperm.mem_iff.mpr (List.mem_map_of_mem hf))
  exact ⟨v, hname ▸ he⟩

end Entries

namespace Value

/-! ### The values inside a value -/

/-- Induction on a value: for an array on its elements, for an object on the values of its entries. -/
@[elab_as_elim]
theorem nested_induction {motive : Value → Prop} (null : motive null)
    (bool : ∀ b, motive (bool b)) (number : ∀ x, motive (number x))
    (string : ∀ s, motive (string s))
    (array : ∀ items, (∀ v ∈ items, motive v) → motive (array items))
    (object : ∀ fields, (∀ e ∈ fields, motive e.2) → motive (object fields)) (v : Value) :
    motive v := by
  refine @Value.rec motive (fun items => ∀ v ∈ items, motive v)
    (fun fields => ∀ e ∈ fields, motive e.2) (fun e => motive e.2)
    null bool number string array object ?_ ?_ ?_ ?_ ?_ v
  · exact fun v hv => nomatch hv
  · exact fun v items hv hitems => List.forall_mem_cons.mpr ⟨hv, hitems⟩
  · exact fun e he => nomatch he
  · exact fun e fields he hfields => List.forall_mem_cons.mpr ⟨he, hfields⟩
  · exact fun k v hv => hv

mutual

/-- A value and all values inside it. -/
def parts : Value → List Value
  | null => [null]
  | bool b => [bool b]
  | number x => [number x]
  | string s => [string s]
  | array items => array items :: partsOfItems items
  | object fields => object fields :: partsOfFields fields

/-- The elements of an array and all values inside them. -/
def partsOfItems : List Value → List Value
  | [] => []
  | v :: vs => v.parts ++ partsOfItems vs

/-- The values of entries and all values inside them. -/
def partsOfFields : List (String × Value) → List Value
  | [] => []
  | (_, v) :: fs => v.parts ++ partsOfFields fs

end

/-- What all parts of an array satisfy: the array, and all parts of its elements. -/
theorem forall_parts_array {p : Value → Prop} {items : List Value} :
    (∀ w ∈ (array items).parts, p w) ↔ p (array items) ∧ ∀ v ∈ items, ∀ w ∈ v.parts, p w := by
  have hitems : (∀ w ∈ partsOfItems items, p w) ↔ ∀ v ∈ items, ∀ w ∈ v.parts, p w := by
    induction items with
    | nil => simp [partsOfItems]
    | cons v vs ih => rw [partsOfItems, List.forall_mem_append, ih, List.forall_mem_cons]
  rw [parts, List.forall_mem_cons, hitems]

/-- What all parts of an object satisfy: the object, and all parts of its values. -/
theorem forall_parts_object {p : Value → Prop} {fields : List (String × Value)} :
    (∀ w ∈ (object fields).parts, p w) ↔
      p (object fields) ∧ ∀ e ∈ fields, ∀ w ∈ e.2.parts, p w := by
  have hfields : (∀ w ∈ partsOfFields fields, p w) ↔ ∀ e ∈ fields, ∀ w ∈ e.2.parts, p w := by
    induction fields with
    | nil => simp [partsOfFields]
    | cons e rest ih =>
        obtain ⟨k, v⟩ := e
        rw [partsOfFields, List.forall_mem_append, ih, List.forall_mem_cons]
  rw [parts, List.forall_mem_cons, hfields]

/-- The keys of an object, in order. -/
def keys : Value → List String
  | object fields => fields.map Prod.fst
  | _ => []

/-- The values in which no object, at any depth, has two entries with one key. -/
def KeysDistinct (v : Value) : Prop :=
  ∀ w ∈ v.parts, w.keys.Nodup

instance (v : Value) : Decidable v.KeysDistinct :=
  inferInstanceAs (Decidable (∀ w ∈ v.parts, w.keys.Nodup))

/-- Whether a value is the number that is none. -/
def isNaN : Value → Bool
  | number x => x.isNaN
  | _ => false

/-- Values that differ in the order of the entries of objects inside them, at any depth and in any
number of places. -/
inductive Reordered : Value → Value → Prop
  | refl (v : Value) : Reordered v v
  | trans {u v w : Value} : Reordered u v → Reordered v w → Reordered u w
  | item {v w : Value} (before after : List Value) : Reordered v w →
      Reordered (array (before ++ v :: after)) (array (before ++ w :: after))
  | field {v w : Value} (before after : List (String × Value)) (k : String) : Reordered v w →
      Reordered (object (before ++ (k, v) :: after)) (object (before ++ (k, w) :: after))
  | entries {fields others : List (String × Value)} : fields.Perm others →
      Reordered (object fields) (object others)

/-! ### Distinct keys -/

/-- The keys in an array are those in its elements. -/
theorem keysDistinct_array {items : List Value} :
    (array items).KeysDistinct ↔ ∀ v ∈ items, v.KeysDistinct := by
  refine forall_parts_array.trans ?_
  exact and_iff_right List.nodup_nil

/-- The keys of an object differ from each other, and those in each value do. -/
theorem keysDistinct_object {fields : List (String × Value)} :
    (object fields).KeysDistinct ↔
      (fields.map Prod.fst).Nodup ∧ ∀ e ∈ fields, e.2.KeysDistinct :=
  forall_parts_object

/-- Inserting a field keeps the keys different. -/
theorem KeysDistinct.insert {fields : Entries Value} (h : (object fields).KeysDistinct)
    (k : String) {v : Value} (hv : v.KeysDistinct) : (object (fields.insert k v)).KeysDistinct := by
  rw [keysDistinct_object] at h ⊢
  refine ⟨Entries.nodup_insert h.1 k v, fun e he => ?_⟩
  rcases Entries.mem_insert he with he | rfl
  · exact h.2 e he
  · exact hv

mutual

/-- The keys of a value that was read differ from each other. -/
theorem keysDistinct_of_ofTree? : (t : Json.Tree) → {v : Value} → ofTree? t = some v →
    v.KeysDistinct
  | .null, v, h => by
      obtain rfl := Option.some.inj h
      decide
  | .bool b, v, h => by
      obtain rfl := Option.some.inj h
      exact fun w hw => List.mem_singleton.mp hw ▸ List.nodup_nil
  | .number n, v, h => by
      obtain ⟨x, -, rfl⟩ := Option.map_eq_some_iff.mp h
      exact fun w hw => List.mem_singleton.mp hw ▸ List.nodup_nil
  | .string s, v, h => by
      obtain ⟨s, -, rfl⟩ := Option.map_eq_some_iff.mp h
      exact fun w hw => List.mem_singleton.mp hw ▸ List.nodup_nil
  | .array items _, v, h => by
      obtain ⟨vs, hvs, rfl⟩ := Option.map_eq_some_iff.mp h
      exact keysDistinct_array.mpr (keysDistinct_of_ofTrees? items hvs)
  | .object fields _, v, h => by
      obtain ⟨entries, hentries, rfl⟩ := Option.map_eq_some_iff.mp h
      exact keysDistinct_of_ofFields? fields (by decide) hentries
  | .broken, v, h => nomatch h

/-- The keys in values that were read differ from each other. -/
theorem keysDistinct_of_ofTrees? : (ts : List Json.Tree) → {vs : List Value} →
    ofTrees? ts = some vs → ∀ v ∈ vs, v.KeysDistinct
  | [], vs, h => by
      obtain rfl := Option.some.inj h
      exact fun v hv => nomatch hv
  | t :: ts, vs, h => by
      obtain ⟨v, hv, h⟩ := Option.bind_eq_some_iff.mp h
      obtain ⟨rest, hrest, h⟩ := Option.bind_eq_some_iff.mp h
      obtain rfl := Option.some.inj h
      exact List.forall_mem_cons.mpr
        ⟨keysDistinct_of_ofTree? t hv, keysDistinct_of_ofTrees? ts hrest⟩

/-- Reading fields into an object keeps its keys different, since a key that comes again replaces.
-/
theorem keysDistinct_of_ofFields? : (fs : List (Option String × Json.Tree)) →
    {entries result : Entries Value} → (object entries).KeysDistinct →
    ofFields? entries fs = some result → (object result).KeysDistinct
  | [], entries, result, hentries, h => by
      obtain rfl := Option.some.inj h
      exact hentries
  | (k, t) :: fs, entries, result, hentries, h => by
      obtain ⟨v, hv, h⟩ := Option.bind_eq_some_iff.mp h
      obtain ⟨name, -, h⟩ := Option.bind_eq_some_iff.mp h
      exact keysDistinct_of_ofFields? fs
        (hentries.insert name (keysDistinct_of_ofTree? t hv)) h

end

/-- A value that is read from a JSON text has distinct keys, whatever entries the text repeats. -/
theorem keysDistinct_of_ofJson {text : String} {v : Value} (h : ofJson text = .ok v) :
    v.KeysDistinct := by
  obtain ⟨w, hw, h⟩ := bind_eq_ok_iff.mp h
  obtain ⟨_, -, h⟩ := bind_eq_ok_iff.mp h
  obtain rfl := Except.ok.inj h
  rw [read] at hw
  split at hw
  · cases htree : ofTree? (Json.parse text).root with
    | none =>
        rw [htree] at hw
        exact nomatch hw
    | some v =>
        rw [htree] at hw
        obtain rfl := Except.ok.inj hw
        exact keysDistinct_of_ofTree? _ htree
  · exact nomatch hw

/-! ### What equal values look like -/

section Shapes

attribute [local simp] same sameItems sameFields

theorem same_null {w : Value} : null.same w = true ↔ w = null := by
  cases w <;> simp

theorem same_bool {b : Bool} {w : Value} : (bool b).same w = true ↔ w = bool b := by
  cases w <;> simp
  exact eq_comm

theorem same_string {s : String} {w : Value} : (string s).same w = true ↔ w = string s := by
  cases w <;> simp
  exact eq_comm

/-- A number is the same as those that compare equal to it. -/
theorem same_number {x : Float} {w : Value} :
    (number x).same w = true ↔ ∃ y, w = number y ∧ (x == y) = true := by
  cases w <;> simp

/-- An array is equal to the arrays of the same length with equal elements at every place. -/
theorem same_array {items : List Value} {w : Value} :
    (array items).same w = true ↔
      ∃ others, w = array others ∧ List.Forall₂ (fun v v' => v.same v' = true) items others := by
  have hitems (others : List Value) : sameItems items others = true ↔
      List.Forall₂ (fun v v' => v.same v' = true) items others := by
    induction items generalizing others with
    | nil => cases others <;> simp
    | cons v vs ih => cases others <;> simp [ih]
  cases w <;> simp [hitems]

/-- Fields are the same as others if each of their names finds the same value there. -/
theorem sameFields_eq_true_iff {fields others : List (String × Value)} :
    sameFields fields others = true ↔
      ∀ e ∈ fields, ∃ w, Entries.get? others e.1 = some w ∧ e.2.same w = true := by
  induction fields with
  | nil => simp
  | cons e rest ih =>
      obtain ⟨k, v⟩ := e
      rw [sameFields, Bool.and_eq_true, ih, List.forall_mem_cons]
      cases Entries.get? others k <;> simp

/-- An object is equal to the objects with as many entries in which the key of each of its own
entries finds an equal value. -/
theorem same_object {fields : List (String × Value)} {w : Value} :
    (object fields).same w = true ↔
      ∃ others, w = object others ∧ fields.length = others.length ∧
        ∀ e ∈ fields, ∃ v', Entries.get? others e.1 = some v' ∧ e.2.same v' = true := by
  cases w <;> simp [sameFields_eq_true_iff]

end Shapes

/-- An array is the same as itself if all of its elements are. -/
theorem same_array_self {items : List Value} :
    (array items).same (array items) = true ↔ ∀ v ∈ items, v.same v = true := by
  rw [same_array]
  constructor
  · rintro ⟨others, heq, h⟩
    obtain rfl := array.inj heq
    exact List.forall₂_same.mp h
  · intro h
    exact ⟨items, rfl, List.forall₂_same.mpr h⟩

/-- With distinct keys, each entry of an object is compared with itself. -/
theorem same_object_self {fields : List (String × Value)} (hkeys : (fields.map Prod.fst).Nodup) :
    (object fields).same (object fields) = true ↔ ∀ e ∈ fields, e.2.same e.2 = true := by
  rw [same_object]
  constructor
  · rintro ⟨others, heq, -, hfound⟩ e he
    obtain rfl := object.inj heq
    obtain ⟨v, hget, hsame⟩ := hfound e he
    obtain rfl : e.2 = v := Option.some.inj ((Entries.get?_eq_some_of_mem hkeys he).symm.trans hget)
    exact hsame
  · intro h
    refine ⟨fields, rfl, rfl, fun e he => ?_⟩
    exact ⟨e.2, Entries.get?_eq_some_of_mem hkeys he, h e he⟩

/-! ### The laws -/

/-- Being the same does not depend on the order of the two. -/
theorem same_symm {v w : Value} (hv : v.KeysDistinct) (hw : w.KeysDistinct)
    (h : v.same w = true) : w.same v = true := by
  induction v using nested_induction generalizing w with
  | null =>
      obtain rfl := same_null.mp h
      exact h
  | bool b =>
      obtain rfl := same_bool.mp h
      exact h
  | string s =>
      obtain rfl := same_string.mp h
      exact h
  | number x =>
      obtain ⟨y, rfl, hxy⟩ := same_number.mp h
      exact same_number.mpr ⟨x, rfl, BEq.symm hxy⟩
  | array items ih =>
      obtain ⟨others, rfl, hitems⟩ := same_array.mp h
      rw [keysDistinct_array] at hv hw
      refine same_array.mpr ⟨items, rfl, ?_⟩
      rw [List.forall₂_iff_get] at hitems ⊢
      refine ⟨hitems.1.symm, fun i hi hi' => ?_⟩
      exact ih _ (List.getElem_mem hi') (hv _ (List.getElem_mem hi')) (hw _ (List.getElem_mem hi))
        (hitems.2 i hi' hi)
  | object fields ih =>
      obtain ⟨others, rfl, hlength, hfound⟩ := same_object.mp h
      rw [keysDistinct_object] at hv hw
      refine same_object.mpr ⟨fields, rfl, hlength.symm, ?_⟩
      rintro ⟨k, w⟩ he
      -- There are as many keys here as there, so that those found there are all of them.
      obtain ⟨v, hmem⟩ : ∃ v, (k, v) ∈ fields :=
        Entries.exists_mem_of_names_subset hv.1 hlength
          (fun e he => (hfound e he).imp fun w hw => Entries.mem_of_get?_eq_some hw.1) he
      refine ⟨v, Entries.get?_eq_some_of_mem hv.1 hmem, ?_⟩
      obtain ⟨w', hget, hsame⟩ := hfound _ hmem
      obtain rfl : w = w' := Option.some.inj ((Entries.get?_eq_some_of_mem hw.1 he).symm.trans hget)
      exact ih _ hmem (hv.2 _ hmem) (hw.2 _ he) hsame

/-- **Equality has no sides.** -/
theorem same_comm {v w : Value} (hv : v.KeysDistinct) (hw : w.KeysDistinct) :
    v.same w = w.same v :=
  Bool.eq_iff_iff.mpr ⟨same_symm hv hw, same_symm hw hv⟩

/-- **Equality goes on from a value to the next.**  This needs no distinct keys. -/
theorem same_trans {u v w : Value} (huv : u.same v = true) (hvw : v.same w = true) :
    u.same w = true := by
  induction u using nested_induction generalizing v w with
  | null =>
      obtain rfl := same_null.mp huv
      exact hvw
  | bool b =>
      obtain rfl := same_bool.mp huv
      exact hvw
  | string s =>
      obtain rfl := same_string.mp huv
      exact hvw
  | number x =>
      obtain ⟨y, rfl, hxy⟩ := same_number.mp huv
      obtain ⟨z, rfl, hyz⟩ := same_number.mp hvw
      exact same_number.mpr ⟨z, rfl, BEq.trans hxy hyz⟩
  | array items ih =>
      obtain ⟨items', rfl, hitems⟩ := same_array.mp huv
      obtain ⟨items'', rfl, hitems'⟩ := same_array.mp hvw
      refine same_array.mpr ⟨items'', rfl, ?_⟩
      rw [List.forall₂_iff_get] at hitems hitems' ⊢
      refine ⟨hitems.1.trans hitems'.1, fun i hi hi'' => ?_⟩
      have hi' : i < items'.length := hitems.1 ▸ hi
      exact ih _ (List.getElem_mem hi) (hitems.2 i hi hi') (hitems'.2 i hi' hi'')
  | object fields ih =>
      obtain ⟨fields', rfl, hlength, hfound⟩ := same_object.mp huv
      obtain ⟨fields'', rfl, hlength', hfound'⟩ := same_object.mp hvw
      refine same_object.mpr ⟨fields'', rfl, hlength.trans hlength', fun e he => ?_⟩
      obtain ⟨v, hget, hev⟩ := hfound e he
      obtain ⟨w, hget', hvw⟩ := hfound' (e.1, v) (Entries.mem_of_get?_eq_some hget)
      exact ⟨w, hget', ih e he hev hvw⟩

/-- **A value is equal to itself exactly if all numbers inside it are numbers.** -/
theorem same_self_iff {v : Value} (hv : v.KeysDistinct) :
    v.same v = true ↔ ∀ w ∈ v.parts, w.isNaN = false := by
  induction v using nested_induction with
  | null => simp [same, parts, isNaN]
  | bool b => simp [same, parts, isNaN]
  | string s => simp [same, parts, isNaN]
  | number x => simp [same, parts, isNaN, Float.isNaN_eq_decide_eq_nan, Float.beq_self_iff]
  | array items ih =>
      rw [keysDistinct_array] at hv
      rw [same_array_self, forall_parts_array]
      exact (forall₂_congr fun v hmem => ih v hmem (hv v hmem)).trans (and_iff_right rfl).symm
  | object fields ih =>
      rw [keysDistinct_object] at hv
      rw [same_object_self hv.1, forall_parts_object]
      exact (forall₂_congr fun e hmem => ih e hmem (hv.2 e hmem)).trans (and_iff_right rfl).symm

/-- The key finds its value, and the value differs from itself. -/
example :
    (object [("k", number Number.notANumber)]).same (object [("k", number Number.notANumber)]) =
      false := by
  decide

/-! ### The order of entries -/

/-- Reordering does not make keys equal. -/
theorem Reordered.keysDistinct {v w : Value} (h : Reordered v w) :
    v.KeysDistinct → w.KeysDistinct := by
  induction h with
  | refl v => exact id
  | trans _ _ ih ih' => exact ih' ∘ ih
  | item before after _ ih =>
      simp only [keysDistinct_array, List.forall_mem_append, List.forall_mem_cons]
      rintro ⟨hbefore, hv, hafter⟩
      exact ⟨hbefore, ih hv, hafter⟩
  | field before after k _ ih =>
      simp only [keysDistinct_object, List.forall_mem_append, List.forall_mem_cons,
        List.map_append, List.map_cons]
      rintro ⟨hkeys, hbefore, hv, hafter⟩
      exact ⟨hkeys, hbefore, ih hv, hafter⟩
  | entries hperm =>
      simp only [keysDistinct_object]
      rintro ⟨hkeys, hfields⟩
      exact ⟨(hperm.map Prod.fst).nodup_iff.mp hkeys,
        fun e he => hfields e (hperm.mem_iff.mpr he)⟩

/-- **A value with its entries in another order is equal to the same values.**  Each entry is looked up by
its key, wherever it stands. -/
theorem Reordered.same_left {v w : Value} (h : Reordered v w) (u : Value) :
    w.same u = v.same u := by
  induction h generalizing u with
  | refl v => rfl
  | trans _ _ ih ih' => rw [ih', ih]
  | @item v w before after _ ih =>
      have hitems (others : List Value) : sameItems (before ++ w :: after) others =
          sameItems (before ++ v :: after) others := by
        induction before generalizing others with
        | nil => cases others <;> simp [sameItems, ih]
        | cons x before ih' => cases others <;> simp [sameItems, ih']
      cases u <;> simp [same, hitems]
  | field before after k _ ih =>
      rw [Bool.eq_iff_iff, same_object, same_object]
      simp only [List.forall_mem_append, List.forall_mem_cons, List.length_append, List.length_cons,
        ih]
  | entries hperm =>
      rw [Bool.eq_iff_iff, same_object, same_object]
      simp only [hperm.length_eq, hperm.mem_iff]

/-! ### The operators -/

/-- The comparison of the operators is that of values. -/
theorem equals_eq_same (v w : Value) : v.equals w = v.same w := by
  cases v <;> cases w <;> rfl

/-- An operator that compares evaluates both of its operands. -/
theorem eval_of_equality {op : BinaryOp} {scope : Scope} {sides : List Side} {left right : Expr}
    {span : Span} {v w : Value} (hop : op ∈ [BinaryOp.eq, .strictEq, .notEq, .strictNotEq])
    (hleft : left.eval scope sides = .ok v) (hright : right.eval scope sides = .ok w) :
    (Expr.binary left op right span).eval scope sides = .ok (op.apply v w) := by
  have hstep : (Expr.binary left op right span).eval scope sides =
      left.eval scope sides >>= fun v => right.eval scope sides >>= fun w => .ok (op.apply v w) := by
    simp only [List.mem_cons, List.not_mem_nil, or_false] at hop
    rcases hop with rfl | rfl | rfl | rfl <;> rfl
  rw [hstep, hleft, hright]
  rfl

/-- Equality is a partial equivalence on the values with distinct keys, and it is what the four
operators compute: `==` and `===` alike, `!=` and `!==` the opposite.  It has no sides, it goes on from
a value to the next, the order of entries does not count at any depth, and the values that are not equal
to themselves are those which hold something that is not a number. -/
theorem partialEquivalence {a b c : Value} (ha : a.KeysDistinct) (hb : b.KeysDistinct) :
    (∀ (scope : Scope) (sides : List Side) (left right : Expr) (span : Span),
      left.eval scope sides = .ok a → right.eval scope sides = .ok b →
        (∀ op ∈ [BinaryOp.eq, .strictEq],
          (Expr.binary left op right span).eval scope sides = .ok (bool (a.same b))) ∧
        ∀ op ∈ [BinaryOp.notEq, .strictNotEq],
          (Expr.binary left op right span).eval scope sides = .ok (bool (!a.same b))) ∧
    a.same b = b.same a ∧
    (a.same b = true → b.same c = true → a.same c = true) ∧
    (∀ a', a.Reordered a' → a'.same b = a.same b ∧ b.same a' = b.same a) ∧
    (a.same a = true ↔ ∀ w ∈ a.parts, w.isNaN = false) := by
  refine ⟨?_, same_comm ha hb, same_trans, ?_, same_self_iff ha⟩
  · intro scope sides left right span hleft hright
    refine ⟨fun op hop => ?_, fun op hop => ?_⟩
    · rw [eval_of_equality (List.mem_append_left [.notEq, .strictNotEq] hop) hleft hright]
      rcases List.mem_pair.mp hop with rfl | rfl <;>
        exact congrArg (fun t => Except.ok (bool t)) (equals_eq_same a b)
    · rw [eval_of_equality (List.mem_append_right [.eq, .strictEq] hop) hleft hright]
      rcases List.mem_pair.mp hop with rfl | rfl <;>
        exact congrArg (fun t => Except.ok (bool (!t))) (equals_eq_same a b)
  · intro a' h
    have hleft : a'.same b = a.same b := h.same_left b
    refine ⟨hleft, ?_⟩
    rw [same_comm hb (h.keysDistinct ha), same_comm hb ha, hleft]

/-- An object in an array in an object, with the entries of both in another order. -/
theorem partialEquivalence_nested_objects :
    (object [("a", array [object [("p", null), ("q", number 1.5)]]), ("b", bool true)]).KeysDistinct ∧
    (object [("a", array [object [("p", null), ("q", number 1.5)]]), ("b", bool true)]).same
      (object [("b", bool true), ("a", array [object [("q", number 1.5), ("p", null)]])]) = true := by
  have hkeys :
      (object [("a", array [object [("p", null), ("q", number 1.5)]]), ("b", bool true)]).KeysDistinct := by
    decide
  obtain ⟨-, -, -, hreordered, hself⟩ := partialEquivalence (c := null) hkeys hkeys
  refine ⟨hkeys, (hreordered _ ?_).2.trans (hself.mpr (by decide))⟩
  refine .trans (.field [] [("b", bool true)] "a" (.item [] [] (.entries (.swap _ _ [])))) ?_
  exact .entries (.swap _ _ [])

end Value

end LineMarkup
