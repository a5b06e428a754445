import LineMarkup.Proofs.LineRendering
import LineMarkup.Proofs.WholeNumbers
import Mathlib.Data.List.Forall2

/-!
# Side lists

An expression has two ways to its side list.  By its name alone the list is the array of all outputs, so
all side programs are rendered, and the first error among them is the result.  An element of it, by
contrast, is rendered alone, and nothing else in the list is looked at.

The first part is about expressions that only pick elements, by numbers that are written out.  All they
have of a side list is what stands at the places of these numbers.

The second part compares the two ways where both succeed.  They agree on every number, whole or not, with
a place in the list or without.  On other keys they are at odds, because the one way makes a number of
the key and the other takes it as the name of a property: a text that spells a place, a truth value or
null picks an element, and an array has no property of that name; `length` is a property, and no place.

## Main Definitions

* `Expr.picksOnly` — an expression that has no other use for its side list than to pick elements
* `Expr.picked` — the places that it picks

## Main Statements

* `Expr.eval_of_picked` — side programs that are not picked have no effect
* `Expr.index_sides_eq_item_iff` — for which keys an element is what the array has at the key
-/

namespace LineMarkup

/-! ### Outputs of side programs -/

theorem Program.getElem?_renderSides (scope : Scope) (ps : List Program) (i : Nat) :
    (renderSides scope ps)[i]? = ps[i]?.map fun p => Thunk.mk fun _ => render scope p := by
  induction ps generalizing i with
  | nil => rfl
  | cons p ps ih =>
      rw [renderSides]
      cases i with
      | zero => rfl
      | succ i => rw [List.getElem?_cons_succ, List.getElem?_cons_succ, ih]

/-- An element depends on what stands at its place. -/
theorem sideAt_congr {sides sides' : List Side} {key : Value}
    (h : ∀ i, Number.wholeIndex? key.toNumber = some i → sides[i]? = sides'[i]?) :
    sideAt sides key = sideAt sides' key := by
  have hplace : (Number.wholeIndex? key.toNumber).bind (sides[·]?) =
      (Number.wholeIndex? key.toNumber).bind (sides'[·]?) := Option.bind_congr h
  unfold sideAt
  rw [hplace]

/-! ### Picking elements -/

namespace Expr

/-- The number that an expression spells. -/
def numberLiteral? : Expr → Option Float
  | literal (.number x) _ => some x
  | _ => none

/-- The number by which `object[key]` picks an element of the side list. -/
def pick? (object key : Expr) : Option Float :=
  if object.isIdentifier sidesName then key.numberLiteral? else none

mutual

/-- Whether an expression names the side list only to pick elements of it by numbers that it spells. -/
def picksOnly : Expr → Bool
  | literal _ _ => true
  | array es _ => picksOnlyAll es
  | identifier name _ => name != sidesName
  | member object _ _ => picksOnly object
  | index object key _ => (pick? object key).isSome || picksOnly object && picksOnly key
  | call callee args _ => picksOnly callee && picksOnlyAll args
  | binary left _ right _ => picksOnly left && picksOnly right
  | unary _ operand _ => picksOnly operand
  | conditional test yes no _ => picksOnly test && (picksOnly yes && picksOnly no)

/-- The same for several expressions. -/
def picksOnlyAll : List Expr → Bool
  | [] => true
  | e :: es => picksOnly e && picksOnlyAll es

end

mutual

/-- The places of the side list that an expression picks.  A number that is no place picks none. -/
def picked : Expr → List Nat
  | literal _ _ => []
  | array es _ => pickedAll es
  | identifier _ _ => []
  | member object _ _ => picked object
  | index object key _ =>
    ((pick? object key).bind Number.wholeIndex?).toList ++ (picked object ++ picked key)
  | call callee args _ => picked callee ++ pickedAll args
  | binary left _ right _ => picked left ++ picked right
  | unary _ operand _ => picked operand
  | conditional test yes no _ => picked test ++ (picked yes ++ picked no)

/-- The places that several expressions pick. -/
def pickedAll : List Expr → List Nat
  | [] => []
  | e :: es => picked e ++ pickedAll es

end

theorem pick?_eq_some {object key : Expr} {x : Float} (h : pick? object key = some x) :
    object.isIdentifier sidesName = true ∧ ∃ span, key = literal (.number x) span := by
  unfold pick? at h
  split at h
  case isFalse => cases h
  case isTrue hobject =>
    refine ⟨hobject, ?_⟩
    unfold numberLiteral? at h
    split at h
    · cases h
      exact ⟨_, rfl⟩
    · cases h

/-- The name of the side list is no expression that only picks. -/
theorem not_isIdentifier_of_picksOnly {e : Expr} (h : e.picksOnly = true) :
    ¬ e.isIdentifier sidesName = true := by
  cases e with
  | identifier name span =>
      intro hname
      obtain rfl : name = sidesName := beq_iff_eq.mp hname
      rw [picksOnly, bne_self_eq_false] at h
      cases h
  | _ => exact Bool.false_ne_true

section Picking

variable {scope : Scope} {sides sides' : List Side}

mutual

/-- **An expression that only picks elements has the same result with any two side lists that agree at the
places it picks.** -/
theorem eval_agree : (e : Expr) → e.picksOnly = true →
    (∀ i ∈ e.picked, sides[i]? = sides'[i]?) → e.eval scope sides = e.eval scope sides'
  | literal v s, _, _ => by rw [eval, eval]
  | array es s, h, hsame => by
      rw [picksOnly] at h
      rw [picked] at hsame
      rw [eval, eval, evalAll_agree es h hsame]
  | identifier name s, h, _ => by
      rw [picksOnly, bne_iff_ne] at h
      rw [eval, eval, Scope.resolve, if_neg h, Scope.resolve, if_neg h]
  | member object property s, h, hsame => by
      rw [picksOnly] at h
      rw [picked] at hsame
      rw [eval, eval, eval_agree object h hsame]
  | index object key s, h, hsame => by
      rw [picksOnly, Bool.or_eq_true, Bool.and_eq_true] at h
      rw [picked, List.forall_mem_append, List.forall_mem_append] at hsame
      rw [eval_index, eval_index]
      rcases h with hpick | ⟨hobject, hkey⟩
      · -- The object is the side list itself, of which no more than the element counts.
        obtain ⟨x, hx⟩ := Option.isSome_iff_exists.mp hpick
        obtain ⟨hname, span, rfl⟩ := pick?_eq_some hx
        rw [eval_literal, eval_literal, ok_bind, ok_bind, if_pos hname, if_pos hname]
        refine sideAt_congr fun i hi => hsame.1 i ?_
        rw [hx, Option.bind_some, Option.mem_toList]
        exact hi
      · have hname := not_isIdentifier_of_picksOnly hobject
        rw [eval_agree key hkey hsame.2.2, eval_agree object hobject hsame.2.1]
        simp only [if_neg hname]
  | call (member object method s') args s, h, hsame => by
      rw [picksOnly, Bool.and_eq_true, picksOnly] at h
      rw [picked, List.forall_mem_append, picked] at hsame
      rw [eval, eval, evalAll_agree args h.2 hsame.2, eval_agree object h.1 hsame.1]
  | call (literal _ _) _ _, _, _ | call (array _ _) _ _, _, _ | call (identifier _ _) _ _, _, _
  | call (index _ _ _) _ _, _, _ | call (call _ _ _) _ _, _, _ | call (binary _ _ _ _) _ _, _, _
  | call (unary _ _ _) _ _, _, _ | call (conditional _ _ _ _) _ _, _, _ => by
      rw [eval, eval] <;> simp
  | binary left op right s, h, hsame => by
      rw [picksOnly, Bool.and_eq_true] at h
      rw [picked, List.forall_mem_append] at hsame
      have hleft := eval_agree left h.1 hsame.1
      have hright := eval_agree right h.2 hsame.2
      cases op <;> rw [eval, eval, hleft, hright]
      all_goals simp
  | unary op operand s, h, hsame => by
      rw [picksOnly] at h
      rw [picked] at hsame
      rw [eval, eval, eval_agree operand h hsame]
  | conditional test yes no s, h, hsame => by
      rw [picksOnly, Bool.and_eq_true, Bool.and_eq_true] at h
      rw [picked, List.forall_mem_append, List.forall_mem_append] at hsame
      rw [eval, eval, eval_agree test h.1 hsame.1, eval_agree yes h.2.1 hsame.2.1,
        eval_agree no h.2.2 hsame.2.2]

/-- Lists of expressions are evaluated alike with side lists that agree at the picked places. -/
theorem evalAll_agree : (es : List Expr) → picksOnlyAll es = true →
    (∀ i ∈ pickedAll es, sides[i]? = sides'[i]?) →
    evalAll scope sides es = evalAll scope sides' es
  | [], _, _ => by rw [evalAll, evalAll]
  | e :: es, h, hsame => by
      rw [picksOnlyAll, Bool.and_eq_true] at h
      rw [pickedAll, List.forall_mem_append] at hsame
      rw [evalAll, evalAll, eval_agree e h.1 hsame.1, evalAll_agree es h.2 hsame.2]

end

end Picking

/-- **Side programs that are not picked have no effect.**  An expression that only picks elements of its
side list has the same value, or the same error, with any two side lists that hold the same program, or
none, at each place it picks.  So a program at another place may be replaced by any other, one that fails
among them, and programs may be added at the end. -/
theorem eval_of_picked {e : Expr} (h : e.picksOnly = true) (scope : Scope) (ps : List Program) :
    (∀ qs : List Program, (∀ i ∈ e.picked, ps[i]? = qs[i]?) →
      e.eval scope (Program.renderSides scope ps) = e.eval scope (Program.renderSides scope qs)) ∧
    (∀ i ∉ e.picked, ∀ p : Program,
      e.eval scope (Program.renderSides scope (ps.set i p)) =
        e.eval scope (Program.renderSides scope ps)) ∧
    ∀ added : List Program, (∀ i ∈ e.picked, i < ps.length ∨ ps.length + added.length ≤ i) →
      e.eval scope (Program.renderSides scope (ps ++ added)) =
        e.eval scope (Program.renderSides scope ps) := by
  have hsame (qs : List Program) (hqs : ∀ i ∈ e.picked, ps[i]? = qs[i]?) :
      e.eval scope (Program.renderSides scope ps) = e.eval scope (Program.renderSides scope qs) := by
    refine eval_agree e h fun i hi => ?_
    rw [Program.getElem?_renderSides, Program.getElem?_renderSides, hqs i hi]
  refine ⟨hsame, fun i hi p => (hsame _ fun j hj => ?_).symm,
    fun added hadded => (hsame _ fun i hi => ?_).symm⟩
  · have hne : i ≠ j := fun heq => hi (heq ▸ hj)
    rw [List.getElem?_set_ne hne]
  · rcases hadded i hi with hlt | hle
    · rw [List.getElem?_append_left hlt]
    · rw [List.getElem?_eq_none (by omega), List.getElem?_eq_none (by rw [List.length_append]; omega)]

/-- Two places are picked, one of them behind the end of the list.  The programs between them, one of
which fails, are replaced. -/
theorem eval_of_picked_between :
    ∃ e : Expr, e.picksOnly = true ∧ e.picked = [0, 3] ∧
      e.eval ⟨[], .flat, "r", none⟩ (Program.renderSides ⟨[], .flat, "r", none⟩
          [[.text "a"], [.code "x" (.identifier "x" ⟨0, 1⟩) []], [.text "c"]]) =
        e.eval ⟨[], .flat, "r", none⟩ (Program.renderSides ⟨[], .flat, "r", none⟩
          [[.text "a"], [.text "b"], []]) := by
  have hpicked : (Expr.binary (.index (.identifier sidesName ⟨0, 7⟩) (.literal (.number 0) ⟨8, 9⟩)
      ⟨0, 10⟩) .add (.index (.identifier sidesName ⟨13, 20⟩) (.literal (.number 3) ⟨21, 22⟩)
      ⟨13, 23⟩) ⟨0, 23⟩).picked = [0, 3] := by
    decide +kernel
  refine ⟨_, rfl, hpicked, (eval_of_picked rfl _ _).1 _ fun i hi => ?_⟩
  rw [hpicked, List.mem_cons, List.mem_singleton] at hi
  rcases hi with rfl | rfl
  · rfl
  · rfl

end Expr

/-! ### Elements and the array -/

namespace Program

variable {scope : Scope} {ps : List Program} {texts : List String}

/-- Programs that all render have outputs. -/
theorem exists_outputs (h : ∀ p ∈ ps, ∃ s, render scope p = .ok s) :
    ∃ texts, List.Forall₂ (fun p s => render scope p = .ok s) ps texts := by
  induction ps with
  | nil => exact ⟨[], .nil⟩
  | cons p ps ih =>
      rw [List.forall_mem_cons] at h
      obtain ⟨s, hs⟩ := h.1
      obtain ⟨texts, htexts⟩ := ih h.2
      exact ⟨s :: texts, .cons hs htexts⟩

/-- The name of a side list stands for all outputs. -/
theorem allSides_renderSides (h : List.Forall₂ (fun p s => render scope p = .ok s) ps texts) :
    allSides (renderSides scope ps) = .ok (texts.map .string) := by
  induction h with
  | nil => rfl
  | @cons p s ps texts hp _ ih =>
      rw [renderSides, allSides, ih]
      show (render scope p >>= fun t => _) = _
      rw [hp]
      rfl

/-- An element of a side list is the output that has its place. -/
theorem sideAt_renderSides (h : List.Forall₂ (fun p s => render scope p = .ok s) ps texts)
    (key : Value) :
    sideAt (renderSides scope ps) key =
      .ok (((Number.wholeIndex? key.toNumber).bind ((texts.map Value.string)[·]?)).getD .null) := by
  unfold sideAt
  cases Number.wholeIndex? key.toNumber with
  | none => rfl
  | some i =>
      rw [Option.bind_some, Option.bind_some, getElem?_renderSides, List.getElem?_map]
      induction h generalizing i with
      | nil => rfl
      | @cons p s ps texts hp _ ih =>
          cases i with
          | zero =>
              show (render scope p >>= fun t => _) = _
              rw [hp]
              rfl
          | succ i => exact ih i

end Program

namespace Value

/-- Any key of an array but a number is the name of a property, and an array has one property. -/
theorem item_array_of_not_number (items : List Value) {key : Value} (h : ∀ x, key ≠ .number x) :
    (array items).item key =
      .ok (if key.text = "length" then number (Float.ofNat items.length) else null) := by
  cases key with
  | number x => exact absurd rfl (h x)
  | _ => rfl

theorem bind_getElem?_eq_none_iff (items : List Value) (x : Float) :
    (Number.wholeIndex? x).bind (items[·]?) = none ↔
      ∀ n < items.length, ¬ Number.Denotes x n := by
  rw [Option.bind_eq_none_iff]
  constructor
  · intro h n hlt hx
    exact absurd (List.getElem?_eq_none_iff.mp (h n (Number.wholeIndex?_eq_some_iff.mpr hx)))
      (Nat.not_le.mpr hlt)
  · intro h n hx
    refine List.getElem?_eq_none_iff.mpr (Nat.not_lt.mp fun hlt => ?_)
    exact h n hlt (Number.wholeIndex?_eq_some_iff.mp hx)

/-- An output, or null where there is none, is the property that an array has by some name, or null,
exactly if there is no output and the array has no such property. -/
theorem output_eq_property_iff (texts : List String) (x : Float) (length : Float) (name : String) :
    (((Number.wholeIndex? x).bind ((texts.map string)[·]?)).getD null =
        if name = "length" then number length else null) ↔
      (∀ n < (texts.map string).length, ¬ Number.Denotes x n) ∧ name ≠ "length" := by
  rw [← bind_getElem?_eq_none_iff]
  cases houtput : (Number.wholeIndex? x).bind ((texts.map string)[·]?) with
  | none =>
      by_cases hlength : name = "length"
      · simp [hlength]
      · simp [hlength]
  | some v =>
      -- An output is a text, and neither a number nor null.
      obtain ⟨i, -, hi⟩ := Option.bind_eq_some_iff.mp houtput
      obtain ⟨s, -, rfl⟩ := List.mem_map.mp (List.mem_of_getElem? hi)
      by_cases hlength : name = "length"
      · simp [hlength]
      · simp [hlength]

end Value

namespace Expr

/-- **An element is what the array has at the key, for every number.**  Where all side programs have an
output, the name of the side list stands for the array of the outputs, and picking an element never fails.
Element and array agree on a number, whichever it is.  On any other key they agree exactly if the number
made of the key is no place in the list, and the key is not the text of the one property of an array. -/
theorem index_sides_eq_item_iff {scope : Scope} {ps : List Program}
    (hrender : ∀ p ∈ ps, ∃ s, Program.render scope p = .ok s) {key : Expr} {k : Value}
    (hkey : key.eval scope (Program.renderSides scope ps) = .ok k) (bare span whole : Span) :
    ∃ outputs element item,
      List.Forall₂ (fun p v => ∃ s, Program.render scope p = .ok s ∧ v = .string s) ps outputs ∧
      (identifier sidesName bare).eval scope (Program.renderSides scope ps) =
        .ok (.array outputs) ∧
      (index (identifier sidesName span) key whole).eval scope (Program.renderSides scope ps) =
        .ok element ∧
      (Value.array outputs).item k = .ok item ∧
      (element = item ↔ (∃ x, k = .number x) ∨
        (∀ n < outputs.length, ¬ Number.Denotes k.toNumber n) ∧ k.text ≠ "length") := by
  obtain ⟨texts, htexts⟩ := Program.exists_outputs hrender
  have houtputs : List.Forall₂ (fun p v => ∃ s, Program.render scope p = .ok s ∧ v = .string s) ps
      (texts.map Value.string) := by
    rw [List.forall₂_map_right_iff]
    exact htexts.imp fun p s hs => ⟨s, hs, rfl⟩
  have hbare : (identifier sidesName bare).eval scope (Program.renderSides scope ps) =
      .ok (.array (texts.map .string)) := by
    rw [eval_identifier, Scope.resolve, if_pos rfl, Program.allSides_renderSides htexts]
    rfl
  have helement : (index (identifier sidesName span) key whole).eval scope
      (Program.renderSides scope ps) =
        .ok (((Number.wholeIndex? k.toNumber).bind ((texts.map Value.string)[·]?)).getD .null) := by
    rw [eval_index, hkey, ok_bind, if_pos (isIdentifier_self sidesName span),
      Program.sideAt_renderSides htexts]
  by_cases hnumber : ∃ x, k = .number x
  · obtain ⟨x, rfl⟩ := hnumber
    exact ⟨_, _, _, houtputs, hbare, helement, rfl, iff_of_true rfl (.inl ⟨x, rfl⟩)⟩
  · refine ⟨_, _, _, houtputs, hbare, helement,
      Value.item_array_of_not_number _ fun x hx => hnumber ⟨x, hx⟩, ?_⟩
    rw [or_iff_right hnumber]
    exact Value.output_eq_property_iff texts k.toNumber _ k.text

/-- A number that is below zero and not whole, so that neither the list nor the array has anything there. -/
theorem index_sides_eq_item_iff_below :
    (∀ p ∈ [[.text "a"], [.text "b"]], ∃ s, Program.render ⟨[], .flat, "r", none⟩ p = .ok s) ∧
    (Expr.unary .neg (.literal (.number 1.5) ⟨9, 12⟩) ⟨8, 12⟩).eval ⟨[], .flat, "r", none⟩
      (Program.renderSides ⟨[], .flat, "r", none⟩ [[.text "a"], [.text "b"]]) =
        .ok (.number (-1.5)) ∧
    ∃ outputs item,
      (identifier sidesName ⟨0, 7⟩).eval ⟨[], .flat, "r", none⟩
        (Program.renderSides ⟨[], .flat, "r", none⟩ [[.text "a"], [.text "b"]]) =
          .ok (.array outputs) ∧
      (index (identifier sidesName ⟨0, 7⟩) (.unary .neg (.literal (.number 1.5) ⟨9, 12⟩) ⟨8, 12⟩)
        ⟨0, 13⟩).eval ⟨[], .flat, "r", none⟩
          (Program.renderSides ⟨[], .flat, "r", none⟩ [[.text "a"], [.text "b"]]) = .ok item ∧
      (Value.array outputs).item (.number (-1.5)) = .ok item := by
  have hrender : ∀ p ∈ [[.text "a"], [.text "b"]],
      ∃ s, Program.render ⟨[], .flat, "r", none⟩ p = .ok s := by
    intro p hp
    rw [List.mem_cons, List.mem_singleton] at hp
    rcases hp with rfl | rfl
    · exact ⟨"a", rfl⟩
    · exact ⟨"b", rfl⟩
  have hkey : (Expr.unary .neg (.literal (.number 1.5) ⟨9, 12⟩) ⟨8, 12⟩).eval
      ⟨[], .flat, "r", none⟩
      (Program.renderSides ⟨[], .flat, "r", none⟩ [[.text "a"], [.text "b"]]) =
        .ok (.number (-1.5)) := rfl
  obtain ⟨outputs, element, item, -, hbare, helement, hitem, hagree⟩ :=
    index_sides_eq_item_iff hrender hkey ⟨0, 7⟩ ⟨0, 7⟩ ⟨0, 13⟩
  obtain rfl := hagree.mpr (.inl ⟨_, rfl⟩)
  exact ⟨hrender, hkey, outputs, element, hbare, helement, hitem⟩

/-- Keys on which element and array differ: the property of an array, and a truth value, which makes the
number of a place. -/
theorem index_sides_ne_item :
    (identifier sidesName ⟨0, 7⟩).eval ⟨[], .flat, "r", none⟩
      (Program.renderSides ⟨[], .flat, "r", none⟩ [[.text "a"], [.text "b"]]) =
        .ok (.array [.string "a", .string "b"]) ∧
    (index (identifier sidesName ⟨0, 7⟩) (.literal (.string "length") ⟨8, 16⟩) ⟨0, 17⟩).eval
      ⟨[], .flat, "r", none⟩
      (Program.renderSides ⟨[], .flat, "r", none⟩ [[.text "a"], [.text "b"]]) = .ok .null ∧
    (Value.array [.string "a", .string "b"]).item (.string "length") = .ok (.number 2) ∧
    (index (identifier sidesName ⟨0, 7⟩) (.literal (.bool true) ⟨8, 12⟩) ⟨0, 13⟩).eval
      ⟨[], .flat, "r", none⟩
      (Program.renderSides ⟨[], .flat, "r", none⟩ [[.text "a"], [.text "b"]]) =
        .ok (.string "b") ∧
    (Value.array [.string "a", .string "b"]).item (.bool true) = .ok .null := by
  refine ⟨rfl, ?_, ?_, ?_, ?_⟩
  · rfl
  · rfl
  · rfl
  · rfl

end Expr

end LineMarkup
