import LineMarkup.Proofs.LineRendering

/-!
# Layout as a serializer

The template of a tree renders to what the serializer makes of the tree at once, the output as well
as the first error.

Layout goes through siblings from right to left and keeps, beside the lines, the run that it does
not know a place for yet.  What the serializer makes of the same siblings is seen in the same way:
the run that their items start with, and the lines of all items behind it.  One more node in front
changes both views alike.

## Main Definitions

* `Serial.firstRun?` — the run that items start with
* `Layout.Piece.render`, `Layout.Flow.render` — what a node and what siblings render to

## Main Statements

* `Layout.piece_refines` — a node renders to what it writes
* `Template.render_ofNodes` — a template renders to what the serializer makes of its tree
-/

namespace LineMarkup

namespace Serial

/-! ### One more sibling in front -/

/-- The run that items start with, and whether it is blank text. -/
def firstRun? : List Item → Option (String × Bool)
  | .run stretches :: _ => some (runText stretches, stretches.all Prod.snd)
  | _ => none

/-- The run that goes on the line before is the first one, unless it is blank and there are lines.
-/
theorem lead?_eq (all : List Item) :
    lead? all = (firstRun? all).bind fun r =>
      if all.any Item.isBlock && r.2 then none else some r.1 := by
  cases all with
  | nil => rfl
  | cons item rest =>
      cases item with
      | block ls => rfl
      | run stretches =>
          rw [lead?, firstRun?, kept, Option.bind_some]
          show (if (!(_ && stretches.all Prod.snd)) = true then _ else _) =
            if (_ && stretches.all Prod.snd) = true then _ else _
          cases (Item.run stretches :: rest).any Item.isBlock && stretches.all Prod.snd with
          | true => rfl
          | false => rfl

/-- A stretch in front goes into the first run, or is one if there is none. -/
theorem items_stretch (s : String) (blank : Bool) (ws : List Written) :
    (∃ stretches more, items ws = .run stretches :: more ∧
      items (.stretch s blank :: ws) = .run ((s, blank) :: stretches) :: more) ∨
    (firstRun? (items ws) = none ∧ behindLead (items ws) = items ws ∧
      items (.stretch s blank :: ws) = .run [(s, blank)] :: items ws) := by
  cases hws : items ws with
  | nil => exact .inr ⟨rfl, rfl, by rw [items, hws]⟩
  | cons item more =>
      cases item with
      | run stretches => exact .inl ⟨stretches, more, rfl, by rw [items, hws]⟩
      | block ls => exact .inr ⟨rfl, rfl, by rw [items, hws]⟩

/-- Lines are kept when siblings are put together. -/
theorem any_isBlock_items (ws : List Written) :
    (items ws).any Item.isBlock = ws.any Written.isLines := by
  induction ws with
  | nil => rfl
  | cons w ws ih =>
      cases w with
      | lines ls => simp [items, Item.isBlock, Written.isLines]
      | stretch s blank =>
          rw [List.any_cons, ← ih]
          rcases items_stretch s blank ws with ⟨stretches, more, hws, h⟩ | ⟨-, -, h⟩
          · rw [h, hws]
            rfl
          · rw [h]
            rfl

/-- A stretch in front makes the first run longer. -/
theorem firstRun?_stretch (s : String) (blank : Bool) (ws : List Written) :
    firstRun? (items (.stretch s blank :: ws)) = some (
      match firstRun? (items ws) with
      | none => (s, blank)
      | some (t, blank') => (s ++ t, blank && blank')) := by
  rcases items_stretch s blank ws with ⟨stretches, more, hws, h⟩ | ⟨hws, -, h⟩
  · rw [h, hws]
    simp [firstRun?, runText]
  · rw [h, hws]
    simp [firstRun?, runText]

/-- A stretch in front does not change what comes behind the first run. -/
theorem behindLead_stretch (s : String) (blank : Bool) (ws : List Written) :
    behindLead (items (.stretch s blank :: ws)) = behindLead (items ws) := by
  rcases items_stretch s blank ws with ⟨stretches, more, hws, h⟩ | ⟨-, hws, h⟩
  · rw [h, hws]
    rfl
  · rw [h, hws]
    rfl

/-- Without a block there is nothing behind the run at the start. -/
theorem behindLead_of_no_block {ws : List Written} (h : ws.any Written.isLines = false) :
    behindLead (items ws) = [] := by
  induction ws with
  | nil => rfl
  | cons w ws ih =>
      rw [List.any_cons, Bool.or_eq_false_iff] at h
      cases w with
      | lines ls => exact absurd h.1 (by simp [Written.isLines])
      | stretch s blank =>
          rw [behindLead_stretch]
          exact ih h.2

/-- **Behind the run at the start, blank runs are dropped in any case.**  If there is an item, then
one of them is a block. -/
theorem followers_items (depth : Nat) (ws : List Written) :
    followers depth (items ws) =
      ((behindLead (items ws)).filter (!·.isBlank)).flatMap (Item.lines depth) := by
  rw [followers]
  cases hblock : (items ws).any Item.isBlock with
  | true =>
      have hkept : kept (items ws) = (!·.isBlank) := by
        funext item
        rw [kept, hblock, Bool.true_and]
      rw [hkept]
  | false =>
      rw [any_isBlock_items] at hblock
      rw [behindLead_of_no_block hblock]
      rfl

/-- A stretch in front does not change the lines that follow. -/
theorem followers_stretch (depth : Nat) (s : String) (blank : Bool) (ws : List Written) :
    followers depth (items (.stretch s blank :: ws)) = followers depth (items ws) := by
  rw [followers_items, followers_items, behindLead_stretch]

/-- Behind lines in front, the first run gets a line of its own, unless it is blank. -/
theorem followers_lines (depth : Nat) (ls : List String) (ws : List Written) :
    followers depth (items (.lines ls :: ws)) =
      ls ++ (match firstRun? (items ws) with
        | some (t, false) => [indentation depth ++ "| " ++ t]
        | _ => []) ++ followers depth (items ws) := by
  rw [followers_items, followers_items]
  have hitems : items (.lines ls :: ws) = .block ls :: items ws := rfl
  rw [hitems, behindLead, List.filter_cons]
  simp only [Item.isBlank, Bool.not_false, if_true, List.flatMap_cons, Item.lines,
    List.append_assoc, List.append_cancel_left_eq]
  cases items ws with
  | nil => rfl
  | cons item more =>
      cases item with
      | block _ => rfl
      | run stretches =>
          rw [List.filter_cons]
          cases hblank : stretches.all Prod.snd with
          | true => simp [firstRun?, behindLead, hblank]
          | false => simp [firstRun?, behindLead, hblank, Item.lines]
  · exact fun _ _ h => by simp at h

theorem alone_stretch (s : String) (blank : Bool) : alone (.stretch s blank) = s := by
  simp [alone, joined, document, items, lead?, kept, runText, followers, behindLead, Item.isBlock]

theorem alone_lines (ls : List String) : alone (.lines ls) = joined ls := by
  simp [alone, document, items, lead?, kept, followers, behindLead, Item.isBlank, Item.lines]

end Serial

namespace Layout

open Program Serial

variable {closing : SelfClosing}

/-! ### What is known before rendering -/

/-- What is known about the piece of a node without rendering it: it is a stretch if the node flows,
and its output is known if it is blank text; else it has at least one line. -/
def Piece.Fits (n : Node) : Piece → Prop
  | .inline segments blank =>
    n.isInline = true ∧ (blank = true → ∃ s, ∀ scope, render scope segments = .ok s)
  | .block lines => n.isInline = false ∧ lines ≠ []

/-- A tag has at least the line of its head. -/
theorem Flow.behind_ne_nil (f : Flow) (head : Line) : f.behind head ≠ [] := by
  rw [Flow.behind]
  split
  · exact List.cons_ne_nil _ _
  · exact List.cons_ne_nil _ _

/-- Whether a node flows is known without rendering it. -/
theorem piece_fits {depth : Nat} {n : Node} {p : Piece} (h : piece closing depth n = .ok p) :
    p.Fits n := by
  cases n with
  | text s =>
      cases h
      exact ⟨rfl, fun _ => ⟨s, fun scope => render_text scope s⟩⟩
  | comment content =>
      cases h
      exact ⟨rfl, List.cons_ne_nil _ _⟩
  | unknown type => cases h
  | code content sides =>
      rw [piece_code] at h
      split at h
      · cases h
      · obtain ⟨programs, -, h⟩ := bind_eq_ok_iff.mp h
        cases h
        exact ⟨rfl, fun hblank => by simp at hblank⟩
  | tag name attrs content =>
      rw [piece_tag] at h
      obtain ⟨listed, -, h⟩ := bind_eq_ok_iff.mp h
      split at h
      · cases h
        exact ⟨rfl, List.cons_ne_nil _ _⟩
      · obtain ⟨inner, -, h⟩ := bind_eq_ok_iff.mp h
        cases h
        exact ⟨rfl, inner.behind_ne_nil _⟩

/-- What is known about the flow of siblings without rendering it: the output of a blank run, and
that there are lines exactly if not all siblings flow. -/
structure Flow.Fits (ns : List Node) (f : Flow) : Prop where
  run : ∀ r, f.run = some r → r.blank = true → ∃ s, ∀ scope, render scope r.segments = .ok s
  lines : f.lines.isEmpty = ns.all Node.isInline

theorem Flow.Fits.empty : Flow.empty.Fits [] :=
  ⟨fun r hr => by simp [Flow.empty] at hr, rfl⟩

/-- A stretch in front makes no lines. -/
theorem Flow.lines_add_inline (f : Flow) (depth : Nat) (segments : List Segment) (blank : Bool) :
    (f.add depth (.inline segments blank)).lines = f.lines := by
  rw [Flow.add]
  split
  · rfl
  · rfl

/-- What is known about a flow is known with one more node in front. -/
theorem Flow.Fits.add {n : Node} {ns : List Node} {p : Piece} {f : Flow} (hf : f.Fits ns)
    (hp : p.Fits n) (depth : Nat) : (f.add depth p).Fits (n :: ns) := by
  cases p with
  | block lines =>
      obtain ⟨hinline, hlines⟩ := hp
      refine ⟨fun r hr => by simp [Flow.add] at hr, ?_⟩
      rw [List.all_cons, hinline, Bool.false_and]
      simp [Flow.add, hlines]
  | inline segments blank =>
      obtain ⟨hinline, hblank⟩ := hp
      have hlines : (f.add depth (.inline segments blank)).lines.isEmpty =
          (n :: ns).all Node.isInline := by
        rw [Flow.lines_add_inline, List.all_cons, hinline, Bool.true_and, hf.lines]
      refine ⟨fun r hr hr' => ?_, hlines⟩
      rw [Flow.add] at hr
      split at hr
      · cases hr
        exact hblank hr'
      · rename_i next hnext
        cases hr
        rw [Bool.and_eq_true] at hr'
        obtain ⟨s, hs⟩ := hblank hr'.1
        obtain ⟨t, ht⟩ := hf.run next hnext hr'.2
        exact ⟨s ++ t, fun scope => by rw [render_append, hs, ht]; rfl⟩

/-- What is known about siblings without rendering them. -/
theorem flow_fits {depth : Nat} {ns : List Node} {f : Flow} (h : flow closing depth ns = .ok f) :
    f.Fits ns := by
  induction ns generalizing f with
  | nil =>
      cases h
      exact .empty
  | cons n rest ih =>
      rw [flow] at h
      obtain ⟨p, hp, h⟩ := bind_eq_ok_iff.mp h
      obtain ⟨f, hf, h⟩ := bind_eq_ok_iff.mp h
      cases h
      exact (ih hf).add (piece_fits hp) depth

end Layout

namespace Serial

variable {scope : Scope} {slash : Bool}

/-- A node writes lines exactly if it does not flow. -/
theorem written_isLines {depth : Nat} {n : Node} {w : Written}
    (h : written scope slash depth n = .ok w) : w.isLines = !n.isInline := by
  cases n with
  | text s =>
      cases h
      rfl
  | comment content =>
      cases h
      rfl
  | unknown type =>
      cases h
      rfl
  | code content sides =>
      rw [written_code] at h
      split at h
      · cases h
        rfl
      · obtain ⟨v, -, h⟩ := bind_eq_ok_iff.mp h
        cases h
        rfl
  | tag name attrs content =>
      rw [written_tag] at h
      obtain ⟨listed, -, h⟩ := bind_eq_ok_iff.mp h
      split at h
      · cases h
        rfl
      · obtain ⟨inner, -, h⟩ := bind_eq_ok_iff.mp h
        cases h
        rfl

/-- Siblings write no lines exactly if all of them flow. -/
theorem any_isLines_of_siblings {depth : Nat} {ns : List Node} {ws : List Written}
    (h : siblings scope slash depth ns = .ok ws) :
    ws.any Written.isLines = !ns.all Node.isInline := by
  induction ns generalizing ws with
  | nil =>
      cases h
      rfl
  | cons n rest ih =>
      rw [siblings] at h
      obtain ⟨w, hw, h⟩ := bind_eq_ok_iff.mp h
      obtain ⟨ws, hws, h⟩ := bind_eq_ok_iff.mp h
      cases h
      rw [List.any_cons, List.all_cons, written_isLines hw, ih hws, Bool.not_and]

end Serial

/-! ### Rendering pieces and flows -/

namespace Layout

open Program Serial

variable (scope : Scope) {closing : SelfClosing}

/-- What a piece renders to. -/
def Piece.render : Piece → Except EvalError Written
  | .inline segments blank => do return .stretch (← Program.render scope segments) blank
  | .block lines => do return .lines (← lines.mapM (Program.render scope))

/-- The run of a flow. -/
def Flow.renderRun (f : Flow) : Except EvalError (Option (String × Bool)) :=
  match f.run with
  | none => pure none
  | some r => do return some (← Program.render scope r.segments, r.blank)

/-- What a flow renders to: its run, and its lines. -/
def Flow.render (f : Flow) : Except EvalError (Option (String × Bool) × List String) := do
  let run ← f.renderRun scope
  return (run, ← f.lines.mapM (Program.render scope))

/-- The segments of a node render to what the node writes by itself. -/
theorem Piece.render_segments (p : Piece) :
    Program.render scope p.segments = do return alone (← p.render scope) := by
  cases p with
  | inline segments blank =>
      rw [Piece.segments, Piece.render]
      simp only [bind_assoc, pure_bind, alone_stretch]
      rw [bind_ok]
  | block lines =>
      rw [Piece.segments, Piece.render, render_joinLines]
      simp only [bind_assoc, pure_bind, alone_lines]

/-- A stretch in front is rendered before the run behind it. -/
theorem Flow.renderRun_add_inline (f : Flow) (depth : Nat) (segments : List Segment)
    (blank : Bool) :
    (f.add depth (.inline segments blank)).renderRun scope = do
      let s ← Program.render scope segments
      let run ← f.renderRun scope
      return some (match run with
        | none => (s, blank)
        | some (t, blank') => (s ++ t, blank && blank')) := by
  rw [Flow.add, Flow.renderRun, Flow.renderRun]
  cases f.run with
  | none =>
      simp only [pure_bind]
  | some r =>
      simp only [render_append, bind_assoc, pure_bind]

/-- Behind other lines, a run is written behind a mark, if it is not blank. -/
theorem Flow.render_marked {ns : List Node} {f : Flow} (hf : f.Fits ns) (depth : Nat) :
    (f.marked depth).mapM (Program.render scope) = do
      let run ← f.renderRun scope
      return match run with
        | some (t, false) => [indentation depth ++ "| " ++ t]
        | _ => [] := by
  rw [Flow.marked, Flow.renderRun]
  cases hrun : f.run with
  | none => rfl
  | some r =>
      dsimp only
      cases hblank : r.blank with
      | true =>
          -- The run is dropped, but the serializer has made its text: it must be no error.
          obtain ⟨s, hs⟩ := hf.run r hrun hblank
          rw [hs, ok_bind]
          rfl
      | false =>
          rw [if_neg (by simp), List.mapM_cons, render_indent, render_text_cons, List.mapM_nil]
          simp only [bind_assoc, pure_bind, String.append_assoc]

/-- A step after the run and the lines of a flow is a step after what it renders to. -/
theorem Flow.render_bind (f : Flow) {α : Type}
    (k : Option (String × Bool) → List String → Except EvalError α) :
    (f.renderRun scope >>= fun run =>
      f.lines.mapM (Program.render scope) >>= fun lines => k run lines) =
    f.render scope >>= fun seen => k seen.1 seen.2 := by
  rw [Flow.render]
  simp only [bind_assoc, pure_bind]

/-- **One more node in front changes what a flow renders to as it changes what the serializer
sees.** -/
theorem Flow.render_add {ns : List Node} {f : Flow} (hf : f.Fits ns) (p : Piece)
    {depth : Nat} {seen : Except EvalError (List Written)}
    (h : f.render scope = do
      let ws ← seen
      return (firstRun? (items ws), followers depth (items ws))) :
    (f.add depth p).render scope = do
      let w ← p.render scope
      let ws ← seen
      return (firstRun? (items (w :: ws)), followers depth (items (w :: ws))) := by
  cases p with
  | inline segments blank =>
      rw [Flow.render, Flow.renderRun_add_inline, Flow.lines_add_inline, Piece.render]
      simp only [bind_assoc, pure_bind, Flow.render_bind, h, firstRun?_stretch, followers_stretch]
  | block lines =>
      have hlines : (f.add depth (.block lines)).lines = lines ++ f.marked depth ++ f.lines := rfl
      have hrun : (f.add depth (.block lines)).renderRun scope = .ok none := rfl
      rw [Flow.render, hrun, hlines, List.mapM_append, List.mapM_append,
        Flow.render_marked scope hf, Piece.render, ok_bind]
      simp only [bind_assoc, pure_bind, Flow.render_bind, h, followers_lines]
      rfl

/-- The run that goes on the line before. -/
def Flow.renderLead (f : Flow) : Except EvalError (Option String) :=
  match f.lead? with
  | none => pure none
  | some run => do return some (← Program.render scope run)

/-- The run that goes on the line before is the rendered run, unless it is blank and there are
lines. -/
theorem Flow.renderLead_eq {ns : List Node} {f : Flow} (hf : f.Fits ns) :
    f.renderLead scope = do
      let run ← f.renderRun scope
      return run.bind fun r => if !ns.all Node.isInline && r.2 then none else some r.1 := by
  rw [Flow.renderLead, Flow.lead?, Flow.renderRun, ← hf.lines]
  cases hrun : f.run with
  | none => rfl
  | some r =>
      simp only [bind_assoc, pure_bind, Option.bind_some]
      rw [Bool.and_comm]
      cases hdrop : !f.lines.isEmpty && r.blank with
      | false => rfl
      | true =>
          rw [Bool.and_eq_true] at hdrop
          -- Again a dropped run, this time at the start.
          obtain ⟨s, hs⟩ := hf.run r hrun hdrop.2
          rw [hs, ok_bind]
          rfl

/-- **The run at the start and the lines behind it are those that the serializer makes.** -/
theorem Flow.renderLead_bind {slash : Bool} {depth : Nat} {ns : List Node} {f : Flow}
    (hf : f.Fits ns)
    (h : f.render scope = do
      let ws ← siblings scope slash depth ns
      return (firstRun? (items ws), followers depth (items ws)))
    {α : Type} (k : Option String → List String → Except EvalError α) :
    (f.renderLead scope >>= fun lead =>
      f.lines.mapM (Program.render scope) >>= fun lines => k lead lines) =
    siblings scope slash depth ns >>= fun ws =>
      k (Serial.lead? (items ws)) (followers depth (items ws)) := by
  have hrender : (f.renderLead scope >>= fun lead =>
      f.lines.mapM (Program.render scope) >>= fun lines => k lead lines) =
      f.render scope >>= fun seen =>
        k (seen.1.bind fun r => if !ns.all Node.isInline && r.2 then none else some r.1)
          seen.2 := by
    rw [Flow.renderLead_eq scope hf, Flow.render]
    simp only [bind_assoc, pure_bind]
  rw [hrender, h]
  simp only [bind_assoc, pure_bind]
  -- Whether a blank run is kept depends on what its siblings are, not on what they render to.
  cases hws : siblings scope slash depth ns with
  | error e => rfl
  | ok ws => rw [ok_bind, ok_bind, lead?_eq, any_isBlock_items, any_isLines_of_siblings hws]

/-- The lines of a whole tree are the leading run and the lines behind it. -/
theorem Flow.render_topLines (f : Flow) :
    f.topLines.mapM (Program.render scope) = do
      let lead ← f.renderLead scope
      let lines ← f.lines.mapM (Program.render scope)
      return lead.toList ++ lines := by
  rw [Flow.topLines, Flow.renderLead]
  cases f.lead? with
  | none =>
      simp only [pure_bind, Option.toList_none, List.nil_append]
      rw [bind_ok]
  | some run =>
      rw [List.mapM_cons]
      simp only [bind_assoc, pure_bind]
      rfl

/-- The lines of a tag are its head with the leading run, and the lines behind it. -/
theorem Flow.render_behind (f : Flow) (head : Line) :
    (f.behind head).mapM (Program.render scope) = do
      let first ← Program.render scope head
      let lead ← f.renderLead scope
      let lines ← f.lines.mapM (Program.render scope)
      return (match lead with
        | none => first
        | some run => first ++ " " ++ run) :: lines := by
  rw [Flow.behind, Flow.renderLead]
  cases f.lead? with
  | none =>
      rw [List.mapM_cons]
      simp only [pure_bind]
  | some run =>
      rw [List.mapM_cons, render_append, render_text_cons]
      simp only [bind_assoc, pure_bind, String.append_assoc]

/-! ### Trees -/

attribute [local irreducible] Expr.parse

mutual

/-- **A node renders to what it writes.** -/
theorem piece_refines : (depth : Nat) → (n : Node) → {p : Piece} →
    piece closing depth n = .ok p →
    p.render scope = written scope (closing == .slash) depth n
  | depth, .text s, _, h => by
      cases h
      rw [Piece.render, render_text]
      rfl
  | depth, .comment content, _, h => by
      cases h
      rw [Piece.render, List.mapM_cons, render_indent, render_text_cons, render_text]
      show _ = Except.ok (Written.lines [indentation depth ++ "// " ++ content])
      rw [String.append_assoc]
      rfl
  | depth, .unknown type, _, h => by cases h
  | depth, .code content sides, _, h => by
      rw [piece_code] at h
      rw [written_code]
      cases hparse : Expr.parse (Text.trim content) with
      | error e =>
          rw [hparse] at h
          cases h
      | ok e =>
          rw [hparse] at h
          obtain ⟨programs, hprograms, h⟩ := bind_eq_ok_iff.mp h
          cases h
          -- Side nodes are worked out late, so their programs are compared unrendered.
          have hsides : renderSides scope programs =
              sideTexts scope (closing == .slash) (sides.getD []) := by
            cases sides with
            | none =>
                cases hprograms
                rfl
            | some ns => exact sidePrograms_refines ns hprograms
          rw [Piece.render, render_cons, renderSegment, render_nil, hsides]
          simp only [bind_assoc, pure_bind, ok_bind, String.append_empty]
  | depth, .tag name attrs content, _, h => by
      rw [piece_tag] at h
      rw [written_tag]
      obtain ⟨listed, hlisted, h⟩ := bind_eq_ok_iff.mp h
      have hattributes : listed.mapM (Program.render scope) =
          attributes scope (closing == .slash) (.ofAttrs (attrs.getD .nil)) (attrs.getD .nil) := by
        cases attrs with
        | none =>
            cases hlisted
            rfl
        | some as => exact attributions_refines as hlisted
      rw [← hattributes]
      cases hbody : Node.hasNoBody content with
      | true =>
          rw [hbody] at h
          cases h
          rw [Piece.render, List.mapM_cons, render_headLine]
          simp only [bind_assoc, pure_bind, List.mapM_nil]
          rfl
      | false =>
          rw [hbody] at h
          obtain ⟨inner, hinner, h⟩ := bind_eq_ok_iff.mp h
          cases h
          have hflow : inner.render scope = do
              let ws ← siblings scope (closing == .slash) (depth + 1) (content.getD [])
              return (firstRun? (items ws), followers (depth + 1) (items ws)) := by
            cases content with
            | none =>
                cases hinner
                rfl
            | some ns => exact flow_refines (depth + 1) ns hinner
          have hfits : inner.Fits (content.getD []) := by
            cases content with
            | none =>
                cases hinner
                exact .empty
            | some ns => exact flow_fits hinner
          rw [Piece.render, Flow.render_behind, render_headLine]
          simp only [bind_assoc, pure_bind, Flow.renderLead_bind scope hfits hflow]
          rfl

/-- **Siblings render to what the serializer sees of them.** -/
theorem flow_refines : (depth : Nat) → (ns : List Node) → {f : Flow} →
    flow closing depth ns = .ok f →
    f.render scope = do
      let ws ← siblings scope (closing == .slash) depth ns
      return (firstRun? (items ws), followers depth (items ws))
  | depth, [], _, h => by
      cases h
      rfl
  | depth, n :: rest, _, h => by
      rw [flow] at h
      obtain ⟨p, hp, h⟩ := bind_eq_ok_iff.mp h
      obtain ⟨f, hf, h⟩ := bind_eq_ok_iff.mp h
      cases h
      rw [Flow.render_add scope (flow_fits hf) p (flow_refines depth rest hf),
        piece_refines depth n hp, siblings]
      simp only [bind_assoc, pure_bind]

/-- A value renders to what its nodes write by themselves, edge to edge. -/
theorem parts_refines : (ns : List Node) → {segments : List Segment} →
    parts closing ns = .ok segments →
    Program.render scope segments = valueText scope (closing == .slash) ns
  | [], _, h => by
      cases h
      rfl
  | n :: rest, _, h => by
      rw [parts] at h
      obtain ⟨p, hp, h⟩ := bind_eq_ok_iff.mp h
      obtain ⟨others, hothers, h⟩ := bind_eq_ok_iff.mp h
      cases h
      rw [render_append, Piece.render_segments, piece_refines 0 n hp, parts_refines rest hothers,
        valueText]
      simp only [bind_assoc, pure_bind]

/-- The programs of side nodes render to what the nodes write by themselves. -/
theorem sidePrograms_refines : (ns : List Node) → {programs : List Program} →
    sidePrograms closing ns = .ok programs →
    renderSides scope programs = sideTexts scope (closing == .slash) ns
  | [], _, h => by
      cases h
      rfl
  | n :: rest, _, h => by
      rw [sidePrograms] at h
      obtain ⟨p, hp, h⟩ := bind_eq_ok_iff.mp h
      obtain ⟨others, hothers, h⟩ := bind_eq_ok_iff.mp h
      cases h
      rw [renderSides, sideTexts, sidePrograms_refines rest hothers, render_ofSegments,
        Piece.render_segments, piece_refines 0 n hp]

/-- Attributes render to what the serializer lists for them. -/
theorem attributions_refines {short : Head} {before : List String} :
    (as : Attributes (List Node) before) → {listed : List (List Segment)} → attributions closing short as = .ok listed →
    listed.mapM (Program.render scope) = attributes scope (closing == .slash) short as
  | .nil, _, h => by
      cases h
      rfl
  | .cons name value rest _, _, h => by
      rw [attributions] at h
      rw [attributes]
      split at h
      · rename_i htakes
        rw [if_pos htakes]
        exact attributions_refines rest h
      · rename_i htakes
        obtain ⟨segments, hsegments, h⟩ := bind_eq_ok_iff.mp h
        obtain ⟨others, hothers, h⟩ := bind_eq_ok_iff.mp h
        cases h
        rw [if_neg htakes, List.mapM_cons, render_attribution, parts_refines value hsegments,
          attributions_refines rest hothers]
        simp only [bind_assoc, pure_bind]

end

/-- The program of a tree renders to the joined lines of the serializer. -/
theorem program_refines {nodes : List Node} {p : Program} (h : program closing nodes = .ok p) :
    Program.render scope p = do
      let ws ← siblings scope (closing == .slash) 0 nodes
      return joined (document (items ws)) := by
  obtain ⟨f, hf, h⟩ := bind_eq_ok_iff.mp h
  cases h
  rw [render_ofSegments, render_joinLines, Flow.render_topLines]
  simp only [bind_assoc, pure_bind,
    Flow.renderLead_bind scope (flow_fits hf) (flow_refines scope 0 nodes hf)]
  rfl

end Layout

namespace SelfClosing

/-- A word that names a choice is the word of that choice. -/
theorem eq_word_of_ofWord? {s : String} {m : SelfClosing} (h : ofWord? s = some m) :
    s = m.word := by
  rw [ofWord?.eq_def] at h
  split at h
  · cases h
    rfl
  · cases h
    rfl
  · cases h
    rfl
  · cases h

/-- The slash is written for its word only. -/
theorem beq_slash_of_ofWord? {s : String} {m : SelfClosing} (h : ofWord? s = some m) :
    (m == .slash) = (s == "slash") := by
  rw [eq_word_of_ofWord? h]
  cases m <;> rfl

end SelfClosing

namespace Template

/-- **A template renders to what the serializer makes of its tree**, output or first error, for all
locals and with any host. -/
theorem render_ofNodes {nodes : List Node} {settings : Settings} {t : Template}
    (h : ofNodes nodes settings = .ok t) (locals : Locals) :
    t.render locals = Serial.serialize settings locals nodes := by
  rw [ofNodes, Settings.validate] at h
  cases hword : SelfClosing.ofWord? settings.selfClosing with
  | none =>
      rw [hword] at h
      cases h
  | some closing =>
      rw [hword] at h
      obtain ⟨program, hprogram, h⟩ := bind_eq_ok_iff.mp h
      cases h
      rw [render, Layout.program_refines _ hprogram, Serial.serialize,
        SelfClosing.beq_slash_of_ofWord? hword]
      rfl

/-- A dropped run, a run behind a head, a marked run, a tag without a body and an attribute whose
value is only known when it is rendered. -/
theorem render_ofNodes_lines :
    ∃ t, ofNodes
        [.text " ", .tag "p" (some (.cons "id" [.text "x"] (.cons "b" [.code "a" none] .nil)))
          (some [.text "y", .tag "br" none none, .text " ", .comment "z", .code "a" none])]
        { selfClosing := "slash" } = .ok t ∧
      (t.render [("a", .string "c")]).toOption =
        some "p#x(b=\"c\") y\n  br /\n  // z\n  | c" := by
  have hok : (ofNodes
      [.text " ", .tag "p" (some (.cons "id" [.text "x"] (.cons "b" [.code "a" none] .nil)))
        (some [.text "y", .tag "br" none none, .text " ", .comment "z", .code "a" none])]
      { selfClosing := "slash" }).isOk = true := by decide +kernel
  cases ht : ofNodes _ _ with
  | error e =>
      rw [ht] at hok
      cases hok
  | ok t =>
      refine ⟨t, rfl, ?_⟩
      rw [render_ofNodes ht]
      decide +kernel

end Template

end LineMarkup
