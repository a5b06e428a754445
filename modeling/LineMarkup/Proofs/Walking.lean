import LineMarkup.Layout.Walker
import LineMarkup.Proofs.Retouches

/-!
# Layout in one pass

Layout puts the lines of a node together from those of the nodes inside it, and makes a program of them in
the end. A walker writes segment after segment and remembers only whether a line was started. Both make the
same program, or find the same error.

The walker looks at an index to know whether a stretch goes on along the line of its tag, and at all items to
know whether a blank one is passed over. Both are decided by what stands before the stretch: only the first
item is at index zero, and two stretches are never next to each other, so that at any other index a tag or a
comment has come before. This is why the induction over siblings keeps the stretch that is still open apart.

## Main Definitions

* `Walker.take` — a walker behind what a node contributes
* `Walker.Visits` — a walker that comes to a node takes what the node contributes

## Main Statements

* `Walker.walkItems_splitItems` — siblings behind a tag or comment
* `Walker.walkNodes_eq` — siblings in a tag, and in a walk of their own
* `Walker.compileHead_eq` — the head of a tag
* `Walker.visits` — every node is visited
* `walk_eq_program` — a walk over a tree makes its program
-/

namespace LineMarkup.Layout

open Program

/-! ### Lines behind others -/

/-- Lines with a line feed before each. -/
def broken (lines : List Line) : List Segment :=
  lines.flatMap fun line => .text "\n" :: line

@[simp] theorem broken_nil : broken [] = [] := rfl

theorem broken_cons (line : Line) (lines : List Line) :
    broken (line :: lines) = .text "\n" :: line ++ broken lines :=
  List.flatMap_cons

theorem broken_append (lines others : List Line) :
    broken (lines ++ others) = broken lines ++ broken others :=
  List.flatMap_append

/-- The first line has no line feed before it. -/
theorem joinLines_cons (line : Line) (lines : List Line) :
    joinLines (line :: lines) = line ++ broken lines := by
  induction lines generalizing line with
  | nil => rw [joinLines, broken_nil, List.append_nil]
  | cons next rest ih =>
      show line ++ .text "\n" :: joinLines (next :: rest) = _
      rw [ih, broken_cons, List.cons_append]

/-- Lines behind others come behind line feeds. -/
theorem joinLines_append {lines : List Line} (h : lines ≠ []) (others : List Line) :
    joinLines (lines ++ others) = joinLines lines ++ broken others := by
  cases lines with
  | nil => exact absurd rfl h
  | cons line lines =>
      rw [List.cons_append, joinLines_cons, joinLines_cons, broken_append, List.append_assoc]

/-- Lines behind a line feed. -/
theorem broken_eq {lines : List Line} (h : lines ≠ []) :
    broken lines = .text "\n" :: joinLines lines := by
  cases lines with
  | nil => exact absurd rfl h
  | cons line lines => rw [joinLines_cons, broken_cons, List.cons_append]

/-- Merging beforehand makes no difference to what is written. -/
theorem append_ofSegments (p : Program) (q : List Segment) :
    p.append (ofSegments q) = p.append q :=
  (ignoresMerging_append p).append [] q

/-! ### What a node contributes -/

section Pieces

variable {closing : SelfClosing} {depth : Nat}

/-- A text or an expression flows along the line, at any level. -/
theorem piece_of_isInline {n : Node} (h : n.isInline = true) :
    piece closing depth n =
      (piece closing 0 n).map fun p => .inline p.segments n.isBlankText := by
  cases n with
  | text s => rfl
  | code content sides =>
      rw [piece_code, piece_code]
      cases Expr.parse (Text.trim content) with
      | error e => rfl
      | ok e => cases sidePrograms closing (sides.getD []) <;> rfl
  | tag name attrs content => cases h
  | comment content => cases h
  | unknown type => cases h

/-- Any other node makes lines. -/
theorem piece_of_not_isInline {n : Node} (h : n.isInline = false) {p : Piece}
    (hp : piece closing depth n = .ok p) : ∃ lines, lines ≠ [] ∧ p = .block lines := by
  have hfits := piece_fits hp
  cases p with
  | inline segments blank => exact absurd (h.symm.trans hfits.1) Bool.false_ne_true
  | block lines => exact ⟨lines, hfits.2, rfl⟩

/-- What siblings contribute that start with a stretch. -/
theorem flow_stretch {run : List Node} (hne : run ≠ []) (hrun : ∀ n ∈ run, n.isInline = true)
    {ns : List Node} (hns : ∀ n ∈ ns.head?, n.isInline = false) :
    flow closing depth (run ++ ns) = do
      let segments ← parts closing run
      let f ← flow closing depth ns
      return ⟨some ⟨segments, run.all Node.isBlankText⟩, f.lines⟩ := by
  induction run with
  | nil => exact absurd rfl hne
  | cons n run ih =>
      rw [List.cons_append, flow, parts, piece_of_isInline (hrun n List.mem_cons_self)]
      cases piece closing 0 n with
      | error e => rfl
      | ok p =>
          cases run with
          | nil =>
              rw [List.nil_append, parts]
              cases hf : flow closing depth ns with
              | error e => rfl
              | ok f =>
                  show Except.ok (Flow.add depth (.inline p.segments n.isBlankText) f) = .ok ⟨some
                    ⟨p.segments ++ [], n.isBlankText && true⟩, f.lines⟩
                  rw [Flow.add, run_eq_none_of_head hns hf, List.append_nil, Bool.and_true]
          | cons m run =>
              rw [ih (List.cons_ne_nil m run) fun m' hm => hrun m' (List.mem_cons_of_mem n hm)]
              cases parts closing (m :: run) with
              | error e => rfl
              | ok others => cases flow closing depth ns <;> rfl

/-- A stretch of blanks has segments. -/
theorem exists_parts_of_blank (closing : SelfClosing) {run : List Node} (h : run.all Node.isBlankText = true) :
    ∃ segments, parts closing run = .ok segments := by
  induction run with
  | nil => exact ⟨[], rfl⟩
  | cons n run ih =>
      rw [List.all_cons, Bool.and_eq_true] at h
      obtain ⟨others, hothers⟩ := ih h.2
      cases n with
      | text s =>
          rw [parts, hothers]
          exact ⟨_, rfl⟩
      | code content sides => cases h.1
      | tag name attrs content => cases h.1
      | comment content => cases h.1
      | unknown type => cases h.1

end Pieces

/-! ### Walkers -/

namespace Walker

variable {closing : SelfClosing} {depth : Nat}

/-- Lines, the first one started where the walker is. -/
def writeLines (w : Walker) (lines : List Line) : Walker :=
  { w.append ((if w.started then [.text "\n"] else []) ++ joinLines lines) with started := true }

/-- A walker behind what a node contributes. -/
def take (w : Walker) : Piece → Walker
  | .inline segments _ => w.append segments
  | .block lines => w.writeLines lines

/-- A walker that comes to a node takes what the node contributes. -/
def Visits (closing : SelfClosing) (n : Node) : Prop :=
  ∀ depth w, walkNode closing depth n w = (piece closing depth n).map w.take

theorem append_append (w : Walker) (p q : List Segment) : (w.append p).append q = w.append (p ++ q) :=
  congrArg (fun program => Walker.mk program w.started) (Program.append_append w.program p q).symm

/-- A line is started by a line feed, but for the first, and its indentation. -/
theorem newline_eq (w : Walker) (depth : Nat) :
    w.newline depth =
      { w.append ((if w.started then [.text "\n"] else []) ++ [indent depth]) with started := true } := by
  cases w with
  | mk program started => cases started <;> rfl

/-- Behind a line that was started, each line comes behind a line feed. -/
theorem writeLines_of_started {w : Walker} (h : w.started = true) {lines : List Line}
    (hlines : lines ≠ []) : w.writeLines lines = w.append (broken lines) := by
  obtain ⟨program, started⟩ := w
  obtain rfl : started = true := h
  rw [writeLines, broken_eq hlines]
  rfl

/-- More lines go behind those that were written. -/
theorem writeLines_append {w : Walker} {lines : List Line} (hlines : lines ≠ []) (others : List Line) :
    (w.writeLines lines).append (broken others) = w.writeLines (lines ++ others) := by
  rw [writeLines, writeLines, joinLines_append hlines, ← List.append_assoc]
  exact congrArg (fun program => Walker.mk program true) (Program.append_append _ _ _).symm

/-- A stretch is written node by node. -/
theorem walkRun_eq {run : List Node} (hrun : ∀ n ∈ run, n.isInline = true)
    (hvisits : ∀ n ∈ run, Visits closing n) (w : Walker) :
    walkRun closing run w = (parts closing run).map w.append := by
  induction run generalizing w with
  | nil => rw [walkRun]; rfl
  | cons n run ih =>
      rw [walkRun, hvisits n List.mem_cons_self, parts, piece_of_isInline (hrun n List.mem_cons_self)]
      cases piece closing 0 n with
      | error e => rfl
      | ok p =>
          show walkRun closing run (w.append p.segments) = _
          rw [ih (fun m hm => hrun m (List.mem_cons_of_mem n hm))
            (fun m hm => hvisits m (List.mem_cons_of_mem n hm))]
          cases parts closing run with
          | error e => rfl
          | ok others => exact congrArg Except.ok (append_append w p.segments others)

/-! ### Siblings -/

/-- A stretch that is not the first item starts a line behind a mark, unless it is blank. -/
theorem walkItems_inline {run : List Node} (hrun : ∀ n ∈ run, n.isInline = true)
    (hvisits : ∀ n ∈ run, Visits closing n) {inTag : Bool} {index : Nat} (hindex : index ≠ 0)
    (items : List Item) {w : Walker} (hw : w.started = true) :
    walkItems closing depth inTag true index (.inline run :: items) w = (do
      let segments ← parts closing run
      walkItems closing depth inTag true (index + 1) items
        (w.append (broken (Flow.marked ⟨some ⟨segments, run.all Node.isBlankText⟩, []⟩ depth)))) := by
  rw [walkItems]
  cases hblank : run.all Node.isBlankText with
  | true =>
      obtain ⟨segments, hsegments⟩ := exists_parts_of_blank closing hblank
      rw [hsegments]
      rfl
  | false =>
      obtain ⟨program, started⟩ := w
      obtain rfl : started = true := hw
      simp only [Bool.and_false, Bool.false_eq_true, if_false, if_neg hindex, walkRun_eq hrun hvisits]
      cases parts closing run with
      | error e => rfl
      | ok segments =>
          have hmarked : broken (Flow.marked ⟨some ⟨segments, false⟩, []⟩ depth) =
              .text "\n" :: indent depth :: .text "| " :: segments :=
            List.append_nil _
          exact congrArg (fun p => walkItems closing depth inTag true (index + 1) items
            (append ⟨program, true⟩ p)) hmarked.symm

/-- A tag or comment starts its lines, and all siblings behind it are behind a block. -/
theorem walkItems_block {n : Node} (hn : n.isInline = false) (hvisits : Visits closing n)
    {inTag : Bool} {index : Nat} {ns : List Node}
    (hrest : ∀ {w : Walker}, w.started = true →
      walkItems closing depth inTag true (index + 1) (splitItems [] ns) w =
        (flow closing depth ns).map fun f => w.append (broken (f.marked depth ++ f.lines)))
    (w : Walker) :
    walkItems closing depth inTag true index (.block n :: splitItems [] ns) w =
      (flow closing depth (n :: ns)).map fun f => w.writeLines f.lines := by
  rw [walkItems, hvisits, flow]
  cases hpiece : piece closing depth n with
  | error e => rfl
  | ok p =>
      obtain ⟨lines, hlines, rfl⟩ := piece_of_not_isInline hn hpiece
      show walkItems closing depth inTag true (index + 1) (splitItems [] ns) (w.writeLines lines) = _
      rw [hrest rfl]
      cases flow closing depth ns with
      | error e => rfl
      | ok f =>
          refine congrArg Except.ok ((writeLines_append hlines _).trans ?_)
          rw [← List.append_assoc]
          rfl

/-- The lines of siblings that a tag or comment starts. -/
theorem lines_of_block {n : Node} (hn : n.isInline = false) {ns : List Node} {f : Flow}
    (hf : flow closing depth (n :: ns) = .ok f) : f.run = none ∧ f.lines ≠ [] := by
  rw [flow] at hf
  obtain ⟨p, hp, hf⟩ := bind_eq_ok_iff.mp hf
  obtain ⟨rest, -, hf⟩ := bind_eq_ok_iff.mp hf
  obtain ⟨lines, hlines, rfl⟩ := piece_of_not_isInline hn hp
  cases hf
  refine ⟨rfl, fun hnil => hlines ?_⟩
  exact (List.append_eq_nil_iff.mp (List.append_eq_nil_iff.mp hnil).1).1

/-- The last stretch behind tags and comments. -/
theorem walkItems_last {run : List Node} (hne : run ≠ []) (hrun : ∀ n ∈ run, n.isInline = true)
    (hvisits : ∀ n ∈ run, Visits closing n) {inTag : Bool} {index : Nat} (hindex : index ≠ 0)
    {w : Walker} (hw : w.started = true) :
    walkItems closing depth inTag true index [.inline run] w =
      (flow closing depth (run ++ [])).map fun f => w.append (broken (f.marked depth ++ f.lines)) := by
  have hnil : ∀ m ∈ ([] : List Node).head?, m.isInline = false := fun m hm => absurd hm (by simp)
  rw [walkItems_inline hrun hvisits hindex [] hw, flow_stretch hne hrun hnil]
  cases parts closing run with
  | error e => rfl
  | ok segments =>
      show walkItems closing depth inTag true (index + 1) [] _ = _
      rw [walkItems, flow]
      exact congrArg (fun p => Except.ok (w.append (broken p))) (List.append_nil _).symm

/-- A stretch between tags and comments. -/
theorem walkItems_between {run : List Node} (hne : run ≠ []) (hrun : ∀ n ∈ run, n.isInline = true)
    (hvisits : ∀ n ∈ run, Visits closing n) {n : Node} (hn : n.isInline = false) {inTag : Bool}
    {ns : List Node}
    (hblock : ∀ {index : Nat} (w : Walker),
      walkItems closing depth inTag true index (.block n :: splitItems [] ns) w =
        (flow closing depth (n :: ns)).map fun f => w.writeLines f.lines)
    {index : Nat} (hindex : index ≠ 0) {w : Walker} (hw : w.started = true) :
    walkItems closing depth inTag true index (.inline run :: .block n :: splitItems [] ns) w =
      (flow closing depth (run ++ n :: ns)).map fun f =>
        w.append (broken (f.marked depth ++ f.lines)) := by
  rw [walkItems_inline hrun hvisits hindex _ hw, flow_stretch hne hrun (by rintro _ ⟨⟩; exact hn)]
  cases parts closing run with
  | error e => rfl
  | ok segments =>
      show walkItems closing depth inTag true (index + 1) (.block n :: splitItems [] ns) _ = _
      rw [hblock]
      cases hf : flow closing depth (n :: ns) with
      | error e => rfl
      | ok f =>
          obtain ⟨-, hlines⟩ := lines_of_block hn hf
          show Except.ok (writeLines _ f.lines) = Except.ok (w.append (broken
            (Flow.marked ⟨some ⟨segments, run.all Node.isBlankText⟩, f.lines⟩ depth ++ f.lines)))
          rw [writeLines_of_started (by exact hw) hlines, append_append, ← broken_append]
          rfl

/-- **Siblings behind a tag or comment**: every stretch starts a line, unless it is blank. -/
theorem walkItems_splitItems {inTag : Bool} (ns : List Node) :
    ∀ {run : List Node}, (∀ n ∈ run, n.isInline = true) →
      (∀ n ∈ run ++ ns, Visits closing n) → ∀ {index : Nat}, index ≠ 0 → ∀ {w : Walker},
      w.started = true →
      walkItems closing depth inTag true index (splitItems run ns) w =
        (flow closing depth (run ++ ns)).map fun f =>
          w.append (broken (f.marked depth ++ f.lines)) := by
  induction ns with
  | nil =>
      intro run hrun hvisits index hindex w hw
      rw [List.append_nil] at hvisits
      rw [splitItems]
      cases run with
      | nil =>
          show walkItems closing depth inTag true index [] w = _
          rw [walkItems]
          rfl
      | cons n run => exact walkItems_last (List.cons_ne_nil n run) hrun hvisits hindex hw
  | cons n ns ih =>
      intro run hrun hvisits index hindex w hw
      rw [splitItems]
      split
      case isTrue hn =>
        have happend : run ++ n :: ns = run ++ [n] ++ ns := List.append_cons run n ns
        rw [happend] at hvisits ⊢
        refine ih (fun m hm => ?_) hvisits hindex hw
        obtain hm | hm := List.mem_append.mp hm
        · exact hrun m hm
        · rwa [List.mem_singleton.mp hm]
      case isFalse hn =>
        have hn : n.isInline = false := Bool.eq_false_iff.mpr hn
        have hblock {index : Nat} (w : Walker) :
            walkItems closing depth inTag true index (.block n :: splitItems [] ns) w =
              (flow closing depth (n :: ns)).map fun f => w.writeLines f.lines := by
          refine walkItems_block hn (hvisits n (List.mem_append_right run List.mem_cons_self)) ?_ w
          exact ih (List.forall_mem_nil _) (fun m hm => hvisits m (List.mem_append_right run
            (List.mem_cons_of_mem n hm))) (Nat.succ_ne_zero index)
        cases run with
        | nil =>
            show walkItems closing depth inTag true index (.block n :: splitItems [] ns) w = _
            rw [hblock, List.nil_append]
            cases hf : flow closing depth (n :: ns) with
            | error e => rfl
            | ok f =>
                obtain ⟨hrun, hlines⟩ := lines_of_block hn hf
                rw [Except.map, Except.map, writeLines_of_started hw hlines, Flow.marked, hrun,
                  List.nil_append]
        | cons m run =>
            exact walkItems_between (List.cons_ne_nil m run) hrun
              (fun m' hm => hvisits m' (List.mem_append_left _ hm)) hn hblock hindex hw

/-! ### Walks -/

/-- A stretch at the front is the stretch that is open behind it. -/
theorem splitItems_append {run : List Node} (hrun : ∀ n ∈ run, n.isInline = true)
    (before ns : List Node) : splitItems before (run ++ ns) = splitItems (before ++ run) ns := by
  induction run generalizing before with
  | nil => rw [List.nil_append, List.append_nil]
  | cons n run ih =>
      rw [List.cons_append, splitItems, if_pos (hrun n List.mem_cons_self),
        ih fun m hm => hrun m (List.mem_cons_of_mem n hm), List.append_assoc, List.singleton_append]

/-- Siblings are a stretch, then nothing or a tag or comment first. -/
theorem exists_stretch (ns : List Node) :
    ∃ run rest, ns = run ++ rest ∧ (∀ n ∈ run, n.isInline = true) ∧
      ∀ n ∈ rest.head?, n.isInline = false := by
  induction ns with
  | nil => exact ⟨[], [], rfl, nofun, nofun⟩
  | cons n ns ih =>
      cases hn : n.isInline with
      | true =>
          obtain ⟨run, rest, rfl, hrun, hrest⟩ := ih
          exact ⟨n :: run, rest, rfl, List.forall_mem_cons.mpr ⟨hn, hrun⟩, hrest⟩
      | false => exact ⟨[], n :: ns, rfl, nofun, by rintro _ ⟨⟩; exact hn⟩

/-- What a walker writes before the stretch that siblings start with. -/
def lead (inTag : Bool) : List Segment :=
  if inTag then [.text " "] else []

/-- A walker behind the stretch that siblings start with. -/
def along (w : Walker) (inTag : Bool) (segments : List Segment) : Walker :=
  { w.append (lead inTag ++ segments) with started := true }

/-- A stretch that is the first item goes on along the line, unless it is blank and not alone. -/
theorem walkItems_first {run : List Node} (hrun : ∀ n ∈ run, n.isInline = true)
    (hvisits : ∀ n ∈ run, Visits closing n) (inTag hasBlocks : Bool) (items : List Item)
    (w : Walker) :
    walkItems closing depth inTag hasBlocks 0 (.inline run :: items) w = (do
      let segments ← parts closing run
      walkItems closing depth inTag hasBlocks 1 items
        (if hasBlocks && run.all Node.isBlankText then w else w.along inTag segments)) := by
  rw [walkItems]
  cases hskip : hasBlocks && run.all Node.isBlankText with
  | true =>
      obtain ⟨segments, hsegments⟩ :=
        exists_parts_of_blank closing (Bool.and_eq_true_iff.mp hskip).2
      rw [hsegments]
      rfl
  | false =>
      simp only [Bool.false_eq_true, if_false, if_true, walkRun_eq hrun hvisits]
      cases parts closing run with
      | error e => rfl
      | ok segments => cases inTag <;> rfl

/-- A walker behind siblings. -/
def behind (w : Walker) (inTag : Bool) (f : Flow) : Walker :=
  let w := match f.lead? with
    | none => w
    | some segments => w.along inTag segments
  if f.lines.isEmpty then w else w.writeLines f.lines

theorem behind_alone (w : Walker) (inTag : Bool) (run : Run) :
    w.behind inTag ⟨some run, []⟩ = w.along inTag run.segments := by
  obtain ⟨segments, blank⟩ := run
  cases blank <;> rfl

/-- A stretch in front of lines goes on along the line, unless it is blank. -/
theorem behind_stretch (w : Walker) (inTag : Bool) (run : Run) {lines : List Line}
    (h : lines ≠ []) : w.behind inTag ⟨some run, lines⟩ =
      (if run.blank then w else w.along inTag run.segments).writeLines lines := by
  obtain ⟨line, lines, rfl⟩ := List.exists_cons_of_ne_nil h
  obtain ⟨segments, blank⟩ := run
  cases blank <;> rfl

theorem behind_lines (w : Walker) (inTag : Bool) {f : Flow} (hrun : f.run = none)
    (hlines : f.lines ≠ []) : w.behind inTag f = w.writeLines f.lines := by
  obtain ⟨run, lines⟩ := f
  obtain rfl : run = none := hrun
  obtain ⟨line, lines, rfl⟩ := List.exists_cons_of_ne_nil hlines
  rfl

/-- **Siblings in a walk.** The stretch that they start with goes on along the line, and if there are lines
behind it they go behind all that was written. -/
theorem walkNodes_eq {ns : List Node} (hvisits : ∀ n ∈ ns, Visits closing n) (inTag : Bool)
    (w : Walker) :
    walkNodes closing depth inTag ns w = (flow closing depth ns).map (w.behind inTag) := by
  obtain ⟨run, rest, rfl, hrun, hrest⟩ := exists_stretch ns
  have hvisitsRun : ∀ n ∈ run, Visits closing n := fun n hn => hvisits n (List.mem_append_left _ hn)
  rw [walkNodes, splitItems_append hrun, List.nil_append]
  cases rest with
  | nil =>
      cases run with
      | nil =>
          show walkItems closing depth inTag _ 0 [] w = _
          rw [walkItems]
          rfl
      | cons n run =>
          -- Without tags and comments, blank or not, the stretch is kept.
          show walkItems closing depth inTag false 0 [.inline (n :: run)] w = _
          rw [walkItems_first hrun hvisitsRun, flow_stretch (List.cons_ne_nil n run) hrun hrest]
          cases parts closing (n :: run) with
          | error e => rfl
          | ok segments =>
              show walkItems closing depth inTag false 1 [] (w.along inTag segments) = _
              rw [walkItems, flow]
              exact congrArg Except.ok (behind_alone w inTag ⟨segments, _⟩).symm
  | cons n rest =>
      have hn : n.isInline = false := hrest n rfl
      have hblock {index : Nat} (w : Walker) :
          walkItems closing depth inTag true index (.block n :: splitItems [] rest) w =
            (flow closing depth (n :: rest)).map fun f => w.writeLines f.lines := by
        refine walkItems_block hn (hvisits n (List.mem_append_right run List.mem_cons_self)) ?_ w
        exact walkItems_splitItems rest (List.forall_mem_nil _) (fun m hm => hvisits m
          (List.mem_append_right run (List.mem_cons_of_mem n hm))) (Nat.succ_ne_zero index)
      rw [splitItems, if_neg (Bool.eq_false_iff.mp hn)]
      cases run with
      | nil =>
          show walkItems closing depth inTag true 0 (.block n :: splitItems [] rest) w = _
          rw [hblock, List.nil_append]
          cases hf : flow closing depth (n :: rest) with
          | error e => rfl
          | ok f =>
              obtain ⟨hrun, hlines⟩ := lines_of_block hn hf
              exact congrArg Except.ok (behind_lines w inTag hrun hlines).symm
      | cons m run =>
          show walkItems closing depth inTag true 0
            (.inline (m :: run) :: .block n :: splitItems [] rest) w = _
          rw [walkItems_first hrun hvisitsRun, flow_stretch (List.cons_ne_nil m run) hrun hrest]
          cases parts closing (m :: run) with
          | error e => rfl
          | ok segments =>
              show walkItems closing depth inTag true 1 (.block n :: splitItems [] rest) _ = _
              rw [hblock]
              cases hf : flow closing depth (n :: rest) with
              | error e => rfl
              | ok f =>
                  obtain ⟨-, hlines⟩ := lines_of_block hn hf
                  exact congrArg Except.ok (behind_stretch w inTag ⟨segments, _⟩ hlines).symm

/-- A walk of its own over one node makes the program of what the node contributes. -/
theorem walkNodes_single {n : Node} (hvisits : Visits closing n) :
    walkNodes closing 0 false [n] {} =
      (piece closing 0 n).map fun p => ⟨ofSegments p.segments, true⟩ := by
  rw [walkNodes_eq (List.forall_mem_singleton.mpr hvisits), flow, flow]
  cases hpiece : piece closing 0 n with
  | error e => rfl
  | ok p =>
      refine congrArg Except.ok ?_
      cases p with
      | inline segments blank => exact behind_alone {} false ⟨segments, blank⟩
      | block lines =>
          show behind {} false ⟨none, lines ++ [] ++ []⟩ = _
          rw [List.append_nil, List.append_nil]
          exact behind_lines {} false rfl (piece_fits hpiece).2

/-! ### Expressions -/

/-- The side nodes of an expression are walks of their own. -/
theorem compileSides_eq {ns : List Node} (hvisits : ∀ n ∈ ns, Visits closing n) :
    compileSides closing ns = sidePrograms closing ns := by
  induction ns with
  | nil =>
      rw [compileSides]
      rfl
  | cons n ns ih =>
      rw [compileSides, sidePrograms, walkNodes_single (hvisits n List.mem_cons_self),
        ih fun m hm => hvisits m (List.mem_cons_of_mem n hm)]
      cases piece closing 0 n <;> rfl

/-- An expression contributes its segment. -/
theorem piece_code_eq {content : String} {sides : Option (List Node)}
    (hvisits : ∀ n ∈ sides.getD [], Visits closing n) :
    piece closing depth (.code content sides) =
      (compileCode closing content sides).map fun segment => .inline [segment] false := by
  rw [piece_code, compileCode, parseCode]
  cases Expr.parse (Text.trim content) with
  | error e => rfl
  | ok e =>
      cases sides with
      | none => rfl
      | some ns =>
          have hprograms : sidePrograms closing ((some ns).getD []) = compileSides closing ns :=
            (compileSides_eq hvisits).symm
          rw [hprograms]
          show _ = Except.map _ (do
            let programs ← compileSides closing ns
            return Segment.code (Text.trim content) e programs)
          cases compileSides closing ns <;> rfl

/-- The segment of an expression goes behind others as what the expression contributes. -/
theorem compileCode_eq {content : String} {sides : Option (List Node)}
    (hvisits : Visits closing (.code content sides)) (value : Program) :
    (compileCode closing content sides).map value.push =
      (piece closing 0 (.code content sides)).map fun p => value.append p.segments := by
  have hwalk := hvisits 0 ⟨value, false⟩
  rw [walkNode, piece_of_isInline rfl] at hwalk
  have hprogram := congrArg (Except.map program) hwalk
  revert hprogram
  cases compileCode closing content sides <;> cases piece closing 0 (.code content sides) <;>
    exact id

/-! ### Heads -/

/-- The parts of a value go behind each other. -/
theorem compileValue_eq {ns : List Node} (hvisits : ∀ n ∈ ns, Visits closing n)
    (value : Program) :
    compileValue closing ns value = (parts closing ns).map value.append := by
  induction ns generalizing value with
  | nil =>
      rw [compileValue]
      rfl
  | cons n ns ih =>
      have hn := hvisits n List.mem_cons_self
      have hrest (value : Program) := ih (fun m hm => hvisits m (List.mem_cons_of_mem n hm)) value
      have hpart (p : Piece) : compileValue closing ns (value.append p.segments) =
          (do return p.segments ++ (← parts closing ns) : Except LayoutError _).map value.append := by
        rw [hrest]
        cases parts closing ns with
        | error e => rfl
        | ok others => exact congrArg Except.ok (Program.append_append value _ _).symm
      -- A walk of its own merges the segments beforehand.
      have hwalk : (do
          let w ← walkNodes closing 0 false [n] {}
          compileValue closing ns (value.append w.program)) =
            (parts closing (n :: ns)).map value.append := by
        rw [walkNodes_single hn, parts]
        cases piece closing 0 n with
        | error e => rfl
        | ok p =>
            show compileValue closing ns (value.append (ofSegments p.segments)) = _
            rw [append_ofSegments, hpart]
            rfl
      cases n with
      | text s =>
          rw [compileValue, parts, piece_text]
          exact hpart (.inline [.text s] _)
      | code content sides =>
          rw [compileValue, parts]
          calc (do
                let segment ← compileCode closing content sides
                compileValue closing ns (value.push segment))
            _ = (compileCode closing content sides).map value.push >>= compileValue closing ns := by
              cases compileCode closing content sides <;> rfl
            _ = (piece closing 0 (.code content sides)).map (fun p => value.append p.segments) >>=
                compileValue closing ns := by rw [compileCode_eq hn]
            _ = _ := by
              cases piece closing 0 (.code content sides) with
              | error e => rfl
              | ok p => exact hpart p
      | tag name attrs content =>
          rw [compileValue]
          exact hwalk
      | comment content =>
          rw [compileValue]
          exact hwalk
      | unknown type =>
          rw [compileValue]
          rfl

/-- An attribute goes behind others as its part of the list. -/
theorem addAttr_eq (head : Program) (name : String) (value : Program) :
    addAttr head name value = head.append (attribution name value) := by
  unfold addAttr attribution
  cases value.asStatic? with
  | none => rfl
  | some s =>
      show (if s = "" then _ else _) = head.append (if s = "" then _ else _)
      split <;> rfl

/-- Attributes in a list that is open, each behind the parenthesis or a space. -/
def listedBehind (first : Bool) : List (List Segment) → List Segment
  | [] => []
  | a :: rest => .text (if first then "(" else " ") :: a ++ listedBehind false rest

/-- An open list is closed by a parenthesis, if there is something in it. -/
theorem attributionList_eq (listed : List (List Segment)) :
    attributionList listed =
      listedBehind true listed ++ if listed.isEmpty then [] else [.text ")"] := by
  have hspaces (rest : List (List Segment)) :
      listedBehind false rest = rest.flatMap fun a => .text " " :: a := by
    induction rest with
    | nil => rfl
    | cons a rest ih => rw [listedBehind, ih, List.flatMap_cons]; rfl
  cases listed with
  | nil => rfl
  | cons a rest =>
      rw [attributionList, listedBehind, hspaces]
      rfl

/-- The values of attributes are made of nodes that are visited. -/
def AttrsVisited (closing : SelfClosing) {before : List String}
    (as : Attributes (List Node) before) : Prop :=
  ∀ name value, (name, value) ∈ as.entries → ∀ n ∈ value, Visits closing n

/-- The attributes that are listed go behind a head. -/
theorem compileAttrs_eq (short : Head) {before : List String} {as : Attributes (List Node) before}
    (hvisits : AttrsVisited closing as) (head : Program) (first : Bool) :
    compileAttrs closing short as head first =
      (attributions closing short as).map fun listed =>
        (head.append (listedBehind first listed), first && listed.isEmpty) := by
  induction as generalizing head first with
  | nil =>
      rw [compileAttrs, attributions]
      cases first <;> rfl
  | cons name value rest fresh ih =>
      have hrest (head : Program) (first : Bool) :=
        ih (fun k v hk => hvisits k v (List.mem_cons_of_mem _ hk)) head first
      rw [compileAttrs, attributions]
      split
      case isTrue htakes => rw [hrest]
      case isFalse htakes =>
        rw [compileValue_eq (hvisits name value List.mem_cons_self)]
        cases parts closing value with
        | error e => rfl
        | ok segments =>
            show compileAttrs closing short rest (addAttr _ name (ofSegments segments)) false = _
            rw [hrest, addAttr_eq]
            cases attributions closing short rest with
            | error e => rfl
            | ok listed =>
                refine congrArg Except.ok (Prod.ext ?_ (Bool.and_false first).symm)
                exact (Program.append_append (head.pushText _) _ _).symm

/-- The name of a tag and its short forms. -/
theorem openHead_eq (name : String) (short : Head) :
    openHead name short = ofSegments (.text name :: short.segments) := by
  obtain ⟨id, classes⟩ := short
  cases id <;> cases classes <;> rfl

/-- What stands in a head behind the attributes that were listed. -/
theorem closeHead_eq (name : String) (content : Option (List Node)) (head : Program)
    (listed : List (List Segment)) :
    closeHead closing name content (head.append (listedBehind true listed)) listed.isEmpty =
      head.append (attributionList listed ++ slash closing name content) := by
  have hslash (p : Program) : closeHead closing name content p true =
      p.append (slash closing name content) := by
    rw [closeHead, slash]
    simp only [if_true]
    split <;> rfl
  rw [attributionList_eq, Program.append_append, Program.append_append]
  cases listed with
  | nil => exact hslash head
  | cons a rest => exact hslash ((head.append _).pushText ")")

/-- The head of a tag in one pass has the parts of its line behind the indentation. -/
theorem compileHead_eq {name : String} {attrs : Option (Attributes (List Node) [])}
    (hvisits : AttrsVisited closing (attrs.getD .nil)) (content : Option (List Node)) :
    compileHead closing name attrs content =
      (attributions closing (.ofAttrs (attrs.getD .nil)) (attrs.getD .nil)).map fun listed =>
        ofSegments (.text name :: (Head.ofAttrs (attrs.getD .nil)).segments ++
          attributionList listed ++ slash closing name content) := by
  have hclose (short : Head) (listed : List (List Segment)) :
      closeHead closing name content ((openHead name short).append (listedBehind true listed))
        listed.isEmpty =
      ofSegments (.text name :: short.segments ++ attributionList listed ++
        slash closing name content) := by
    rw [closeHead_eq, openHead_eq, List.append_assoc]
    exact (Program.append_append [] _ _).symm
  rw [compileHead.eq_def]
  cases attrs with
  | none => exact congrArg Except.ok (hclose (.ofAttrs .nil) [])
  | some as =>
      have has : AttrsVisited closing as := hvisits
      simp only [Option.getD_some, compileAttrs_eq _ has]
      cases attributions closing (.ofAttrs as) as with
      | error e => rfl
      | ok listed => exact congrArg Except.ok (hclose (.ofAttrs as) listed)

/-! ### Nodes -/

/-- Lines behind a line, if there are any. -/
theorem writeLines_line (w : Walker) (line : Line) (lines : List Line) :
    (if lines.isEmpty then w.writeLines [line] else (w.writeLines [line]).writeLines lines) =
      w.writeLines (line :: lines) := by
  cases lines with
  | nil => rfl
  | cons next rest =>
      show (w.writeLines [line]).writeLines (next :: rest) = _
      rw [writeLines_of_started (by rfl) (List.cons_ne_nil next rest),
        writeLines_append (List.cons_ne_nil line [])]
      rfl

/-- The content of a tag behind its head makes the lines of the tag. -/
theorem behind_writeLines (w : Walker) (head : Line) (f : Flow) :
    (w.writeLines [head]).behind true f = w.writeLines (f.behind head) := by
  rw [behind, Flow.behind]
  cases f.lead? with
  | none => exact writeLines_line w head f.lines
  | some segments =>
      have halong : (w.writeLines [head]).along true segments =
          w.writeLines [head ++ .text " " :: segments] := by
        refine congrArg (fun program => Walker.mk program true)
          ((Program.append_append _ _ _).symm.trans (congrArg w.program.append ?_))
        exact List.append_assoc _ _ _
      simp only [halong]
      exact writeLines_line w _ f.lines

/-- What goes behind the indentation makes a line. -/
theorem newline_append (w : Walker) (depth : Nat) (line : Line) :
    (w.newline depth).append line = w.writeLines [indent depth :: line] := by
  rw [newline_eq]
  refine congrArg (fun program => Walker.mk program true)
    ((Program.append_append _ _ _).symm.trans (congrArg w.program.append ?_))
  exact List.append_assoc _ _ _

/-- A tag takes its head and the lines of its content. -/
theorem visits_tag {name : String} {attrs : Option (Attributes (List Node) [])}
    {content : Option (List Node)} (hattrs : AttrsVisited closing (attrs.getD .nil))
    (hcontent : ∀ n ∈ content.getD [], Visits closing n) :
    Visits closing (.tag name attrs content) := by
  intro depth w
  rw [walkNode.eq_def]
  dsimp only
  rw [compileHead_eq hattrs, piece_tag]
  cases attributions closing (.ofAttrs (attrs.getD .nil)) (attrs.getD .nil) with
  | error e => rfl
  | ok listed =>
      have hhead : (w.newline depth).append (ofSegments (.text name ::
          (Head.ofAttrs (attrs.getD .nil)).segments ++ attributionList listed ++
            slash closing name content)) =
          w.writeLines [headLine closing depth name (attrs.getD .nil) content listed] :=
        (congrArg (fun program => Walker.mk program true) (append_ofSegments _ _)).trans
          (newline_append w depth _)
      simp only [Except.map, bind, Except.bind, hhead]
      cases hbody : Node.hasNoBody content with
      | true => rfl
      | false =>
          cases content with
          | none => cases hbody
          | some ns =>
              have hns : ∀ n ∈ ns, Visits closing n := hcontent
              simp only [Bool.false_eq_true, if_false, Option.getD_some, walkNodes_eq hns]
              cases flow closing (depth + 1) ns with
              | error e => rfl
              | ok f => exact congrArg Except.ok (behind_writeLines w _ f)

attribute [local irreducible] Expr.parse

mutual

/-- **A walker that comes to a node takes what the node contributes.** -/
theorem visits (closing : SelfClosing) : (n : Node) → Visits closing n
  | .text s => by
      intro depth w
      rw [walkNode]
      rfl
  | .code content sides => by
      intro depth w
      have hsides : ∀ n ∈ sides.getD [], Visits closing n := by
        cases sides with
        | none => nofun
        | some ns => exact visitsAll closing ns
      rw [walkNode, piece_code_eq hsides]
      cases compileCode closing content sides <;> rfl
  | .tag name attrs content => by
      refine visits_tag ?_ ?_
      · cases attrs with
        | none => nofun
        | some as => exact visitsAttrs closing as
      · cases content with
        | none => nofun
        | some ns => exact visitsAll closing ns
  | .comment content => by
      intro depth w
      rw [walkNode]
      exact congrArg Except.ok (newline_append w depth [.text "// ", .text content])
  | .unknown type => by
      intro depth w
      rw [walkNode]
      rfl

/-- A walker that comes to any of several siblings takes what it contributes. -/
theorem visitsAll (closing : SelfClosing) : (ns : List Node) → ∀ n ∈ ns, Visits closing n
  | [] => nofun
  | n :: ns => List.forall_mem_cons.mpr ⟨visits closing n, visitsAll closing ns⟩

/-- A walker that comes to a node in a value takes what it contributes. -/
theorem visitsAttrs (closing : SelfClosing) {before : List String} :
    (as : Attributes (List Node) before) → AttrsVisited closing as
  | .nil => nofun
  | .cons name value rest _ => by
      intro k v hk
      obtain hk | hk := List.mem_cons.mp hk
      · cases hk
        exact visitsAll closing value
      · exact visitsAttrs closing rest k v hk

end

end Walker

/-- **A walk over a tree makes the program of its lines**, or finds the same error. -/
theorem walk_eq_program (closing : SelfClosing) (nodes : List Node) :
    walk closing nodes = program closing nodes := by
  rw [walk, program, Walker.walkNodes_eq (Walker.visitsAll closing nodes)]
  cases flow closing 0 nodes with
  | error e => rfl
  | ok f =>
      refine congrArg Except.ok ?_
      show (Walker.behind {} false f).program = ofSegments (joinLines f.topLines)
      rw [Walker.behind, Flow.topLines]
      cases f.lead? with
      | none => cases f.lines <;> rfl
      | some segments => exact congrArg Walker.program (Walker.writeLines_line {} segments f.lines)

end LineMarkup.Layout
