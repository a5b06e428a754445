import LineMarkup.Program

/-!
# Normal programs

Programs grow by pushing segments at the end, and pushing keeps a program normal: no text in it is
empty, and no two texts stand side by side.  A normal program is what pushing its own segments
gives, so taking a program apart into segments and building it up again loses nothing.

## Main Definitions

* `Program.Normal` — programs without empty and without adjacent texts, from the left
* `Program.IgnoresMerging` — what does not depend on how texts are cut

## Main Statements

* `Program.pushText_cases` — what pushing a text does
* `Program.Normal.push`, `Program.normal_ofSegments` — what is pushed is normal
* `Program.Normal.ofSegments_eq` — normal programs are built from their own segments
* `Program.IgnoresMerging.append` — whoever ignores merging cannot tell appending from concatenation
-/

namespace LineMarkup.Program

/-- A program that does not end with a text. -/
def EndsOpen (p : Program) : Prop :=
  ∀ t, p.getLast? ≠ some (.text t)

/-- A program without empty texts and without texts side by side. -/
inductive Normal : Program → Prop where
  | nil : Normal []
  | text {p : Program} {s : String} : Normal p → p.EndsOpen → s ≠ "" → Normal (p ++ [.text s])
  | other {p : Program} {seg : Segment} : Normal p → (∀ s, seg ≠ .text s) → Normal (p ++ [seg])

/-! ### Pushing at the end -/

theorem endsOpen_nil : EndsOpen [] :=
  fun _ h => by simp at h

theorem endsOpen_append {p : Program} {seg : Segment} (h : ∀ s, seg ≠ .text s) :
    EndsOpen (p ++ [seg]) := by
  intro t ht
  rw [List.getLast?_append, List.getLast?_singleton, Option.some_or, Option.some.injEq] at ht
  exact h t ht

/-- A program that is not open at its end has a text there. -/
theorem exists_text_of_not_endsOpen {p : Program} (h : ¬ p.EndsOpen) :
    ∃ q t, p = q ++ [.text t] := by
  obtain ⟨t, ht⟩ : ∃ t, p.getLast? = some (.text t) :=
    Classical.byContradiction fun hno => h fun t ht => hno ⟨t, ht⟩
  obtain ⟨q, rfl⟩ := List.getLast?_eq_some_iff.mp ht
  exact ⟨q, t, rfl⟩

theorem pushText_cons_cons (seg next : Segment) (rest : Program) (s : String) :
    pushText (seg :: next :: rest) s = seg :: pushText (next :: rest) s := by
  cases seg <;> rfl

/-- Text joins a text at the end. -/
theorem pushText_append_text (p : Program) (t s : String) :
    pushText (p ++ [.text t]) s = p ++ [.text (t ++ s)] := by
  induction p with
  | nil => rfl
  | cons seg p ih =>
      cases p with
      | nil => cases seg <;> rfl
      | cons next p =>
          simp only [List.cons_append] at ih ⊢
          rw [pushText_cons_cons, ih]

/-- Text that is not empty becomes a segment of its own behind anything else. -/
theorem pushText_of_endsOpen {p : Program} {s : String} (hp : p.EndsOpen) (hs : s ≠ "") :
    pushText p s = p ++ [.text s] := by
  induction p with
  | nil => rw [pushText, if_neg hs, List.nil_append]
  | cons seg p ih =>
      cases p with
      | nil =>
          cases seg with
          | text t => exact absurd rfl (hp t)
          | code source e sides => simp [pushText, hs]
          | attr name value => simp [pushText, hs]
      | cons next p =>
          have hrest : EndsOpen (next :: p) := fun t => by
            rw [← List.getLast?_cons_cons]
            exact hp t
          rw [pushText_cons_cons, ih hrest]
          rfl

/-- **What pushing a text does**: nothing if it is empty, else a segment more, or more of the last one. -/
theorem pushText_cases (p : Program) (s : String) :
    s = "" ∧ p.pushText s = p ∨
    (p.EndsOpen ∧ s ≠ "") ∧ p.pushText s = p ++ [.text s] ∨
    ∃ q t, p = q ++ [.text t] ∧ p.pushText s = q ++ [.text (t ++ s)] := by
  by_cases hs : s = ""
  · exact .inl ⟨hs, by rw [hs, pushText_empty]⟩
  · by_cases hopen : p.EndsOpen
    · exact .inr (.inl ⟨⟨hopen, hs⟩, pushText_of_endsOpen hopen hs⟩)
    · obtain ⟨q, t, rfl⟩ := exists_text_of_not_endsOpen hopen
      exact .inr (.inr ⟨q, t, rfl, pushText_append_text q t s⟩)

theorem push_of_ne_text {seg : Segment} (h : ∀ s, seg ≠ .text s) (p : Program) :
    p.push seg = p ++ [seg] := by
  cases seg with
  | text s => exact absurd rfl (h s)
  | code source e sides => rfl
  | attr name value => rfl

namespace Normal

variable {p q : Program}

/-- The end of a normal program: empty, or a text behind something else, or something else. -/
theorem endsOpen_or (h : Normal p) :
    p.EndsOpen ∨ ∃ q t, p = q ++ [.text t] ∧ Normal q ∧ q.EndsOpen ∧ t ≠ "" := by
  cases h with
  | nil => exact .inl endsOpen_nil
  | text hq hopen ht => exact .inr ⟨_, _, rfl, hq, hopen, ht⟩
  | other _ hseg => exact .inl (endsOpen_append hseg)

theorem pushText (h : Normal p) (s : String) : Normal (p.pushText s) := by
  by_cases hs : s = ""
  · rw [hs, pushText_empty]
    exact h
  · rcases h.endsOpen_or with hopen | ⟨q, t, rfl, hq, hopen, ht⟩
    · rw [pushText_of_endsOpen hopen hs]
      exact .text h hopen hs
    · rw [pushText_append_text]
      refine .text hq hopen ?_
      rw [ne_eq, String.append_eq_empty_iff, not_and]
      exact fun h => absurd h ht

/-- **Pushing a segment keeps a program normal.** -/
theorem push (h : Normal p) (seg : Segment) : Normal (p.push seg) := by
  cases seg with
  | text s => exact h.pushText s
  | code source e sides => exact .other h fun _ hseg => by simp at hseg
  | attr name value => exact .other h fun _ hseg => by simp at hseg

theorem append (h : Normal p) (q : Program) : Normal (p.append q) := by
  induction q generalizing p with
  | nil => exact h
  | cons seg q ih => exact ih (h.push seg)

end Normal

/-- What is built from the left is normal. -/
theorem normal_ofSegments (segments : List Segment) : Normal (ofSegments segments) :=
  Normal.nil.append segments

/-- Segments in a row are appended one behind the other. -/
theorem append_append (p : Program) (q r : List Segment) :
    p.append (q ++ r) = (p.append q).append r :=
  List.foldl_append

/-- **A normal program is built from its own segments.** -/
theorem Normal.ofSegments_eq {p : Program} (h : Normal p) : ofSegments p = p := by
  induction h with
  | nil => rfl
  | @text p s _ hopen hs ih =>
      rw [ofSegments] at ih
      rw [ofSegments, append_append, ih]
      exact pushText_of_endsOpen hopen hs
  | @other p seg _ hseg ih =>
      rw [ofSegments] at ih
      rw [ofSegments, append_append, ih]
      exact push_of_ne_text hseg p

/-! ### Merging texts -/

/-- What is told of a list of segments without regard to how its texts are cut into segments. -/
structure IgnoresMerging {β : Type} (f : List Segment → β) : Prop where
  empty (p q : List Segment) : f (p ++ .text "" :: q) = f (p ++ q)
  joined (p q : List Segment) (s t : String) :
    f (p ++ .text (s ++ t) :: q) = f (p ++ .text s :: .text t :: q)

namespace IgnoresMerging

variable {β : Type} {f : List Segment → β}

/-- A push, seen with what stands behind it. -/
theorem push (h : IgnoresMerging f) (p rest : List Segment) (seg : Segment) :
    f (Program.push p seg ++ rest) = f (p ++ seg :: rest) := by
  cases seg with
  | code source e sides => exact congrArg f (List.append_assoc p _ rest)
  | attr name value => exact congrArg f (List.append_assoc p _ rest)
  | text s =>
      show f (Program.pushText p s ++ rest) = _
      rcases pushText_cases p s with ⟨rfl, hpush⟩ | ⟨-, hpush⟩ | ⟨q, t, rfl, hpush⟩
      · rw [hpush, h.empty]
      · rw [hpush, List.append_assoc, List.singleton_append]
      · rw [hpush, List.append_assoc, List.singleton_append, h.joined, List.append_assoc,
          List.singleton_append]

/-- **To what ignores merging, appending a program is the same as adding its segments.** -/
theorem append (h : IgnoresMerging f) (p q : Program) : f (p.append q) = f (p ++ q) := by
  induction q generalizing p with
  | nil => rw [append_nil, List.append_nil]
  | cons seg q ih => exact (ih (p.push seg)).trans (h.push p q seg)

end IgnoresMerging

end LineMarkup.Program
