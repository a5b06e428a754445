import LineMarkup.Grammar.Lexeme

/-!
# What readers find

A reader yields a value, the place behind what it took, and a trace.  The trace never decides what
is read, so the theory of the grammar is about `Reader.found` alone: the value and the place.

Two cursors and the text between them are tied together by `Cursor.Leads`.  That relation is the
currency of everything that follows: what a reader takes is a text that *leads* from the cursor it
was called at to the cursor it leaves, and the offsets of the two cursors come along.

## Main Definitions

* `Cursor.Leads` — going past a text leads from one cursor to another
* `Reader.found` — what a reader finds, its trace aside
* `Reader.Repeats` — the turns of a repetition, one after the other
* `StartsWith` — the next character, if there is one, is of a class

## Main Statements

* `Cursor.leads_append_iff` — a text in two parts has a place between them
* `Reader.found_many_iff` — a repetition finds exactly its turns
-/

namespace LineMarkup.Grammar

/-! ### Texts between cursors -/

namespace Cursor

/-- Going past `s` leads from `c` to `d`. -/
structure Leads (c : Cursor) (s : List Char) (d : Cursor) : Prop where
  /-- What is left at `c` is `s` and what is left at `d`. -/
  rest : c.rest = s ++ d.rest
  /-- The offsets differ by the bytes of `s`. -/
  offset : d.offset = c.offset + utf8Length s

namespace Leads

variable {c d e : Cursor} {s s' : List Char}

/-- Two texts in a row lead past both. -/
theorem trans (h : c.Leads s d) (h' : d.Leads s' e) : c.Leads (s ++ s') e :=
  ⟨by rw [h.rest, h'.rest, List.append_assoc],
    by rw [h'.offset, h.offset, utf8Length_append, Nat.add_assoc]⟩

/-- A text and the place behind it determine each other. -/
theorem unique (h : c.Leads s d) (h' : c.Leads s e) : d = e := by
  obtain ⟨rest, offset⟩ := d
  obtain ⟨rest', offset'⟩ := e
  have hrest : s ++ rest = s ++ rest' := h.rest.symm.trans h'.rest
  have hoffset : offset = offset' := h.offset.trans h'.offset.symm
  rw [List.append_cancel_left hrest, hoffset]

/-- What is left gets shorter by the text. -/
theorem length (h : c.Leads s d) : c.rest.length = s.length + d.rest.length := by
  rw [h.rest, List.length_append]

/-- The text between two cursors is the one that the later cursor cuts off. -/
theorem textTo (h : c.Leads s d) : c.textTo d = s := by
  rw [Cursor.textTo, h.offset, h.rest, Nat.add_sub_cancel_left, takeBytes?_append]
  rfl

end Leads

variable {c d e : Cursor} {s s' : List Char}

/-- Only the empty text leads nowhere. -/
@[simp] theorem leads_nil_iff : c.Leads [] d ↔ d = c := by
  constructor
  · intro h
    exact h.unique ⟨rfl, rfl⟩
  · rintro rfl
    exact ⟨rfl, rfl⟩

/-- A text in two parts has a place between them. -/
theorem leads_append_iff : c.Leads (s ++ s') e ↔ ∃ d, c.Leads s d ∧ d.Leads s' e := by
  constructor
  · intro h
    refine ⟨⟨s' ++ e.rest, c.offset + utf8Length s⟩, ⟨?_, rfl⟩, ⟨rfl, ?_⟩⟩
    · rw [h.rest, List.append_assoc]
    · rw [h.offset, utf8Length_append, Nat.add_assoc]
  · rintro ⟨d, h, h'⟩
    exact h.trans h'

/-- A cursor can go past any text that is in front of it. -/
theorem leads_past {t : List Char} (h : c.rest = s ++ t) : c.Leads s (c.past s t) :=
  ⟨h, rfl⟩

/-- A text is passed character by character. -/
theorem leads_cons_iff {x : Char} :
    c.Leads (x :: s) e ↔ ∃ d, c.Leads [x] d ∧ d.Leads s e :=
  leads_append_iff (s := [x])

/-- The place behind the leading characters of a class. -/
theorem leads_dropWhile (c : Cursor) (p : Char → Bool) :
    c.Leads (c.rest.takeWhile p) (c.dropWhile p) :=
  leads_past List.takeWhile_append_dropWhile.symm

end Cursor

/-! ### Classes of next characters -/

/-- The next character of a text, if there is one, is of a class. -/
def StartsWith (p : Char → Bool) (t : List Char) : Prop :=
  ∀ x ∈ t.head?, p x = true

section StartsWith

variable {p q : Char → Bool} {t : List Char}

/-- At the end there is no next character to object to. -/
@[simp] theorem startsWith_nil : StartsWith p [] := by
  simp [StartsWith]

/-- If there is a next character, its class decides. -/
@[simp] theorem startsWith_cons {x : Char} : StartsWith p (x :: t) ↔ p x = true := by
  simp [StartsWith]

/-- A class may be replaced by a larger one. -/
theorem StartsWith.mono (h : StartsWith p t) (sub : ∀ x, p x = true → q x = true) :
    StartsWith q t :=
  fun x hx => sub x (h x hx)

/-- The longest stretch of a class ends where a text of the class meets a character outside it. -/
theorem takeWhile_append_of_startsWith {s : List Char} (hs : ∀ x ∈ s, p x = true)
    (ht : StartsWith (fun x => !p x) t) :
    (s ++ t).takeWhile p = s ∧ (s ++ t).dropWhile p = t := by
  have hstop : t.takeWhile p = [] ∧ t.dropWhile p = t := by
    cases t with
    | nil => exact ⟨rfl, rfl⟩
    | cons x t => simp_all
  rw [List.takeWhile_append_of_pos hs, List.dropWhile_append_of_pos hs, hstop.1, hstop.2]
  simp

/-- Behind the longest stretch of a class stands no character of it. -/
theorem startsWith_dropWhile (p : Char → Bool) (t : List Char) :
    StartsWith (fun x => !p x) (t.dropWhile p) := by
  intro x hx
  have := List.head?_dropWhile_not p t
  cases h : (t.dropWhile p).head? with
  | none => rw [h] at hx; simp at hx
  | some y =>
      rw [h] at hx this
      simp_all

end StartsWith

/-- The class of a stretch decides where it leads. -/
theorem Cursor.Leads.dropWhile_eq {c d : Cursor} {s : List Char} {p : Char → Bool}
    (h : c.Leads s d) (hs : ∀ x ∈ s, p x = true) (hd : StartsWith (fun x => !p x) d.rest) :
    c.rest.takeWhile p = s ∧ c.dropWhile p = d := by
  have htake : c.rest.takeWhile p = s := by
    rw [h.rest]
    exact (takeWhile_append_of_startsWith hs hd).1
  refine ⟨htake, ?_⟩
  have hlead := c.leads_dropWhile p
  rw [htake] at hlead
  exact hlead.unique h

/-! ### What combinators find -/

namespace Reader

variable {α β : Type}

/-- What a reader finds, its trace aside: a value and the place behind what it took. -/
def found (p : Reader α) (c : Cursor) : Option (α × Cursor) :=
  (p c).found?

variable {p : Reader α} {c d : Cursor}

@[simp] theorem found_pure (a : α) (c : Cursor) : (pure a : Reader α).found c = some (a, c) := rfl

/-- Two readers in a row: the second one starts where the first one has stopped. -/
@[simp] theorem found_bind (p : Reader α) (q : α → Reader β) (c : Cursor) :
    (p >>= q).found c = (p.found c).bind fun r => (q r.1).found r.2 := by
  show (andThen p q c).found? = _
  unfold andThen found
  cases p c with
  | mk found? t => cases found? <;> rfl

@[simp] theorem found_fail (c : Cursor) : (fail : Reader α).found c = none := rfl

@[simp] theorem found_here (c : Cursor) : here.found c = some (c.offset, c) := rfl

@[simp] theorem found_place (c : Cursor) : place.found c = some (c, c) := rfl

@[simp] theorem found_call (rule : Rule) (p : Reader α) (c : Cursor) :
    (call rule p).found c = p.found c := rfl

@[simp] theorem found_atom (rule : Rule) (p : Reader α) (c : Cursor) :
    (atom rule p).found c = p.found c := rfl

/-- An optional part is there, or nothing is taken. -/
@[simp] theorem found_option (p : Reader α) (c : Cursor) :
    p.option.found c = some ((p.found c).elim (none, c) fun r => (some r.1, r.2)) := by
  simp only [option, found]
  cases p c with
  | mk found? t => cases found? <;> rfl

/-- The second reader counts only where the first one finds nothing. -/
@[simp] theorem found_orElse (p q : Reader α) (c : Cursor) :
    (p.orElse q).found c = (p.found c).or (q.found c) := by
  simp only [orElse, found]
  cases p c with
  | mk found? t => cases found? <;> rfl

@[simp] theorem found_firstOf_nil (c : Cursor) : (firstOf [] : Reader α).found c = none := rfl

/-- The first alternative that finds something decides. -/
@[simp] theorem found_firstOf_cons (p : Reader α) (ps : List (Reader α)) (c : Cursor) :
    (firstOf (p :: ps)).found c = (p.found c).or ((firstOf ps).found c) :=
  found_orElse p (firstOf ps) c

/-- Taking a stretch of a class never fails. -/
theorem found_takeWhile (q : Char → Bool) (c : Cursor) :
    (takeWhile q).found c = some (c.rest.takeWhile q, c.dropWhile q) := rfl

/-- A stretch that must not be empty. -/
theorem found_takeWhile1 (q : Char → Bool) (c : Cursor) :
    (takeWhile1 q).found c =
      if c.rest.takeWhile q = [] then none else some (c.rest.takeWhile q, c.dropWhile q) := by
  simp only [takeWhile1, found]
  cases c.rest.takeWhile q <;> simp

/-- Looking at the next character takes nothing. -/
theorem found_notBefore (q : Char → Bool) (c : Cursor) :
    (notBefore q).found c = if c.rest.head?.any q then none else some ((), c) := by
  simp only [notBefore, found]
  cases c.rest with
  | nil => rfl
  | cons x xs => cases h : q x <;> simp [h]

/-- The end is found at the end. -/
theorem found_atEnd (c : Cursor) :
    atEnd.found c = if c.rest = [] then some ((), c) else none := by
  simp only [atEnd, found]
  cases c.rest <;> simp

/-- A given text is found exactly where it leads on. -/
theorem found_lit_iff {text : String} {u : Unit} :
    (lit text).found c = some (u, d) ↔ c.Leads text.toList d := by
  show (c.drop? text.toList).map (fun d => ((), d)) = _ ↔ _
  simp only [Cursor.drop?, Option.map_map, Option.map_eq_some_iff, Function.comp_apply,
    Prod.mk.injEq, true_and]
  constructor
  · rintro ⟨rest, hrest, rfl⟩
    exact Cursor.leads_past (Cursor.eq_append_of_afterStart? hrest)
  · intro h
    refine ⟨d.rest, by rw [h.rest, Cursor.afterStart?_append], ?_⟩
    exact (Cursor.leads_past h.rest).unique h

/-- A given text is missed where it does not come next. -/
theorem found_lit_eq_none {text : String} (h : ¬ text.toList <+: c.rest) :
    (lit text).found c = none := by
  cases hfound : (lit text).found c with
  | none => rfl
  | some r =>
      obtain ⟨_, d⟩ := r
      exact absurd ⟨d.rest, (found_lit_iff.mp hfound).rest.symm⟩ h

/-- A text of one character is missed before any other character. -/
theorem found_lit_eq_none_of_startsWith (text : String) {x : Char} {xs : List Char}
    (htext : text.toList = x :: xs) (h : StartsWith (fun y => y != x) c.rest) :
    (lit text).found c = none := by
  refine found_lit_eq_none ?_
  rw [htext]
  rintro ⟨rest, hrest⟩
  rw [← hrest] at h
  simp at h

/-- One character of a class, taken. -/
theorem found_one_iff {q : Char → Bool} {x : Char} :
    (one q).found c = some (x, d) ↔ q x = true ∧ c.Leads [x] d := by
  simp only [one, found]
  cases h : c.rest with
  | nil =>
      simp only [reduceCtorEq, false_iff, not_and]
      intro _ hlead
      have := hlead.rest
      rw [h] at this
      simp at this
  | cons y ys =>
      constructor
      · intro hfound
        by_cases hy : q y = true
        · simp only [hy, if_true, Option.some.injEq, Prod.mk.injEq] at hfound
          obtain ⟨rfl, rfl⟩ := hfound
          exact ⟨hy, Cursor.leads_past h⟩
        · simp [hy] at hfound
      · rintro ⟨hx, hlead⟩
        have hrest := hlead.rest
        rw [h, List.singleton_append, List.cons.injEq] at hrest
        obtain ⟨rfl, rfl⟩ := hrest
        simp only [hx, if_true, Option.some.injEq, Prod.mk.injEq, true_and]
        exact (Cursor.leads_past (by rw [h, List.singleton_append])).unique hlead

/-- A character of another class is not taken. -/
theorem found_one_eq_none {q : Char → Bool} (h : StartsWith (fun x => !q x) c.rest) :
    (one q).found c = none := by
  simp only [one, found]
  cases hc : c.rest with
  | nil => rfl
  | cons x xs =>
      rw [hc] at h
      simp_all

/-! ### Repetition -/

/-- The turns of a repetition of `p`: it goes on as long as `p` succeeds, and each turn takes
something. -/
inductive Repeats (p : Reader α) : Cursor → List α → Cursor → Prop where
  | stop {c : Cursor} : p.found c = none → Repeats p c [] c
  | turn {c d e : Cursor} {a : α} {as : List α} : p.found c = some (a, d) →
      d.rest.length < c.rest.length → Repeats p d as e → Repeats p c (a :: as) e

/-- A reader that never succeeds without taking something. -/
def Advances (p : Reader α) : Prop :=
  ∀ {c : Cursor} {a : α} {d : Cursor}, p.found c = some (a, d) → d.rest.length < c.rest.length

/-- Turns do not make the rest longer. -/
theorem Repeats.length_le {as : List α} (h : Repeats p c as d) :
    d.rest.length ≤ c.rest.length := by
  induction h with
  | stop _ => exact Nat.le_refl _
  | turn _ hlt _ ih => omega

/-- With a turn for every character that is left, a repetition is not cut short. -/
private theorem found_manyWithin {as : List α} (h : Repeats p c as d) :
    ∀ {turns : List Char}, c.rest.length ≤ turns.length →
      (manyWithin p turns).found c = some (as, d) := by
  induction h with
  | stop hnone =>
      intro turns _
      cases turns with
      | nil => simp [manyWithin, hnone]
      | cons _ turns => simp [manyWithin, hnone]
  | turn hsome hlt _ ih =>
      intro turns hturns
      cases turns with
      | nil => simp only [List.length_nil] at hturns; omega
      | cons _ turns =>
          rw [List.length_cons] at hturns
          simp [manyWithin, hsome, ih (by omega : _ ≤ turns.length)]

/-- What a bounded repetition finds are turns, if each one takes something. -/
private theorem repeats_of_found_manyWithin (hp : p.Advances) :
    ∀ {turns : List Char} {c : Cursor} {as : List α}, c.rest.length ≤ turns.length →
      (manyWithin p turns).found c = some (as, d) → Repeats p c as d := by
  intro turns
  induction turns with
  | nil =>
      intro c as hturns h
      cases hfound : p.found c with
      | none =>
          simp [manyWithin, hfound] at h
          obtain ⟨rfl, rfl⟩ := h
          exact .stop hfound
      | some r =>
          have := hp hfound
          simp only [List.length_nil] at hturns
          omega
  | cons _ turns ih =>
      intro c as hturns h
      cases hfound : p.found c with
      | none =>
          simp [manyWithin, hfound] at h
          obtain ⟨rfl, rfl⟩ := h
          exact .stop hfound
      | some r =>
          have hlt := hp hfound
          rw [List.length_cons] at hturns
          simp only [manyWithin, found_bind, found_option, hfound, Option.elim_some,
            Option.bind_some, Option.bind_eq_some_iff, found_pure, Option.some.injEq,
            Prod.mk.injEq] at h
          obtain ⟨⟨bs, e⟩, hmany, rfl, rfl⟩ := h
          exact .turn hfound hlt (ih (by omega) hmany)

/-- Turns up to a place where no further one is possible are all found. -/
theorem found_many_of_repeats {as : List α} (h : Repeats p c as d) :
    p.many.found c = some (as, d) :=
  found_manyWithin h (Nat.le_refl _)

/-- **A repetition finds exactly its turns.** -/
theorem found_many_iff (hp : p.Advances) {as : List α} :
    p.many.found c = some (as, d) ↔ Repeats p c as d :=
  ⟨repeats_of_found_manyWithin hp (Nat.le_refl _), found_many_of_repeats⟩

/-! ### Blanks between tokens -/

/-- A stretch of the blanks that may stand between tokens. -/
def Blanks (w : List Char) : Prop :=
  ∀ x ∈ w, isSpace x = true

/-- No characters are blanks. -/
theorem blanks_nil : Blanks [] := by
  unfold Blanks
  simp

/-- No blank comes next. -/
abbrev NoBlank (t : List Char) : Prop :=
  StartsWith (fun x => !isSpace x) t

/-- Skipping blanks never fails. -/
theorem found_skip (c : Cursor) : skip.found c = some ((), c.dropWhile isSpace) := rfl

/-- Blanks before a text that starts with none are what is skipped. -/
theorem dropWhile_isSpace_eq {w : List Char} (h : c.Leads w d) (hw : Blanks w)
    (hd : NoBlank d.rest) : c.dropWhile isSpace = d :=
  (h.dropWhile_eq hw hd).2

/-- Where no blank stands, nothing is skipped. -/
theorem dropWhile_isSpace_of_noBlank (h : NoBlank c.rest) : c.dropWhile isSpace = c :=
  dropWhile_isSpace_eq (Cursor.leads_nil_iff.mpr rfl) blanks_nil h

/-- Behind the blanks at any place stands no further one. -/
theorem exists_blanks (c : Cursor) :
    ∃ w, Blanks w ∧ c.Leads w (c.dropWhile isSpace) ∧ NoBlank (c.dropWhile isSpace).rest :=
  ⟨c.rest.takeWhile isSpace, List.all_eq_true.mp List.all_takeWhile, c.leads_dropWhile isSpace,
    startsWith_dropWhile isSpace c.rest⟩

end Reader

end LineMarkup.Grammar
