import LineMarkup.Proofs.LexemeReading
import Mathlib.Algebra.Group.Nat.Even
import Mathlib.Data.List.DropRight

/-!
# Quoted texts as literals

Three pieces of code have to agree about a quoted text: one writes it, one finds its end, and one takes the
escapes away again.  They agree because all three go through the inside in the same steps.  A step is a *unit*:
a backslash with the character behind it, or a character that is neither the quote nor a backslash.  Writing
puts down one unit for every character, the end is looked for unit by unit, and a quote that is the second half
of a unit is never looked at by itself.

So what stands behind a literal cannot change where it ends, and a text begins with at most one literal.  The
same can be said without any scan: a quote ends the literal if and only if an even number of backslashes stands
directly before it.

## Main Definitions

* `IsUnit`, `unit`, `literalUnits` — units, and the rule for literals as a choice and a repetition of them
* `IsLiteral` — a text that is one literal
* `slashes` — the backslashes at the end of a text

## Main Statements

* `found_string_eq` — the scan for the closing quote finds what the rule finds
* `IsLiteral.cut_unique` — a text begins with at most one literal
* `inside_iff_slashes` — insides, told by the runs of backslashes
* `string_reads_quote` — a text in quotes is read back, whatever comes behind
-/

namespace LineMarkup.Grammar

open Reader Text

variable {c d : Cursor} {q : Char} {s u : List Char} {us : List (List Char)}

/-! ### Units -/

/-- The units of an inside. -/
inductive IsUnit (q : Char) : List Char → Prop where
  | pair (x : Char) : IsUnit q ['\\', x]
  | plain {x : Char} : x ≠ q → x ≠ '\\' → IsUnit q [x]

/-- An inside is a sequence of units. -/
theorem inside_iff_units :
    Inside q s ↔ ∃ us : List (List Char), (∀ u ∈ us, IsUnit q u) ∧ s = us.flatten := by
  constructor
  · intro h
    induction h with
    | nil => exact ⟨[], by simp, rfl⟩
    | pair x _ ih =>
        obtain ⟨us, hus, rfl⟩ := ih
        exact ⟨['\\', x] :: us, List.forall_mem_cons.mpr ⟨.pair x, hus⟩, rfl⟩
    | plain hquote hslash _ ih =>
        obtain ⟨us, hus, rfl⟩ := ih
        exact ⟨[_] :: us, List.forall_mem_cons.mpr ⟨.plain hquote hslash, hus⟩, rfl⟩
  · rintro ⟨us, hus, rfl⟩
    induction us with
    | nil => exact .nil
    | cons u us ih =>
        obtain ⟨hu, htail⟩ := List.forall_mem_cons.mp hus
        cases hu with
        | pair x => exact .pair x (ih htail)
        | plain hquote hslash => exact .plain hquote hslash (ih htail)

/-- A character is written as one unit. -/
theorem isUnit_escapeChar (x : Char) : IsUnit '"' (Quoted.escapeChar x) := by
  rcases Quoted.escapeChar_cases x with ⟨y, hpair, -⟩ | ⟨hquote, hslash, hplain⟩
  · rw [hpair]
    exact .pair y
  · rw [hplain]
    exact .plain hquote hslash

theorem escape_eq_flatten (s : List Char) :
    Quoted.escape s = (s.map Quoted.escapeChar).flatten := by
  induction s with
  | nil => rfl
  | cons x s ih => rw [Quoted.escape_cons, ih, List.map_cons, List.flatten_cons]

/-! ### The rule for literals -/

/-- The rule for one unit: a backslash and any character, else a character that is neither the quote nor a
backslash. -/
def unit (q : Char) : Reader (List Char) :=
  orElse
    (do
      let slash ← one (· == '\\')
      let x ← one fun _ => true
      return [slash, x])
    (do
      let x ← one fun x => x != q && x != '\\'
      return [x])

/-- A quote, as many units as there are, and the same quote. -/
def between (q : Char) : Reader (List (List Char)) := do
  let _ ← one (· == q)
  let units ← (unit q).many
  let _ ← one (· == q)
  return units

/-- The rule for literals: double quotes, else single ones. -/
def literalUnits : Reader (List (List Char)) :=
  (between '"').orElse (between '\'')

theorem found_unit_iff : (unit q).found c = some (u, d) ↔ IsUnit q u ∧ c.Leads u d := by
  simp only [unit, found_orElse, found_bind, Option.or_eq_some_iff, Option.bind_eq_some_iff,
    found_pure, Option.some.injEq, Prod.mk.injEq, Prod.exists, found_one_iff]
  constructor
  · rintro (⟨a, e, ⟨ha, hslash⟩, x, _, ⟨-, hx⟩, rfl, rfl⟩ | ⟨-, x, _, ⟨hplain, hx⟩, rfl, rfl⟩)
    · obtain rfl := eq_of_beq ha
      exact ⟨.pair x, hslash.trans hx⟩
    · obtain ⟨hquote, hslash⟩ := Bool.and_eq_true_iff.mp hplain
      exact ⟨.plain (bne_iff_ne.mp hquote) (bne_iff_ne.mp hslash), hx⟩
  · rintro ⟨hu, hlead⟩
    cases hu with
    | pair x =>
        obtain ⟨e, hslash, hx⟩ := Cursor.leads_cons_iff.mp hlead
        exact .inl ⟨'\\', e, ⟨rfl, hslash⟩, x, d, ⟨trivial, hx⟩, rfl, rfl⟩
    | @plain x hquote hslash =>
        refine .inr ⟨?_, x, d, ⟨by simp [hquote, hslash], hlead⟩, rfl, rfl⟩
        rw [found_one_eq_none (by rw [hlead.rest]; simpa using hslash)]
        rfl

/-- The quote that ends a literal starts no unit. -/
theorem found_unit_eq_none (hq : q ≠ '\\') {rest : List Char} (h : c.rest = q :: rest) :
    (unit q).found c = none := by
  rw [Option.eq_none_iff_forall_ne_some]
  rintro ⟨u, d⟩ hfound
  obtain ⟨hu, hlead⟩ := found_unit_iff.mp hfound
  have hrest : q :: rest = u ++ d.rest := h.symm.trans hlead.rest
  cases hu with
  | pair x => exact hq (List.cons.inj hrest).1
  | plain hquote _ => exact hquote (List.cons.inj hrest).1.symm

theorem advances_unit (q : Char) : (unit q).Advances := by
  intro c u d h
  obtain ⟨hu, hlead⟩ := found_unit_iff.mp h
  have hlength := hlead.length
  cases hu with
  | pair x => rw [hlength, List.length_cons, List.length_singleton]; omega
  | plain _ _ => rw [hlength, List.length_singleton]; omega

/-- A repetition takes units, one behind the other. -/
theorem leads_of_repeats (h : (unit q).Repeats c us d) :
    (∀ u ∈ us, IsUnit q u) ∧ c.Leads us.flatten d := by
  induction h with
  | stop _ => exact ⟨by simp, Cursor.leads_nil_iff.mpr rfl⟩
  | turn hfound _ _ ih =>
      obtain ⟨hu, hlead⟩ := found_unit_iff.mp hfound
      exact ⟨List.forall_mem_cons.mpr ⟨hu, ih.1⟩, hlead.trans ih.2⟩

/-- A repetition takes all units up to the quote. -/
theorem repeats_of_leads (hq : q ≠ '\\') {rest : List Char} (hus : ∀ u ∈ us, IsUnit q u)
    (h : c.Leads us.flatten d) (hd : d.rest = q :: rest) : (unit q).Repeats c us d := by
  induction us generalizing c with
  | nil =>
      obtain rfl := Cursor.leads_nil_iff.mp h
      exact .stop (found_unit_eq_none hq hd)
  | cons u us ih =>
      obtain ⟨hu, hus⟩ := List.forall_mem_cons.mp hus
      obtain ⟨e, hlead, h⟩ := Cursor.leads_append_iff.mp h
      have hfound := found_unit_iff.mpr ⟨hu, hlead⟩
      exact .turn hfound (advances_unit q hfound) (ih hus h)

theorem found_between_iff (hq : q ≠ '\\') :
    (between q).found c = some (us, d) ↔
      (∀ u ∈ us, IsUnit q u) ∧ c.Leads (q :: us.flatten ++ [q]) d := by
  simp only [between, found_bind, Option.bind_eq_some_iff, found_pure, Option.some.injEq,
    Prod.mk.injEq, Prod.exists, found_one_iff, found_many_iff (advances_unit q)]
  constructor
  · rintro ⟨x, e, ⟨hx, hopen⟩, us, f, hunits, y, g, ⟨hy, hclose⟩, rfl, rfl⟩
    obtain rfl := eq_of_beq hx
    obtain rfl := eq_of_beq hy
    obtain ⟨hus, hlead⟩ := leads_of_repeats hunits
    exact ⟨hus, (hopen.trans hlead).trans hclose⟩
  · rintro ⟨hus, hlead⟩
    obtain ⟨f, hlead, hclose⟩ := Cursor.leads_append_iff.mp hlead
    obtain ⟨e, hopen, hlead⟩ := Cursor.leads_cons_iff.mp hlead
    exact ⟨q, e, ⟨beq_self_eq_true q, hopen⟩, us, f, repeats_of_leads hq hus hlead hclose.rest,
      q, d, ⟨beq_self_eq_true q, hclose⟩, rfl, rfl⟩

theorem found_literalUnits_iff :
    literalUnits.found c = some (us, d) ↔
      ∃ q, (q = '"' ∨ q = '\'') ∧ (∀ u ∈ us, IsUnit q u) ∧ c.Leads (q :: us.flatten ++ [q]) d := by
  rw [literalUnits, found_orElse, Option.or_eq_some_iff, found_between_iff (by decide),
    found_between_iff (by decide)]
  constructor
  · rintro (h | ⟨-, h⟩)
    · exact ⟨'"', .inl rfl, h⟩
    · exact ⟨'\'', .inr rfl, h⟩
  · rintro ⟨q, rfl | rfl, h⟩
    · exact .inl h
    · refine .inr ⟨?_, h⟩
      rw [between, found_bind, found_one_eq_none (by rw [h.2.rest]; simp)]
      rfl

/-- **The scan for the closing quote finds what the rule finds**, and a literal stands for what its units stand
for one behind the other. -/
theorem found_string_eq (c : Cursor) :
    string.found c =
      (literalUnits.found c).map fun r => (String.ofList (Quoted.unescape r.1.flatten), r.2) := by
  refine Option.ext ?_
  rintro ⟨v, d⟩
  rw [found_string_iff, Option.map_eq_some_iff]
  constructor
  · rintro ⟨q, s, hq, hs, rfl, hlead⟩
    obtain ⟨us, hus, rfl⟩ := inside_iff_units.mp hs
    exact ⟨(us, d), found_literalUnits_iff.mpr ⟨q, hq, hus, hlead⟩, rfl⟩
  · rintro ⟨⟨us, e⟩, hfound, heq⟩
    obtain ⟨rfl, rfl⟩ := Prod.mk.inj heq
    obtain ⟨q, hq, hus, hlead⟩ := found_literalUnits_iff.mp hfound
    exact ⟨q, us.flatten, hq, inside_iff_units.mpr ⟨us, hus, rfl⟩, rfl, hlead⟩

/-! ### One literal at most -/

/-- The text is one literal: the rule takes all of it. -/
def IsLiteral (p : List Char) : Prop :=
  ∃ v, string.found ⟨p, 0⟩ = some (v, ⟨[], utf8Length p⟩)

/-- What comes behind a literal does not change where it ends. -/
theorem exists_found_string (hq : q = '"' ∨ q = '\'') (hs : Inside q s) (t : List Char) :
    ∃ v, string.found ⟨q :: s ++ [q] ++ t, 0⟩ = some (v, ⟨t, utf8Length (q :: s ++ [q])⟩) :=
  ⟨_, found_string_iff.mpr ⟨q, s, hq, hs, rfl, ⟨rfl, (Nat.zero_add _).symm⟩⟩⟩

theorem isLiteral_iff {p : List Char} :
    IsLiteral p ↔ ∃ q s, (q = '"' ∨ q = '\'') ∧ Inside q s ∧ p = q :: s ++ [q] := by
  constructor
  · rintro ⟨v, hfound⟩
    obtain ⟨q, s, hq, hs, -, hlead⟩ := found_string_iff.mp hfound
    exact ⟨q, s, hq, hs, hlead.rest.trans (List.append_nil _)⟩
  · rintro ⟨q, s, hq, hs, rfl⟩
    have hfound := exists_found_string hq hs []
    rwa [List.append_nil] at hfound

/-- **A text begins with at most one literal.** -/
theorem IsLiteral.cut_unique {p p' t t' : List Char} (h : IsLiteral p) (h' : IsLiteral p')
    (heq : p ++ t = p' ++ t') : p = p' ∧ t = t' := by
  obtain ⟨q, s, hq, hs, rfl⟩ := isLiteral_iff.mp h
  obtain ⟨q', s', hq', hs', rfl⟩ := isLiteral_iff.mp h'
  obtain ⟨v, hfound⟩ := exists_found_string hq hs t
  obtain ⟨v', hfound'⟩ := exists_found_string hq' hs' t'
  rw [heq, hfound'] at hfound
  obtain ⟨-, hplace⟩ := Prod.mk.inj (Option.some.inj hfound)
  obtain rfl : t' = t := congrArg Cursor.rest hplace
  exact ⟨List.append_cancel_right heq, rfl⟩

/-! ### Runs of backslashes -/

/-- The number of backslashes at the end of a text. -/
def slashes (u : List Char) : Nat :=
  (u.rtakeWhile (· == '\\')).length

theorem slashes_le (u : List Char) : slashes u ≤ u.length := by
  rw [slashes, List.rtakeWhile, List.length_reverse, ← u.length_reverse]
  exact (List.takeWhile_sublist _).length_le

/-- A character in front counts only if all characters behind it do. -/
theorem slashes_cons (x : Char) (u : List Char) :
    slashes (x :: u) = if slashes u = u.length then u.length + slashes [x] else slashes u := by
  simp only [slashes, List.rtakeWhile, List.length_reverse, List.reverse_cons,
    List.takeWhile_append]
  split
  · simp
  · simp

theorem slashes_cons_of_ne {x : Char} (hx : x ≠ '\\') (u : List Char) :
    slashes (x :: u) = slashes u := by
  have hone : slashes [x] = 0 := by simp [slashes, List.rtakeWhile, hx]
  rw [slashes_cons, hone]
  split
  · rename_i h
    exact h.symm
  · rfl

/-- A pair in front changes the run by two backslashes or not at all. -/
theorem even_slashes_pair (x : Char) (u : List Char) :
    Even (slashes ('\\' :: x :: u)) ↔ Even (slashes u) := by
  have hone : slashes ['\\'] = 1 := rfl
  have hle := slashes_le u
  rw [slashes_cons, hone, List.length_cons]
  by_cases hx : x = '\\'
  · subst hx
    rw [slashes_cons, hone]
    by_cases hall : slashes u = u.length
    · rw [if_pos hall, if_pos rfl, hall]
      simp [parity_simps]
    · rw [if_neg hall, if_neg (by omega)]
  · rw [slashes_cons_of_ne hx, if_neg (by omega)]

/-- The places of a quote: the first character, and those behind it. -/
theorem forall_places_cons {x : Char} {P : List Char → Prop} :
    (∀ u t, x :: s = u ++ q :: t → P u) ↔
      (x = q → P []) ∧ ∀ u t, s = u ++ q :: t → P (x :: u) := by
  constructor
  · intro h
    exact ⟨fun hx => h [] s (by rw [hx]; rfl), fun u t hs => h (x :: u) t (by rw [hs]; rfl)⟩
  · rintro ⟨hfirst, hbehind⟩ u t h
    cases u with
    | nil => exact hfirst (List.cons.inj h).1
    | cons y u =>
        obtain ⟨rfl, hs⟩ := List.cons.inj h
        exact hbehind u t hs

/-- **Insides, told by the runs of backslashes.**  A quote in an inside stands behind an odd number of
backslashes, and an inside ends with an even number of them. -/
theorem inside_iff_slashes (hq : q ≠ '\\') :
    Inside q s ↔ Even (slashes s) ∧ ∀ u t, s = u ++ q :: t → ¬ Even (slashes u) := by
  constructor
  · intro h
    induction h with
    | nil => exact ⟨Even.zero, by simp⟩
    | pair x _ ih =>
        rw [even_slashes_pair, forall_places_cons, forall_places_cons]
        refine ⟨ih.1, fun h => absurd h.symm hq, fun _ => by decide, ?_⟩
        intro u t h
        rw [even_slashes_pair]
        exact ih.2 u t h
    | plain hquote hslash _ ih =>
        rw [slashes_cons_of_ne hslash, forall_places_cons]
        refine ⟨ih.1, fun h => absurd h hquote, ?_⟩
        intro u t h
        rw [slashes_cons_of_ne hslash]
        exact ih.2 u t h
  · rintro ⟨heven, hplaces⟩
    -- The induction goes in the steps of the scan: a backslash alone at the end, a pair, the quote, or
    -- another character.
    induction s using Quoted.body.induct q with
    | case1 => exact .nil
    | case2 => exact absurd heven (by decide)
    | case3 x s _ _ _ ih =>
        rw [even_slashes_pair] at heven
        simp only [forall_places_cons, even_slashes_pair] at hplaces
        exact .pair x (ih heven hplaces.2.2)
    | case4 s _ _ => exact absurd Even.zero (hplaces [] s rfl)
    | case5 x s halone hpair hquote _ _ _ ih =>
        have hslash : x ≠ '\\' := by
          rintro rfl
          cases s with
          | nil => exact halone rfl rfl
          | cons y s => exact hpair y s rfl rfl
        rw [slashes_cons_of_ne hslash] at heven
        simp only [forall_places_cons, slashes_cons_of_ne hslash] at hplaces
        exact .plain hquote hslash (ih heven hplaces.2)

/-! ### Written texts -/

theorem isLiteral_encode (s : List Char) : IsLiteral (Quoted.encode s) :=
  isLiteral_iff.mpr ⟨'"', Quoted.escape s, .inl rfl, inside_escape s, rfl⟩

/-- Texts in quotes are not confused, not even with what comes behind. -/
theorem encode_append_inj {s s' t t' : List Char} :
    Quoted.encode s ++ t = Quoted.encode s' ++ t' ↔ s = s' ∧ t = t' := by
  constructor
  · intro h
    obtain ⟨hencode, ht⟩ := (isLiteral_encode s).cut_unique (isLiteral_encode s') h
    have hescape : Quoted.escape s = Quoted.escape s' :=
      List.append_cancel_right (List.cons.inj hencode).2
    refine ⟨?_, ht⟩
    rw [← Quoted.unescape_escape s, hescape, Quoted.unescape_escape]
  · rintro ⟨rfl, rfl⟩
    rfl

/-- The last quote of a text in quotes is the only one, the first aside, that no backslash escapes. -/
theorem even_slashes_encode_iff {s u t : List Char} :
    Quoted.encode s = '"' :: (u ++ '"' :: t) ∧ Even (slashes u) ↔ u = Quoted.escape s ∧ t = [] := by
  obtain ⟨heven, hplaces⟩ := (inside_iff_slashes (by decide)).mp (inside_escape s)
  constructor
  · rintro ⟨h, hu⟩
    have hcut : Quoted.escape s ++ ['"'] = u ++ '"' :: t := (List.cons.inj h).2
    rcases List.eq_nil_or_concat t with rfl | ⟨t, x, rfl⟩
    · exact ⟨(List.append_cancel_right hcut).symm, rfl⟩
    · rw [List.concat_eq_append, ← List.cons_append, ← List.append_assoc] at hcut
      exact absurd hu (hplaces u t (List.append_inj_left' hcut rfl))
  · rintro ⟨rfl, rfl⟩
    exact ⟨rfl, heven⟩

/-- **A text in quotes is read back, and ends where it was ended, whatever comes behind.**  The scan takes the
quoted text and nothing else, and the rule takes one unit for every character.  The quoted text is the only
literal that the whole begins with, and its last character is the only quote behind the first one that stands
behind an even number of backslashes.  Two quoted texts are never confused, not even with what comes behind. -/
theorem string_reads_quote (s r : String) :
    (∀ o, string.found ⟨(Quoted.quote s ++ r).toList, o⟩ =
      some (s, ⟨r.toList, o + utf8Length (Quoted.quote s).toList⟩)) ∧
    (∀ o, literalUnits.found ⟨(Quoted.quote s ++ r).toList, o⟩ =
      some (s.toList.map Quoted.escapeChar,
        ⟨r.toList, o + utf8Length (Quoted.quote s).toList⟩)) ∧
    (∀ p, IsLiteral p ∧ p <+: (Quoted.quote s ++ r).toList ↔ p = (Quoted.quote s).toList) ∧
    (∀ u t, (Quoted.quote s).toList = '"' :: (u ++ '"' :: t) ∧ Even (slashes u) ↔
      u = Quoted.escape s.toList ∧ t = []) ∧
    (∀ s' r' : String, Quoted.quote s ++ r = Quoted.quote s' ++ r' ↔ s = s' ∧ r = r') := by
  have hquote (s : String) : (Quoted.quote s).toList = Quoted.encode s.toList :=
    String.toList_ofList
  simp only [String.toList_append, hquote]
  have hunits (o : Nat) : literalUnits.found ⟨Quoted.encode s.toList ++ r.toList, o⟩ =
      some (s.toList.map Quoted.escapeChar,
        ⟨r.toList, o + utf8Length (Quoted.encode s.toList)⟩) := by
    rw [found_literalUnits_iff]
    refine ⟨'"', .inl rfl, List.forall_mem_map.mpr fun x _ => isUnit_escapeChar x, ?_⟩
    rw [← escape_eq_flatten]
    exact ⟨rfl, rfl⟩
  refine ⟨?_, hunits, ?_, fun u t => even_slashes_encode_iff, ?_⟩
  · intro o
    rw [found_string_eq, hunits, Option.map_some, ← escape_eq_flatten, Quoted.unescape_escape,
      String.ofList_toList]
  · intro p
    constructor
    · rintro ⟨hp, t, ht⟩
      exact (hp.cut_unique (isLiteral_encode s.toList) ht).1
    · rintro rfl
      exact ⟨isLiteral_encode s.toList, List.prefix_append _ _⟩
  · intro s' r'
    rw [← String.toList_inj, String.toList_append, String.toList_append, hquote, hquote,
      encode_append_inj, String.toList_inj, String.toList_inj]

end LineMarkup.Grammar
