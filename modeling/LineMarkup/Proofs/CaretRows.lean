import LineMarkup.Diagnostic
import Mathlib.Data.List.DropRight

/-!
# Carets under a place

The picture of a message quotes one line of the text and puts carets under a place in it.  Three pieces of
code have to agree on that: one scan counts lines and columns by bytes and characters, another one cuts the text
into lines and knows about carriage returns, and the two rows are filled up to the same width apart from each
other.

The first two agree everywhere, which is shown by going through the text before the place line by line.  The
rows do not: the number of the line takes three columns or as many as it has digits, while the row below has room
for three always.  So the carets stand under their place up to line 999 and too far to the left from line
1000 on.

## Main Definitions

* `lastLine`, `firstLine` — what is left and right of a place in its line
* `lineAround` — the line of a place without its end
* `firstCaret?` — where the carets of a row start

## Main Statements

* `lineColumn_eq`, `lineText_eq` — the place and the line that are found
* `Diagnostic.carets_aligned_iff` — when carets stand under their place
-/

namespace LineMarkup

/-! ### The line of a place -/

/-- What stands behind the last line feed. -/
def lastLine (before : List Char) : List Char :=
  before.rtakeWhile (· != '\n')

/-- What stands before the first line feed. -/
def firstLine (after : List Char) : List Char :=
  after.takeWhile (· != '\n')

/-- A line without a carriage return at its end. -/
def dropReturn (line : List Char) : List Char :=
  if line.getLast? = some '\r' then line.dropLast else line

/-- The line of the place between two parts of a text.  A line feed ends it, and a carriage return directly in
front of that line feed belongs to the end. -/
def lineAround (before after : List Char) : List Char :=
  if '\n' ∈ after then
    dropReturn (lastLine before ++ firstLine after)
  else
    lastLine before ++ firstLine after

section

variable {line cs : List Char}

theorem ne_newline (h : '\n' ∉ line) : ∀ c ∈ line, (c != '\n') = true :=
  fun _ hc => bne_iff_ne.mpr (ne_of_mem_of_not_mem hc h)

theorem lastLine_of_notMem (h : '\n' ∉ line) : lastLine line = line :=
  List.rtakeWhile_eq_self_iff.mpr (ne_newline h)

theorem firstLine_of_notMem (h : '\n' ∉ line) : firstLine line = line :=
  List.takeWhile_eq_self_iff.mpr (ne_newline h)

theorem firstLine_append_newline (h : '\n' ∉ line) (cs : List Char) :
    firstLine (line ++ '\n' :: cs) = line := by
  rw [firstLine, List.takeWhile_append_of_pos (ne_newline h), List.takeWhile_cons_of_neg (by simp),
    List.append_nil]

/-- What stands in front of a text with a line feed is not in its last line. -/
theorem lastLine_cons_of_mem (c : Char) (h : '\n' ∈ cs) : lastLine (c :: cs) = lastLine cs := by
  have hstop : (cs.reverse.takeWhile (· != '\n')).length ≠ cs.reverse.length := by
    intro hall
    have hself := (List.takeWhile_prefix (· != '\n')).eq_of_length hall
    have hne := List.takeWhile_eq_self_iff.mp hself '\n' (List.mem_reverse.mpr h)
    simp at hne
  rw [lastLine, lastLine, List.rtakeWhile, List.rtakeWhile, List.reverse_cons,
    List.takeWhile_append, if_neg hstop]

theorem lastLine_newline_cons (h : '\n' ∉ line) : lastLine ('\n' :: line) = line := by
  rw [lastLine, List.rtakeWhile, List.reverse_cons, List.takeWhile_append_of_pos]
  · simp
  · exact ne_newline (by simpa using h)

theorem lastLine_append_newline (line cs : List Char) :
    lastLine (line ++ '\n' :: cs) = lastLine cs := by
  induction line with
  | nil =>
      by_cases h : '\n' ∈ cs
      · exact lastLine_cons_of_mem '\n' h
      · rw [lastLine_of_notMem h]
        exact lastLine_newline_cons h
  | cons c line ih =>
      rw [List.cons_append, lastLine_cons_of_mem c (by simp), ih]

/-- A character in front of a text that has lines is in the first of them, unless it ends a line. -/
theorem lines_cons {c : Char} {first : List Char} {rest : List (List Char)} (hc : c ≠ '\n')
    (hreturn : c = '\r' → cs.head? ≠ some '\n') (h : lines cs = first :: rest) :
    lines (c :: cs) = (c :: first) :: rest := by
  cases cs with
  | nil => simp [lines] at h
  | cons d ds =>
      have hcr : ∀ tail, c = '\r' → d :: ds = '\n' :: tail → False := by
        rintro tail rfl ⟨⟩
        exact hreturn rfl rfl
      exact lines.eq_6 c d ds first rest hc hcr h

/-- A text up to a line feed is a line. -/
theorem lines_append_newline (h : '\n' ∉ line) (cs : List Char) :
    lines (line ++ '\n' :: cs) = dropReturn line :: lines cs := by
  induction line with
  | nil => rfl
  | cons c line ih =>
      obtain ⟨hc, hline⟩ := not_or.mp (mt List.mem_cons.mpr h)
      cases line with
      | nil =>
          by_cases hreturn : c = '\r'
          · subst hreturn
            rfl
          · have hdrop : dropReturn [c] = [c] := by simp [dropReturn, hreturn]
            rw [hdrop]
            exact lines_cons (Ne.symm hc) (fun hr => absurd hr hreturn) rfl
      | cons d line =>
          have hd : d ≠ '\n' := fun he => hline (by simp [he])
          have hdrop : dropReturn (c :: d :: line) = c :: dropReturn (d :: line) := by
            simp only [dropReturn, List.getLast?_cons_cons]
            split <;> simp
          rw [hdrop]
          exact lines_cons (Ne.symm hc) (fun _ => by simpa using hd) (ih hline)

/-- A text without a line feed is one line. -/
theorem lines_of_notMem (h : '\n' ∉ line) (hne : line ≠ []) : lines line = [line] := by
  induction line with
  | nil => exact absurd rfl hne
  | cons c line ih =>
      obtain ⟨hc, hline⟩ := not_or.mp (mt List.mem_cons.mpr h)
      cases line with
      | nil =>
          rw [lines]
          · exact Ne.symm hc
          · simp
      | cons d line =>
          have hd : d ≠ '\n' := fun he => hline (by simp [he])
          exact lines_cons (Ne.symm hc) (fun _ => by simpa using hd) (ih hline (by simp))

end

/-- **The line that is quoted is the line of the place.** -/
theorem lineText_eq (before after : List Char) :
    Diagnostic.lineText (before.count '\n' + 1) (before ++ after) = lineAround before after := by
  rw [Diagnostic.lineText, Nat.add_sub_cancel]
  -- Each line before the place is one element of the list of lines.
  induction hn : before.count '\n' generalizing before with
  | zero =>
      have hbefore : '\n' ∉ before := List.count_eq_zero.mp hn
      rw [lineAround, lastLine_of_notMem hbefore]
      split
      case isTrue hafter =>
        obtain ⟨line, rest, rfl, hline⟩ := List.eq_append_cons_of_mem hafter
        have hall : '\n' ∉ before ++ line := by simp [hbefore, hline]
        rw [← List.append_assoc, lines_append_newline hall, firstLine_append_newline hline]
        rfl
      case isFalse hafter =>
        rw [firstLine_of_notMem hafter]
        by_cases hne : before ++ after = []
        · rw [hne]
          rfl
        · have hall : '\n' ∉ before ++ after := by simp [hbefore, hafter]
          rw [lines_of_notMem hall hne]
          rfl
  | succ n ih =>
      have hbefore : '\n' ∈ before := List.count_pos_iff.mp (by omega)
      obtain ⟨line, rest, rfl, hline⟩ := List.eq_append_cons_of_mem hbefore
      have hcount : rest.count '\n' = n := by
        rw [List.count_append, List.count_eq_zero.mpr hline, List.count_cons_self] at hn
        omega
      rw [List.append_assoc, List.cons_append, lines_append_newline hline, List.getElem?_cons_succ,
        ih rest hcount, lineAround, lineAround, lastLine_append_newline]

/-- The character at the place stands in its line, behind what is left of it. -/
theorem getElem?_lineAround (before : List Char) {c : Char} (rest : List Char) (hc : c ≠ '\n')
    (hreturn : c ≠ '\r') :
    (lineAround before (c :: rest))[(lastLine before).length]? = some c := by
  have hfirst : firstLine (c :: rest) = c :: firstLine rest :=
    List.takeWhile_cons_of_pos (bne_iff_ne.mpr hc)
  rw [lineAround, hfirst]
  split
  case isTrue =>
    rw [dropReturn]
    split
    case isTrue hlast =>
      -- A line that ends with a carriage return has more behind the place than `c`.
      obtain ⟨d, ds, hds⟩ : ∃ d ds, firstLine rest = d :: ds := by
        cases hrest : firstLine rest with
        | nil => simp [hrest, hreturn] at hlast
        | cons d ds => exact ⟨d, ds, rfl⟩
      rw [hds, List.dropLast_append_of_ne_nil (by simp), List.dropLast_cons_cons]
      simp
    case isFalse => simp
  case isFalse => simp

/-- One scan counts the line feeds, and the characters behind the last of them. -/
theorem lineColumn_go {offset reached : Nat} (line column : Nat) {before : List Char}
    (after : List Char) (h : offset = reached + utf8Length before) :
    lineColumn.go offset reached line column (before ++ after) =
      (line + before.count '\n',
        if '\n' ∈ before then (lastLine before).length + 1 else column + before.length) := by
  induction before generalizing reached line column with
  | nil =>
      have hreached : offset ≤ reached := Nat.le_of_eq h
      cases after with
      | nil => rfl
      | cons c cs =>
          rw [List.nil_append, lineColumn.go, if_pos hreached]
          rfl
  | cons c before ih =>
      rw [utf8Length_cons] at h
      have hreached : ¬ offset ≤ reached := by
        have := c.utf8Size_pos
        omega
      rw [List.cons_append, lineColumn.go, if_neg hreached]
      by_cases hc : c = '\n'
      · subst hc
        rw [if_pos rfl, ih (line + 1) 1 (by omega), List.count_cons_self, Nat.add_right_comm,
          if_pos List.mem_cons_self]
        by_cases hb : '\n' ∈ before
        · rw [if_pos hb, lastLine_cons_of_mem '\n' hb]
          rfl
        · rw [if_neg hb, lastLine_newline_cons hb, Nat.add_comm 1]
          rfl
      · rw [if_neg hc, ih line (column + 1) (by omega), List.count_cons_of_ne hc]
        by_cases hb : '\n' ∈ before
        · rw [if_pos hb, if_pos (List.mem_cons_of_mem c hb), lastLine_cons_of_mem c hb]
        · have hall : '\n' ∉ c :: before := by simp [hb, Ne.symm hc]
          rw [if_neg hb, if_neg hall, List.length_cons, Nat.add_assoc, Nat.add_comm 1]

/-- **The place that is said is the line and the column of the offset**, both counted from one. -/
theorem lineColumn_eq (before after : List Char) :
    lineColumn (utf8Length before) (before ++ after) =
      (before.count '\n' + 1, (lastLine before).length + 1) := by
  rw [lineColumn, lineColumn_go 1 1 after (Nat.zero_add _).symm, Nat.add_comm 1]
  by_cases h : '\n' ∈ before
  · rw [if_pos h]
  · rw [if_neg h, lastLine_of_notMem h, Nat.add_comm 1]

/-! ### The rows -/

/-- Where the first caret of a row stands, counted in characters. -/
def firstCaret? (row : String) : Option Nat :=
  row.toList.findIdx? (· == '^')

namespace Diagnostic

theorem toList_blankGutter : blankGutter.toList = [' ', ' ', ' ', ' ', '|', ' '] := rfl

theorem firstCaret?_carets (column width : Nat) :
    firstCaret? (blankGutter ++ carets column width) = some (6 + (column - 1)) := by
  have hgutter : blankGutter.toList.findIdx? (· == '^') = none := by
    rw [toList_blankGutter]
    rfl
  have hblanks : (List.replicate (column - 1) ' ').findIdx? (· == '^') = none := by
    rw [List.findIdx?_eq_none_iff]
    intro c hc
    rw [List.eq_of_mem_replicate hc]
    rfl
  obtain ⟨n, hn⟩ : ∃ n, max 1 width = n + 1 := ⟨max 1 width - 1, by omega⟩
  rw [firstCaret?, carets, hn, String.toList_append, String.toList_ofList, List.findIdx?_append,
    List.findIdx?_append, hgutter, hblanks, List.replicate_succ, List.findIdx?_cons]
  simp [toList_blankGutter, Nat.add_comm 6]

/-- The number of a line takes three columns, or as many as it has digits. -/
theorem length_gutter (line : Nat) : (gutter line).length = max 3 (toString line).length + 3 := by
  have hpadded : (padded line).length = max 3 (toString line).length := by
    rw [padded, String.length_append, String.length_ofList, List.length_replicate]
    omega
  rw [gutter, String.length_append, hpadded]
  rfl

theorem length_gutter_eq_iff (line : Nat) : (gutter line).length = 6 ↔ line < 1000 := by
  have hdigits : (toString line).length ≤ 3 ↔ line < 10 ^ 3 := Nat.length_repr_le_iff (by decide)
  rw [length_gutter]
  omega

/-- The rows of a picture, in terms of what is before and behind the place. -/
theorem rows_eq (d : Diagnostic) {source : String} {before after : List Char} {line column : Nat}
    (hsource : source.toList = before ++ after) (hstart : d.span.start = utf8Length before)
    (hline : line = before.count '\n' + 1) (hcolumn : column = (lastLine before).length + 1) :
    d.rows source =
      [s!"Error: {d.message}",
        s!" --> {line}:{column}",
        "  |",
        gutter line ++ String.ofList (lineAround before after),
        blankGutter ++ carets column (d.span.sliceList source.toList).length] ++
      (d.hint.map fun hint => s!"  = hint: {hint}").toList := by
  subst hline hcolumn
  rw [rows, hstart, hsource, lineColumn_eq]
  dsimp only
  rw [lineText_eq]

/-- **The picture of a message quotes the line of its place and says the place, and its carets stand under the
place exactly in the first 999 lines.**  The first caret stands behind six characters and the columns before the
place; the line that is quoted stands behind as many characters only if its number has at most three digits. -/
theorem carets_aligned_iff (d : Diagnostic) {source : String} {before after : List Char}
    (hsource : source.toList = before ++ after) (hstart : d.span.start = utf8Length before) :
    ∃ line column : Nat, ∃ quoted pointer : String,
      line = before.count '\n' + 1 ∧ column = (lastLine before).length + 1 ∧
      quoted = String.ofList (lineAround before after) ∧
      d.render source = "\n".intercalate
        ([s!"Error: {d.message}", s!" --> {line}:{column}", "  |", gutter line ++ quoted, pointer] ++
          (d.hint.map fun hint => s!"  = hint: {hint}").toList) ∧
      (∀ c ∈ after.head?, c ≠ '\n' → c ≠ '\r' → quoted.toList[column - 1]? = some c) ∧
      firstCaret? pointer = some (6 + (column - 1)) ∧
      (firstCaret? pointer = some ((gutter line).length + (column - 1)) ↔ line < 1000) := by
  refine ⟨_, _, _, blankGutter ++ carets ((lastLine before).length + 1)
    (d.span.sliceList source.toList).length, rfl, rfl, rfl, ?_, ?_, firstCaret?_carets _ _, ?_⟩
  · rw [render, d.rows_eq hsource hstart rfl rfl]
  · intro c hc hnewline hreturn
    cases after with
    | nil => cases hc
    | cons c' rest =>
        cases hc
        rw [String.toList_ofList, Nat.add_sub_cancel]
        exact getElem?_lineAround before rest hnewline hreturn
  · rw [firstCaret?_carets, ← length_gutter_eq_iff, Option.some_inj]
    omega

/-- A place behind a letter of two bytes, in a line with a carriage return at its end. -/
theorem carets_aligned_iff_second_line :
    "a\r\néb\r\nc".toList = ['a', '\r', '\n', 'é'] ++ ['b', '\r', '\n', 'c'] ∧
    utf8Length ['a', '\r', '\n', 'é'] = 5 ∧
    ∃ quoted pointer : String, quoted = "éb" ∧
      (Diagnostic.mk ⟨5, 6⟩ "m" none).render "a\r\néb\r\nc" =
        "\n".intercalate ["Error: m", " --> 2:2", "  |", gutter 2 ++ quoted, pointer] ∧
      firstCaret? pointer = some ((gutter 2).length + 1) := by
  have hsource : "a\r\néb\r\nc".toList = ['a', '\r', '\n', 'é'] ++ ['b', '\r', '\n', 'c'] := by
    decide
  have hlength : utf8Length ['a', '\r', '\n', 'é'] = 5 := by decide
  obtain ⟨line, column, quoted, pointer, hline, hcolumn, hquoted, hrender, -, -, haligned⟩ :=
    carets_aligned_iff (Diagnostic.mk ⟨5, 6⟩ "m" none) hsource hlength.symm
  obtain rfl : line = 2 := hline
  obtain rfl : column = 2 := hcolumn
  have haround : lineAround ['a', '\r', '\n', 'é'] ['b', '\r', '\n', 'c'] = ['é', 'b'] := by decide
  rw [haround] at hquoted
  exact ⟨hsource, hlength, quoted, pointer, hquoted, hrender, haligned.mpr (by decide)⟩

/-- A letter behind 999 line feeds: the caret stands one column left of it. -/
theorem carets_misaligned_on_line_1000 :
    Diagnostic.rows ⟨⟨999, 1000⟩, "m", none⟩ (String.ofList (List.replicate 999 '\n' ++ ['x'])) =
      ["Error: m", " --> 1000:1", "  |", "1000 | x", "    | ^"] ∧
    firstCaret? "    | ^" ≠ some ("1000 | ".length + (1 - 1)) := by
  have hlength : utf8Length (List.replicate 999 '\n') = 999 := by decide +kernel
  have hlast : lastLine (List.replicate 999 '\n') = [] := by decide +kernel
  have hslice : (Span.mk 999 1000).sliceList (List.replicate 999 '\n' ++ ['x']) = ['x'] := by
    decide +kernel
  have haround : lineAround (List.replicate 999 '\n') ['x'] = ['x'] := by
    rw [lineAround, hlast]
    rfl
  have hline : 1000 = (List.replicate 999 '\n').count '\n' + 1 := by rw [List.count_replicate_self]
  have hcolumn : 1 = (lastLine (List.replicate 999 '\n')).length + 1 := by rw [hlast]; rfl
  refine ⟨?_, by decide⟩
  rw [rows_eq _ String.toList_ofList hlength.symm hline hcolumn, haround, String.toList_ofList, hslice]
  rfl

end Diagnostic

end LineMarkup
