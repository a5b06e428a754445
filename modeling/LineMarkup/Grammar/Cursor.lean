import LineMarkup.Span

/-!
# Cursors

A place in a source text: what is left of the text, and the byte offset reached so far.

## Main Definitions

* `Cursor.ofString` — the start of a text
* `Cursor.dropWhile` — past the leading characters of a class
* `Cursor.drop?` — past a given text, if it comes next
* `Cursor.textTo` — the characters between two cursors
-/

namespace LineMarkup.Grammar

/-- A place in a source text. -/
structure Cursor where
  rest : List Char
  offset : Nat
deriving DecidableEq, Repr

namespace Cursor

/-- The start of a text. -/
def ofString (source : String) : Cursor :=
  ⟨source.toList, 0⟩

/-- The cursor past one character, of which `rest` is left. -/
def past (c : Cursor) (taken : List Char) (rest : List Char) : Cursor :=
  ⟨rest, c.offset + utf8Length taken⟩

/-- The cursor past the leading characters of a class. -/
def dropWhile (c : Cursor) (p : Char → Bool) : Cursor :=
  c.past (c.rest.takeWhile p) (c.rest.dropWhile p)

/-- What follows a given start of a list. -/
def afterStart? : List Char → List Char → Option (List Char)
  | [], cs => some cs
  | _ :: _, [] => none
  | x :: xs, c :: cs => if x = c then afterStart? xs cs else none

@[simp] theorem afterStart?_append (xs cs : List Char) : afterStart? xs (xs ++ cs) = some cs := by
  induction xs with
  | nil => rfl
  | cons x xs ih => simp [afterStart?, ih]

theorem eq_append_of_afterStart? {xs cs rest : List Char} (h : afterStart? xs cs = some rest) :
    cs = xs ++ rest := by
  induction xs generalizing cs with
  | nil => simpa [afterStart?] using h
  | cons x xs ih =>
    cases cs with
    | nil => simp [afterStart?] at h
    | cons c cs =>
      by_cases hx : x = c
      · simp [afterStart?, hx] at h
        simp [hx, ih h]
      · simp [afterStart?, hx] at h

/-- The cursor past a given text, if that text comes next. -/
def drop? (c : Cursor) (text : List Char) : Option Cursor :=
  (afterStart? text c.rest).map (c.past text)

/-- The characters between a cursor and a later one. -/
def textTo (c d : Cursor) : List Char :=
  (takeBytes? c.rest (d.offset - c.offset)).getD []

end Cursor

end LineMarkup.Grammar
