/-!
# Spans

A span is a range of byte offsets into the UTF-8 form of a source text, its end excluded.

## Main Definitions

* `Span.merge` — the smallest span that covers two spans
* `Span.slice` — the part of a source that a span covers, cut to the source's bounds
* `utf8Length` — the number of bytes that a list of characters takes

## Main Statements

* `dropBytes?_append`, `takeBytes?_append` — cutting a text at the length of a first part of it
-/

namespace LineMarkup

/-- The number of bytes of the UTF-8 form of a list of characters. -/
def utf8Length : List Char → Nat
  | [] => 0
  | c :: cs => c.utf8Size + utf8Length cs

@[simp] theorem utf8Length_nil : utf8Length [] = 0 := rfl

@[simp] theorem utf8Length_cons (c : Char) (cs : List Char) :
    utf8Length (c :: cs) = c.utf8Size + utf8Length cs := rfl

@[simp] theorem utf8Length_append (as bs : List Char) :
    utf8Length (as ++ bs) = utf8Length as + utf8Length bs := by
  induction as with
  | nil => simp
  | cons c cs ih => simp [ih, Nat.add_assoc]

/-- Drop exactly `n` bytes; nothing if the `n`-th byte falls inside a character or past the
end. -/
def dropBytes? : List Char → Nat → Option (List Char)
  | cs, 0 => some cs
  | [], _ + 1 => none
  | c :: cs, n + 1 => if c.utf8Size ≤ n + 1 then dropBytes? cs (n + 1 - c.utf8Size) else none

/-- Take exactly `n` bytes; nothing if the `n`-th byte falls inside a character or past the
end. -/
def takeBytes? : List Char → Nat → Option (List Char)
  | _, 0 => some []
  | [], _ + 1 => none
  | c :: cs, n + 1 =>
    if c.utf8Size ≤ n + 1 then (takeBytes? cs (n + 1 - c.utf8Size)).map (c :: ·) else none

/-- What is left behind a first part is the second one. -/
theorem dropBytes?_append (as bs : List Char) :
    dropBytes? (as ++ bs) (utf8Length as) = some bs := by
  induction as with
  | nil => simp [dropBytes?]
  | cons c cs ih =>
    obtain ⟨n, hn⟩ : ∃ n, utf8Length (c :: cs) = n + 1 :=
      ⟨utf8Length (c :: cs) - 1, by have := c.utf8Size_pos; rw [utf8Length_cons]; omega⟩
    have hle : c.utf8Size ≤ n + 1 := by rw [← hn, utf8Length_cons]; omega
    have hrest : n + 1 - c.utf8Size = utf8Length cs := by rw [← hn, utf8Length_cons]; omega
    rw [hn, List.cons_append, dropBytes?, if_pos hle, hrest, ih]

/-- The bytes of a first part are that part. -/
theorem takeBytes?_append (as bs : List Char) :
    takeBytes? (as ++ bs) (utf8Length as) = some as := by
  induction as with
  | nil => simp [takeBytes?]
  | cons c cs ih =>
    obtain ⟨n, hn⟩ : ∃ n, utf8Length (c :: cs) = n + 1 :=
      ⟨utf8Length (c :: cs) - 1, by have := c.utf8Size_pos; rw [utf8Length_cons]; omega⟩
    have hle : c.utf8Size ≤ n + 1 := by rw [← hn, utf8Length_cons]; omega
    have hrest : n + 1 - c.utf8Size = utf8Length cs := by rw [← hn, utf8Length_cons]; omega
    rw [hn, List.cons_append, takeBytes?, if_pos hle, hrest, ih]
    rfl

/-- A range of byte offsets into a source text, its end excluded. -/
structure Span where
  start : Nat
  stop : Nat
deriving DecidableEq, Repr, Inhabited

namespace Span

/-- The smallest span that covers both. -/
def merge (a b : Span) : Span :=
  ⟨min a.start b.start, max a.stop b.stop⟩

/-- The characters of `source` that the span covers, after both ends are cut to the length of
the source. A span whose ends split a character covers nothing. -/
def sliceList (span : Span) (source : List Char) : List Char :=
  let stop := min span.stop (utf8Length source)
  let start := min span.start stop
  ((dropBytes? source start).bind (takeBytes? · (stop - start))).getD []

/-- The part of `source` that the span covers. -/
def slice (span : Span) (source : String) : String :=
  String.ofList (span.sliceList source.toList)

end Span

end LineMarkup
