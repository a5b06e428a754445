import LineMarkup.Grammar.Cursor
import LineMarkup.Grammar.Trace

/-!
# Readers

A reader looks at the text from a cursor on. It yields a value and the cursor behind what it
took, or nothing; in both cases it leaves a trace of the rules that it called. Choices are
ordered: the first reader that succeeds decides, and nothing is taken back later.

Repetition needs no measure of its own: each turn takes at least one character, so the
characters that are left bound the number of turns.

## Main Definitions

* `Reader` — readers, a monad
* `Reader.option`, `Reader.firstOf`, `Reader.many` — optional parts, ordered choice, repetition
* `Reader.call`, `Reader.atom` — a call of a rule; an atom keeps no trace of what it calls
* `Reader.skip` — the blanks between tokens
-/

namespace LineMarkup.Grammar

/-- What a reader made of the text at a cursor. -/
structure Outcome (α : Type) where
  found? : Option (α × Cursor)
  trace : Trace

/-- A reader of the text from a cursor on. -/
def Reader (α : Type) := Cursor → Outcome α

namespace Reader

variable {α β : Type}

/-- Take nothing and yield `a`. -/
def yield (a : α) : Reader α := fun c => ⟨some (a, c), .silent⟩

/-- Read with `p`, then with what `q` makes of its value. -/
def andThen (p : Reader α) (q : α → Reader β) : Reader β := fun c =>
  match p c with
  | ⟨none, t⟩ => ⟨none, t⟩
  | ⟨some (a, d), t⟩ =>
    let o := q a d
    ⟨o.found?, t.andThen o.trace⟩

instance : Monad Reader where
  pure := yield
  bind := andThen

/-- Never succeed. -/
def fail : Reader α := fun _ => ⟨none, .silent⟩

/-- The offset of the cursor; nothing is taken. -/
def here : Reader Nat := fun c => ⟨some (c.offset, c), .silent⟩

/-- The cursor itself; nothing is taken. -/
def place : Reader Cursor := fun c => ⟨some (c, c), .silent⟩

/-- Take exactly the given text. -/
def lit (text : String) : Reader Unit := fun c =>
  ⟨(c.drop? text.toList).map (fun d => ((), d)), .silent⟩

/-- Take the longest stretch of characters of a class. -/
def takeWhile (p : Char → Bool) : Reader (List Char) := fun c =>
  ⟨some (c.rest.takeWhile p, c.dropWhile p), .silent⟩

/-- Take the longest stretch of characters of a class; at least one. -/
def takeWhile1 (p : Char → Bool) : Reader (List Char) := fun c =>
  match c.rest.takeWhile p with
  | [] => ⟨none, .silent⟩
  | d :: ds => ⟨some (d :: ds, c.dropWhile p), .silent⟩

/-- Succeed, taking nothing, unless a character of a class comes next. -/
def notBefore (p : Char → Bool) : Reader Unit := fun c =>
  match c.rest with
  | [] => ⟨some ((), c), .silent⟩
  | d :: _ => if p d then ⟨none, .silent⟩ else ⟨some ((), c), .silent⟩

/-- The end of the text. -/
def atEnd : Reader Unit := fun c =>
  if c.rest.isEmpty then ⟨some ((), c), .silent⟩ else ⟨none, .silent⟩

/-- Read with `p` if it succeeds, else take nothing. -/
def option (p : Reader α) : Reader (Option α) := fun c =>
  match p c with
  | ⟨none, t⟩ => ⟨some (none, c), t⟩
  | ⟨some (a, d), t⟩ => ⟨some (some a, d), t⟩

/-- The first of two readers that succeeds. -/
def orElse (p q : Reader α) : Reader α := fun c =>
  match p c with
  | ⟨none, t⟩ =>
    let o := q c
    ⟨o.found?, t.andThen o.trace⟩
  | o => o

/-- The first reader of a list that succeeds. -/
def firstOf : List (Reader α) → Reader α
  | [] => fail
  | p :: ps => p.orElse (firstOf ps)

/-- Read with `p` until it fails, at most once more than the length of `turns`. -/
def manyWithin (p : Reader α) : List Char → Reader (List α)
  | [] => do return (← p.option).toList
  | _ :: turns => do
    match ← p.option with
    | none => return []
    | some a => return a :: (← manyWithin p turns)

/-- Read with `p` until it fails. Each turn takes at least one character. -/
def many (p : Reader α) : Reader (List α) := fun c => manyWithin p c.rest c

/-- Call a rule. -/
def call (rule : Rule) (p : Reader α) : Reader α := fun c =>
  let o := p c
  ⟨o.found?, .call rule c.offset o.found?.isSome o.trace⟩

/-- Call a rule whose inside leaves no trace. -/
def atom (rule : Rule) (p : Reader α) : Reader α := fun c =>
  let o := p c
  ⟨o.found?, .call rule c.offset o.found?.isSome .silent⟩

/-- The blanks that may stand between tokens. -/
def isSpace (c : Char) : Bool :=
  c == ' ' || c == '\t' || c == '\r' || c == '\n'

/-- Take the blanks before the next token. -/
def skip : Reader Unit := fun c => ⟨some ((), c.dropWhile isSpace), .silent⟩

/-- A token: a given text, after the blanks before it. -/
def token (text : String) : Reader Unit := do
  skip
  lit text

end Reader

end LineMarkup.Grammar
