/-!
# Quoted texts

A quoted text stands between two equal quotes. Inside, a backslash belongs together with the
character behind it, so that a quote behind a backslash does not end the text.

Writing uses double quotes and escapes the quote, the backslash, line feed, carriage return
and tab; everything else stands for itself. Reading knows in addition the escaped single quote, and
keeps the backslash of any other pair.

## Main Definitions

* `escape`, `encode` — the inside of a quoted text, and the quoted text
* `body` — the inside of a quoted text up to its closing quote, and what follows
* `unescape` — the text that an inside stands for

## Main Statements

* `escapeChar_cases` — a character is written behind a backslash, or as itself
* `unescape_escape` — reading an inside gives back the text it was written from
-/

namespace LineMarkup.Text.Quoted

/-- One character inside double quotes. -/
def escapeChar : Char → List Char
  | '"' => ['\\', '"']
  | '\\' => ['\\', '\\']
  | '\n' => ['\\', 'n']
  | '\r' => ['\\', 'r']
  | '\t' => ['\\', 't']
  | c => [c]

/-- The inside of a quoted text. -/
def escape : List Char → List Char
  | [] => []
  | c :: cs => escapeChar c ++ escape cs

/-- A text between double quotes. -/
def encode (cs : List Char) : List Char :=
  '"' :: (escape cs ++ ['"'])

/-- The quoted form of a text. -/
def quote (s : String) : String :=
  String.ofList (encode s.toList)

/-- Split at the first `quote` that is not behind a backslash, or at a backslash that ends the
text: the inside, and what follows it. -/
def body (quote : Char) : List Char → List Char × List Char
  | [] => ([], [])
  | ['\\'] => ([], ['\\'])
  | '\\' :: c :: rest =>
    let (inside, after) := body quote rest
    ('\\' :: c :: inside, after)
  | c :: rest =>
    if c = quote then
      ([], c :: rest)
    else
      let (inside, after) := body quote rest
      (c :: inside, after)

/-- The text that an inside stands for. -/
def unescape : List Char → List Char
  | [] => []
  | ['\\'] => ['\\']
  | '\\' :: c :: rest =>
    match c with
    | 'n' => '\n' :: unescape rest
    | 't' => '\t' :: unescape rest
    | 'r' => '\r' :: unescape rest
    | '"' => '"' :: unescape rest
    | '\'' => '\'' :: unescape rest
    | '\\' => '\\' :: unescape rest
    | c => '\\' :: c :: unescape rest
  | c :: rest => c :: unescape rest

@[simp] theorem escape_nil : escape [] = [] := rfl

@[simp] theorem escape_cons (c : Char) (cs : List Char) :
    escape (c :: cs) = escapeChar c ++ escape cs := rfl

/-- A character is written behind a backslash, from where it is read back, or it stands for itself. -/
theorem escapeChar_cases (c : Char) :
    (∃ x, escapeChar c = ['\\', x] ∧ ∀ cs, unescape ('\\' :: x :: cs) = c :: unescape cs) ∨
      c ≠ '"' ∧ c ≠ '\\' ∧ escapeChar c = [c] := by
  unfold escapeChar
  split
  · exact .inl ⟨_, rfl, fun _ => rfl⟩
  · exact .inl ⟨_, rfl, fun _ => rfl⟩
  · exact .inl ⟨_, rfl, fun _ => rfl⟩
  · exact .inl ⟨_, rfl, fun _ => rfl⟩
  · exact .inl ⟨_, rfl, fun _ => rfl⟩
  · rename_i hquote hslash _ _ _
    exact .inr ⟨hquote, hslash, rfl⟩

theorem unescape_cons_of_ne {c : Char} (h : c ≠ '\\') (cs : List Char) :
    unescape (c :: cs) = c :: unescape cs := by
  cases cs with
  | nil => simp [unescape, h]
  | cons d ds => simp [unescape, h]

/-- Reading an inside gives back the text it was written from. -/
theorem unescape_escape (cs : List Char) : unescape (escape cs) = cs := by
  induction cs with
  | nil => rfl
  | cons c cs ih =>
    rw [escape_cons]
    rcases escapeChar_cases c with ⟨x, hpair, hread⟩ | ⟨-, hslash, hplain⟩
    · rw [hpair, List.cons_append, List.singleton_append, hread, ih]
    · rw [hplain, List.singleton_append, unescape_cons_of_ne hslash, ih]

end LineMarkup.Text.Quoted
