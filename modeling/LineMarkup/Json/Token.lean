import LineMarkup.Json.Number

/-!
# JSON tokens

JSON text as a sequence of tokens. Text that is no token ends the sequence with the token
`malformed`.

A text in quotes can be well formed and still name no characters: the two halves of a character
beyond the first plane may be escaped apart from each other. Such a token has no text.

## Main Definitions

* `Token` — brackets, marks, words, numbers and texts
* `scanText` — the text behind an opening quote
* `tokens` — the tokens of a whole text
-/

namespace LineMarkup.Json

/-- The tokens of JSON text. -/
inductive Token where
  | openArray | closeArray | openObject | closeObject | comma | colon
  | null
  | bool (b : Bool)
  | number (n : Numeral)
  | string (s : Option String)
  | malformed
deriving Inhabited

/-- A part of a text in quotes: a character, or the 16-bit code of an escape. -/
inductive Piece where
  | char (c : Char)
  | code (n : Nat)
deriving Inhabited

/-- The value of a hexadecimal digit. -/
def hexDigit? (c : Char) : Option Nat :=
  if '0' ≤ c ∧ c ≤ '9' then some (c.toNat - '0'.toNat)
  else if 'a' ≤ c ∧ c ≤ 'f' then some (c.toNat - 'a'.toNat + 10)
  else if 'A' ≤ c ∧ c ≤ 'F' then some (c.toNat - 'A'.toNat + 10)
  else none

/-- The number that four hexadecimal digits spell. -/
def hexCode? (a b c d : Char) : Option Nat := do
  return (((← hexDigit? a) * 16 + (← hexDigit? b)) * 16 + (← hexDigit? c)) * 16 + (← hexDigit? d)

/-- The character that a single letter behind a backslash stands for. -/
def escaped? : Char → Option Char
  | '"' => some '"'
  | '\\' => some '\\'
  | '/' => some '/'
  | 'b' => some '\x08'
  | 'f' => some '\x0c'
  | 'n' => some '\n'
  | 'r' => some '\r'
  | 't' => some '\t'
  | _ => none

/-- The pieces up to the closing quote, and what follows it. Control characters must be escaped. -/
def scanPieces : List Char → Option (List Piece × List Char)
  | [] => none
  | '"' :: rest => some ([], rest)
  | '\\' :: 'u' :: a :: b :: c :: d :: rest => do
    let n ← hexCode? a b c d
    let (ps, after) ← scanPieces rest
    return (.code n :: ps, after)
  | '\\' :: c :: rest => do
    let e ← escaped? c
    let (ps, after) ← scanPieces rest
    return (.char e :: ps, after)
  | c :: rest =>
    if c == '\\' || c.toNat < 0x20 then
      none
    else do
      let (ps, after) ← scanPieces rest
      return (.char c :: ps, after)

/-- Whether a code is the first half of a character beyond the first plane. -/
def isHighHalf (n : Nat) : Bool := 0xD800 ≤ n && n < 0xDC00

/-- Whether a code is the second half of such a character. -/
def isLowHalf (n : Nat) : Bool := 0xDC00 ≤ n && n < 0xE000

/-- The characters that pieces name; halves must come in pairs. -/
def joinPieces : List Piece → Option (List Char)
  | [] => some []
  | .char c :: rest => (joinPieces rest).map (c :: ·)
  | .code high :: .code low :: rest =>
    if isHighHalf high then
      if isLowHalf low then
        (joinPieces rest).map (Char.ofNat ((high - 0xD800) * 0x400 + (low - 0xDC00) + 0x10000) :: ·)
      else
        none
    else if isLowHalf high then
      none
    else
      (joinPieces (.code low :: rest)).map (Char.ofNat high :: ·)
  | .code n :: rest =>
    if isHighHalf n || isLowHalf n then
      none
    else
      (joinPieces rest).map (Char.ofNat n :: ·)

/-- The text behind an opening quote, if its escapes name characters, and what follows its closing
quote. -/
def scanText (cs : List Char) : Option (Option String × List Char) :=
  (scanPieces cs).map fun (ps, after) => ((joinPieces ps).map String.ofList, after)

/-- The blanks between tokens. -/
def isSpace (c : Char) : Bool :=
  c == ' ' || c == '\n' || c == '\t' || c == '\r'

/-- The token at the start of a text that starts with no blank, and what follows it. -/
def scanToken : List Char → Token × List Char
  | [] => (.malformed, [])
  | '[' :: rest => (.openArray, rest)
  | ']' :: rest => (.closeArray, rest)
  | '{' :: rest => (.openObject, rest)
  | '}' :: rest => (.closeObject, rest)
  | ',' :: rest => (.comma, rest)
  | ':' :: rest => (.colon, rest)
  | '"' :: rest =>
    match scanText rest with
    | some (s, after) => (.string s, after)
    | none => (.malformed, [])
  | 'n' :: 'u' :: 'l' :: 'l' :: rest => (.null, rest)
  | 't' :: 'r' :: 'u' :: 'e' :: rest => (.bool true, rest)
  | 'f' :: 'a' :: 'l' :: 's' :: 'e' :: rest => (.bool false, rest)
  | cs =>
    match scanNumber cs with
    | some (n, after) => (.number n, after)
    | none => (.malformed, [])

/-- The tokens of a text, at most one more than the length of the list of turns. A token takes at
least one character, so a text is a long enough list for itself. -/
def tokensWithin : List Char → List Char → List Token
  | [], _ => []
  | _ :: turns, cs =>
    match cs.dropWhile isSpace with
    | [] => []
    | d :: ds =>
      match scanToken (d :: ds) with
      | (.malformed, _) => [.malformed]
      | (t, after) => t :: tokensWithin turns after

/-- The tokens of a text. -/
def tokens (s : String) : List Token :=
  tokensWithin s.toList s.toList

end LineMarkup.Json
