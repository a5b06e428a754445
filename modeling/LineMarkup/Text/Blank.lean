/-!
# Blanks

White space as Unicode lists it (the property `White_Space`), with the three operations
that the rest of the library builds on it: cutting blanks off both ends, testing for a text
of blanks only, and splitting a text into words.

## Main Definitions

* `isBlank` — the property, as a table of code points
* `trim` — a text without the blanks at its two ends
* `words` — the maximal stretches without a blank, in order
-/

namespace LineMarkup.Text

/-- The characters that Unicode lists as white space. -/
def isBlank (c : Char) : Bool :=
  let n := c.toNat
  (0x09 ≤ n && n ≤ 0x0D) || n == 0x20 || n == 0x85 || n == 0xA0 || n == 0x1680 ||
    (0x2000 ≤ n && n ≤ 0x200A) || n == 0x2028 || n == 0x2029 || n == 0x202F ||
    n == 0x205F || n == 0x3000

/-- A list of characters without the blanks at its two ends. -/
def trimList (cs : List Char) : List Char :=
  ((cs.dropWhile isBlank).reverse.dropWhile isBlank).reverse

/-- A text without the blanks at its two ends. -/
def trim (s : String) : String :=
  String.ofList (trimList s.toList)

/-- Whether a text holds blanks only; the empty text does. -/
def allBlank (s : String) : Bool :=
  s.toList.all isBlank

/-- The stretches between single blanks, empty ones included. -/
def pieces : List Char → List (List Char)
  | [] => [[]]
  | c :: rest =>
    if isBlank c then
      [] :: pieces rest
    else
      match pieces rest with
      | [] => [[c]]
      | p :: ps => (c :: p) :: ps

/-- The maximal stretches of a text that hold no blank, in order. -/
def words (s : String) : List String :=
  ((pieces s.toList).filter (fun p => !p.isEmpty)).map String.ofList

end LineMarkup.Text
