import LineMarkup.Number.Shortest

/-!
# Number texts

How a number is written, in three styles that share the shortest decimal: the text of a value,
the literal form inside structure texts, and the form inside decoding messages.

## Main Definitions

* `Style` — which decimals are written with an exponent, and how
* `Style.write` — the text of a finite number in a style
* `text` — the text of a value: whole numbers without a fraction, never an exponent
-/

namespace LineMarkup.Number

/-- How finite numbers are written. A number with `p` digits before its point (minus the count of
zeros behind the point, if it is below one) is written without an exponent if `least < p ≤ most`;
`none` sets no bound. `keepPoint` keeps a fraction `.0` on whole numbers. `signed` gives an exponent
that is not negative a sign of its own. `tie` says which of two equally near decimals is written. -/
structure Style where
  bounds : Option (Int × Int)
  keepPoint : Bool
  signed : Bool
  tie : Tie

namespace Style

/-- Never an exponent, no empty fraction. -/
def plain : Style := ⟨none, false, false, .up⟩

/-- The literal form: exponents from `10 ^ 16` on and below `10 ^ -4`. -/
def literal : Style := ⟨some (-4, 16), true, false, .up⟩

/-- The form in messages: exponents, all of them signed, from `10 ^ 16` on and below `10 ^ -5`, and
ties to even. -/
def message : Style := ⟨some (-5, 16), true, true, .toEven⟩

/-- Positional text of digits with the point after the first `point` of them. -/
def positional (digits : List Char) (point : Int) (keepPoint : Bool) : List Char :=
  let fraction := if keepPoint then ['.', '0'] else []
  match point with
  | .ofNat n =>
    if digits.length ≤ n then
      digits ++ List.replicate (n - digits.length) '0' ++ fraction
    else if n == 0 then
      '0' :: '.' :: digits
    else
      digits.take n ++ '.' :: digits.drop n
  | .negSucc n => '0' :: '.' :: List.replicate (n + 1) '0' ++ digits

/-- Text of digits with an exponent: one digit before the point. -/
def scientific (digits : List Char) (point : Int) (signed : Bool) : List Char :=
  let mantissa :=
    match digits with
    | [] => []
    | [d] => [d]
    | d :: ds => d :: '.' :: ds
  let exponent := point - 1
  let sign := if signed && 0 ≤ exponent then ['+'] else []
  mantissa ++ 'e' :: (sign ++ (toString exponent).toList)

/-- The text of a decimal. -/
def writeDecimal (style : Style) (d : Decimal) : List Char :=
  let all := Nat.toDigits 10 d.digits
  let point := (all.length : Int) + d.exponent
  let digits := (all.reverse.dropWhile (· == '0')).reverse
  match style.bounds with
  | none => positional digits point style.keepPoint
  | some (least, most) =>
    if least < point ∧ point ≤ most then
      positional digits point style.keepPoint
    else
      scientific digits point style.signed

/-- The text of a finite number. -/
def write (style : Style) (b : Binary) : String :=
  let sign := if b.negative then ['-'] else []
  let magnitude :=
    if b.mantissa == 0 then
      '0' :: (if style.keepPoint then ['.', '0'] else [])
    else
      style.writeDecimal (b.shortest style.tie)
  String.ofList (sign ++ magnitude)

end Style

/-- The text of a number as a value: its name if it is not finite, its whole digits if it is whole
and below `2 ^ 63`, else the shortest decimal in full. Both zeros are written `0`. -/
def text (x : Float) : String :=
  match Binary.ofFloat? x with
  | none => if x.isNaN then "NaN" else if 0.0 < x then "Infinity" else "-Infinity"
  | some b =>
    if b.isWhole && b.wholePart < twoTo 63 then
      toString (if b.negative then -(b.wholePart : Int) else b.wholePart)
    else
      Style.plain.write b

/-- The literal form of a number. -/
def literalText (x : Float) : String :=
  match Binary.ofFloat? x with
  | none => if x.isNaN then "NaN" else if 0.0 < x then "inf" else "-inf"
  | some b => Style.literal.write b

/-- The form of a number in messages. -/
def messageText (x : Float) : String :=
  match Binary.ofFloat? x with
  | none => if x.isNaN then "NaN" else if 0.0 < x then "inf" else "-inf"
  | some b => Style.message.write b

end LineMarkup.Number
