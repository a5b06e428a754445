import LineMarkup.Number.Binary

/-!
# Reading decimals

From decimal text to the nearest 64-bit number.

## Main Definitions

* `nearest` — the nearest number to `digits · 10 ^ exponent`
* `ofText?` — the number that a whole text spells: an optional sign, then a decimal with optional
  fraction and exponent, or one of the words `inf`, `infinity`, `nan` in any case
-/

namespace LineMarkup.Number

/-- An infinite number. -/
def infinity : Float := 1.0 / 0.0

/-- The nearest 64-bit number to `digits · 10 ^ exponent`. Beyond `10 ^ 310` that is infinity, and
below `10 ^ -330` it is zero, whatever the digits; the digits are not scaled then. -/
def nearest (digits : Nat) (exponent : Int) : Float :=
  let size : Int := (Nat.log2 digits : Int) * 30103 / 100000
  if digits == 0 then
    0.0
  else if 310 < size + exponent then
    infinity
  else if size + exponent < -330 then
    0.0
  else
    Float.ofScientific digits (exponent < 0) exponent.natAbs

/-- The number that a list of decimal digits spells. -/
def digitsValue (ds : List Char) : Nat :=
  ds.foldl (fun n d => 10 * n + (d.toNat - '0'.toNat)) 0

/-- The exponent that the end of a decimal spells: nothing, or a letter `e`, an optional sign and
digits up to the end. -/
def exponentPart? : List Char → Option Int
  | [] => some 0
  | e :: rest =>
    if e == 'e' || e == 'E' then
      let (negative, ds) :=
        match rest with
        | '-' :: ds => (true, ds)
        | '+' :: ds => (false, ds)
        | ds => (false, ds)
      if ds.isEmpty || !ds.all Char.isDigit then
        none
      else
        some (if negative then -(digitsValue ds : Int) else digitsValue ds)
    else
      none

/-- The magnitude that a text without sign spells. At least one digit stands before or after the
point. -/
def magnitude? (cs : List Char) : Option Float :=
  let whole := cs.takeWhile Char.isDigit
  let rest := cs.dropWhile Char.isDigit
  let (fraction, tail) :=
    match rest with
    | '.' :: r => (r.takeWhile Char.isDigit, r.dropWhile Char.isDigit)
    | r => ([], r)
  if whole.isEmpty && fraction.isEmpty then
    match String.ofList (cs.map Char.toLower) with
    | "inf" => some infinity
    | "infinity" => some infinity
    | "nan" => some notANumber
    | _ => none
  else
    (exponentPart? tail).map fun e =>
      nearest (digitsValue (whole ++ fraction)) (e - fraction.length)

/-- The number that a whole text spells. -/
def ofText? (cs : List Char) : Option Float :=
  match cs with
  | '-' :: rest => (magnitude? rest).map (- ·)
  | '+' :: rest => magnitude? rest
  | rest => magnitude? rest

end LineMarkup.Number
