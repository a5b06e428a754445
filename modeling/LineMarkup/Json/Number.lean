import LineMarkup.Number.Reading

/-!
# Numbers in JSON text

A JSON number is read into at most 64 bits of leading digits and a power of ten. Digits that do
not fit are dropped after they have been counted. The leading digits, rounded to a 64-bit number,
are then scaled by powers of ten of at most `10 ^ 308` each; so a long number need not come out as
the nearest one.

## Main Definitions

* `Numeral` — what a number denotes: a whole number of 64 bits, a real one, or one out of range
* `Numeral.toFloat?` — a numeral as a 64-bit number
* `scanNumber` — the numeral at the start of a text, and what follows it
-/

namespace LineMarkup.Json

/-- What a number in JSON text denotes. `negative n` is `-n`. -/
inductive Numeral where
  | natural (n : Nat)
  | negative (n : Nat)
  | real (x : Float)
  | outOfRange
deriving Inhabited

/-- A numeral as a 64-bit number, if it is in range. -/
def Numeral.toFloat? : Numeral → Option Float
  | natural n => some (UInt64.ofNat n).toFloat
  | negative n => some (-(UInt64.ofNat n).toFloat)
  | real x => some x
  | outOfRange => none

/-- The greatest number of 64 bits. -/
def greatestWord : Nat := LineMarkup.Number.twoTo 64 - 1

/-- Append digits to a number as long as it stays within 64 bits: the number, and the digits from
the first one on that did not fit. -/
def appendDigits (n : Nat) : List Char → Nat × List Char
  | [] => (n, [])
  | d :: ds =>
    let next := 10 * n + (d.toNat - '0'.toNat)
    if next ≤ greatestWord then appendDigits next ds else (n, d :: ds)

/-- A power of ten. -/
def powerOfTen (n : Nat) : Float :=
  Float.ofScientific 1 false n

/-- `significand · 10 ^ exponent`, scaled in steps of at most `10 ^ 308`. None if it is too
large. -/
def scale? (significand : Nat) (exponent : Int) : Option Float :=
  let x := (UInt64.ofNat significand).toFloat
  if significand == 0 then
    some x
  else if 308 < exponent then
    none
  else if 0 ≤ exponent then
    let y := x * powerOfTen exponent.toNat
    if y.isInf then none else some y
  else if -308 ≤ exponent then
    some (x / powerOfTen exponent.natAbs)
  else if -616 ≤ exponent then
    some (x / powerOfTen 308 / powerOfTen (exponent + 308).natAbs)
  else
    some 0.0

/-- The numeral of its parts: sign, digits before the point, digits behind it if there is a point,
exponent if there is one. -/
def numeral (negative : Bool) (whole : List Char) (fraction : Option (List Char))
    (exponent : Option Int) : Numeral :=
  let (lead, dropped) := appendDigits 0 whole
  if dropped.isEmpty && fraction.isNone && exponent.isNone then
    if !negative then
      .natural lead
    else if 0 < lead && lead ≤ LineMarkup.Number.twoTo 63 then
      .negative lead
    else
      .real (-(UInt64.ofNat lead).toFloat)
  else
    let decimals := fraction.getD []
    let (significand, unread) := appendDigits lead decimals
    let shift := (dropped.length : Int) - ((decimals.length - unread.length : Nat) : Int)
    match scale? significand (shift + exponent.getD 0) with
    | none => .outOfRange
    | some x => .real (if negative then -x else x)

/-- The digits at the start of a text, at least one, and what follows them. -/
def scanDigits (cs : List Char) : Option (List Char × List Char) :=
  match cs.takeWhile Char.isDigit with
  | [] => none
  | ds => some (ds, cs.dropWhile Char.isDigit)

/-- The digits before the point: no zero in front of other digits. -/
def scanWhole (cs : List Char) : Option (List Char × List Char) :=
  match scanDigits cs with
  | some ('0' :: _ :: _, _) => none
  | r => r

/-- The fraction at the start of a text, if there is one. -/
def scanFraction : List Char → Option (Option (List Char) × List Char)
  | '.' :: rest => (scanDigits rest).map fun (ds, after) => (some ds, after)
  | rest => some (none, rest)

/-- The exponent at the start of a text, if there is one. -/
def scanExponent : List Char → Option (Option Int × List Char)
  | [] => some (none, [])
  | c :: rest =>
    if c == 'e' || c == 'E' then
      let (negative, digits) :=
        match rest with
        | '-' :: ds => (true, ds)
        | '+' :: ds => (false, ds)
        | ds => (false, ds)
      (scanDigits digits).map fun (ds, after) =>
        let n : Int := LineMarkup.Number.digitsValue ds
        (some (if negative then -n else n), after)
    else
      some (none, c :: rest)

/-- The numeral at the start of a text, and what follows it. -/
def scanNumber (cs : List Char) : Option (Numeral × List Char) := do
  let (negative, cs) :=
    match cs with
    | '-' :: rest => (true, rest)
    | rest => (false, rest)
  let (whole, cs) ← scanWhole cs
  let (fraction, cs) ← scanFraction cs
  let (exponent, cs) ← scanExponent cs
  return (numeral negative whole fraction exponent, cs)

end LineMarkup.Json
