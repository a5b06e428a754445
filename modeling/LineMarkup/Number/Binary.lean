/-!
# Binary form of a number

A finite number of 64 bits is plus or minus `mantissa · 2 ^ exponent`. Questions about whole
numbers and remainders are answered on that form, in exact arithmetic.

## Main Definitions

* `twoTo`, `tenTo` — the powers that number forms and decimals are scaled by
* `Binary.ofFloat?` — the form of a finite number
* `Binary.toFloat` — the number of a form whose mantissa fits in 53 bits
* `wholeIndex?` — the natural number that a number is, if it is one
* `remainder` — what is left after taking away whole multiples, with the sign of the dividend
-/

namespace LineMarkup.Number

/-- Two to the power `n`. -/
def twoTo (n : Nat) : Nat := Nat.pow 2 n

/-- Ten to the power `n`. -/
def tenTo (n : Nat) : Nat := Nat.pow 10 n

/-- Plus or minus `mantissa · 2 ^ exponent`. -/
structure Binary where
  negative : Bool
  mantissa : Nat
  exponent : Int
deriving DecidableEq, Repr

namespace Binary

/-- The least exponent of a 64-bit number. -/
def leastExponent : Int := -1074

/-- The form of a finite number; none for infinities and for what is not a number. -/
def ofFloat? (x : Float) : Option Binary :=
  let bits : Nat := x.toBits.toNat
  let negative := bits / twoTo 63 == 1
  let field : Nat := bits / twoTo 52 % twoTo 11
  let fraction : Nat := bits % twoTo 52
  if field == 2047 then
    none
  else if field == 0 then
    some ⟨negative, fraction, leastExponent⟩
  else
    some ⟨negative, fraction + twoTo 52, (field : Int) - 1075⟩

/-- The number of a form. It is exact when the mantissa has at most 53 bits and the exponent is
in the range of 64-bit numbers. -/
def toFloat (b : Binary) : Float :=
  let room := (b.exponent - leastExponent).toNat
  let shift := min (52 - Nat.log2 b.mantissa) room
  let mantissa := b.mantissa * twoTo shift
  let sign := if b.negative then twoTo 63 else 0
  let magnitude :=
    if mantissa < twoTo 52 then
      mantissa
    else
      (b.exponent - shift + 1075).toNat * twoTo 52 + (mantissa - twoTo 52)
  Float.ofBits (UInt64.ofNat (sign + magnitude))

/-- Whether the form stands for a whole number. -/
def isWhole (b : Binary) : Bool :=
  match b.exponent with
  | .ofNat _ => true
  | .negSucc n => b.mantissa % twoTo (n + 1) == 0

/-- The magnitude without its fraction. -/
def wholePart (b : Binary) : Nat :=
  match b.exponent with
  | .ofNat n => b.mantissa * twoTo n
  | .negSucc n => b.mantissa / twoTo (n + 1)

/-- The magnitude rounded to the nearest whole number, a half away from zero. -/
def nearestWhole (b : Binary) : Nat :=
  match b.exponent with
  | .ofNat n => b.mantissa * twoTo n
  | .negSucc n => (b.mantissa + twoTo n) / twoTo (n + 1)

end Binary

/-- The natural number that `x` is: whole and not below zero. Either zero counts as `0`. -/
def wholeIndex? (x : Float) : Option Nat :=
  match Binary.ofFloat? x with
  | none => none
  | some b => if b.isWhole && (!b.negative || b.mantissa == 0) then some b.wholePart else none

/-- `x` without its fraction, as a number of 64 bits: `0` below zero and for what is not a number,
the greatest such number for anything beyond it. -/
def toWord (x : Float) : Nat :=
  match Binary.ofFloat? x with
  | none => if 0.0 < x then twoTo 64 - 1 else 0
  | some b => if b.negative then 0 else min b.wholePart (twoTo 64 - 1)

/-- `x` rounded to a natural number, a half away from zero: `0` below zero and for what is not
finite. -/
def rounded (x : Float) : Nat :=
  match Binary.ofFloat? x with
  | none => 0
  | some b => if b.negative then 0 else b.nearestWhole

/-- The value that stands for an undefined result. -/
def notANumber : Float := 0.0 / 0.0

/-- The remainder of `x` by `y` after taking away whole multiples of `y`; it has the sign of `x`.
An infinite divisor leaves `x` as it is; there is no remainder of an infinite dividend or by
zero. -/
def remainder (x y : Float) : Float :=
  match Binary.ofFloat? x, Binary.ofFloat? y with
  | some a, some b =>
    if b.mantissa == 0 then
      notANumber
    else
      let exponent := min a.exponent b.exponent
      let dividend := a.mantissa * twoTo (a.exponent - exponent).toNat
      let divisor := b.mantissa * twoTo (b.exponent - exponent).toNat
      Binary.toFloat ⟨a.negative, dividend % divisor, exponent⟩
  | some _, none => if y.isNaN then notANumber else x
  | none, _ => notANumber

end LineMarkup.Number
